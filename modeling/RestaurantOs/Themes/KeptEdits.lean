import RestaurantOs.Themes.Requests

/-!
# Edits of a theme are kept

A value that an update of the draft accepted stays in the draft until it is
published, set again or discarded, as long as a save finds the fields that it was
worked out from as they were loaded.
-/

namespace RestaurantOs.Themes

open Async Prog ThemeConfig

def setsField (restaurantId : Id) (field : Field) : Entry Op Op.Resp Err → Bool
  | ⟨_, .save loaded (.updateDraft input), .ok _⟩ => loaded.id = restaurantId && input.sets field
  | _ => false

def discards (restaurantId : Id) : Entry Op Op.Resp Err → Bool
  | ⟨_, .save loaded .discardDraft, .ok _⟩ => loaded.id = restaurantId
  | _ => false

/-- Where the value is that request `t` gave to a field, or what it gave way to.
`later` is the history since its save, and a discard that overlapped or followed
the request comes after one of its operations. -/
inductive Kept (c : State) (later : List (Entry Op Op.Resp Err)) (t : Nat) (restaurantId : Id) (field : Field)
    (input : ThemeConfig) : Prop
  | stored (draft : ThemeConfig) (hStored : c.state.draft? restaurantId = some draft) (hAgrees : Agrees field draft input)
  | published (p : Publish) (hMem : p ∈ c.state.publishesOf restaurantId) (hAgrees : Agrees field p.published input)
  | overwritten (e : Entry Op Op.Resp Err) (hMem : e ∈ later) (hOther : e.thread ≠ t) (hSets : setsField restaurantId field e = true)
  | discarded (after before : List (Entry Op Op.Resp Err)) (e₀ e : Entry Op Op.Resp Err) (hHistory : c.history = after ++ e₀ :: before)
      (hThread : e₀.thread = t) (hMem : e ∈ after) (hDiscards : discards restaurantId e = true)

def EditsKept (c : State) : Prop :=
  ∀ (later earlier : List (Entry Op Op.Resp Err)) (t : Nat) (loaded : Restaurant) (input : ThemeConfig) (field : Field),
    c.history = later ++ ⟨t, .save loaded (.updateDraft input), .ok ()⟩ :: earlier → input.sets field = true →
      Kept c later t loaded.id field input

/-- A rollback that is saved while no publish was saved since the rollback started
puts back what was live before the last publish. -/
def Restores (c : State) (l : Label (Except Err Unit) Empty) (c' : State) : Prop :=
  ∀ (t : Nat) (th : Thread Op Op.Resp Err World Response) (loaded : Restaurant) (w : World), l = .run t (.ok ()) →
    c.threads[t]? = some th → th.waiting? = some (.save loaded .rollBack) → th.born = some w →
    c.state.publishesOf loaded.id = w.publishesOf loaded.id →
      ∃ p rest, c.state.publishesOf loaded.id = p :: rest ∧ c'.state.theme? loaded.id = some p.replaced

/-- What the save of a change relies on is stored as it was loaded: the draft that
an update was merged onto or that a publish puts live, unless there is none by then,
and the live configuration that a publish keeps or that a rollback leaves in place. -/
def Change.findsLoaded (loaded : Restaurant) (change : Change) (stored : Restaurant) : Bool :=
  match change with
  | .updateDraft input =>
    stored.themeDraft = loaded.themeDraft ||
      stored.themeDraft.isNone && (loaded.changed (.updateDraft input)).themeDraft ≠ loaded.themeDraft
  | .publish => stored.theme = loaded.theme && (stored.themeDraft = loaded.themeDraft || stored.themeDraft.isNone)
  | .rollBack => stored.theme = loaded.theme || loaded.themePreviousPublished ≠ some loaded.theme
  | .discardDraft => true

def asLoaded (c : State) : Label (Except Err Unit) Empty → Bool
  | .run t _ =>
    match c.waiting? t with
    | some (.save loaded change) => (c.state.restaurant? loaded.id).all (change.findsLoaded loaded)
    | _ => true
  | _ => true

def World.Consistent (w : World) : Prop :=
  ∀ (id : Id) (r : Restaurant) (previous : ThemeConfig), w.restaurant? id = some r → r.themePreviousPublished = some previous →
    ∃ p rest, w.publishesOf id = p :: rest ∧ p.replaced = previous

/-! ## Saves -/

section Saves

variable {w : World} {loaded stored : Restaurant} {change : Change} {id : Id}

theorem restaurant?_save :
    (w.save loaded change).restaurant? id =
      (w.restaurant? id).map fun r => if r.id = loaded.id then r.saved loaded (loaded.changed change) else r := by
  unfold World.save World.restaurant?
  rw [Tables.find?_update fun r _ => by split <;> rfl]
  simp only [decide_eq_true_eq]

theorem id_of_restaurant? (h : w.restaurant? id = some stored) : stored.id = id := by
  unfold World.restaurant? at h
  exact of_decide_eq_true (List.find?_some h :)

theorem restaurant?_save_self (h : w.restaurant? loaded.id = some stored) :
    (w.save loaded change).restaurant? loaded.id = some (stored.saved loaded (loaded.changed change)) := by
  rw [restaurant?_save, h, Option.map_some, if_pos (id_of_restaurant? h)]

theorem restaurant?_save_of_ne (h : id ≠ loaded.id) : (w.save loaded change).restaurant? id = w.restaurant? id := by
  rw [restaurant?_save]
  cases hStored : w.restaurant? id with
  | none => rfl
  | some stored => rw [Option.map_some, if_neg (id_of_restaurant? hStored ▸ h)]

theorem publishesOf_save_of_ne (h : id ≠ loaded.id) : (w.save loaded change).publishesOf id = w.publishesOf id := by
  simp only [World.publishesOf, World.save, World.logged]
  split
  · rw [List.filter_cons_of_neg (by simpa using h.symm)]
  · rfl

theorem publishesOf_save (h : change ≠ .publish) : (w.save loaded change).publishesOf id = w.publishesOf id := by
  simp only [World.publishesOf, World.save, World.logged]
  split
  · exact absurd rfl h
  · rfl

theorem publishesOf_publish (h : w.restaurant? loaded.id = some stored) :
    (w.save loaded .publish).publishesOf loaded.id =
      ⟨loaded.id, (loaded.changed .publish).theme, stored.theme⟩ :: w.publishesOf loaded.id := by
  simp [World.publishesOf, World.save, World.logged, h]

theorem mem_publishesOf_save {p : Publish} (h : p ∈ w.publishesOf id) : p ∈ (w.save loaded change).publishesOf id := by
  simp only [World.publishesOf, World.save, World.logged]
  split
  · rw [List.filter_cons]
    split
    · exact List.mem_cons_of_mem _ h
    · exact h
  · exact h

theorem restaurant?_save_isSome (h : (w.restaurant? id).isSome = true) : ((w.save loaded change).restaurant? id).isSome = true := by
  rw [restaurant?_save, Option.isSome_map]
  exact h

theorem previous_saved {previous : ThemeConfig} (hChange : change ≠ .publish)
    (h : (stored.saved loaded (loaded.changed change)).themePreviousPublished = some previous) :
    stored.themePreviousPublished = some previous := by
  unfold Restaurant.saved at h
  dsimp only at h
  split at h
  · exact h
  · rename_i hChanged
    cases change with
    | publish => exact absurd rfl hChange
    | rollBack => cases h
    | _ => exact absurd rfl hChanged

theorem World.Consistent.save (h : w.Consistent) (hCopy : change = .publish → loaded.themePreviousPublished = none)
    (hFinds : (w.restaurant? loaded.id).all (change.findsLoaded loaded) = true) : (w.save loaded change).Consistent := by
  intro id r previous hStored hPrevious
  by_cases hId : id = loaded.id
  · subst hId
    cases hBefore : w.restaurant? loaded.id with
    | none =>
      rw [restaurant?_save, hBefore] at hStored
      cases hStored
    | some stored =>
      rw [restaurant?_save_self hBefore] at hStored
      cases hStored
      rw [hBefore, Option.all_some] at hFinds
      cases change with
      | publish =>
        have hNone := hCopy rfl
        obtain ⟨hTheme, -⟩ := Bool.and_eq_true_iff.mp hFinds
        simp only [Restaurant.saved, Restaurant.changed, hNone, reduceCtorEq, if_false] at hPrevious
        exact ⟨_, _, publishesOf_publish hBefore, (of_decide_eq_true hTheme).trans (Option.some.inj hPrevious)⟩
      | _ =>
        rw [publishesOf_save (by simp)]
        exact h _ _ _ hBefore (previous_saved (by simp) hPrevious)
  · rw [restaurant?_save_of_ne hId] at hStored
    rw [publishesOf_save_of_ne hId]
    exact h id r previous hStored hPrevious

theorem theme?_rollBack {previous : ThemeConfig} (hStored : w.restaurant? loaded.id = some stored)
    (hPrevious : loaded.themePreviousPublished = some previous) (hFinds : Change.findsLoaded loaded .rollBack stored = true) :
    (w.save loaded .rollBack).theme? loaded.id = some previous := by
  rw [World.theme?, restaurant?_save_self hStored, Option.map_some]
  simp only [Restaurant.saved, Restaurant.changed, hPrevious, Option.getD_some]
  split
  · rename_i hSame
    simp only [Change.findsLoaded, hPrevious, hSame, ne_eq, not_true_eq_false, decide_false, Bool.or_false, decide_eq_true_eq] at hFinds
    rw [hFinds, hSame]
  · rfl

end Saves

/-! ## Where a request stands -/

def Change.paths : Change → List Path
  | updateDraft _ | publish => [.theme, .themeDraft]
  | rollBack => [.theme, .themePreviousPublished]
  | discardDraft => [.themeDraft]

inductive Point
  | unread
  | read (paths : List Path) (loaded : Restaurant)
  | finished
  deriving DecidableEq

namespace Point

def after (pt : Point) (o : Op) (r : Except Err o.Resp) : Point :=
  match pt, o, r with
  | unread, .findById _ paths, .ok (some loaded) => read paths loaded
  | _, _, _ => .finished

def Allows : Point → Op → Prop
  | unread, .findById _ _ => True
  | read paths loaded, .save loaded' change =>
    loaded' = loaded ∧ change.paths = paths ∧ (change = .rollBack → loaded.themePreviousPublished.isSome = true)
  | finished, .recordAuditEvent _ _ => True
  | _, _ => False

end Point

@[reducible] def editing : Protocol Op World (Except Err Unit) where
  Point := Point
  Move o a w pt pt' := pt.Allows o ∧ pt' = pt.after o (store.perform o a w).1
  Rest _ := True

section Walk

theorem findRestaurantOrThrow_follows {restaurantId : Id} {paths : List Path} :
    (findRestaurantOrThrow restaurantId paths).Follows store editing .unread (fun r pt => pt = .read paths r) fun _ _ => True := by
  unfold findRestaurantOrThrow
  rw [bind_eq, follows_bind]
  refine follows_call.mpr fun a w => ⟨_, ⟨trivial, rfl⟩, ?_⟩
  cases (store.perform (.findById restaurantId paths) a w).1 with
  | error err => trivial
  | ok restaurant => cases restaurant <;> trivial

theorem save_follows {loaded : Restaurant} (change : Change) (hApplies : change = .rollBack → loaded.themePreviousPublished.isSome = true) :
    (Prog.call (Op.save loaded change) : Promise Unit).Follows store editing (.read change.paths loaded) (fun _ pt => pt = .finished)
      fun _ _ => True := by
  refine follows_call.mpr fun a w => ⟨_, ⟨⟨rfl, rfl, hApplies⟩, rfl⟩, ?_⟩
  cases (store.perform (.save loaded change) a w).1 with
  | ok _ => rfl
  | error err => trivial

theorem recordAuditEvent_follows {restaurantId : Id} {action : String} :
    (recordAuditEvent restaurantId action).Follows store editing .finished (fun _ _ => True) fun _ _ => True := by
  unfold recordAuditEvent
  rw [bind_eq, follows_bind, follows_attempt]
  refine follows_call.mpr fun a w => ⟨_, ⟨trivial, rfl⟩, ?_⟩
  cases (store.perform (.recordAuditEvent restaurantId action) a w).1 <;> trivial

theorem updateThemeDraft_follows {restaurantId : Id} {input : ThemeConfig} :
    (updateThemeDraft restaurantId input).Follows store editing .unread (fun _ _ => True) fun _ _ => True := by
  unfold updateThemeDraft
  rw [bind_eq, follows_bind]
  refine (findRestaurantOrThrow_follows).mono ?_ fun _ _ _ => trivial
  rintro loaded pt rfl
  rw [bind_eq, follows_bind]
  exact (save_follows (.updateDraft input) (by simp)).mono (fun _ _ _ => trivial) fun _ _ _ => trivial

theorem publishTheme_follows {restaurantId : Id} :
    (publishTheme restaurantId).Follows store editing .unread (fun _ _ => True) fun _ _ => True := by
  unfold publishTheme
  rw [bind_eq, follows_bind]
  refine (findRestaurantOrThrow_follows).mono ?_ fun _ _ _ => trivial
  rintro loaded pt rfl
  rw [follows_ite]
  refine ⟨fun _ => trivial, fun _ => ?_⟩
  rw [bind_eq, follows_bind]
  refine (save_follows .publish (by simp)).mono ?_ fun _ _ _ => trivial
  rintro _ pt rfl
  rw [bind_eq, follows_bind]
  exact (recordAuditEvent_follows).mono (fun _ _ _ => trivial) fun _ _ _ => trivial

theorem rollbackTheme_follows {restaurantId : Id} :
    (rollbackTheme restaurantId).Follows store editing .unread (fun _ _ => True) fun _ _ => True := by
  unfold rollbackTheme
  rw [bind_eq, follows_bind]
  refine (findRestaurantOrThrow_follows).mono ?_ fun _ _ _ => trivial
  rintro loaded pt rfl
  rw [follows_ite]
  refine ⟨fun _ => trivial, fun hSome => ?_⟩
  rw [bind_eq, follows_bind]
  refine (save_follows .rollBack fun _ => ?_).mono ?_ fun _ _ _ => trivial
  · exact Option.isSome_iff_ne_none.mpr fun hNone => hSome (by rw [hNone]; rfl)
  · rintro _ pt rfl
    rw [bind_eq, follows_bind]
    exact (recordAuditEvent_follows).mono (fun _ _ _ => trivial) fun _ _ _ => trivial

theorem discardThemeDraft_follows {restaurantId : Id} :
    (discardThemeDraft restaurantId).Follows store editing .unread (fun _ _ => True) fun _ _ => True := by
  unfold discardThemeDraft
  rw [bind_eq, follows_bind]
  refine (findRestaurantOrThrow_follows).mono ?_ fun _ _ _ => trivial
  rintro loaded pt rfl
  rw [bind_eq, follows_bind]
  exact (save_follows .discardDraft (by simp)).mono (fun _ _ _ => trivial) fun _ _ _ => trivial

theorem Request.program_follows (r : Request) :
    r.program.Follows store editing .unread (fun _ _ => True) fun _ _ => True := by
  cases r with
  | updateThemeDraft restaurantId input => exact updateThemeDraft_follows
  | publishTheme restaurantId => exact publishTheme_follows
  | rollbackTheme restaurantId => exact rollbackTheme_follows
  | discardThemeDraft restaurantId => exact discardThemeDraft_follows

end Walk

/-! ## Runs -/

section Run

variable {requests : List Request} {c c' : State} {pts : List Point} {t : Nat} {a : Except Err Unit} {o : Op} {th : Thread Op Op.Resp Err World Response}
  {k : Except Err o.Resp → Promise Response} {pt pt' : Point}

/-- The location has been read when the request started, and is still there. -/
structure Loaded (c : State) (t : Nat) (paths : List Path) (loaded : Restaurant) : Prop where
  born : ∃ th w, c.threads[t]? = some th ∧ th.born = some w ∧ (w.restaurant? loaded.id).map (·.select paths) = some loaded
  stored : (c.state.restaurant? loaded.id).isSome = true
  unsaved : ∀ e ∈ c.history, e.thread = t → ∀ restaurantId field, setsField restaurantId field e = false

structure Sound (c : State) (pts : List Point) : Prop where
  consistent : c.state.Consistent
  born : ∀ th ∈ c.threads, ∀ w, th.born = some w → w.Consistent
  unread : ∀ {t : Nat}, pts[t]? = some .unread →
    (∀ th, c.threads[t]? = some th → th.born = none) ∧ ∀ e ∈ c.history, e.thread ≠ t
  read : ∀ {t : Nat} {paths : List Path} {loaded : Restaurant}, pts[t]? = some (.read paths loaded) → Loaded c t paths loaded
  kept : EditsKept c

theorem perform_state (o : Op) (a : Except Err Unit) (w : World) :
    (store.perform o a w).2 = w ∨ ∃ loaded change, o = .save loaded change ∧ a = .ok () ∧ (store.perform o a w).2 = w.save loaded change := by
  cases a with
  | error fault => exact .inl rfl
  | ok u =>
    cases o with
    | save loaded change => exact .inr ⟨loaded, change, rfl, rfl, rfl⟩
    | _ => exact .inl rfl

theorem restaurant?_perform_isSome {w : World} {id : Id} (h : (w.restaurant? id).isSome = true) :
    ((store.perform o a w).2.restaurant? id).isSome = true := by
  rcases perform_state o a w with hSame | ⟨loaded, change, -, -, hSave⟩
  · rw [hSame]
    exact h
  · rw [hSave]
    exact restaurant?_save_isSome h

theorem mem_publishesOf_perform {w : World} {id : Id} {p : Publish} (h : p ∈ w.publishesOf id) :
    p ∈ (store.perform o a w).2.publishesOf id := by
  rcases perform_state o a w with hSame | ⟨loaded, change, -, -, hSave⟩
  · rw [hSame]
    exact h
  · rw [hSave]
    exact mem_publishesOf_save h

theorem Kept.ran {later : List (Entry Op Op.Resp Err)} {u : Nat} {restaurantId : Id} {field : Field} {input : ThemeConfig}
    (h : Kept c later u restaurantId field input) (hRan : store.Ran c t a o th k c')
    (hDraft : ∀ draft, c.state.draft? restaurantId = some draft → Agrees field draft input →
      Kept c' (⟨t, o, (store.perform o a c.state).1⟩ :: later) u restaurantId field input) :
    Kept c' (⟨t, o, (store.perform o a c.state).1⟩ :: later) u restaurantId field input := by
  cases h with
  | stored draft hStored hAgrees => exact hDraft draft hStored hAgrees
  | published p hMem hAgrees =>
    refine .published p ?_ hAgrees
    rw [hRan.state]
    exact mem_publishesOf_perform hMem
  | overwritten e hMem hOther hSets => exact .overwritten e (List.mem_cons_of_mem _ hMem) hOther hSets
  | discarded after before e₀ e hHistory hThread hMem hDiscards =>
    refine .discarded (⟨t, o, (store.perform o a c.state).1⟩ :: after) before e₀ e ?_ hThread (List.mem_cons_of_mem _ hMem) hDiscards
    rw [hRan.history, hHistory]
    rfl

theorem draft?_of_restaurant? {w : World} {id : Id} {r : Restaurant} (h : w.restaurant? id = some r) : w.draft? id = r.themeDraft := by
  rw [World.draft?, h]
  rfl

theorem draft_saved {w : World} {loaded : Restaurant} {change : Change} {id : Id} {field : Field} {input draft : ThemeConfig}
    (hFinds : (w.restaurant? loaded.id).all (change.findsLoaded loaded) = true) (hDraft : w.draft? id = some draft)
    (hAgrees : Agrees field draft input) (hSets : input.sets field = true) :
    (∃ draft', (w.save loaded change).draft? id = some draft' ∧ Agrees field draft' input) ∨
      (∃ p ∈ (w.save loaded change).publishesOf id, Agrees field p.published input) ∨
      loaded.id = id ∧ ((∃ input', change = .updateDraft input' ∧ input'.sets field = true) ∨ change = .discardDraft) := by
  by_cases hId : id = loaded.id
  · subst hId
    cases hStored : w.restaurant? loaded.id with
    | none =>
      rw [World.draft?, hStored] at hDraft
      cases hDraft
    | some stored =>
      rw [draft?_of_restaurant? hStored] at hDraft
      rw [hStored, Option.all_some] at hFinds
      rw [draft?_of_restaurant? (restaurant?_save_self hStored)]
      cases change with
      | updateDraft input' =>
        have hSame : loaded.themeDraft = some draft := by
          simpa [Change.findsLoaded, hDraft, eq_comm] using hFinds
        cases hOwn : input'.sets field with
        | true => exact .inr (.inr ⟨rfl, .inl ⟨input', rfl, hOwn⟩⟩)
        | false =>
          left
          simp only [Restaurant.saved, Restaurant.changed, Restaurant.baseline, hSame, Option.getD_some]
          split
          · exact ⟨draft, hDraft, hAgrees⟩
          · exact ⟨_, rfl, (merge_keeps hOwn).trans ((normalize_agrees (hAgrees.sets hSets)).trans hAgrees)⟩
      | publish =>
        obtain ⟨-, hFound⟩ := Bool.and_eq_true_iff.mp hFinds
        have hSame : loaded.themeDraft = some draft := by simpa [hDraft, eq_comm] using hFound
        refine .inr (.inl ⟨_, by rw [publishesOf_publish hStored]; exact List.mem_cons_self, ?_⟩)
        simpa [Restaurant.changed, hSame] using hAgrees
      | rollBack => exact .inl ⟨draft, by simp [Restaurant.saved, Restaurant.changed, hDraft], hAgrees⟩
      | discardDraft => exact .inr (.inr ⟨rfl, .inr rfl⟩)
  · refine .inl ⟨draft, ?_, hAgrees⟩
    rw [World.draft?, restaurant?_save_of_ne hId]
    exact hDraft

theorem draft_updated {w : World} {loaded stored : Restaurant} {input : ThemeConfig} {field : Field}
    (hStored : w.restaurant? loaded.id = some stored) (hFinds : Change.findsLoaded loaded (.updateDraft input) stored = true)
    (hSets : input.sets field = true) :
    ∃ draft, (w.save loaded (.updateDraft input)).draft? loaded.id = some draft ∧ Agrees field draft input := by
  rw [draft?_of_restaurant? (restaurant?_save_self hStored)]
  refine ⟨loaded.baseline.merge input, ?_, merge_agrees hSets⟩
  simp only [Restaurant.saved]
  split
  · rename_i hSame
    simp only [Change.findsLoaded, hSame, ne_eq, not_true_eq_false, decide_false, Bool.and_false, Bool.or_false,
      decide_eq_true_eq] at hFinds
    rw [hFinds, ← hSame]
    rfl
  · rfl

theorem asLoaded_run {loaded : Restaurant} {change : Change} (h : asLoaded c (.run t a) = true)
    (hWaiting : c.waiting? t = some (.save loaded change)) :
    (c.state.restaurant? loaded.id).all (change.findsLoaded loaded) = true := by
  simpa only [asLoaded, hWaiting] using h

theorem EditsKept.ran (h : EditsKept c) (hRead : asLoaded c (.run t a) = true) (hRan : store.Ran c t a o th k c')
    (hLoaded : ∀ loaded change, o = .save loaded change → ∃ paths, Loaded c t paths loaded) : EditsKept c' := by
  intro later earlier u loaded input field hHistory hSets
  rw [hRan.history] at hHistory
  rcases List.cons_eq_append_iff.mp hHistory with ⟨rfl, hFirst⟩ | ⟨rest, rfl, hRest⟩
  · -- the update's own save
    injection hFirst with hEntry _
    injection hEntry with hThread hOp hResult
    subst hThread hOp
    cases a with
    | error fault => cases eq_of_heq hResult
    | ok _ =>
      obtain ⟨paths, hLoad⟩ := hLoaded _ _ rfl
      obtain ⟨stored, hStored⟩ := Option.isSome_iff_exists.mp hLoad.stored
      have hFinds := asLoaded_run hRead hRan.waiting?
      rw [hStored, Option.all_some] at hFinds
      obtain ⟨draft, hDraft, hAgrees⟩ := draft_updated hStored hFinds hSets
      refine .stored draft ?_ hAgrees
      rw [hRan.state]
      exact hDraft
  · refine (h rest earlier u loaded input field hRest hSets).ran hRan fun draft hDraft hAgrees => ?_
    rcases perform_state o a c.state with hSame | ⟨loaded', change, rfl, rfl, hSave⟩
    · refine .stored draft ?_ hAgrees
      rw [hRan.state, hSame]
      exact hDraft
    · have hFinds := asLoaded_run hRead hRan.waiting?
      rcases draft_saved hFinds hDraft hAgrees hSets with ⟨draft', hDraft', hAgrees'⟩ | ⟨p, hMem, hAgrees'⟩ |
        ⟨hId, ⟨input', rfl, hOwn⟩ | rfl⟩
      · exact .stored draft' (by rw [hRan.state]; exact hDraft') hAgrees'
      · exact .published p (by rw [hRan.state]; exact hMem) hAgrees'
      · refine .overwritten _ List.mem_cons_self ?_ (Bool.and_eq_true_iff.mpr ⟨decide_eq_true hId, hOwn⟩)
        rintro rfl
        obtain ⟨paths, hLoad⟩ := hLoaded _ _ rfl
        have hNone := hLoad.unsaved _ (hRest ▸ List.mem_append_right rest List.mem_cons_self) rfl loaded.id field
        simp [setsField, hSets] at hNone
      · refine .discarded (⟨t, .save loaded' .discardDraft, .ok ()⟩ :: rest) earlier
          ⟨u, .save loaded (.updateDraft input), .ok ()⟩ ⟨t, .save loaded' .discardDraft, .ok ()⟩ ?_ rfl List.mem_cons_self
          (decide_eq_true hId)
        rw [hRan.history, hRest]
        rfl

theorem loaded_of_allows (hSound : Sound c pts) (hPoint : pts[t]? = some pt) {loaded : Restaurant} {change : Change}
    (hAllows : pt.Allows (.save loaded change)) :
    pt = .read change.paths loaded ∧ Loaded c t change.paths loaded ∧ (change = .rollBack → loaded.themePreviousPublished.isSome = true) := by
  cases pt with
  | read paths loaded' =>
    obtain ⟨rfl, rfl, hApplies⟩ := hAllows
    exact ⟨rfl, hSound.read hPoint, hApplies⟩
  | _ => cases hAllows

theorem Point.after_unread {o : Op} {r : Except Err o.Resp} : pt.after o r ≠ .unread := by
  unfold Point.after
  split <;> simp

theorem Point.after_read {o : Op} {r : Except Err o.Resp} {paths : List Path} {loaded : Restaurant}
    (h : pt.after o r = .read paths loaded) : pt = .unread ∧ ∃ id, ∃ hOp : o = .findById id paths, hOp ▸ r = .ok (some loaded) := by
  unfold Point.after at h
  split at h
  · cases h
    exact ⟨rfl, _, rfl, rfl⟩
  · cases h

theorem Loaded.ran {u : Nat} {paths : List Path} {loaded : Restaurant} (h : Loaded c u paths loaded) (hRan : store.Ran c t a o th k c')
    (hNe : u ≠ t) : Loaded c' u paths loaded := by
  obtain ⟨thU, w, hThread, hBorn, hRead⟩ := h.born
  refine ⟨⟨thU, w, ?_, hBorn, hRead⟩, ?_, ?_⟩
  · rw [hRan.threads, List.getElem?_set_ne hNe.symm]
    exact hThread
  · rw [hRan.state]
    exact restaurant?_perform_isSome h.stored
  · intro e hMem hThreadE
    rw [hRan.history] at hMem
    rcases List.mem_cons.mp hMem with rfl | hOld
    · exact absurd hThreadE hNe.symm
    · exact h.unsaved e hOld hThreadE

theorem Loaded.read {id : Id} {paths : List Path} {loaded : Restaurant} {k : Except Err (Option Restaurant) → Promise Response}
    (hRan : store.Ran c t a (.findById id paths) th k c') (hBorn : th.born = none) (hHistory : ∀ e ∈ c.history, e.thread ≠ t)
    (hAnswer : (store.perform (.findById id paths) a c.state).1 = .ok (some loaded)) : Loaded c' t paths loaded := by
  cases a with
  | error fault => cases hAnswer
  | ok u =>
    have hFound : (c.state.restaurant? id).map (·.select paths) = some loaded := Except.ok.inj hAnswer
    obtain ⟨stored, hStored, hSelect⟩ := Option.map_eq_some_iff.mp hFound
    have hId : loaded.id = id := by
      rw [← hSelect]
      exact (id_of_restaurant? hStored :)
    have hThread : c'.threads[t]? = some { prog := k (.ok (some loaded)), born := some c.state } := by
      rw [hRan.threads, hAnswer, hBorn]
      exact Tables.getElem?_set_eq hRan.thread
    refine ⟨⟨_, c.state, hThread, rfl, by rw [hId]; exact hFound⟩, ?_, ?_⟩
    · rw [hRan.state, hId]
      exact Option.isSome_iff_exists.mpr ⟨stored, hStored⟩
    · intro e hMem hThread
      rw [hRan.history] at hMem
      rcases List.mem_cons.mp hMem with rfl | hOld
      · intro restaurantId field
        rfl
      · exact absurd hThread (hHistory e hOld)

theorem Sound.ran (h : Sound c pts) (hRead : asLoaded c (.run t a) = true) (hRan : store.Ran c t a o th k c')
    (hPoint : pts[t]? = some pt) (hAllows : pt.Allows o) :
    Sound c' (pts.set t (pt.after o (store.perform o a c.state).1)) := by
  refine ⟨?_, ?_, ?_, ?_, ?_⟩
  · rw [hRan.state]
    rcases perform_state o a c.state with hSame | ⟨loaded, change, rfl, rfl, hSave⟩
    · rw [hSame]
      exact h.consistent
    · rw [hSave]
      obtain ⟨-, hLoaded, -⟩ := loaded_of_allows h hPoint hAllows
      refine h.consistent.save ?_ (asLoaded_run hRead hRan.waiting?)
      rintro rfl
      obtain ⟨thU, w, -, -, hFound⟩ := hLoaded.born
      obtain ⟨stored, -, rfl⟩ := Option.map_eq_some_iff.mp hFound
      rfl
  · intro thU hMem w hBorn
    rw [hRan.threads] at hMem
    rcases List.mem_or_eq_of_mem_set hMem with hOld | rfl
    · exact h.born thU hOld w hBorn
    · cases hBefore : th.born with
      | none =>
        rw [hBefore] at hBorn
        cases hBorn
        exact h.consistent
      | some w₁ =>
        rw [hBefore] at hBorn
        cases hBorn
        exact h.born th (List.mem_of_getElem? hRan.thread) _ hBefore
  · intro u hU
    rcases Tables.getElem?_set_cases hU with ⟨rfl, hNew⟩ | ⟨hNe, hOld⟩
    · exact absurd hNew.symm Point.after_unread
    · obtain ⟨hBorn, hHistory⟩ := h.unread hOld
      refine ⟨fun thU hThread => ?_, fun e hMem => ?_⟩
      · rw [hRan.threads, List.getElem?_set_ne hNe.symm] at hThread
        exact hBorn thU hThread
      · rw [hRan.history] at hMem
        rcases List.mem_cons.mp hMem with rfl | hBefore
        · exact hNe.symm
        · exact hHistory e hBefore
  · intro u paths loaded hU
    rcases Tables.getElem?_set_cases hU with ⟨rfl, hNew⟩ | ⟨hNe, hOld⟩
    · obtain ⟨rfl, id, rfl, hAnswer⟩ := Point.after_read hNew.symm
      obtain ⟨hBorn, hHistory⟩ := h.unread hPoint
      exact Loaded.read hRan (hBorn th hRan.thread) hHistory hAnswer
    · exact (h.read hOld).ran hRan hNe
  · refine h.kept.ran hRead hRan fun loaded change hOp => ?_
    subst hOp
    exact ⟨_, (loaded_of_allows h hPoint hAllows).2.1⟩

theorem Sound.stop (h : Sound c pts) (hThread : c.threads[t]? = some th) :
    Sound { c with threads := c.threads.set t { th with stopped := true } } pts := by
  refine ⟨h.consistent, fun thU hMem w hBorn => ?_, fun {u} hU => ⟨fun thU hThreadU => ?_, (h.unread hU).2⟩, fun {u paths loaded} hU => ?_,
    fun later earlier u loaded input field hHistory hSets => ?_⟩
  · rcases List.mem_or_eq_of_mem_set hMem with hOld | rfl
    · exact h.born thU hOld w hBorn
    · exact h.born th (List.mem_of_getElem? hThread) w hBorn
  · rcases Tables.getElem?_set_cases hThreadU with ⟨rfl, rfl⟩ | ⟨-, hOld⟩
    · exact (h.unread hU).1 th hThread
    · exact (h.unread hU).1 thU hOld
  · obtain ⟨⟨thU, w, hThreadU, hBorn, hFound⟩, hStored, hUnsaved⟩ := h.read hU
    refine ⟨?_, hStored, hUnsaved⟩
    by_cases hEq : u = t
    · subst hEq
      rw [hThread] at hThreadU
      cases hThreadU
      exact ⟨_, w, Tables.getElem?_set_eq hThread, hBorn, hFound⟩
    · exact ⟨thU, w, (List.getElem?_set_ne (Ne.symm hEq)).trans hThreadU, hBorn, hFound⟩
  · cases h.kept later earlier u loaded input field hHistory hSets with
    | stored draft hStored hAgrees => exact .stored draft hStored hAgrees
    | published p hMem hAgrees => exact .published p hMem hAgrees
    | overwritten e hMem hOther hSetsE => exact .overwritten e hMem hOther hSetsE
    | discarded after before e₀ e hSplit hThreadE hMem hDiscards => exact .discarded after before e₀ e hSplit hThreadE hMem hDiscards

theorem Sound.restores (h : Sound c pts) (hTracks : Tracks store editing (requests.map fun _ => Point.unread) c pts)
    {l : Label (Except Err Unit) Empty} (hRead : asLoaded c l = true) (hStep : store.step l c = some c') : Restores c l c' := by
  rintro t th loaded w rfl hThread hWaiting hBorn hAlone
  obtain ⟨o, th', k, hRan⟩ := Store.run_cases hStep
  have hSame : th' = th := Option.some.inj (hRan.thread.symm.trans hThread)
  subst hSame
  have hOp : o = .save loaded .rollBack := by
    have hNext := hRan.waiting?
    rw [Config.waiting?, hThread, Option.bind_some, hWaiting] at hNext
    exact (Option.some.inj hNext).symm
  subst hOp
  obtain ⟨pt, pt', hPoint, ⟨hAllows, -⟩, -⟩ := hTracks.ran hRan
  obtain ⟨-, hLoaded, hSome⟩ := loaded_of_allows h hPoint hAllows
  obtain ⟨previous, hPrevious⟩ := Option.isSome_iff_exists.mp (hSome rfl)
  obtain ⟨thU, w₁, hThreadU, hBornU, hFound⟩ := hLoaded.born
  rw [hThread] at hThreadU
  cases hThreadU
  rw [hBorn] at hBornU
  cases hBornU
  obtain ⟨r₁, hStored₁, hSelect⟩ := Option.map_eq_some_iff.mp hFound
  have hPrevious₁ : r₁.themePreviousPublished = some previous := by
    rw [← hPrevious, ← hSelect]
    rfl
  obtain ⟨p, rest, hLast, hReplaced⟩ := h.born th' (List.mem_of_getElem? hThread) w hBorn _ r₁ previous hStored₁ hPrevious₁
  refine ⟨p, rest, hAlone.trans hLast, ?_⟩
  obtain ⟨stored, hStored⟩ := Option.isSome_iff_exists.mp hLoaded.stored
  have hFinds := asLoaded_run hRead hRan.waiting?
  rw [hStored, Option.all_some] at hFinds
  rw [hRan.state, hReplaced]
  exact theme?_rollBack hStored hPrevious hFinds

end Run

/-- While every save finds what it was worked out from as it was loaded, a value
accepted into a draft is kept, and a rollback that no publish overlaps restores what
was live before the last publish. -/
theorem theme_edits_kept {w₀ : World} {requests : List Request} {c : State} (hStart : w₀.Consistent)
    (h : store.Reach (fun c l => asLoaded c l) (State.start w₀ requests) c) :
    EditsKept c ∧ ∀ l c', asLoaded c l = true → store.step l c = some c' → Restores c l c' := by
  have hTracks : Tracks store editing (requests.map fun _ => Point.unread) (State.start w₀ requests) (requests.map fun _ => .unread) :=
    Tracks.initial fun r _ => r.program_follows
  have hSoundStart : Sound (State.start w₀ requests) (requests.map fun _ => .unread) := by
    refine ⟨hStart, fun th hMem w hBorn => ?_, fun {t} hPoint => ⟨fun th hThread => ?_, fun e hMem => ?_⟩, fun hPoint => ?_, ?_⟩
    · obtain ⟨p, -, rfl⟩ := List.mem_map.mp hMem
      cases hBorn
    · obtain ⟨p, -, rfl⟩ := List.mem_map.mp (List.mem_of_getElem? hThread)
      rfl
    · cases hMem
    · obtain ⟨r, -, hRead⟩ := List.mem_map.mp (List.mem_of_getElem? hPoint)
      cases hRead
    · intro later earlier t loaded input field hHistory
      exact absurd hHistory.symm (by simp [State.start, Config.initial])
  obtain ⟨pts, hTracks', hSound⟩ := Tracks.invariant (I := Sound) hTracks hSoundStart
    (fun _ hSound hRead hRan hPoint hMove _ => hMove.2 ▸ hSound.ran hRead hRan hPoint hMove.1)
    (fun _ hSound _ hThread => hSound.stop hThread) (fun {c pts e} _ hSound _ => e.elim) h
  exact ⟨hSound.kept, fun l c' hRead hStep => hSound.restores hTracks' hRead hStep⟩

/-! ### Two editors -/

def bistro : World := { restaurants := [{ id := 1 }] }

theorem bistro_consistent : bistro.Consistent := by
  intro id r previous hStored hPrevious
  have hMem : r ∈ bistro.restaurants := List.mem_of_find?_eq_some (by unfold World.restaurant? at hStored; exact hStored)
  cases List.mem_singleton.mp hMem
  cases hPrevious

def modern : ThemeConfig := { themeKey := some .modern }

def sharp : ThemeConfig := { radius := some .sharp }

def editsInTurn : List Request := [.updateThemeDraft 1 modern, .publishTheme 1, .updateThemeDraft 1 sharp, .rollbackTheme 1]

def inTurn : List (Label (Except Err Unit) Empty) :=
  List.replicate 2 (.run 0 (.ok ())) ++ List.replicate 3 (.run 1 (.ok ())) ++ List.replicate 2 (.run 2 (.ok ())) ++ [.run 3 (.ok ())]

def published : Restaurant where
  id := 1
  theme := merge (normalizeThemeConfig {}) modern
  themePreviousPublished := some {}

theorem bistro_edits_kept : ∃ c : State, c.waiting? 3 = some (.save published .rollBack) ∧
    c.state.draft? 1 = some (merge published.theme sharp) ∧ EditsKept c ∧ ∀ l c', asLoaded c l = true → store.step l c = some c' → Restores c l c' := by
  obtain ⟨c, hReach, hEnd⟩ := store.exists_of_exec (fun c l => asLoaded c l) (State.start bistro editsInTurn) inTurn
    (fun c : State => decide (c.waiting? 3 = some (.save published .rollBack)) &&
      decide (c.state.draft? 1 = some (merge published.theme sharp))) (by decide +kernel)
  rw [Bool.and_eq_true, decide_eq_true_eq, decide_eq_true_eq] at hEnd
  exact ⟨c, hEnd.1, hEnd.2, theme_edits_kept bistro_consistent hReach⟩

def editLost (c : State) : Bool :=
  match c.history with
  | last :: ⟨0, .save loaded (.updateDraft input), .ok ()⟩ :: _ =>
    loaded.id = 1 && input.sets .themeKey && (c.state.draft? 1).all (fun draft => !decide (Agrees .themeKey draft input)) &&
      c.state.publishes.isEmpty && !setsField 1 .themeKey last && c.history.all fun e => !discards 1 e
  | _ => false

/-- Both editors load the location before either saves. -/
theorem theme_edit_lost : ¬ ∀ (w₀ : World) (requests : List Request) (c : State), w₀.Consistent →
    store.Reach (fun _ _ => True) (State.start w₀ requests) c →
      EditsKept c ∧ ∀ l c', store.step l c = some c' → Restores c l c' := by
  intro hClaim
  obtain ⟨c, hReach, hLost⟩ := store.exists_of_exec (fun _ _ => true)
    (State.start bistro [.updateThemeDraft 1 modern, .updateThemeDraft 1 sharp])
    [.run 0 (.ok ()), .run 1 (.ok ()), .run 0 (.ok ()), .run 1 (.ok ())] editLost (by decide +kernel)
  obtain ⟨hKept, -⟩ := hClaim _ _ c bistro_consistent (hReach.mono fun _ _ _ => trivial)
  unfold editLost at hLost
  split at hLost
  · rename_i last loaded input rest hHistory
    simp only [Bool.and_eq_true, decide_eq_true_eq, List.isEmpty_iff, Bool.not_eq_true'] at hLost
    obtain ⟨⟨⟨⟨⟨hId, hSets⟩, hDraft⟩, hPublishes⟩, hLast⟩, hDiscards⟩ := hLost
    have hKeptHere := hKept [last] rest 0 loaded input .themeKey hHistory hSets
    rw [hId] at hKeptHere
    cases hKeptHere with
    | stored draft hStored hAgrees =>
      rw [hStored, Option.all_some] at hDraft
      simp [hAgrees] at hDraft
    | published p hMem hAgrees =>
      rw [World.publishesOf, hPublishes] at hMem
      cases hMem
    | overwritten e hMem hOther hSetsE =>
      cases List.mem_singleton.mp hMem
      rw [hLast] at hSetsE
      cases hSetsE
    | discarded after before e₀ e hSplit hThread hMem hDiscardsE =>
      have hNone := List.all_eq_true.mp hDiscards e (hSplit ▸ List.mem_append_left _ hMem)
      rw [hDiscardsE] at hNone
      cases hNone
  · cases hLost

end RestaurantOs.Themes
