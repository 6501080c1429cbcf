import RestaurantOs.Async.Beside
import RestaurantOs.Connections.Marketplaces

/-!
# One live link

The unique indexes leave a location one active integration with a marketplace and a
store one record. A call disconnects the location's other link before it saves its own:
where that save fails, the location is left without one.
-/

namespace RestaurantOs.OneLink

export Payments (Id Time Err)

open Async Prog Marketplaces

@[reducible] def store : Store Op Op.Resp Err World (Except Err Answer) Event :=
  Store.faulty ⟨Marketplaces.Op.perform, Marketplaces.Event.advance⟩ id

abbrev State := Config Op Op.Resp Err World Unit

def State.start (w : World) (requests : List ActivateIntegrationInput) : State :=
  Config.initial w (requests.map activateIntegration)

def linked (restaurantId : Id) (provider : MarketplaceProviderName) (integration : RestaurantMarketplaceIntegration) : Bool :=
  integration.restaurantId = restaurantId && integration.provider = provider && integration.status = .active

def links (w : World) (restaurantId : Id) (provider : MarketplaceProviderName) : List RestaurantMarketplaceIntegration :=
  w.integrations.filter (linked restaurantId provider)

def Apart (a b : RestaurantMarketplaceIntegration) : Prop :=
  a.id ≠ b.id → a.provider = b.provider →
    ¬ (a.status = .active ∧ b.status = .active ∧ a.restaurantId = b.restaurantId) ∧
      ¬ (a.externalStoreId.isSome = true ∧ a.externalStoreId = b.externalStoreId)

structure Indexed (w : World) : Prop where
  ids : (w.integrations.map (·.id)).Nodup
  fresh : ∀ integration ∈ w.integrations, integration.id < w.nextId
  apart : ∀ a ∈ w.integrations, ∀ b ∈ w.integrations, Apart a b

structure OneLive (w : World) : Prop where
  location : ∀ restaurantId provider, (links w restaurantId provider).length ≤ 1
  store : ∀ a ∈ w.integrations, ∀ b ∈ w.integrations, a.provider = b.provider → a.externalStoreId.isSome = true →
    a.externalStoreId = b.externalStoreId → a.restaurantId = b.restaurantId

def saves? : Op → Option (Id × MarketplaceProviderName × Option Id)
  | .integration (.insert draft) => some (draft.restaurantId, draft.provider, none)
  | .integration (.reactivate loaded _ _) => some (loaded.restaurantId, loaded.provider, some loaded.id)
  | _ => none

def taken (w : World) : Op → Bool
  | .integration (.insert draft) => integrationTaken w.integrations (w.stamped draft)
  | .integration (.reactivate loaded now encryptedCredentials) =>
    w.integrations.any fun stored => stored.id = loaded.id &&
      integrationTaken w.integrations (loaded.saveOver (loaded.activated now encryptedCredentials) stored)
  | _ => false

def hadOther (c : State) (t : Nat) (restaurantId : Id) (provider : MarketplaceProviderName) (kept : Option Id) : Bool :=
  (c.threads[t]?.bind (·.born)).any fun w => (links w restaurantId provider).any fun i => kept ≠ some i.id

def relinksSucceed (c : State) : Label (Except Err Answer) Event → Bool
  | .run t a =>
    match c.waiting? t with
    | some o =>
      match saves? o with
      | some (restaurantId, provider, kept) => !hadOther c t restaurantId provider kept || a.isOk && !taken c.state o
      | none => true
    | none => true
  | _ => true

/-- Nobody but request `t` works for its location and marketplace. -/
def alone (requests : List ActivateIntegrationInput) (t : Nat) : Label (Except Err Answer) Event → Bool
  | .run u _ =>
    u = t || match requests[u]?, requests[t]? with
      | some other, some input => other.restaurantId ≠ input.restaurantId || other.provider ≠ input.provider
      | _, _ => true
  | _ => true

def failed (c : State) (t : Nat) : Bool :=
  c.threads[t]?.any fun th =>
    match th.prog with
    | .raise _ => true
    | _ => false

/-! ## Where a call stands -/

inductive Point
  | start (input : ActivateIntegrationInput)
  | checked (input : ActivateIntegrationInput) (existing : Option RestaurantMarketplaceIntegration)
  | cleared (input : ActivateIntegrationInput) (existing : Option RestaurantMarketplaceIntegration)
  | saved
  | failed

namespace Point

def after (pt : Point) (o : Op) (r : Except Err o.Resp) : Point :=
  match pt, o, r with
  | start input, .integration (.findByStore _ _), .ok existing =>
    if existing.any (·.restaurantId ≠ input.restaurantId) then failed else checked input existing
  | checked input existing, .clock, .ok _ => checked input existing
  | checked input existing, .integration (.disconnectOthers _ _ _), .ok _ => cleared input existing
  | cleared _ _, .integration (.insert _), .ok _ => saved
  | cleared _ _, .integration (.reactivate _ _ _), .ok _ => saved
  | saved, .audit _ _ _, _ => saved
  | _, _, _ => failed

def Allows : Point → Op → Prop
  | start input, .integration (.findByStore provider externalStoreId) => provider = input.provider ∧ externalStoreId = input.externalStoreId
  | checked _ _, .clock => True
  | checked input existing, .integration (.disconnectOthers restaurantId provider kept) =>
    restaurantId = input.restaurantId ∧ provider = input.provider ∧ kept = existing.map (·.id)
  | cleared input none, .integration (.insert draft) =>
    draft.restaurantId = input.restaurantId ∧ draft.provider = input.provider ∧ draft.externalStoreId = some input.externalStoreId
  | cleared _ (some existing), .integration (.reactivate loaded _ _) => loaded = existing
  | saved, .audit _ _ _ => True
  | _, _ => False

end Point

@[reducible] def linking : Protocol Op World (Except Err Answer) where
  Point := Point
  Move o a w pt pt' := pt.Allows o ∧ pt' = pt.after o (store.perform o a w).1
  Rest _ := True

section Walk

variable {pt : Point} {input : ActivateIntegrationInput}

theorem follows_step {o : Op} (hAllows : pt.Allows o) {Q : o.Resp → Point → Prop} {E : Err → Point → Prop}
    (hQ : ∀ v, Q v (pt.after o (.ok v))) (hE : ∀ err, E err (pt.after o (.error err))) :
    (Prog.call o : Promise o.Resp).Follows store linking pt Q E := by
  refine follows_call.mpr fun a w => ⟨_, ⟨hAllows, rfl⟩, ?_⟩
  cases (store.perform o a w).1 with
  | ok v => exact hQ v
  | error err => exact hE err

theorem recordAuditEvent_follows {action : AuditAction} {targetId actorUserId : Id} {E : Err → Point → Prop} :
    (recordAuditEvent action targetId actorUserId).Follows store linking .saved (fun _ pt => pt = .saved) E := by
  unfold recordAuditEvent
  rw [bind_eq, follows_bind, follows_attempt]
  exact follows_step (o := Op.audit action targetId actorUserId) (by trivial) (fun _ => rfl) fun _ => rfl

theorem activateIntegration_follows :
    (activateIntegration input).Follows store linking (.start input) (fun _ pt => pt = .saved) fun _ pt => pt = .failed := by
  unfold activateIntegration
  rw [bind_eq, follows_bind]
  refine follows_step (o := .integration (.findByStore input.provider input.externalStoreId)) (by exact ⟨rfl, rfl⟩)
    (fun existingForStore => ?_) fun _ => rfl
  cases existingForStore with
  | none =>
    dsimp only
    rw [bind_eq, follows_bind]
    refine follows_step (o := .clock) (by trivial) (fun now => ?_) fun _ => rfl
    rw [bind_eq, follows_bind]
    refine follows_step (o := .integration (.disconnectOthers input.restaurantId input.provider none)) (by exact ⟨rfl, rfl, rfl⟩)
      (fun _ => ?_) fun _ => rfl
    rw [bind_eq, follows_bind]
    exact follows_step (by exact ⟨rfl, rfl, rfl⟩) (fun _ => recordAuditEvent_follows) fun _ => rfl
  | some existing =>
    dsimp only
    rw [follows_ite]
    refine ⟨fun hOther => ?_, fun hOwn => ?_⟩
    · exact if_pos (decide_eq_true hOther)
    · have hChecked : (Point.start input).after (.integration (.findByStore input.provider input.externalStoreId)) (.ok (some existing)) =
          .checked input (some existing) := if_neg (by simpa using hOwn)
      rw [hChecked, bind_eq, follows_bind]
      refine follows_step (o := .clock) (by trivial) (fun now => ?_) fun _ => rfl
      rw [bind_eq, follows_bind]
      refine follows_step (o := .integration (.disconnectOthers input.restaurantId input.provider (some existing.id)))
        (by exact ⟨rfl, rfl, rfl⟩) (fun _ => ?_) fun _ => rfl
      rw [bind_eq, follows_bind]
      exact follows_step (o := .integration (.reactivate existing now input.encryptedCredentials)) (by rfl)
        (fun _ => recordAuditEvent_follows) fun _ => rfl

end Walk

/-! ## The indexes -/

section Indexes

variable {w : World} {o : Op} {a : Except Err Answer} {integration : RestaurantMarketplaceIntegration}
  {restaurantId : Id} {provider : MarketplaceProviderName}

theorem Apart.symm {x y : RestaurantMarketplaceIntegration} (h : Apart x y) : Apart y x := by
  intro hNe hProvider
  obtain ⟨hActive, hStore⟩ := h hNe.symm hProvider.symm
  refine ⟨fun hBoth => hActive ⟨hBoth.2.1, hBoth.1, hBoth.2.2.symm⟩, fun hBoth => hStore ⟨?_, hBoth.2.symm⟩⟩
  rw [← hBoth.2]
  exact hBoth.1

theorem apart_of_not_taken {integrations : List RestaurantMarketplaceIntegration} (h : integrationTaken integrations integration = false) :
    ∀ other ∈ integrations, Apart integration other := by
  intro other hMem hNe hProvider
  have hFree := List.any_eq_false.mp h other hMem
  simp only [Bool.and_eq_true, Bool.or_eq_true, decide_eq_true_eq, not_and, not_or] at hFree
  obtain ⟨hActive, hStore⟩ := hFree ⟨hNe.symm, hProvider.symm⟩
  exact ⟨fun hBoth => hActive ⟨hBoth.1, hBoth.2.1⟩ hBoth.2.2.symm, fun hBoth => hStore hBoth.1 hBoth.2.symm⟩

theorem Indexed.update (h : Indexed w) (sel : RestaurantMarketplaceIntegration → Bool) :
    Indexed { w with integrations := Tables.update sel (·.disconnected) w.integrations } := by
  have hApart : ∀ x ∈ w.integrations, ∀ y ∈ w.integrations, ∀ x' y', (x' = x ∨ x' = x.disconnected) → (y' = y ∨ y' = y.disconnected) →
      Apart x' y' := by
    intro x hx y hy x' y' hx' hy' hNe hProvider
    have hOld := h.apart x hx y hy
    rcases hx' with rfl | rfl <;> rcases hy' with rfl | rfl
    · exact hOld hNe hProvider
    · exact ⟨fun hBoth => (by cases hBoth.2.1), (hOld hNe hProvider).2⟩
    · exact ⟨fun hBoth => (by cases hBoth.1), (hOld hNe hProvider).2⟩
    · exact ⟨fun hBoth => (by cases hBoth.1), (hOld hNe hProvider).2⟩
  have hFrom : ∀ x' ∈ Tables.update sel (·.disconnected) w.integrations, ∃ x ∈ w.integrations, x' = x ∨ x' = x.disconnected := by
    intro x' hMem
    obtain ⟨x, hx, rfl⟩ := Tables.mem_update.mp hMem
    refine ⟨x, hx, ?_⟩
    split
    · exact .inr rfl
    · exact .inl rfl
  refine ⟨?_, fun x' hMem => ?_, fun x' hMem y' hMem' => ?_⟩
  · have hSame : (Tables.update sel (·.disconnected) w.integrations).map (·.id) = w.integrations.map (·.id) :=
      Tables.map_update_eq RestaurantMarketplaceIntegration.id fun _ => rfl
    exact hSame ▸ h.ids
  · obtain ⟨x, hx, rfl | rfl⟩ := hFrom x' hMem
    · exact h.fresh _ hx
    · exact h.fresh x hx
  · obtain ⟨x, hx, hFromX⟩ := hFrom x' hMem
    obtain ⟨y, hy, hFromY⟩ := hFrom y' hMem'
    exact hApart x hx y hy x' y' hFromX hFromY

theorem Indexed.insert (h : Indexed w) {draft : RestaurantMarketplaceIntegration}
    (hFree : integrationTaken w.integrations (w.stamped draft) = false) :
    Indexed { w with integrations := w.integrations ++ [w.stamped draft], nextId := w.nextId + 1 } := by
  have hNew := apart_of_not_taken hFree
  refine ⟨?_, fun x hMem => ?_, fun x hMem y hMem' => ?_⟩
  · rw [List.map_append, List.nodup_append]
    refine ⟨h.ids, List.nodup_singleton _, fun id hId id' hId' hEq => ?_⟩
    obtain ⟨old, hOld, rfl⟩ := List.mem_map.mp hId
    cases List.mem_singleton.mp hId'
    exact absurd hEq (Nat.ne_of_lt (h.fresh old hOld))
  · rcases List.mem_append.mp hMem with hOld | hLast
    · exact Nat.lt_succ_of_lt (h.fresh x hOld)
    · cases List.mem_singleton.mp hLast
      exact Nat.lt_succ_self w.nextId
  · rcases List.mem_append.mp hMem with hOld | hLast <;> rcases List.mem_append.mp hMem' with hOld' | hLast'
    · exact h.apart x hOld y hOld'
    · cases List.mem_singleton.mp hLast'
      exact (hNew x hOld).symm
    · cases List.mem_singleton.mp hLast
      exact hNew y hOld'
    · cases List.mem_singleton.mp hLast
      cases List.mem_singleton.mp hLast'
      exact fun hNe => absurd rfl hNe

theorem Indexed.reactivate (h : Indexed w) {loaded saved : RestaurantMarketplaceIntegration}
    (hFree : ∀ stored ∈ w.integrations, stored.id = loaded.id → integrationTaken w.integrations (loaded.saveOver saved stored) = false) :
    Indexed { w with integrations := Tables.update (fun i => i.id = loaded.id) (loaded.saveOver saved) w.integrations } := by
  refine ⟨?_, fun x' hMem => ?_, fun x' hMem y' hMem' => ?_⟩
  · have hSame : (Tables.update (fun i => i.id = loaded.id) (loaded.saveOver saved) w.integrations).map (·.id) =
        w.integrations.map (·.id) := Tables.map_update_eq RestaurantMarketplaceIntegration.id fun _ => rfl
    exact hSame ▸ h.ids
  · obtain ⟨x, hx, rfl⟩ := Tables.mem_update.mp hMem
    split <;> exact h.fresh x hx
  · obtain ⟨x, hx, rfl⟩ := Tables.mem_update.mp hMem
    obtain ⟨y, hy, rfl⟩ := Tables.mem_update.mp hMem'
    simp only [decide_eq_true_eq]
    split
    · rename_i hIdX
      split
      · rename_i hIdY
        exact fun hNe => absurd (hIdX.trans hIdY.symm) hNe
      · exact apart_of_not_taken (hFree x hx hIdX) y hy
    · split
      · rename_i hIdY
        exact (apart_of_not_taken (hFree y hy hIdY) x hx).symm
      · exact h.apart x hx y hy

theorem Indexed.perform (h : Indexed w) : Indexed (store.perform o a w).2 := by
  cases a with
  | error fault => exact h
  | ok answer =>
    cases o with
    | integration op =>
      cases op with
      | disconnectOthers restaurantId provider kept => exact h.update _
      | disconnect integration => exact h.update _
      | insert draft =>
        simp only [Op.perform, IntegrationOp.perform]
        split
        · exact h
        · rename_i hFree
          exact h.insert (Bool.eq_false_iff.mpr hFree)
      | reactivate loaded now encryptedCredentials =>
        simp only [Op.perform, IntegrationOp.perform]
        split
        · exact h
        · rename_i hFree
          refine h.reactivate fun stored hMem hId => ?_
          have hNot := List.any_eq_false.mp (Bool.eq_false_iff.mpr hFree) stored hMem
          rw [decide_eq_true hId, Bool.true_and] at hNot
          exact Bool.eq_false_iff.mpr hNot
      | _ => exact h
    | _ => exact h

theorem Indexed.oneLive (h : Indexed w) : OneLive w := by
  constructor
  · intro restaurantId provider
    by_contra hMore
    cases hLinks : links w restaurantId provider with
    | nil =>
      rw [hLinks] at hMore
      exact hMore (Nat.zero_le 1)
    | cons x rest =>
      cases rest with
      | nil =>
        rw [hLinks] at hMore
        exact hMore (le_refl 1)
      | cons y rest =>
        have hx : x ∈ links w restaurantId provider := by
          rw [hLinks]
          exact List.mem_cons_self
        have hy : y ∈ links w restaurantId provider := by
          rw [hLinks]
          exact List.mem_cons_of_mem _ List.mem_cons_self
        have hNodup : ((links w restaurantId provider).map (·.id)).Nodup := h.ids.sublist (List.filter_sublist.map _)
        rw [hLinks, List.map_cons, List.map_cons, List.nodup_cons] at hNodup
        have hNe : x.id ≠ y.id := fun hEq => hNodup.1 (hEq ▸ List.mem_cons_self)
        obtain ⟨hMemX, hLinkedX⟩ := List.mem_filter.mp hx
        obtain ⟨hMemY, hLinkedY⟩ := List.mem_filter.mp hy
        simp only [linked, Bool.and_eq_true, decide_eq_true_eq] at hLinkedX hLinkedY
        exact (h.apart x hMemX y hMemY hNe (hLinkedX.1.2.trans hLinkedY.1.2.symm)).1
          ⟨hLinkedX.2, hLinkedY.2, hLinkedX.1.1.trans hLinkedY.1.1.symm⟩
  · intro x hMemX y hMemY hProvider hSome hStore
    by_cases hId : x.id = y.id
    · rw [Tables.eq_of_id h.ids hMemX hMemY hId]
    · exact absurd ⟨hSome, hStore⟩ (h.apart x hMemX y hMemY hId hProvider).2

end Indexes

/-! ## Links of a location -/

section Links

variable {w : World} {o : Op} {a : Except Err Answer} {pt : Point} {input : ActivateIntegrationInput} {restaurantId : Id}
  {provider : MarketplaceProviderName}

theorem filter_update {sel p : RestaurantMarketplaceIntegration → Bool} {f : RestaurantMarketplaceIntegration → RestaurantMarketplaceIntegration}
    {l : List RestaurantMarketplaceIntegration} (h : ∀ d ∈ l, sel d = true → p d = false ∧ p (f d) = false) :
    (Tables.update sel f l).filter p = l.filter p := by
  induction l with
  | nil => rfl
  | cons d l ih =>
    have hRest := ih fun e he => h e (List.mem_cons_of_mem d he)
    rw [Tables.update] at hRest ⊢
    rw [List.map_cons, List.filter_cons, List.filter_cons, hRest]
    by_cases hSel : sel d = true
    · obtain ⟨hBefore, hAfter⟩ := h d List.mem_cons_self hSel
      rw [if_pos hSel, hAfter, hBefore]
      simp only [Bool.false_eq_true, if_false]
    · rw [if_neg hSel]

theorem links_disconnectOthers {kept : Option Id} {answer : Answer} :
    links (store.perform (.integration (.disconnectOthers restaurantId provider kept)) (.ok answer) w).2 restaurantId provider =
      (links w restaurantId provider).filter fun i => kept = some i.id := by
  simp only [Op.perform, IntegrationOp.perform, links]
  induction w.integrations with
  | nil => rfl
  | cons d l ih =>
    rw [Tables.update] at ih ⊢
    rw [List.map_cons, List.filter_cons, List.filter_cons, ih]
    by_cases hLinked : linked restaurantId provider d = true
    · rw [if_pos hLinked, List.filter_cons]
      have hParts := hLinked
      simp only [linked, Bool.and_eq_true, decide_eq_true_eq] at hParts
      obtain ⟨⟨hRestaurant, hProvider⟩, hActive⟩ := hParts
      by_cases hKept : kept = some d.id
      · have hSel : ¬ (decide (d.restaurantId = restaurantId) && decide (d.provider = provider) && decide (d.status = .active) &&
            decide (kept ≠ some d.id)) = true := by simp [hKept]
        rw [if_neg hSel, if_pos hLinked, if_pos (decide_eq_true hKept)]
      · have hSel : (decide (d.restaurantId = restaurantId) && decide (d.provider = provider) && decide (d.status = .active) &&
            decide (kept ≠ some d.id)) = true := by simp [hKept, hRestaurant, hProvider, hActive]
        have hOff : ¬ linked restaurantId provider d.disconnected = true := by simp [linked, RestaurantMarketplaceIntegration.disconnected]
        rw [if_pos hSel, if_neg hOff, if_neg fun hYes => hKept (of_decide_eq_true hYes)]
    · have hSel : ¬ (decide (d.restaurantId = restaurantId) && decide (d.provider = provider) && decide (d.status = .active) &&
          decide (kept ≠ some d.id)) = true := by
        intro hSel
        rw [Bool.and_eq_true] at hSel
        exact hLinked hSel.1
      rw [if_neg hSel, if_neg hLinked, if_neg hLinked]

/-- The record that a call uses again is its location's. -/
structure OwnRecord (w : World) (input : ActivateIntegrationInput) (existing : RestaurantMarketplaceIntegration) : Prop where
  restaurantId : existing.restaurantId = input.restaurantId
  provider : existing.provider = input.provider
  fresh : existing.id < w.nextId
  stored : ∀ stored ∈ w.integrations, stored.id = existing.id → stored.restaurantId = input.restaurantId ∧ stored.provider = input.provider

def Known (w : World) : Point → Prop
  | .checked input (some existing) | .cleared input (some existing) => OwnRecord w input existing
  | _ => True

def Point.input? : Point → Option ActivateIntegrationInput
  | start input | checked input _ | cleared input _ => some input
  | _ => none

theorem mem_perform {integration : RestaurantMarketplaceIntegration} (h : integration ∈ (store.perform o a w).2.integrations) :
    (∃ stored ∈ w.integrations, integration.id = stored.id ∧ integration.restaurantId = stored.restaurantId ∧
      integration.provider = stored.provider) ∨ integration.id = w.nextId := by
  have hSame : integration ∈ w.integrations → ∃ stored ∈ w.integrations, integration.id = stored.id ∧
      integration.restaurantId = stored.restaurantId ∧ integration.provider = stored.provider := fun hMem => ⟨integration, hMem, rfl, rfl, rfl⟩
  have hUpdate : ∀ {sel : RestaurantMarketplaceIntegration → Bool} {f : RestaurantMarketplaceIntegration → RestaurantMarketplaceIntegration},
      (∀ d, (f d).id = d.id ∧ (f d).restaurantId = d.restaurantId ∧ (f d).provider = d.provider) →
        integration ∈ Tables.update sel f w.integrations → ∃ stored ∈ w.integrations, integration.id = stored.id ∧
          integration.restaurantId = stored.restaurantId ∧ integration.provider = stored.provider := by
    intro sel f hf hMem
    obtain ⟨stored, hStored, rfl⟩ := Tables.mem_update.mp hMem
    refine ⟨stored, hStored, ?_⟩
    split
    · exact hf stored
    · exact ⟨rfl, rfl, rfl⟩
  cases a with
  | error fault => exact .inl (hSame h)
  | ok answer =>
    cases o with
    | integration op =>
      cases op with
      | disconnectOthers restaurantId provider kept => exact .inl (hUpdate (f := (·.disconnected)) (fun _ => ⟨rfl, rfl, rfl⟩) h)
      | disconnect integration => exact .inl (hUpdate (f := (·.disconnected)) (fun _ => ⟨rfl, rfl, rfl⟩) h)
      | insert draft =>
        simp only [Op.perform, IntegrationOp.perform] at h
        split at h
        · exact .inl (hSame h)
        · rcases List.mem_append.mp h with hOld | hNew
          · exact .inl (hSame hOld)
          · cases List.mem_singleton.mp hNew
            exact .inr rfl
      | reactivate loaded now encryptedCredentials =>
        simp only [Op.perform, IntegrationOp.perform] at h
        split at h
        · exact .inl (hSame h)
        · exact .inl (hUpdate (f := loaded.saveOver (loaded.activated now encryptedCredentials)) (fun _ => ⟨rfl, rfl, rfl⟩) h)
      | _ => exact .inl (hSame h)
    | _ => exact .inl (hSame h)

theorem nextId_le_perform : w.nextId ≤ (store.perform o a w).2.nextId := by
  cases a with
  | error fault => exact le_refl _
  | ok answer =>
    cases o with
    | integration op =>
      cases op with
      | insert draft =>
        simp only [Op.perform, IntegrationOp.perform]
        split
        · exact le_refl _
        · exact Nat.le_succ _
      | reactivate loaded now encryptedCredentials =>
        simp only [Op.perform, IntegrationOp.perform]
        split <;> exact le_refl _
      | _ => exact le_refl _
    | _ => exact le_refl _

theorem OwnRecord.perform {existing : RestaurantMarketplaceIntegration} (h : OwnRecord w input existing) :
    OwnRecord (store.perform o a w).2 input existing := by
  refine ⟨h.restaurantId, h.provider, lt_of_lt_of_le h.fresh nextId_le_perform, fun integration hMem hId => ?_⟩
  rcases mem_perform hMem with ⟨stored, hStored, hIdS, hRestaurant, hProvider⟩ | hNew
  · obtain ⟨hRestaurantS, hProviderS⟩ := h.stored stored hStored (hIdS.symm.trans hId)
    exact ⟨hRestaurant.trans hRestaurantS, hProvider.trans hProviderS⟩
  · exact absurd (hNew.symm.trans hId) (Nat.ne_of_gt h.fresh)

theorem Known.perform (h : Known w pt) : Known (store.perform o a w).2 pt := by
  unfold Known at h ⊢
  split <;> first | trivial | exact OwnRecord.perform h

theorem Known.tick {elapsed : Time} (h : Known w pt) : Known ((Marketplaces.Event.tick elapsed).advance w) pt := by
  unfold Known at h ⊢
  split <;> first | trivial | exact ⟨h.restaurantId, h.provider, h.fresh, h.stored⟩

theorem links_perform_other (hAllows : pt.Allows o) (hKnown : Known w pt)
    (hOther : ∀ input, pt.input? = some input → input.restaurantId ≠ restaurantId ∨ input.provider ≠ provider) :
    links (store.perform o a w).2 restaurantId provider = links w restaurantId provider := by
  have hNotLinked : ∀ {input : ActivateIntegrationInput} {integration : RestaurantMarketplaceIntegration}, pt.input? = some input →
      integration.restaurantId = input.restaurantId → integration.provider = input.provider →
        linked restaurantId provider integration = false := by
    intro input integration hInput hRestaurant hProvider
    rw [Bool.eq_false_iff]
    intro hLinked
    simp only [linked, Bool.and_eq_true, decide_eq_true_eq] at hLinked
    rcases hOther input hInput with hNe | hNe
    · exact hNe (hRestaurant.symm.trans hLinked.1.1)
    · exact hNe (hProvider.symm.trans hLinked.1.2)
  cases a with
  | error fault => rfl
  | ok answer =>
    cases pt with
    | start input =>
      cases o with
      | integration op => cases op <;> first | rfl | cases hAllows
      | _ => cases hAllows
    | checked input existing =>
      cases o with
      | clock => rfl
      | integration op =>
        cases op with
        | disconnectOthers restaurantId' provider' kept =>
          obtain ⟨rfl, rfl, -⟩ := hAllows
          refine filter_update fun d _ hSel => ?_
          simp only [Bool.and_eq_true, decide_eq_true_eq] at hSel
          exact ⟨hNotLinked rfl hSel.1.1.1 hSel.1.1.2, hNotLinked rfl hSel.1.1.1 hSel.1.1.2⟩
        | _ => cases hAllows
      | _ => cases hAllows
    | cleared input existing =>
      cases o with
      | integration op =>
        cases op with
        | insert draft =>
          cases existing with
          | some existing => cases hAllows
          | none =>
            obtain ⟨hRestaurant, hProvider, -⟩ := hAllows
            simp only [Op.perform, IntegrationOp.perform]
            split
            · rfl
            · have hNew : linked restaurantId provider (w.stamped draft) = false := hNotLinked rfl hRestaurant hProvider
              simp only [links, List.filter_append, List.filter_cons, hNew, Bool.false_eq_true, if_false, List.filter_nil, List.append_nil]
        | reactivate loaded now encryptedCredentials =>
          cases existing with
          | none => cases hAllows
          | some existing =>
            obtain rfl : loaded = existing := hAllows
            simp only [Op.perform, IntegrationOp.perform]
            split
            · rfl
            · refine filter_update fun d hMem hSel => ?_
              obtain ⟨hRestaurant, hProvider⟩ := hKnown.stored d hMem (of_decide_eq_true hSel)
              exact ⟨hNotLinked rfl hRestaurant hProvider, hNotLinked rfl hRestaurant hProvider⟩
        | _ => cases existing <;> cases hAllows
      | _ => cases existing <;> cases hAllows
    | saved =>
      cases o with
      | audit action targetId actorUserId => rfl
      | _ => cases hAllows
    | failed => cases hAllows

end Links

/-! ## Runs -/

structure Sound (requests : List ActivateIntegrationInput) (c : State) (pts : List Point) : Prop where
  known : ∀ pt ∈ pts, Known c.state pt
  sent : ∀ {t : Nat} {pt : Point} {input : ActivateIntegrationInput}, pts[t]? = some pt → pt.input? = some input → requests[t]? = some input

section Run

variable {w₀ : World} {requests : List ActivateIntegrationInput} {c c' c₁ : State} {pts : List Point} {t : Nat} {a : Except Err Answer} {o : Op}
  {th : Thread Op Op.Resp Err World Unit} {k : Except Err o.Resp → Promise Unit} {pt : Point} {input : ActivateIntegrationInput}

theorem input_after {r : Except Err o.Resp} (h : (pt.after o r).input? = some input) : pt.input? = some input := by
  unfold Point.after at h
  split at h
  · split at h
    · cases h
    · exact h
  all_goals first | exact h | cases h

theorem known_after {w : World} (hIndexed : Indexed w) (hAllows : pt.Allows o) (hKnown : Known w pt) :
    Known (store.perform o a w).2 (pt.after o (store.perform o a w).1) := by
  cases pt with
  | start input =>
    cases o with
    | integration op =>
      cases op with
      | findByStore provider externalStoreId =>
        cases a with
        | error fault => trivial
        | ok answer =>
          simp only [Op.perform, IntegrationOp.perform, Point.after]
          split
          · trivial
          · rename_i hOwn
            cases hFound : w.integrations.find? fun i => i.provider = provider && i.externalStoreId = some externalStoreId with
            | none => trivial
            | some existing =>
              rw [hFound, Option.any_some, decide_eq_true_eq, not_not] at hOwn
              have hMem := List.mem_of_find?_eq_some hFound
              have hStore : (decide (existing.provider = provider) && decide (existing.externalStoreId = some externalStoreId)) = true :=
                (List.find?_some hFound :)
              have hProvider := of_decide_eq_true (Bool.and_eq_true_iff.mp hStore).1
              refine ⟨hOwn, hProvider.trans hAllows.1, hIndexed.fresh existing hMem, fun stored hStored hId => ?_⟩
              rw [Tables.eq_of_id hIndexed.ids hStored hMem hId]
              exact ⟨hOwn, hProvider.trans hAllows.1⟩
      | _ => cases hAllows
    | _ => cases hAllows
  | checked input existing =>
    have hStays := hKnown.perform (o := o) (a := a)
    cases o with
    | clock => cases a <;> first | exact hStays | trivial
    | integration op =>
      cases op with
      | disconnectOthers restaurantId provider kept =>
        cases a with
        | error fault => trivial
        | ok answer => cases existing <;> exact hStays
      | _ => cases hAllows
    | _ => cases hAllows
  | _ =>
    unfold Point.after
    split <;> trivial

theorem sound_of_reach (hIndexed : Indexed w₀) (h : store.Reach (fun _ _ => True) (State.start w₀ requests) c) :
    ∃ pts, Tracks store linking (requests.map Point.start) c pts ∧ Sound requests c pts ∧ Indexed c.state := by
  have hTracks : Tracks store linking (requests.map Point.start) (State.start w₀ requests) (requests.map Point.start) :=
    Tracks.initial fun input _ => activateIntegration_follows.mono (fun _ _ _ => trivial) fun _ _ _ => trivial
  refine hTracks.invariant (I := fun c pts => Sound requests c pts ∧ Indexed c.state) ?_ ?_ ?_ ?_ h
  · refine ⟨⟨fun pt hMem => ?_, fun hPoint hInput => ?_⟩, hIndexed⟩
    · obtain ⟨input, -, rfl⟩ := List.mem_map.mp hMem
      trivial
    · rw [List.getElem?_map, Option.map_eq_some_iff] at hPoint
      obtain ⟨input, hAt, rfl⟩ := hPoint
      cases hInput
      exact hAt
  · intro c c' pts t a o th k pt pt' _ hI _ hRan hPoint hMove _
    obtain ⟨hSound, hIndexed⟩ := hI
    obtain ⟨hAllows, rfl⟩ := hMove
    have hMem := List.mem_of_getElem? hPoint
    rw [hRan.state]
    refine ⟨⟨fun ptU hU => ?_, fun hU hInput => ?_⟩, hIndexed.perform⟩
    · rw [hRan.state]
      rcases List.mem_or_eq_of_mem_set hU with hOld | rfl
      · exact (hSound.known ptU hOld).perform
      · exact known_after hIndexed hAllows (hSound.known pt hMem)
    · rcases Tables.getElem?_set_cases hU with ⟨rfl, rfl⟩ | ⟨-, hOld⟩
      · exact hSound.sent hPoint (input_after hInput)
      · exact hSound.sent hOld hInput
  · exact fun _ hI _ _ => ⟨⟨hI.1.known, hI.1.sent⟩, hI.2⟩
  · intro c pts e _ hI _
    cases e
    exact ⟨⟨fun pt hMem => (hI.1.known pt hMem).tick, hI.1.sent⟩, ⟨hI.2.ids, hI.2.fresh, hI.2.apart⟩⟩

def Stays (c₁ c : State) (t : Nat) (input : ActivateIntegrationInput) : Point → Prop
  | .start _ => links c.state input.restaurantId input.provider = links c₁.state input.restaurantId input.provider ∧
      ∀ th, c.threads[t]? = some th → th.born = none
  | .checked _ _ => links c.state input.restaurantId input.provider = links c₁.state input.restaurantId input.provider ∧
      ∃ th w, c.threads[t]? = some th ∧ th.born = some w ∧
        links w input.restaurantId input.provider = links c₁.state input.restaurantId input.provider
  | .cleared _ existing => links c.state input.restaurantId input.provider =
        (links c₁.state input.restaurantId input.provider).filter (fun i => existing.map (·.id) = some i.id) ∧
      ∃ th w, c.threads[t]? = some th ∧ th.born = some w ∧
        links w input.restaurantId input.provider = links c₁.state input.restaurantId input.provider
  | .saved => True
  | .failed => links c.state input.restaurantId input.provider = links c₁.state input.restaurantId input.provider

structure Kept (w₀ : World) (requests : List ActivateIntegrationInput) (c₁ : State) (t : Nat) (input : ActivateIntegrationInput) (c : State)
    (pt : Point) : Prop where
  reached : store.Reach (fun _ _ => True) (State.start w₀ requests) c
  known : Known c.state pt
  own : ∀ other, pt.input? = some other → other = input
  stays : Stays c₁ c t input pt

theorem relinksSucceed_run {restaurantId : Id} {provider : MarketplaceProviderName} {kept : Option Id} {w : World}
    (hGuard : relinksSucceed c (.run t a) = true) (hRan : store.Ran c t a o th k c') (hSaves : saves? o = some (restaurantId, provider, kept))
    (hBorn : th.born = some w) : (∀ i ∈ links w restaurantId provider, kept = some i.id) ∨ a.isOk = true ∧ taken c.state o = false := by
  simp only [relinksSucceed, hRan.waiting?, hSaves, hadOther, hRan.thread, Option.bind_some, hBorn, Option.any_some, Bool.or_eq_true,
    Bool.not_eq_true', List.any_eq_false, decide_eq_true_eq, not_not, Bool.and_eq_true] at hGuard
  exact hGuard

theorem Kept.links_of_failed {existing : Option RestaurantMarketplaceIntegration} {r : Id} {p : MarketplaceProviderName} {kept : Option Id}
    (h : Kept w₀ requests c₁ t input c (.cleared input existing)) (hGuard : relinksSucceed c (.run t a) = true)
    (hRan : store.Ran c t a o th k c') (hSaves : saves? o = some (r, p, kept)) (hRestaurant : r = input.restaurantId)
    (hProvider : p = input.provider) (hKept : kept = existing.map (·.id)) (hFails : ¬ (a.isOk = true ∧ taken c.state o = false)) :
    links c.state input.restaurantId input.provider = links c₁.state input.restaurantId input.provider := by
  subst hRestaurant hProvider hKept
  obtain ⟨hLinks, th', w, hThread, hBorn, hSame⟩ := h.stays
  cases hRan.thread.symm.trans hThread
  rcases relinksSucceed_run hGuard hRan hSaves hBorn with hAll | hSucceeds
  · rw [hLinks, List.filter_eq_self]
    intro i hMem
    exact decide_eq_true (hAll i (hSame ▸ hMem))
  · exact absurd hSucceeds hFails

theorem Kept.own_stays (h : Kept w₀ requests c₁ t input c pt) (hGuard : relinksSucceed c (.run t a) = true)
    (hRan : store.Ran c t a o th k c') (hAllows : pt.Allows o) :
    Stays c₁ c' t input (pt.after o (store.perform o a c.state).1) := by
  have hNow : c'.threads[t]? = some ⟨k (store.perform o a c.state).1, false, some (th.born.getD c.state)⟩ := by
    rw [hRan.threads]
    exact Tables.getElem?_set_eq hRan.thread
  have hState := hRan.state
  have hStays := h.stays
  cases pt with
  | start other =>
    obtain rfl := h.own other rfl
    obtain ⟨hLinks, hUnborn⟩ := hStays
    cases o with
    | integration op =>
      cases op with
      | findByStore provider externalStoreId =>
        cases a with
        | error fault => exact (congrArg (links · _ _) hState).trans hLinks
        | ok answer =>
          have hSame : c'.state = c.state := hState
          simp only [Op.perform, IntegrationOp.perform, Point.after]
          split
          · exact (congrArg (links · _ _) hSame).trans hLinks
          · refine ⟨(congrArg (links · _ _) hSame).trans hLinks, _, _, hNow, rfl, ?_⟩
            rw [hUnborn th hRan.thread, Option.getD_none]
            exact hLinks
      | _ => cases hAllows
    | _ => cases hAllows
  | checked other existing =>
    obtain rfl := h.own other rfl
    obtain ⟨hLinks, th', w, hThread, hBorn, hSame⟩ := hStays
    cases hRan.thread.symm.trans hThread
    have hBornNow : some (th.born.getD c.state) = some w := by rw [hBorn, Option.getD_some]
    cases o with
    | clock =>
      cases a with
      | error fault => exact (congrArg (links · _ _) hState).trans hLinks
      | ok answer => exact ⟨(congrArg (links · _ _) hState).trans hLinks, _, w, hNow, hBornNow, hSame⟩
    | integration op =>
      cases op with
      | disconnectOthers restaurantId provider kept =>
        obtain ⟨rfl, rfl, rfl⟩ := hAllows
        cases a with
        | error fault => exact (congrArg (links · _ _) hState).trans hLinks
        | ok answer =>
          refine ⟨?_, _, w, hNow, hBornNow, hSame⟩
          rw [hState, links_disconnectOthers, hLinks]
      | _ => cases hAllows
    | _ => cases hAllows
  | cleared other existing =>
    obtain rfl := h.own other rfl
    cases o with
    | integration op =>
      cases op with
      | insert draft =>
        cases existing with
        | some existing => cases hAllows
        | none =>
          obtain ⟨hRestaurant, hProvider, -⟩ := hAllows
          have hFailed := h.links_of_failed hGuard hRan rfl hRestaurant hProvider rfl
          cases a with
          | error fault => exact (congrArg (links · _ _) hState).trans (hFailed fun hOk => by cases hOk.1)
          | ok answer =>
            simp only [Op.perform, IntegrationOp.perform] at hState ⊢
            split at hState
            · rename_i hTaken
              rw [if_pos hTaken]
              exact (congrArg (links · _ _) hState).trans (hFailed fun hOk => Bool.eq_false_iff.mp hOk.2 hTaken)
            · rename_i hFree
              rw [if_neg hFree]
              trivial
      | reactivate loaded now encryptedCredentials =>
        cases existing with
        | none => cases hAllows
        | some existing =>
          obtain rfl : loaded = existing := hAllows
          have hFailed := h.links_of_failed hGuard hRan rfl h.known.restaurantId h.known.provider rfl
          cases a with
          | error fault => exact (congrArg (links · _ _) hState).trans (hFailed fun hOk => by cases hOk.1)
          | ok answer =>
            simp only [Op.perform, IntegrationOp.perform] at hState ⊢
            split at hState
            · rename_i hTaken
              rw [if_pos hTaken]
              exact (congrArg (links · _ _) hState).trans (hFailed fun hOk => Bool.eq_false_iff.mp hOk.2 hTaken)
            · rename_i hFree
              rw [if_neg hFree]
              trivial
      | _ => cases existing <;> cases hAllows
    | _ => cases existing <;> cases hAllows
  | saved =>
    cases o with
    | audit action targetId actorUserId => trivial
    | _ => cases hAllows
  | failed => cases hAllows

theorem Kept.own_move (h : Kept w₀ requests c₁ t input c pt) (hIndexed : Indexed w₀) (hGuard : relinksSucceed c (.run t a) = true)
    (hRan : store.Ran c t a o th k c') (hAllows : pt.Allows o) :
    Kept w₀ requests c₁ t input c' (pt.after o (store.perform o a c.state).1) := by
  obtain ⟨-, -, -, hNow⟩ := sound_of_reach hIndexed h.reached
  refine ⟨h.reached.step trivial hRan.step, ?_, fun other hInput => h.own other (input_after hInput), h.own_stays hGuard hRan hAllows⟩
  rw [hRan.state]
  exact known_after hNow hAllows h.known

theorem Stays.other (h : Stays c₁ c t input pt)
    (hLinks : links c'.state input.restaurantId input.provider = links c.state input.restaurantId input.provider)
    (hBorn : ∀ th', c'.threads[t]? = some th' → ∃ th, c.threads[t]? = some th ∧ th'.born = th.born)
    (hThere : ∀ th, c.threads[t]? = some th → ∃ th', c'.threads[t]? = some th' ∧ th'.born = th.born) : Stays c₁ c' t input pt := by
  cases pt with
  | start other =>
    refine ⟨hLinks.trans h.1, fun th' hThread => ?_⟩
    obtain ⟨th, hThreadC, hSame⟩ := hBorn th' hThread
    exact hSame.trans (h.2 th hThreadC)
  | checked other existing =>
    obtain ⟨hStays, th, w, hThread, hBornC, hSame⟩ := h
    obtain ⟨th', hThread', hSame'⟩ := hThere th hThread
    exact ⟨hLinks.trans hStays, th', w, hThread', hSame'.trans hBornC, hSame⟩
  | cleared other existing =>
    obtain ⟨hStays, th, w, hThread, hBornC, hSame⟩ := h
    obtain ⟨th', hThread', hSame'⟩ := hThere th hThread
    exact ⟨hLinks.trans hStays, th', w, hThread', hSame'.trans hBornC, hSame⟩
  | saved => trivial
  | failed => exact hLinks.trans h

theorem Kept.other_step {l : Label (Except Err Answer) Event} (h : Kept w₀ requests c₁ t input c pt) (hIndexed : Indexed w₀)
    (hInput : requests[t]? = some input) (hAlone : alone requests t l = true) (hStep : store.step l c = some c') (hNot : ∀ a, l ≠ .run t a) :
    Kept w₀ requests c₁ t input c' pt := by
  cases l with
  | run u a =>
    have hNe : u ≠ t := fun hEq => hNot a (hEq ▸ rfl)
    obtain ⟨o, thU, k, hRan⟩ := Store.run_cases hStep
    obtain ⟨pts, hTracks, hSound, -⟩ := sound_of_reach hIndexed h.reached
    obtain ⟨ptU, ptU', hPoint, ⟨hAllows, -⟩, -⟩ := hTracks.ran hRan
    have hThread : c'.threads[t]? = c.threads[t]? := by rw [hRan.threads, List.getElem?_set_ne hNe]
    refine ⟨h.reached.step trivial hStep, ?_, h.own, h.stays.other ?_ (fun th' hThread' => ?_) fun th hThread' => ?_⟩
    · rw [hRan.state]
      exact h.known.perform
    · rw [hRan.state]
      refine links_perform_other hAllows (hSound.known ptU (List.mem_of_getElem? hPoint)) fun other hOther => ?_
      simp only [alone, hSound.sent hPoint hOther, hInput, hNe, decide_false, Bool.false_or, Bool.or_eq_true, decide_eq_true_eq] at hAlone
      exact hAlone
    · exact ⟨th', hThread ▸ hThread', rfl⟩
    · exact ⟨th, hThread.trans hThread', rfl⟩
  | stop u =>
    have hReached := h.reached.step trivial hStep
    obtain ⟨thU, hThreadU, rfl⟩ := Store.stop_cases hStep
    refine ⟨hReached, h.known, h.own, h.stays.other rfl (fun th' hThread' => ?_) fun th hThread' => ?_⟩
    · rcases Tables.getElem?_set_cases hThread' with ⟨rfl, rfl⟩ | ⟨-, hOld⟩
      · exact ⟨thU, hThreadU, rfl⟩
      · exact ⟨th', hOld, rfl⟩
    · by_cases hEq : u = t
      · subst hEq
        cases hThreadU.symm.trans hThread'
        exact ⟨_, Tables.getElem?_set_eq hThreadU, rfl⟩
      · exact ⟨th, (List.getElem?_set_ne hEq).trans hThread', rfl⟩
  | event e =>
    have hReached := h.reached.step trivial hStep
    cases hStep
    cases e
    exact ⟨hReached, h.known.tick, h.own, h.stays.other rfl (fun th' hThread' => ⟨th', hThread', rfl⟩) fun th hThread' => ⟨th, hThread', rfl⟩⟩

theorem raise_of_failed (h : failed c t = true) : ∃ th err, c.threads[t]? = some th ∧ th.prog = .raise err := by
  obtain ⟨th, hThread, hProg⟩ := (Option.any_eq_true _ _).mp h
  split at hProg
  · rename_i err hRaise
    exact ⟨th, err, hThread, hRaise⟩
  · cases hProg

end Run

/-- A location has one live link with a marketplace and a store one record; where a save
that follows a disconnection goes through, a call that fails, with no other call for its
location and marketplace in between, leaves the link that it found. -/
theorem one_live_link {w₀ : World} {requests : List ActivateIntegrationInput} (hIndexed : Indexed w₀) :
    (∀ c, store.Reach (fun _ _ => True) (State.start w₀ requests) c → OneLive c.state) ∧
    ∀ c₁ c₂ t input th, requests[t]? = some input → store.Reach (fun _ _ => True) (State.start w₀ requests) c₁ →
      c₁.threads[t]? = some th → th.born = none →
      store.Reach (fun c l => relinksSucceed c l && alone requests t l) c₁ c₂ → failed c₂ t = true →
      links c₂.state input.restaurantId input.provider = links c₁.state input.restaurantId input.provider := by
  refine ⟨fun c hReach => ?_, fun c₁ c₂ t input th hInput hBefore hThread hBorn hReach hFailed => ?_⟩
  · obtain ⟨-, -, -, hNow⟩ := sound_of_reach hIndexed hReach
    exact hNow.oneLive
  · have hProg : th.prog = activateIntegration input := by
      have hSent := hBefore.prog_of_unborn hThread hBorn
      rw [List.getElem?_map, hInput] at hSent
      exact (Option.some.inj hSent).symm
    have hStarted : th.prog.Follows store linking (.start input) (fun _ pt => pt = .saved) fun _ pt => pt = .failed :=
      hProg ▸ activateIntegration_follows
    have hStart : Kept w₀ requests c₁ t input c₁ (.start input) := by
      refine ⟨hBefore, trivial, fun other hOther => (Option.some.inj hOther).symm, rfl, fun th' hAt => ?_⟩
      cases hThread.symm.trans hAt
      exact hBorn
    obtain ⟨th', pt', hThread', hFollows, hKept⟩ := hReach.beside hThread hStarted hStart
      (fun hKept hGuard hRan hMove => by
        rw [Bool.and_eq_true] at hGuard
        exact hMove.2 ▸ hKept.own_move hIndexed hGuard.1 hRan hMove.1)
      fun hKept hGuard hStep hNot => by
        rw [Bool.and_eq_true] at hGuard
        exact hKept.other_step hIndexed hInput hGuard.2 hStep hNot
    obtain ⟨thEnd, err, hThreadEnd, hRaise⟩ := raise_of_failed hFailed
    cases hThreadEnd.symm.trans hThread'
    rw [hRaise] at hFollows
    obtain rfl : pt' = .failed := hFollows
    exact hKept.stays

/-! ### Two locations -/

instance (a b : RestaurantMarketplaceIntegration) : Decidable (Apart a b) :=
  inferInstanceAs (Decidable (_ → _ → _ ∧ _))

def downtownLink : RestaurantMarketplaceIntegration where
  id := 0
  restaurantId := 1
  provider := .foodpanda
  status := .active
  externalStoreId := some "store-1"
  createdAt := 0

def uptownLink : RestaurantMarketplaceIntegration := { downtownLink with id := 1, restaurantId := 2, externalStoreId := some "store-2" }

def linkedWorld : World := { nextId := 2, integrations := [downtownLink, uptownLink] }

theorem linkedWorld_indexed : Indexed linkedWorld := ⟨by decide, by decide, by decide⟩

def relink (externalStoreId : String) : ActivateIntegrationInput where
  restaurantId := 1
  provider := .foodpanda
  externalStoreId := externalStoreId
  actorUserId := 9

/-- The store that downtown asks for is uptown's. -/
theorem refused_relink_keeps_link : ∃ c : State, failed c 0 = true ∧ OneLive c.state ∧ links c.state 1 .foodpanda = [downtownLink] := by
  obtain ⟨c, hReach, hFailed⟩ := store.exists_of_exec (fun c l => relinksSucceed c l && alone [relink "store-2"] 0 l)
    (State.start linkedWorld [relink "store-2"]) [.run 0 (.ok {})] (fun c : State => failed c 0) (by decide +kernel)
  obtain ⟨hLive, hKept⟩ := @one_live_link linkedWorld [relink "store-2"] linkedWorld_indexed
  refine ⟨c, hFailed, hLive c (hReach.mono fun _ _ _ => trivial), ?_⟩
  exact (hKept _ c 0 (relink "store-2") _ rfl .start rfl rfl hReach hFailed).trans (by decide)

/-- The insert of a new record throws after the old link was disconnected. -/
theorem failed_relink_loses_link : ¬ ∀ (w₀ : World) (requests : List ActivateIntegrationInput), Indexed w₀ →
    ∀ c₁ c₂ t input th, requests[t]? = some input → store.Reach (fun _ _ => True) (State.start w₀ requests) c₁ →
      c₁.threads[t]? = some th → th.born = none → store.Reach (fun _ l => alone requests t l) c₁ c₂ → failed c₂ t = true →
      links c₂.state input.restaurantId input.provider = links c₁.state input.restaurantId input.provider := by
  intro hClaim
  obtain ⟨c, hReach, hEnd⟩ := store.exists_of_exec (fun _ l => alone [relink "store-3"] 0 l)
    (State.start linkedWorld [relink "store-3"])
    [.run 0 (.ok {}), .run 0 (.ok {}), .run 0 (.ok {}), .run 0 (.error (.other "MongoNetworkError"))]
    (fun c : State => failed c 0 && links c.state 1 .foodpanda = []) (by decide +kernel)
  obtain ⟨hFailed, hNone⟩ := Bool.and_eq_true_iff.mp hEnd
  have hSame := hClaim linkedWorld [relink "store-3"] linkedWorld_indexed _ c 0 (relink "store-3") _ rfl .start rfl rfl hReach hFailed
  have hGone : links c.state 1 .foodpanda = [] := of_decide_eq_true hNone
  rw [show links c.state (relink "store-3").restaurantId (relink "store-3").provider = [] from hGone] at hSame
  revert hSame
  decide

end RestaurantOs.OneLink
