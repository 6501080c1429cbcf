import RestaurantOs.Async.Beside
import RestaurantOs.Async.Replay
import RestaurantOs.MenuEdits.Drops

/-!
# Listings after an edit

A listing that is asked for after an edit is answered is read behind the edit's write, as
long as nobody puts a listing of the location into the cache that a write has come after.
-/

namespace RestaurantOs.MenuEdits

open Async Prog Menus
open MenuImport (Answer)

/-! ## What a listing is read from -/

def readMenu (locale : Menus.Locale) (restaurantId : Id) : Promise ResolvedMenu := do
  let canonicalBusinessId ← resolveCanonicalBusinessId restaurantId
  canonicalBusinessId.elim (readLegacyMenu restaurantId) (readMenuForLocation locale · restaurantId)

/-- A listing of the location is put into the cache when no write to its menu has come
since its reading began. -/
def inTime (locationId : Id) (c : State) : Label Answer MenuImport.Event → Bool
  | .run t _ =>
    match c.waiting? t with
    | some (.set id listing) => id ≠ locationId || c.state.writes id ≤ listing.asOf
    | _ => true
  | _ => true

abbrev State.Leads (env : Env) (locationId : Id) (c c' : State) : Prop :=
  (store env.lower).Reach (fun c l => inTime locationId c l = true) c c'

/-- The listing counts every write up to `c₀`, and what it is put together from was read behind them. -/
structure Behind (env : Env) (locationId : Id) (c₀ c : State) (listing : Listing) : Prop where
  counts : c₀.state.writes locationId ≤ listing.asOf
  read : ∃ seen, (readMenu env.locale locationId).replay (store env.lower) seen = some (.ok listing.menu) ∧
    ∀ x ∈ seen, (store env.lower).Passed (fun c l => inTime locationId c l = true) c₀ c x.2

/-! ## How a request lists -/

def Op.isReading : Op → Bool
  | findBusinessOf _ | hasCanonicalMenu _ | readItems | readCategories | readGroups => true
  | readCategoryOverrides | readItemOverrides | readGroupOverrides => true
  | _ => false

def Op.touches (locationId : Id) : Op → Bool
  | get id | set id _ => id = locationId
  | _ => false

inductive Reader
  | apart
  | hit (listing : Listing)
  | reading (asOf : Nat) (seen : List (Answer × World))

def Lookup.reader (lookup : Lookup) : Reader := lookup.hit.elim (.reading lookup.writes []) .hit

inductive ReaderMove (env : Env) (locationId : Id) (a : Answer) (w : World) : Op → Reader → Reader → Prop
  | apart {o : Op} (h : o.touches locationId = false) : ReaderMove env locationId a w o .apart .apart
  | look {lookup : Lookup} (h : (Op.perform env.lower (.get locationId) a w).1 = .ok lookup) :
      ReaderMove env locationId a w (.get locationId) .apart lookup.reader
  | lookThrows : ReaderMove env locationId a w (.get locationId) .apart .apart
  | read {o : Op} {asOf : Nat} {seen : List (Answer × World)} (h : o.isReading = true) :
      ReaderMove env locationId a w o (.reading asOf seen) (.reading asOf (seen ++ [(a, w)]))
  | fill {listing : Listing} {seen : List (Answer × World)}
      (h : (readMenu env.locale locationId).replay (store env.lower) seen = some (.ok listing.menu)) :
      ReaderMove env locationId a w (.set locationId listing) (.reading listing.asOf seen) (.reading listing.asOf seen)

@[reducible] def reader (env : Env) (locationId : Id) : Protocol Op World Answer :=
  ⟨Reader, fun o a w pt pt' => ReaderMove env locationId a w o pt pt', fun _ => True⟩

def Reader.Gives (env : Env) (locationId : Id) (listing : Listing) (pt : Reader) : Prop :=
  pt = .hit listing ∨ ∃ seen, pt = .reading listing.asOf seen ∧
    (readMenu env.locale locationId).replay (store env.lower) seen = some (.ok listing.menu)

section Follows

variable {env : Env} {locationId : Id} {locale : Menus.Locale} {restaurantId : Id} {callerCanPreview : Bool}

theorem lookup_eq {lower : Text → Text} {a : Answer} {w : World} {lookup : Lookup}
    (h : (Op.perform lower (.get locationId) a w).1 = .ok lookup) :
    lookup = ⟨(w.cache.find? fun entry => entry.locationId = locationId && w.imports.now < entry.expiresAt).map (·.listing),
      w.writes locationId⟩ := by
  obtain ⟨fault, extracted⟩ := a
  cases fault with
  | some text => cases h
  | none => exact (Except.ok.inj h).symm

theorem Lookup.reading_eq {lookup : Lookup} {asOf : Nat} {seen : List (Answer × World)} (h : lookup.reader = .reading asOf seen) :
    asOf = lookup.writes ∧ seen = [] := by
  unfold Lookup.reader at h
  cases hHit : lookup.hit with
  | some listing =>
    rw [hHit] at h
    cases h
  | none =>
    rw [hHit] at h
    cases h
    exact ⟨rfl, rfl⟩

theorem Lookup.hit_eq {lookup : Lookup} {listing : Listing} (h : lookup.reader = .hit listing) : lookup.hit = some listing := by
  unfold Lookup.reader at h
  cases hHit : lookup.hit with
  | some found =>
    rw [hHit] at h
    cases h
    rfl
  | none =>
    rw [hHit] at h
    cases h

theorem untouched_of_reading {o : Op} (h : o.isReading = true) : o.touches locationId = false := by
  cases o <;> first | rfl | cases h

theorem untouched_of_check {o : Op} (h : o.isCheck = true) : o.touches locationId = false := by
  cases o <;> first | rfl | cases h

theorem reading_call {o : Op} (h : o.isReading = true) : (.call o : Promise o.Resp).Performs fun o => o.isReading = true := performs_call h

theorem reading_readMenu : (readMenu locale restaurantId).Performs fun o => o.isReading = true := by
  have hResolve : (resolveCanonicalBusinessId restaurantId).Performs fun o => o.isReading = true := by
    refine (reading_call rfl).bind fun businessId => ?_
    cases businessId with
    | none => trivial
    | some businessId => exact (reading_call rfl).bind fun _ => trivial
  refine hResolve.bind fun canonicalBusinessId => ?_
  cases canonicalBusinessId with
  | none =>
    refine (reading_call rfl).bind fun _ => ?_
    refine (reading_call rfl).bind fun _ => ?_
    exact (reading_call rfl).bind fun _ => trivial
  | some businessId =>
    refine (reading_call rfl).bind fun _ => ?_
    refine (reading_call rfl).bind fun _ => ?_
    refine (reading_call rfl).bind fun _ => ?_
    refine (reading_call rfl).bind fun _ => ?_
    refine (reading_call rfl).bind fun _ => ?_
    exact (reading_call rfl).bind fun _ => trivial

theorem listMenu_missed {asOf : Nat} : (do
    let canonicalBusinessId ← resolveCanonicalBusinessId restaurantId
    let menu ← canonicalBusinessId.elim (readLegacyMenu restaurantId) (readMenuForLocation locale · restaurantId)
    .call (Op.set restaurantId { menu, asOf })
    pure { menu, asOf }) = (do
      let menu ← readMenu locale restaurantId
      .call (Op.set restaurantId { menu, asOf })
      pure { menu, asOf } : Promise Listing) := (bind_assoc _ _ _).symm

theorem untouched_listMenu (hOther : restaurantId ≠ locationId) :
    (listMenu locale restaurantId callerCanPreview).Performs fun o => o.touches locationId = false := by
  have hCall {o : Op} (h : o.touches locationId = false) : (.call o : Promise o.Resp).Performs fun o => o.touches locationId = false :=
    performs_call h
  have hGet : (Op.get restaurantId).touches locationId = false := decide_eq_false hOther
  have hSet {listing : Listing} : (Op.set restaurantId listing).touches locationId = false := decide_eq_false hOther
  unfold listMenu
  refine (hCall rfl).bind fun status => ?_
  split
  · trivial
  · refine (hCall hGet).bind fun lookup => ?_
    cases lookup.hit with
    | some listing => trivial
    | none =>
      dsimp only
      rw [listMenu_missed]
      refine ((reading_readMenu).mono fun _ => untouched_of_reading).bind fun menu => ?_
      exact (hCall hSet).bind fun _ => trivial

theorem untouched_edit {request : Edit} : (request.program env).Performs fun o => o.touches locationId = false := by
  have hCall {o : Op} (h : o.touches locationId = false) : (.call o : Promise o.Resp).Performs fun o => o.touches locationId = false :=
    performs_call h
  have hInvalidate (scope : Scope) : (invalidate scope).Performs fun o => o.touches locationId = false := by
    cases scope with
    | restaurant id => exact hCall rfl
    | business businessId =>
      refine (hCall rfl).bind fun locations => ?_
      split
      · trivial
      · exact hCall rfl
  by_cases hImport : ∃ imported, request = .imports imported
  · obtain ⟨imported, rfl⟩ := hImport
    refine (performs_all _).translate fun o _ => ?_
    cases o with
    | invalidateMenuCache scope => exact hInvalidate _
    | _ => exact hCall rfl
  · refine (leads_program fun imported hEq => hImport ⟨imported, hEq⟩).performs (fun o h => untouched_of_check h) fun p hCommit => ?_
    obtain ⟨scope, change, -, rfl⟩ := hCommit
    exact (hCall rfl).bind fun _ => hInvalidate scope

theorem follows_apart {α : Type} {p : Promise α} (h : p.Performs fun o => o.touches locationId = false) :
    p.Follows (store env.lower) (reader env locationId) .apart (fun _ pt => pt = .apart) fun _ _ => True :=
  (h.follows fun _ hApart _ _ => ReaderMove.apart hApart).mono (fun _ _ h => h) fun _ _ _ => trivial

theorem follows_listMenu : (listMenu env.locale locationId callerCanPreview).Follows (store env.lower) (reader env locationId) .apart
    (fun listing pt => pt.Gives env locationId listing) fun _ _ => True := by
  unfold listMenu
  refine follows_bind.mpr ((follows_apart (performs_call rfl)).mono ?_ fun _ _ h => h)
  rintro status pt rfl
  split
  · trivial
  · refine follows_bind.mpr (follows_call.mpr fun a w => ?_)
    cases hLook : ((store env.lower).perform (Op.get locationId) a w).1 with
    | error err => exact ⟨_, .lookThrows, trivial⟩
    | ok lookup =>
      refine ⟨_, .look hLook, ?_⟩
      rw [Lookup.reader]
      dsimp only
      cases lookup.hit with
      | some listing => exact Or.inl rfl
      | none =>
        dsimp only
        rw [listMenu_missed]
        have hReads : (readMenu env.locale locationId).Follows (store env.lower) (reader env locationId) (.reading lookup.writes [])
            (fun menu pt => ∃ later, pt = .reading lookup.writes ([] ++ later) ∧
              (readMenu env.locale locationId).replay (store env.lower) later = some (.ok menu)) _ :=
          (reading_readMenu).follows_replay (fun o h a w seen => ReaderMove.read h) []
        refine follows_bind.mpr (hReads.mono ?_ fun _ _ _ => trivial)
        rintro menu pt ⟨seen, rfl, hSeen⟩
        refine follows_bind.mpr (follows_call.mpr fun a w => ?_)
        refine ⟨_, @ReaderMove.fill env locationId a w { menu, asOf := lookup.writes } seen hSeen, ?_⟩
        split
        · exact .inr ⟨seen, rfl, hSeen⟩
        · trivial

theorem follows_request {request : Request} : (request.program env).Follows (store env.lower) (reader env locationId) .apart
    (fun _ _ => True) fun _ _ => True := by
  cases request with
  | edit request => exact follows_bind.mpr ((follows_apart untouched_edit).mono (fun _ _ _ => trivial) fun _ _ h => h)
  | list restaurantId callerCanPreview =>
    by_cases hOther : restaurantId = locationId
    · subst hOther
      exact follows_bind.mpr ((follows_listMenu).mono (fun _ _ _ => trivial) fun _ _ h => h)
    · exact follows_bind.mpr ((follows_apart (untouched_listMenu hOther)).mono (fun _ _ _ => trivial) fun _ _ h => h)

end Follows

/-! ## What every step keeps -/

section Steps

variable {env : Env} {locationId : Id} {requests : List Request} {c₀ c c' : State} {l : Label Answer MenuImport.Event} {pts : List Reader}
  {listing : Listing} {pt : Phase}

theorem restaurants_step (hStep : (store env.lower).step l c = some c') : c'.state.menu.restaurants = c.state.menu.restaurants := by
  cases l with
  | run t a =>
    obtain ⟨o, th, k, hRan⟩ := Store.run_cases hStep
    rw [hRan.state]
    exact restaurants_perform o a c.state
  | stop t =>
    obtain ⟨th, -, rfl⟩ := Store.stop_cases hStep
    rfl
  | event e =>
    cases hStep
    rfl

theorem writes_step (hStep : (store env.lower).step l c = some c') : c.state.writes locationId ≤ c'.state.writes locationId := by
  cases l with
  | run t a =>
    obtain ⟨o, th, k, hRan⟩ := Store.run_cases hStep
    rw [hRan.state]
    exact writes_perform o a c.state
  | stop t =>
    obtain ⟨th, -, rfl⟩ := Store.stop_cases hStep
    exact le_rfl
  | event e =>
    cases hStep
    exact le_rfl

theorem writes_reach {ok : State → Label Answer MenuImport.Event → Prop} (h : (store env.lower).Reach ok c c') :
    c.state.writes locationId ≤ c'.state.writes locationId := by
  induction h with
  | start => exact le_rfl
  | step _ _ hStep ih => exact ih.trans (writes_step hStep)

theorem Behind.step (h : Behind env locationId c₀ c listing) (hGuard : inTime locationId c l = true)
    (hStep : (store env.lower).step l c = some c') : Behind env locationId c₀ c' listing := by
  obtain ⟨seen, hSeen, hPassed⟩ := h.read
  exact ⟨h.counts, seen, hSeen, fun x hMem => (hPassed x hMem).step hGuard hStep⟩

/-- Where the requests stand with the location's listing, since `c₀`. -/
structure Readings (env : Env) (locationId : Id) (requests : List Request) (c₀ c : State) (pts : List Reader) : Prop where
  reached : State.Leads env locationId c₀ c
  tracks : Tracks (store env.lower) (reader env locationId) (requests.map fun _ => Reader.apart) c pts
  passed : ∀ asOf seen, .reading asOf seen ∈ pts → c₀.state.writes locationId ≤ asOf →
    ∀ x ∈ seen, (store env.lower).Passed (fun c l => inTime locationId c l = true) c₀ c x.2

theorem Readings.step (h : Readings env locationId requests c₀ c pts) (hGuard : inTime locationId c l = true)
    (hStep : (store env.lower).step l c = some c') : ∃ pts', Readings env locationId requests c₀ c' pts' := by
  have hReached := h.reached.step hGuard hStep
  have hOld : ∀ asOf seen, .reading asOf seen ∈ pts → c₀.state.writes locationId ≤ asOf →
      ∀ x ∈ seen, (store env.lower).Passed (fun c l => inTime locationId c l = true) c₀ c' x.2 :=
    fun asOf seen hMem hBehind x hSeen => (h.passed asOf seen hMem hBehind x hSeen).step hGuard hStep
  cases l with
  | run t a =>
    obtain ⟨o, th, k, hRan⟩ := Store.run_cases hStep
    obtain ⟨pt, pt', hPoint, hMove, hTracks⟩ := h.tracks.ran hRan
    refine ⟨_, hReached, hTracks, fun asOf seen hMem hBehind => ?_⟩
    rcases List.mem_or_eq_of_mem_set hMem with hMem | hNew
    · exact hOld asOf seen hMem hBehind
    · induction hMove with
      | apart h => cases hNew
      | lookThrows => cases hNew
      | look _ =>
        rw [(Lookup.reading_eq hNew.symm).2]
        exact fun x hNever => absurd hNever List.not_mem_nil
      | read hReading =>
        cases hNew
        intro x hSeen
        rcases List.mem_append.mp hSeen with hSeen | hNow
        · exact hOld _ _ (List.mem_of_getElem? hPoint) hBehind x hSeen
        · cases List.mem_singleton.mp hNow
          exact h.reached.passed hGuard hStep
      | fill _ =>
        cases hNew
        exact hOld _ _ (List.mem_of_getElem? hPoint) hBehind
  | stop t =>
    obtain ⟨th, hThread, rfl⟩ := Store.stop_cases hStep
    exact ⟨pts, hReached, h.tracks.stop hThread, hOld⟩
  | event e =>
    cases hStep
    exact ⟨pts, hReached, ⟨h.tracks.length_eq, h.tracks.follows, h.tracks.unborn⟩, hOld⟩

/-- Every listing of the location in the cache is behind the writes up to `c₀`. -/
def FreshCache (env : Env) (locationId : Id) (c₀ c : State) : Prop :=
  ∀ entry ∈ c.state.cache, entry.locationId = locationId → Behind env locationId c₀ c entry.listing

theorem FreshCache.step (h : FreshCache env locationId c₀ c) (hReadings : Readings env locationId requests c₀ c pts)
    (hGuard : inTime locationId c l = true) (hStep : (store env.lower).step l c = some c') : FreshCache env locationId c₀ c' := by
  intro entry hMem hLocation
  cases l with
  | run t a =>
    obtain ⟨o, th, k, hRan⟩ := Store.run_cases hStep
    rw [hRan.state] at hMem
    rcases cache_perform hMem with hOld | ⟨listing, rfl, rfl⟩
    · exact (h entry hOld hLocation).step hGuard hStep
    · obtain ⟨pt, pt', hPoint, hMove, -⟩ := hReadings.tracks.ran hRan
      have hInTime := hGuard
      simp only [inTime, hRan.waiting?, hLocation, ne_eq, not_true_eq_false, decide_false, Bool.false_or, decide_eq_true_eq] at hInTime
      have hCounts := (writes_reach hReadings.reached).trans hInTime
      subst hLocation
      cases hMove with
      | apart hApart => cases (decide_eq_true rfl).symm.trans hApart
      | read hReading => cases hReading
      | fill hSeen =>
        refine ⟨hCounts, _, hSeen, fun x hMem => ?_⟩
        exact (hReadings.passed _ _ (List.mem_of_getElem? hPoint) hCounts x hMem).step hGuard hStep
  | stop t =>
    obtain ⟨th, hThread, rfl⟩ := Store.stop_cases hStep
    exact (h entry hMem hLocation).step hGuard hStep
  | event e =>
    cases hStep
    exact (h entry hMem hLocation).step hGuard rfl

/-! ## From the write to the answer -/

/-- What is left to do for the cached listings, `pt` being where the edit is. -/
def LeftToDrop (env : Env) (locationId : Id) (c₀ c : State) : Phase → Prop
  | .unwritten => False
  | .written scope => scope.affects c.state.menu.restaurants locationId = true
  | .listed businessId locationIds =>
    locationId ∈ locationIds ∧ (Scope.business businessId).affects c.state.menu.restaurants locationId = true
  | .dropped => FreshCache env locationId c₀ c

theorem LeftToDrop.step (h : LeftToDrop env locationId c₀ c pt) (hReadings : Readings env locationId requests c₀ c pts)
    (hGuard : inTime locationId c l = true) (hStep : (store env.lower).step l c = some c') : LeftToDrop env locationId c₀ c' pt := by
  cases pt with
  | unwritten => exact h
  | written scope =>
    rw [LeftToDrop, restaurants_step hStep]
    exact h
  | listed businessId locationIds =>
    rw [LeftToDrop, restaurants_step hStep]
    exact h
  | dropped => exact FreshCache.step h hReadings hGuard hStep

theorem freshCache_of_del {t : Nat} {a : Answer} {locationIds : List Id} {th : Thread Op Op.Resp Err World (Option Listing)}
    {k : Except Err Unit → Promise (Option Listing)} (hRan : (store env.lower).Ran c t a (.del locationIds) th k c')
    (hDone : a.fault = none) (hMem : locationId ∈ locationIds) : FreshCache env locationId c₀ c' := by
  obtain ⟨fault, extracted⟩ := a
  cases hDone
  intro entry hEntry hLocation
  rw [hRan.state] at hEntry
  have hKept := (List.mem_filter.mp hEntry).2
  rw [hLocation, List.contains_iff_mem.mpr hMem] at hKept
  cases hKept

theorem mem_locations {restaurants : List Restaurant} {businessId : Id} (h : (Scope.business businessId).affects restaurants locationId = true) :
    locationId ∈ (restaurants.filter (·.businessId = some businessId)).map (·.id) := by
  obtain ⟨r, hMem, hAt⟩ := List.any_eq_true.mp h
  rw [Bool.and_eq_true, decide_eq_true_eq, decide_eq_true_eq] at hAt
  exact List.mem_map.mpr ⟨r, List.mem_filter.mpr ⟨hMem, decide_eq_true hAt.2⟩, hAt.1⟩

theorem LeftToDrop.own {t : Nat} {a : Answer} {o : Op} {th : Thread Op Op.Resp Err World (Option Listing)}
    {k : Except Err o.Resp → Promise (Option Listing)} {pt' : Phase} (h : LeftToDrop env locationId c₀ c pt)
    (hReadings : Readings env locationId requests c₀ c pts) (hGuard : inTime locationId c (.run t a) = true)
    (hRan : (store env.lower).Ran c t a o th k c') (hMove : EditMove env.lower a c.state o pt pt') : LeftToDrop env locationId c₀ c' pt' := by
  have hStays := h.step hReadings hGuard hRan.step
  induction hMove with
  | aside _ => exact hStays
  | write => exact h.elim
  | commit => exact h.elim
  | list _ =>
    have hMem := mem_locations h
    rw [afterListing, if_neg (List.ne_nil_of_mem hMem)]
    exact ⟨hMem, hStays⟩
  | drop hDone =>
    have hHere : locationId ∈ [_] := List.mem_singleton.mpr (of_decide_eq_true h).symm
    exact freshCache_of_del hRan hDone hHere
  | dropAll hDone => exact freshCache_of_del hRan hDone h.1
  | listThrows _ => exact hStays
  | dropThrows _ => exact hStays
  | dropAllThrows _ => exact hStays.2

theorem log_logImport {α : Type} {w : World} {r : Except Err α} {scope : MenuImport.ImportScope} (resolved : MenuImport.ResolvedImport) :
    (w.logImport r (.transaction scope resolved)).log = if r.isOk then scopeOf scope :: w.log else w.log := by
  unfold World.logImport
  dsimp only
  split <;> rfl

theorem written_of_logged {a : Answer} {o : Op} {w : World} {scope : Scope} {pt' : Phase} (hMove : EditMove env.lower a w o pt pt')
    (hLogged : (Op.perform env.lower o a w).2.log = scope :: w.log) : pt' = .written scope := by
  have hKept : w.log ≠ scope :: w.log := fun hEq => List.cons_ne_self _ _ hEq.symm
  cases hMove with
  | write =>
    rename_i change
    obtain ⟨fault, extracted⟩ := a
    cases fault with
    | some text => exact absurd hLogged hKept
    | none =>
      simp only [Op.perform, Op.run, World.write] at hLogged ⊢
      cases hApply : change.apply w.menu with
      | ok menu =>
        rw [hApply] at hLogged
        cases List.head_eq_of_cons_eq hLogged
        rfl
      | error err =>
        rw [hApply] at hLogged
        exact absurd hLogged hKept
  | commit =>
    rename_i importScope resolved
    have hLog : (Op.perform env.lower (.imports (.transaction importScope resolved)) a w).2.log =
        if (Op.perform env.lower (.imports (.transaction importScope resolved)) a w).1.isOk then scopeOf importScope :: w.log else w.log :=
      log_logImport resolved
    rw [hLogged] at hLog
    rw [afterWrite]
    split at hLog
    · rename_i hOk
      cases List.head_eq_of_cons_eq hLog
      exact if_pos hOk
    · exact absurd hLog.symm hKept
  | aside hAside =>
    cases perform_changes o a w with
    | kept _ hLog => exact absurd (hLog.symm.trans hLogged) hKept
    | written _ _ _ => cases hAside
    | imported _ _ _ _ => cases hAside
  | list _ | drop _ | dropAll _ | listThrows _ | dropThrows _ | dropAllThrows _ =>
    obtain ⟨fault, extracted⟩ := a
    cases fault <;> exact absurd hLogged hKept

end Steps

/-! ## The listing that is asked for -/

section Asked

variable {env : Env} {locationId : Id} {requests : List Request} {c₀ c c' : State} {l : Label Answer MenuImport.Event} {pts : List Reader}
  {pt pt' : Reader}

/-- What a request that started behind `c₀` has of the listing is behind the writes up to `c₀`. -/
def ReadBehind (env : Env) (locationId : Id) (c₀ c : State) : Reader → Prop
  | .apart => True
  | .hit listing => Behind env locationId c₀ c listing
  | .reading asOf seen => c₀.state.writes locationId ≤ asOf ∧
    ∀ x ∈ seen, (store env.lower).Passed (fun c l => inTime locationId c l = true) c₀ c x.2

theorem ReadBehind.step (h : ReadBehind env locationId c₀ c pt) (hGuard : inTime locationId c l = true)
    (hStep : (store env.lower).step l c = some c') : ReadBehind env locationId c₀ c' pt := by
  cases pt with
  | apart => trivial
  | hit listing => exact Behind.step h hGuard hStep
  | reading asOf seen => exact ⟨h.1, fun x hMem => (h.2 x hMem).step hGuard hStep⟩

theorem ReadBehind.own {t : Nat} {a : Answer} {o : Op} {th : Thread Op Op.Resp Err World (Option Listing)}
    {k : Except Err o.Resp → Promise (Option Listing)} (h : ReadBehind env locationId c₀ c pt) (hFresh : FreshCache env locationId c₀ c)
    (hReached : State.Leads env locationId c₀ c) (hGuard : inTime locationId c (.run t a) = true)
    (hRan : (store env.lower).Ran c t a o th k c') (hMove : ReaderMove env locationId a c.state o pt pt') :
    ReadBehind env locationId c₀ c' pt' := by
  have hStays := h.step hGuard hRan.step
  induction hMove with
  | apart _ => trivial
  | lookThrows => trivial
  | @look lookup hLook =>
    have hLookup := lookup_eq hLook
    cases hReader : lookup.reader with
    | apart => trivial
    | hit listing =>
      have hHit := Lookup.hit_eq hReader
      rw [hLookup] at hHit
      obtain ⟨entry, hFound, rfl⟩ := Option.map_eq_some_iff.mp hHit
      have hLocation := List.find?_some hFound
      rw [Bool.and_eq_true, decide_eq_true_eq] at hLocation
      exact (hFresh entry (List.mem_of_find?_eq_some hFound) hLocation.1).step hGuard hRan.step
    | reading asOf seen =>
      obtain ⟨rfl, rfl⟩ := Lookup.reading_eq hReader
      rw [hLookup]
      exact ⟨writes_reach hReached, fun x hNever => absurd hNever List.not_mem_nil⟩
  | read _ =>
    refine ⟨hStays.1, fun x hSeen => ?_⟩
    rcases List.mem_append.mp hSeen with hSeen | hNow
    · exact hStays.2 x hSeen
    · cases List.mem_singleton.mp hNow
      exact hReached.passed hGuard hRan.step
  | fill _ => exact hStays

theorem ReadBehind.gives {listing : Listing} (h : ReadBehind env locationId c₀ c pt) (hGives : pt.Gives env locationId listing) :
    Behind env locationId c₀ c listing := by
  rcases hGives with rfl | ⟨seen, rfl, hSeen⟩
  · exact h
  · exact ⟨h.1, seen, hSeen, h.2⟩

end Asked

/-! ## Runs -/

section Runs

variable {env : Env} {locationId : Id} {requests : List Request} {w₀ : World} {c₀ c c₁ c₂ c₃ : State} {t u : Nat} {e : Edit}

def Reader.Counted (locationId : Id) (w : World) (pt : Reader) : Prop := ∀ asOf seen, pt = .reading asOf seen → asOf ≤ w.writes locationId

theorem counted_move {a : Answer} {w : World} {o : Op} {pt pt' : Reader} (h : pt.Counted locationId w)
    (hMove : ReaderMove env locationId a w o pt pt') : pt'.Counted locationId w := by
  intro asOf seen hNew
  induction hMove with
  | apart _ => cases hNew
  | lookThrows => cases hNew
  | look hLook => rw [(Lookup.reading_eq hNew).1, lookup_eq hLook]
  | read _ =>
    cases hNew
    exact h _ _ rfl
  | fill _ =>
    cases hNew
    exact h _ _ rfl

theorem counted_started (hBefore : State.Leads env locationId (State.start env w₀ requests) c₁) :
    ∃ pts, Tracks (store env.lower) (reader env locationId) (requests.map fun _ => Reader.apart) c₁ pts ∧
      ∀ pt ∈ pts, pt.Counted locationId c₁.state := by
  have hTracks : Tracks (store env.lower) (reader env locationId) (requests.map fun _ => Reader.apart) (State.start env w₀ requests)
      (requests.map fun _ => Reader.apart) :=
    Tracks.initial fun request _ => (follows_request).mono (fun _ _ _ => trivial) fun _ _ _ => trivial
  refine hTracks.invariant (I := fun c (pts : List Reader) => ∀ pt ∈ pts, pt.Counted locationId c.state) ?_ ?_ ?_ ?_ hBefore
  · intro pt hMem
    obtain ⟨_, -, rfl⟩ := List.mem_map.mp hMem
    exact fun asOf seen hEq => by cases hEq
  · intro c c' pts t a o th k pt pt' _ hI _ hRan hPoint hMove _ ptU hMem asOf seen hEq
    have hGrows : c.state.writes locationId ≤ c'.state.writes locationId := writes_step hRan.step
    rcases List.mem_or_eq_of_mem_set hMem with hMem | rfl
    · exact (hI ptU hMem asOf seen hEq).trans hGrows
    · exact (counted_move (hI pt (List.mem_of_getElem? hPoint)) hMove asOf seen hEq).trans hGrows
  · exact fun _ hI _ _ => hI
  · exact fun _ hI _ => hI

theorem writes_logged {w w' : World} {scope : Scope} (hLogged : w'.log = scope :: w.log)
    (hSame : w'.menu.restaurants = w.menu.restaurants) (hAffects : scope.affects w'.menu.restaurants locationId = true) :
    w'.writes locationId = w.writes locationId + 1 := by
  rw [World.writes, World.writes, hLogged, List.filter_cons, if_pos hAffects, List.length_cons, hSame]

theorem readings_written {a : Answer} {scope : Scope} (hBefore : State.Leads env locationId (State.start env w₀ requests) c₁)
    (hWrite : (store env.lower).step (.run u a) c₁ = some c₀) (hLogged : c₀.state.log = scope :: c₁.state.log)
    (hAffects : scope.affects c₀.state.menu.restaurants locationId = true) : ∃ pts, Readings env locationId requests c₀ c₀ pts := by
  obtain ⟨pts, hTracks, hCounted⟩ := counted_started hBefore
  obtain ⟨o, th, k, hRan⟩ := Store.run_cases hWrite
  obtain ⟨pt, pt', hPoint, hMove, hTracks'⟩ := hTracks.ran hRan
  refine ⟨_, .start, hTracks', fun asOf seen hMem hBehind => ?_⟩
  have hFewer : asOf ≤ c₁.state.writes locationId := by
    rcases List.mem_or_eq_of_mem_set hMem with hMem | hNew
    · exact hCounted _ hMem asOf seen rfl
    · exact counted_move (hCounted pt (List.mem_of_getElem? hPoint)) hMove asOf seen hNew.symm
  rw [writes_logged hLogged (restaurants_step hWrite) hAffects] at hBehind
  omega

theorem edit_written {a : Answer} {scope : Scope} (hEdit : requests[u]? = some (.edit e))
    (hBefore : State.Leads env locationId (State.start env w₀ requests) c₁)
    (hWrite : (store env.lower).step (.run u a) c₁ = some c₀) (hLogged : c₀.state.log = scope :: c₁.state.log) :
    ∃ th, c₀.threads[u]? = some th ∧
      th.prog.Follows (store env.lower) (editing env.lower) (.written scope) (fun _ pt => pt.Settled) fun _ _ => True := by
  have hSent : (State.start env w₀ requests).threads[u]? = some { prog := Request.program env (.edit e) } := by
    rw [State.start, Config.initial, List.getElem?_map, List.getElem?_map, hEdit]
    rfl
  have hFollows : (Request.program env (.edit e)).Follows (store env.lower) (editing env.lower) .unwritten (fun _ pt => pt.Settled)
      fun _ _ => True := follows_bind.mpr follows_edit
  obtain ⟨thU, pt, hThread, hFollowsU, -⟩ := hBefore.beside (I := fun _ _ => True) hSent hFollows trivial (fun _ _ _ _ => trivial)
    fun _ _ _ _ => trivial
  obtain ⟨o, th, k, hRan⟩ := Store.run_cases hWrite
  cases hRan.thread.symm.trans hThread
  rw [hRan.prog] at hFollowsU
  obtain ⟨pt', hMove, hRest⟩ := hFollowsU a c₁.state
  rw [hRan.state] at hLogged
  obtain rfl := written_of_logged hMove hLogged
  exact ⟨_, by rw [hRan.threads]; exact Tables.getElem?_set_eq hRan.thread, hRest⟩

theorem freshCache_answered {th : Thread Op Op.Resp Err World (Option Listing)} {scope : Scope} {pts : List Reader}
    (hReadings : Readings env locationId requests c₀ c₀ pts) (hAffects : scope.affects c₀.state.menu.restaurants locationId = true)
    (hThread : c₀.threads[u]? = some th)
    (hFollows : th.prog.Follows (store env.lower) (editing env.lower) (.written scope) (fun _ pt => pt.Settled) fun _ _ => True)
    (hAnswer : State.Leads env locationId c₀ c₂) (hAnswered : c₂.returned? u = some none) :
    (∃ pts, Readings env locationId requests c₀ c₂ pts) ∧ FreshCache env locationId c₀ c₂ := by
  obtain ⟨th₂, pt, hThread₂, hFollows₂, hReadings₂, hLeft⟩ := hAnswer.beside
    (I := fun c (pt : Phase) => (∃ pts, Readings env locationId requests c₀ c pts) ∧ LeftToDrop env locationId c₀ c pt)
    hThread hFollows ⟨⟨pts, hReadings⟩, hAffects⟩ (fun hI hGuard hRan hMove => by
      obtain ⟨⟨pts, hReadings⟩, hLeft⟩ := hI
      exact ⟨hReadings.step hGuard hRan.step, hLeft.own hReadings hGuard hRan hMove⟩) fun hI hGuard hStep _ => by
      obtain ⟨⟨pts, hReadings⟩, hLeft⟩ := hI
      exact ⟨hReadings.step hGuard hStep, hLeft.step hReadings hGuard hStep⟩
  obtain ⟨thU, hThreadU, hProg⟩ := Config.thread_of_returned hAnswered
  cases hThreadU.symm.trans hThread₂
  rw [hProg] at hFollows₂
  refine ⟨hReadings₂, ?_⟩
  rcases hFollows₂ with rfl | rfl
  · exact hLeft.elim
  · exact hLeft

/-- A listing that is asked for after an edit is answered has been read behind the edit's write, in a run in which
no listing of the location is put into the cache that a write has come after. -/
theorem listing_includes_edit {scope : Scope} {a : Answer} {callerCanPreview : Bool} {listing : Listing}
    (hEdit : requests[u]? = some (.edit e)) (hList : requests[t]? = some (.list locationId callerCanPreview))
    (hBefore : State.Leads env locationId (State.start env w₀ requests) c₁)
    (hWrite : (store env.lower).step (.run u a) c₁ = some c₀) (hLogged : c₀.state.log = scope :: c₁.state.log)
    (hAffects : scope.affects c₀.state.menu.restaurants locationId = true)
    (hAnswer : State.Leads env locationId c₀ c₂) (hAnswered : c₂.returned? u = some none) (hLater : c₂.unborn t = true)
    (hRest : State.Leads env locationId c₂ c₃) (hReturned : c₃.returned? t = some (some listing)) :
    Behind env locationId c₀ c₃ listing := by
  obtain ⟨pts₀, hReadings₀⟩ := readings_written hBefore hWrite hLogged hAffects
  obtain ⟨thU, hThreadU, hFollowsU⟩ := edit_written hEdit hBefore hWrite hLogged
  obtain ⟨⟨pts₂, hReadings₂⟩, hFresh⟩ := freshCache_answered hReadings₀ hAffects hThreadU hFollowsU hAnswer hAnswered
  obtain ⟨thT, hThreadT, hBorn⟩ := Config.thread_of_unborn hLater
  have hFrom : (store env.lower).Reach (fun _ _ => True) (State.start env w₀ requests) c₂ :=
    ((hBefore.mono fun _ _ _ => trivial).step trivial hWrite).trans (hAnswer.mono fun _ _ _ => trivial)
  have hProg := hFrom.prog_of_unborn hThreadT hBorn
  rw [List.getElem?_map, hList, Option.map_some, Option.some.injEq] at hProg
  have hFollowsT : thT.prog.Follows (store env.lower) (reader env locationId) .apart
      (fun v pt => ∀ listing, v = some listing → pt.Gives env locationId listing) fun _ _ => True := by
    rw [← hProg]
    refine follows_bind.mpr (follows_listMenu.mono ?_ fun _ _ h => h)
    rintro found pt hGives listing hEq
    cases hEq
    exact hGives
  obtain ⟨th₃, pt₃, hThread₃, hFollows₃, -, -, hReady⟩ := hRest.beside
    (I := fun c (pt : Reader) => (∃ pts, Readings env locationId requests c₀ c pts) ∧ FreshCache env locationId c₀ c ∧
      ReadBehind env locationId c₀ c pt)
    hThreadT hFollowsT ⟨⟨pts₂, hReadings₂⟩, hFresh, trivial⟩ (fun hI hGuard hRan hMove => by
      obtain ⟨⟨pts, hReadings⟩, hFresh, hReady⟩ := hI
      exact ⟨hReadings.step hGuard hRan.step, hFresh.step hReadings hGuard hRan.step,
        hReady.own hFresh hReadings.reached hGuard hRan hMove⟩) fun hI hGuard hStep _ => by
      obtain ⟨⟨pts, hReadings⟩, hFresh, hReady⟩ := hI
      exact ⟨hReadings.step hGuard hStep, hFresh.step hReadings hGuard hStep, hReady.step hGuard hStep⟩
  obtain ⟨th, hThread, hEnded⟩ := Config.thread_of_returned hReturned
  cases hThread.symm.trans hThread₃
  rw [hEnded] at hFollows₃
  exact hReady.gives (hFollows₃ listing rfl)

end Runs

namespace Starters

def env : Env := { lower := id }

def world : World := { imports := { menu := { restaurants := [{ id := 1 }] } }, statuses := [(1, .active)] }

def requests : List Request :=
  [.edit (.createCategory (.restaurant 1) 9 { name := "Starters".toList }), .list 1 false, .list 1 false]

def ran (ts : List Nat) : List (Label Answer MenuImport.Event) := ts.map (.run · {})

def names (menu : ResolvedMenu) : List Text := menu.categories.map (·.name)

end Starters

open Starters in
/-- The menu that is asked for after the answer has the category. -/
theorem starters_listed : ∃ (c₀ c₃ : State) (listing : Listing), c₃.returned? 2 = some (some listing) ∧
    names listing.menu = ["Starters".toList] ∧ Behind env 1 c₀ c₃ listing := by
  obtain ⟨c₁, hBefore, hNext⟩ := (store env.lower).exists_of_exec (inTime 1) (State.start env world requests) (ran [1, 1, 1, 1, 1, 1, 1, 0])
    (fun c₁ => ((store env.lower).step (.run 0 {}) c₁).any fun c₀ : State =>
      c₀.state.log = .restaurant 1 :: c₁.state.log && (Scope.restaurant 1).affects c₀.state.menu.restaurants 1 &&
        ((store env.lower).exec (inTime 1) (ran [0]) c₀).any fun c₂ : State => c₂.returned? 0 = some none && c₂.unborn 2 &&
          ((store env.lower).exec (inTime 1) (ran [2, 2, 2, 2, 2, 2, 2]) c₂).any fun c₃ : State =>
            (c₃.returned? 2).any fun v => v.any fun listing => names listing.menu = ["Starters".toList]) (by decide +kernel)
  obtain ⟨c₀, hWrite, hNext⟩ := (Option.any_eq_true _ _).mp hNext
  rw [Bool.and_eq_true, Bool.and_eq_true, decide_eq_true_eq] at hNext
  obtain ⟨⟨hLogged, hAffects⟩, hNext⟩ := hNext
  obtain ⟨c₂, hAnswer, hNext⟩ := (Option.any_eq_true _ _).mp hNext
  rw [Bool.and_eq_true, Bool.and_eq_true, decide_eq_true_eq] at hNext
  obtain ⟨⟨hAnswered, hLater⟩, hNext⟩ := hNext
  obtain ⟨c₃, hRest, hNext⟩ := (Option.any_eq_true _ _).mp hNext
  obtain ⟨v, hReturned, hNext⟩ := (Option.any_eq_true _ _).mp hNext
  obtain ⟨listing, rfl, hNames⟩ := (Option.any_eq_true _ _).mp hNext
  exact ⟨c₀, c₃, listing, hReturned, of_decide_eq_true hNames,
    listing_includes_edit rfl rfl hBefore hWrite hLogged hAffects (.of_exec _ hAnswer) hAnswered hLater (.of_exec _ hRest) hReturned⟩

open Starters in
/-- The first listing misses the cache and reads no category; the edit writes and drops the key; the first listing then
fills the cache with what it has read, and the menu that is asked for after the answer lacks the category. -/
theorem starters_missing : ∃ (c₁ c₀ c₂ c₃ : State) (listing : Listing),
    (store env.lower).Reach (fun _ _ => True) (State.start env world requests) c₁ ∧ (store env.lower).step (.run 0 {}) c₁ = some c₀ ∧
      c₀.state.log = .restaurant 1 :: c₁.state.log ∧ (store env.lower).Reach (fun _ _ => True) c₀ c₂ ∧ c₂.returned? 0 = some none ∧
      c₂.unborn 2 = true ∧ (store env.lower).Reach (fun _ _ => True) c₂ c₃ ∧ c₃.returned? 2 = some (some listing) ∧
      names (loadLegacyPublicMenu c₂.state.menu 1) = ["Starters".toList] ∧ names listing.menu = [] ∧ ¬ Behind env 1 c₀ c₃ listing := by
  obtain ⟨c₁, hBefore, hNext⟩ := (store env.lower).exists_of_exec (fun _ _ => true) (State.start env world requests) (ran [1, 1, 1, 1, 1, 0])
    (fun c₁ => ((store env.lower).step (.run 0 {}) c₁).any fun c₀ : State => c₀.state.log = .restaurant 1 :: c₁.state.log &&
      ((store env.lower).exec (fun _ _ => true) (ran [0]) c₀).any fun c₂ : State => c₂.returned? 0 = some none && c₂.unborn 2 &&
        names (loadLegacyPublicMenu c₂.state.menu 1) = ["Starters".toList] &&
          ((store env.lower).exec (fun _ _ => true) (ran [1, 1, 2, 2]) c₂).any fun c₃ : State =>
            (c₃.returned? 2).any fun v => v.any fun listing => names listing.menu = [] && listing.asOf < c₀.state.writes 1) (by decide +kernel)
  obtain ⟨c₀, hWrite, hNext⟩ := (Option.any_eq_true _ _).mp hNext
  rw [Bool.and_eq_true, decide_eq_true_eq] at hNext
  obtain ⟨hLogged, hNext⟩ := hNext
  obtain ⟨c₂, hAnswer, hNext⟩ := (Option.any_eq_true _ _).mp hNext
  rw [Bool.and_eq_true, Bool.and_eq_true, Bool.and_eq_true, decide_eq_true_eq, decide_eq_true_eq] at hNext
  obtain ⟨⟨⟨hAnswered, hLater⟩, hNames⟩, hNext⟩ := hNext
  obtain ⟨c₃, hRest, hNext⟩ := (Option.any_eq_true _ _).mp hNext
  obtain ⟨v, hReturned, hNext⟩ := (Option.any_eq_true _ _).mp hNext
  obtain ⟨listing, rfl, hNext⟩ := (Option.any_eq_true _ _).mp hNext
  obtain ⟨hEmpty, hFewer⟩ := Bool.and_eq_true_iff.mp hNext
  exact ⟨c₁, c₀, c₂, c₃, listing, hBefore.mono fun _ _ _ => trivial, hWrite, hLogged, (Store.Reach.of_exec _ hAnswer).mono fun _ _ _ => trivial,
    hAnswered, hLater, (Store.Reach.of_exec _ hRest).mono fun _ _ _ => trivial, hReturned, hNames, of_decide_eq_true hEmpty,
    fun hBehind => Nat.not_le.mpr (of_decide_eq_true hFewer) hBehind.counts⟩

end RestaurantOs.MenuEdits
