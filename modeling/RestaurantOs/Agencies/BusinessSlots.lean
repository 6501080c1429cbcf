import RestaurantOs.Agencies.Businesses

/-!
# Businesses within the plan

A creation holds its slot from the reservation to the commit or the release; only what
may throw in between, outside the `try`, loses it.
-/

namespace RestaurantOs.AgencyBusinesses

open Async Prog Slots

open Entitlements (resolveSubscriptionStateNow)

section Walk

variable {agencyId : Id} {input : CreateAgencyBusinessInput}

theorem reserveBusinessSlot_follows :
    (reserveBusinessSlot agencyId).Follows store slots.protocol .idle
      (fun _ pt => ∃ maxBusinesses count, pt = .held agencyId maxBusinesses count) fun _ pt => pt.Rest := by
  unfold reserveBusinessSlot
  rw [bind_eq, follows_bind]
  refine Slots.follows_call (o := Op.getMaxBusinesses agencyId) (fun a w => ?_) (fun maxBusinesses => ?_) fun _ => trivial
  · cases (store.perform (.getMaxBusinesses agencyId) a w).1 <;> trivial
  · rw [bind_eq, follows_bind]
    refine Slots.follows_call (o := Op.reserve agencyId maxBusinesses) (fun a w => ?_) (fun updated => ?_) fun _ => trivial
    · match (store.perform (.reserve agencyId maxBusinesses) a w).1 with
      | .ok (some count) => exact ⟨rfl, rfl⟩
      | .ok none => trivial
      | .error err => trivial
    · cases updated with
      | none => trivial
      | some count => exact ⟨maxBusinesses, count, rfl⟩

theorem createOrRelease_follows {passwordHash : String} {token : Token} {maxBusinesses count : Int} :
    (createOrRelease agencyId input passwordHash token).Follows store slots.protocol (.held agencyId maxBusinesses count)
      (fun _ pt => pt = .idle) fun _ pt => pt = .idle ∨ pt = .lost agencyId := by
  unfold createOrRelease
  rw [bind_eq, follows_bind, follows_attempt]
  refine Slots.follows_call (o := Op.createBusiness agencyId input passwordHash token) (fun a w => ?_) (fun _ => rfl) fun err => ?_
  · cases (store.perform (.createBusiness agencyId input passwordHash token) a w).1 <;> trivial
  · dsimp only
    rw [bind_eq, follows_bind]
    refine Slots.follows_call (o := Op.release agencyId) (fun a w => ?_) (fun _ => ?_) fun _ => .inr rfl
    · cases (store.perform (.release agencyId) a w).1 <;> trivial
    · split <;> exact .inl rfl

theorem prepare_follows {o : Op} {maxBusinesses count : Int} {Q : o.Resp → Point Id → Prop}
    (hOk : ∀ v, o.effect (.ok v) = .none) (hError : ∀ err, o.effect (.error err) = .failed)
    (hQ : ∀ v, Q v (.held agencyId maxBusinesses count)) :
    (Prog.call o : Promise o.Resp).Follows store slots.protocol (.held agencyId maxBusinesses count) Q fun _ pt => pt.Rest := by
  refine Slots.follows_call (fun a w => ?_) (fun v => ?_) fun err => ?_
  · cases hAnswer : (store.perform o a w).1 with
    | ok v =>
      have hEffect : slots.effect o (.ok v) = .none := hOk v
      rw [hEffect]
      trivial
    | error err =>
      have hEffect : slots.effect o (.error err) = .failed := hError err
      rw [hEffect]
      trivial
  · have hEffect : slots.effect o (.ok v) = .none := hOk v
    rw [hEffect]
    exact hQ v
  · have hEffect : slots.effect o (.error err) = .failed := hError err
    rw [hEffect]
    trivial

theorem recordAgencyAuditEvent_follows {businessId : Id} {mode : ProvisioningMode} {Q : Unit → Point Id → Prop} (hQ : Q () .idle)
    {E : Err → Point Id → Prop} : (recordAgencyAuditEvent agencyId businessId mode).Follows store slots.protocol .idle Q E := by
  unfold recordAgencyAuditEvent
  rw [bind_eq, follows_bind, follows_attempt]
  exact Slots.follows_quiet (fun _ => rfl) (fun _ => hQ) fun _ => hQ

theorem recordAuditEvent_follows {restaurantId : Id} {Q : Unit → Point Id → Prop} (hQ : Q () .idle) {E : Err → Point Id → Prop} :
    (recordAuditEvent restaurantId).Follows store slots.protocol .idle Q E := by
  unfold recordAuditEvent
  rw [bind_eq, follows_bind, follows_attempt]
  exact Slots.follows_quiet (fun _ => rfl) (fun _ => hQ) fun _ => hQ

theorem respond_follows {temporaryPassword : String} {token : Token} {business : Business} {restaurant : Restaurant} :
    (respond input temporaryPassword token business restaurant).Follows store slots.protocol .idle (fun _ pt => pt.Rest)
      fun _ pt => pt.Rest := by
  unfold respond
  rw [follows_ite]
  refine ⟨fun _ => trivial, fun _ => ?_⟩
  rw [bind_eq, follows_bind, follows_attempt]
  exact Slots.follows_quiet (fun _ => rfl) (fun _ => trivial) fun _ => trivial

theorem createInSlot_follows :
    (createInSlot agencyId input).Follows store slots.protocol .idle (fun _ pt => pt.Rest) fun _ pt => pt.Rest := by
  unfold createInSlot
  rw [bind_eq, follows_bind]
  refine (reserveBusinessSlot_follows).mono ?_ fun _ _ hRest => hRest
  rintro _ pt ⟨maxBusinesses, count, rfl⟩
  rw [bind_eq, follows_bind]
  refine prepare_follows (o := Op.randomPassword input.provisioningMode) (fun _ => rfl) (fun _ => rfl) fun temporaryPassword => ?_
  rw [bind_eq, follows_bind]
  refine prepare_follows (o := Op.hash temporaryPassword) (fun _ => rfl) (fun _ => rfl) fun passwordHash => ?_
  rw [bind_eq, follows_bind]
  refine prepare_follows (o := Op.generateSecureToken) (fun _ => rfl) (fun _ => rfl) fun token => ?_
  rw [bind_eq, follows_bind]
  refine prepare_follows (o := Op.startSession) (fun _ => rfl) (fun _ => rfl) fun _ => ?_
  rw [bind_eq, follows_bind, finallyDo, follows_bind, follows_attempt]
  refine (createOrRelease_follows).mono ?_ ?_
  · rintro ⟨business, restaurant⟩ pt rfl
    rw [follows_bind]
    refine Slots.follows_quiet (o := Op.endSession) (fun _ => rfl) (fun _ => ?_) fun _ => trivial
    rw [follows_ofExcept]
    dsimp only
    rw [bind_eq, follows_bind]
    refine recordAgencyAuditEvent_follows ?_
    rw [bind_eq, follows_bind]
    exact recordAuditEvent_follows respond_follows
  · rintro err pt (rfl | rfl)
    · rw [follows_bind]
      exact Slots.follows_quiet (o := Op.endSession) (fun _ => rfl) (fun _ => trivial) fun _ => trivial
    · rw [follows_bind]
      exact Slots.follows_quiet (o := Op.endSession) (fun _ => rfl) (fun _ => trivial) fun _ => trivial

theorem refuseTaken_follows {α : Type} {existing : Option α} {message : String} :
    (refuseTaken existing message).Follows store slots.protocol .idle (fun _ pt => pt = .idle) fun _ pt => pt.Rest := by
  unfold refuseTaken
  rw [follows_ite]
  exact ⟨fun _ => trivial, fun _ => rfl⟩

theorem Request.program_follows (r : Request) :
    r.program.Follows store slots.protocol .idle (fun _ pt => pt.Rest) fun _ pt => pt.Rest := by
  obtain ⟨agencyId, input⟩ := r
  unfold Request.program AgencyBusinesses.createAgencyBusiness
  dsimp only
  rw [bind_eq, follows_bind]
  refine Slots.follows_quiet (o := Op.findBusinessSlug input.businessSlug) (fun _ => rfl) (fun existingBusinessSlug => ?_) fun _ => trivial
  rw [bind_eq, follows_bind]
  refine Slots.follows_quiet (o := Op.findLocationSlug input.locationSlug) (fun _ => rfl) (fun existingLocationSlug => ?_) fun _ => trivial
  rw [bind_eq, follows_bind]
  refine Slots.follows_quiet (o := Op.findOwnerEmail input.ownerEmail) (fun _ => rfl) (fun existingOwnerEmail => ?_) fun _ => trivial
  rw [bind_eq, follows_bind]
  refine (refuseTaken_follows).mono ?_ fun _ _ hRest => hRest
  rintro _ pt rfl
  rw [bind_eq, follows_bind]
  refine (refuseTaken_follows).mono ?_ fun _ _ hRest => hRest
  rintro _ pt rfl
  rw [bind_eq, follows_bind]
  refine (refuseTaken_follows).mono ?_ fun _ _ hRest => hRest
  rintro _ pt rfl
  exact createInSlot_follows

end Walk

section Runs

variable {w₀ : World} {requests : List Request} {c : State} {agencyId : Id} {maxBusinesses count : Int}

theorem commits_eq (e : Entry Op Op.Resp Err) : slots.commits agencyId e = commits agencyId e := by
  obtain ⟨t, o, r⟩ := e
  cases r with
  | ok v =>
    cases o with
    | createBusiness id input passwordHash token => simp [Counter.commits, Counter.of, slots, Op.effect, commits]
    | reserve id limit => cases v <;> rfl
    | _ => rfl
  | error err => cases o <;> rfl

theorem committed_eq (history : List (Entry Op Op.Resp Err)) : slots.committed agencyId history = committed agencyId history := by
  unfold Counter.committed committed
  exact List.countP_congr fun e _ => by rw [commits_eq]

theorem told_entry {e : Entry Op Op.Resp Err} (h : slots.of e = .told agencyId maxBusinesses) :
    e = ⟨e.thread, .getMaxBusinesses agencyId, .ok maxBusinesses⟩ := by
  obtain ⟨t, o, r⟩ := e
  cases r with
  | ok v =>
    cases o with
    | getMaxBusinesses id =>
      cases h
      rfl
    | reserve id limit => cases v <;> cases h
    | _ => cases h
  | error err => cases o <;> cases h

theorem not_failed {o : Op} {a : Except Err Answer} {w : World} {t : Nat}
    (h : releasesSucceed c (.run t a) = true ∧ preparationsSucceed c (.run t a) = true) (hWaiting : c.waiting? t = some o) :
    o.effect (store.perform o a w).1 ≠ .failed := by
  simp only [releasesSucceed, preparationsSucceed, hWaiting] at h
  cases a with
  | error fault => cases o <;> first | (cases h.1; done) | (cases h.2; done) | (intro hFailed; cases hFailed)
  | ok a =>
    intro hFailed
    cases o with
    | getMaxBusinesses id =>
      simp only [Op.perform] at hFailed
      cases hMax : getMaxBusinesses id w <;> rw [hMax] at hFailed <;> cases hFailed
    | reserve id limit =>
      simp only [Op.perform] at hFailed
      split at hFailed <;> cases hFailed
    | createBusiness id input passwordHash token =>
      simp only [Op.perform] at hFailed
      split at hFailed <;> cases hFailed
    | _ => cases hFailed

theorem none_failed_of_reach (h : store.Reach (fun c l => releasesSucceed c l && preparationsSucceed c l) (State.start w₀ requests) c) :
    ∀ e ∈ c.history, slots.of e ≠ .failed := by
  induction h with
  | start =>
    intro e hMem
    cases hMem
  | @step c c' l _ hGuard hStep ih =>
    cases l with
    | run t a =>
      obtain ⟨o, th, k, hRan⟩ := Store.run_cases hStep
      rw [hRan.history]
      refine List.forall_mem_cons.mpr ⟨?_, ih⟩
      rw [Bool.and_eq_true] at hGuard
      exact not_failed hGuard hRan.waiting?
    | stop t =>
      obtain ⟨th, -, rfl⟩ := Store.stop_cases hStep
      exact ih
    | event e =>
      cases hStep
      exact ih

theorem told_of_lapsed {o : Op} {a : Except Err Answer} {w : World} (hLapsed : (resolveSubscriptionStateNow .agency agencyId).at w.entitled = .ok .lapsed)
    (h : o.effect (store.perform o a w).1 = .told agencyId maxBusinesses) : maxBusinesses ≤ (w.businessCount? agencyId).getD 0 := by
  cases a with
  | error fault => cases o <;> cases h
  | ok a =>
    cases o with
    | getMaxBusinesses id =>
      simp only [Op.perform] at h
      cases hMax : getMaxBusinesses id w with
      | error err =>
        rw [hMax] at h
        cases h
      | ok value =>
        rw [hMax] at h
        cases h
        rw [getMaxBusinesses, hLapsed] at hMax
        have hCount : (w.agency? agencyId).elim 0 (·.businessCount) = maxBusinesses := Except.ok.inj hMax
        rw [← hCount, World.businessCount?]
        cases w.agency? agencyId <;> exact le_refl _
    | reserve id limit =>
      simp only [Op.perform] at h
      split at h <;> cases h
    | createBusiness id input passwordHash token =>
      simp only [Op.perform] at h
      split at h <;> cases h
    | _ => cases h

end Runs

/-- As long as what stands between the reservation and the `try` succeeds, the count of
an agency is exact whenever no creation is in progress, every reservation was within a
limit, and an agency that stays lapsed gets no new business. -/
theorem businesses_within_plan {w₀ : World} {requests : List Request} {c : State}
    (h : store.Reach (fun c l => releasesSucceed c l && preparationsSucceed c l) (State.start w₀ requests) c) :
    (Settled c → ∀ agencyId, c.state.businessCount? agencyId =
      (w₀.businessCount? agencyId).map (· + (committed agencyId c.history : Int))) ∧
    (∀ t agencyId maxBusinesses count, ⟨t, .reserve agencyId maxBusinesses, .ok (some count)⟩ ∈ c.history →
      ⟨t, .getMaxBusinesses agencyId, .ok maxBusinesses⟩ ∈ c.history ∧ count + 1 ≤ maxBusinesses) ∧
    ∀ agencyId, store.Reach (fun c _ => (resolveSubscriptionStateNow .agency agencyId).at c.state.entitled = .ok .lapsed)
      (State.start w₀ requests) c → committed agencyId c.history = 0 := by
  obtain ⟨pts, hTracks, hBalanced⟩ := Counter.balanced_of_reach (C := slots) (fun r _ => r.program_follows) h
  refine ⟨fun hSettled agencyId => ?_, fun t agencyId maxBusinesses count hMem => ?_, fun agencyId hLapsed => ?_⟩
  · rw [← committed_eq]
    exact hBalanced.exact hTracks hSettled (none_failed_of_reach h)
  · obtain ⟨⟨e, hTold, hThread, hOf⟩, hLe⟩ := hBalanced.reserved _ hMem rfl
    have hThread : e.thread = t := hThread
    rw [told_entry hOf, hThread] at hTold
    exact ⟨hTold, hLe⟩
  · rw [← committed_eq]
    have hFrozen := Counter.frozen_of_reach (C := slots) (fun r _ => r.program_follows)
      (fun c _ o a maxBusinesses hOk hTold => told_of_lapsed hOk hTold) hLapsed
    exact hFrozen.uncommitted hBalanced

/-! ### One agency -/

def agencyWorld : World := { agencies := [{ id := 7 }], nextId := 10 }

def cafe : CreateAgencyBusinessInput where
  businessName := "Cafe"
  businessSlug := "cafe"
  ownerName := "Ann"
  ownerEmail := "ann@home.com".toList
  locationName := "Cafe"
  locationSlug := "cafe"

def twoCafes : List Request := [.createAgencyBusiness 7 cafe, .createAgencyBusiness 7 cafe]

/-- The second creation finds the slug taken in its transaction, and gives its slot back. -/
theorem second_cafe_released : ∃ c : State, Settled c ∧ c.state.businessCount? 7 = some 1 ∧ committed 7 c.history = 1 := by
  obtain ⟨c, hReach, hEnd⟩ := store.exists_of_exec (fun c l => releasesSucceed c l && preparationsSucceed c l)
    (State.start agencyWorld twoCafes)
    (List.flatten [List.replicate 5 (.run 0 (.ok {})), List.replicate 5 (.run 1 (.ok {})), List.replicate 9 (.run 0 (.ok {})),
      List.replicate 7 (.run 1 (.ok {}))])
    (fun c : State => decide (Settled c ∧ committed 7 c.history = 1)) (by decide +kernel)
  obtain ⟨hSettled, hCommitted⟩ := of_decide_eq_true hEnd
  obtain ⟨hCount, -, -⟩ := businesses_within_plan hReach
  refine ⟨c, hSettled, ?_, hCommitted⟩
  rw [hCount hSettled 7, hCommitted]
  rfl

/-- Hashing the password throws: the slot that was reserved is never released. -/
theorem business_slot_lost : ¬ ∀ (w₀ : World) (requests : List Request) (c : State),
    store.Reach (fun c l => releasesSucceed c l) (State.start w₀ requests) c → Settled c →
    ∀ agencyId, c.state.businessCount? agencyId = (w₀.businessCount? agencyId).map (· + (committed agencyId c.history : Int)) := by
  intro hClaim
  obtain ⟨c, hReach, hEnd⟩ := store.exists_of_exec releasesSucceed (State.start agencyWorld [.createAgencyBusiness 7 cafe])
    (List.flatten [List.replicate 6 (.run 0 (.ok {})), [.run 0 (.error (.other "Error"))]])
    (fun c : State => decide (Settled c ∧ committed 7 c.history = 0 ∧ c.state.businessCount? 7 = some 1)) (by decide +kernel)
  obtain ⟨hSettled, hCommitted, hCount⟩ := of_decide_eq_true hEnd
  have hExact := hClaim agencyWorld _ c hReach hSettled 7
  rw [hCount, hCommitted] at hExact
  cases hExact

end RestaurantOs.AgencyBusinesses
