import RestaurantOs.Async.Protocol
import RestaurantOs.Billing.Lifecycle

/-!
# The expiry of trials

A sweep expires what an earlier query of it has found. As long as nothing that
the query asked about has changed since, no trial with time left is ended.
-/

namespace RestaurantOs.Billing

open Async Prog

/-! ## What a sweep knows -/

def Op.time? : (o : Op) → Except Err o.Resp → Option Time
  | clock, .ok time => some time
  | _, _ => none

def Op.found? : (o : Op) → Except Err o.Resp → Option (Bool × List Subscription)
  | Op.subscription (.findLapsed _ holding), .ok found => some (holding, found)
  | _, _ => none

structure Sweep where
  sweeps : Bool := true
  now : Option Time := none
  found : Option (Bool × List Subscription) := none

namespace Sweep

def after (pt : Sweep) (o : Op) (r : Except Err o.Resp) : Sweep where
  sweeps := pt.sweeps
  now := (o.time? r).or pt.now
  found := (o.found? r).or pt.found

def Allows (pt : Sweep) : Op → Prop
  | .clock => pt.found = none
  | .subscription (.findLapsed now _) => pt.now = some now
  | .subscription (.findOneAndUpdate filter update) => update.status = some .expired →
    ∃ holding copies copy, pt.found = some (holding, copies) ∧ copy ∈ copies ∧ copy.id = filter.id
  | _ => True

def Sound (pt : Sweep) : Prop :=
  ∀ holding copies, pt.found = some (holding, copies) →
    ∃ now, pt.now = some now ∧ ∀ copy ∈ copies, copy.trialOver now = true ∧ (holding = true → copy.backed = true)

end Sweep

@[reducible] def sweeping : Protocol Op World Answer where
  Point := Sweep
  Move o a w pt pt' := (pt.sweeps = true → pt.Allows o) ∧ pt' = pt.after o (o.perform a w).1
  Rest _ := True

section Walk

variable {α : Type} {pt : Sweep}

theorem follows_other {p : Promise α} (h : pt.sweeps = false) :
    p.Follows store sweeping pt (fun _ _ => True) fun _ _ => True := by
  induction p generalizing pt with
  | ret v => trivial
  | raise err => trivial
  | await o k ih =>
    intro a w
    refine ⟨_, ⟨fun hSweeps => ?_, rfl⟩, ih _ h⟩
    rw [h] at hSweeps
    cases hSweeps

theorem follows_quiet {o : Op} (hAllows : pt.Allows o) (hTime : ∀ r, o.time? r = none) (hFound : ∀ r, o.found? r = none)
    {Q : o.Resp → Sweep → Prop} {E : Err → Sweep → Prop} (hQ : ∀ v, Q v pt) (hE : ∀ err, E err pt) :
    (Prog.call o : Promise o.Resp).Follows store sweeping pt Q E := by
  refine follows_call.mpr fun a w => ⟨pt, ⟨fun _ => hAllows, ?_⟩, ?_⟩
  · rw [Sweep.after, hTime, hFound]
    rfl
  · cases (o.perform a w).1 with
    | ok v => exact hQ v
    | error err => exact hE err

theorem follows_forEach {β : Type} {f : β → Promise Unit} {xs : List β}
    (h : ∀ x ∈ xs, (f x).Follows store sweeping pt (fun _ pt' => pt' = pt) fun _ _ => True) :
    (Prog.forEach f xs).Follows store sweeping pt (fun _ pt' => pt' = pt) fun _ _ => True := by
  induction xs with
  | nil => rfl
  | cons x xs ih =>
    rw [Prog.forEach, follows_bind]
    refine (h x List.mem_cons_self).mono (fun _ pt' hSame => ?_) fun _ _ _ => trivial
    subst hSame
    exact ih fun y hy => h y (List.mem_cons_of_mem _ hy)

theorem endHold_follows (now graceEnd : Time) (sub : Subscription) :
    (endHold now graceEnd sub).Follows store sweeping pt (fun _ pt' => pt' = pt) fun _ _ => True := by
  unfold endHold findOneAndUpdate
  rw [bind_eq, follows_bind]
  refine follows_quiet ?_ (fun _ => rfl) (fun _ => rfl) (fun _ => rfl) fun _ => trivial
  intro hStatus
  cases hStatus

theorem expireTrial_follows {holding : Bool} {copies : List Subscription} {candidate : Subscription}
    (hFound : pt.found = some (holding, copies)) (hMem : candidate ∈ copies) :
    (expireTrial candidate).Follows store sweeping pt (fun _ pt' => pt' = pt) fun _ _ => True := by
  unfold expireTrial findOneAndUpdate
  rw [bind_eq, follows_bind]
  refine follows_quiet ?_ (fun _ => rfl) (fun _ => rfl) (fun updated => ?_) fun _ => trivial
  · exact fun _ => ⟨holding, copies, candidate, hFound, hMem, rfl⟩
  · cases updated with
    | none => rfl
    | some updated => exact follows_quiet (o := .history _) trivial (fun _ => rfl) (fun _ => rfl) (fun _ => rfl) fun _ => trivial

theorem expireLapsed_follows {now : Time} (hNow : pt.now = some now) :
    (expireLapsed now).Follows store sweeping pt (fun _ _ => True) fun _ _ => True := by
  unfold expireLapsed
  rw [bind_eq, follows_bind]
  refine follows_quiet (o := .trialExtensionActive) trivial (fun _ => rfl) (fun _ => rfl) (fun holding => ?_) fun _ => trivial
  rw [bind_eq, follows_bind]
  refine follows_call.mpr fun a w => ⟨_, ⟨fun _ => hNow, rfl⟩, ?_⟩
  cases hAnswer : ((Op.subscription (.findLapsed now holding)).perform a w).1 with
  | error err => trivial
  | ok candidates =>
    refine (follows_forEach fun candidate hMem => ?_).mono (fun _ _ _ => trivial) fun _ _ _ => trivial
    exact expireTrial_follows rfl hMem

theorem dateNow_follows {Q : Time → Sweep → Prop} (hFresh : pt.found = none) (hQ : ∀ v pt', pt'.now = some v → Q v pt') :
    dateNow.Follows store sweeping pt Q fun _ _ => True :=
  follows_call.mpr fun _ w => ⟨_, ⟨fun _ => hFresh, rfl⟩, hQ w.now _ rfl⟩

theorem runTrialExpirationSweep_follows {env : Env} (hFresh : pt.found = none) :
    (runTrialExpirationSweep env).Follows store sweeping pt (fun _ _ => True) fun _ _ => True := by
  unfold runTrialExpirationSweep
  rw [bind_eq, follows_bind]
  refine dateNow_follows hFresh fun now pt' hNow => ?_
  rw [bind_eq, follows_bind]
  refine follows_quiet (o := .trialExtensionActive) trivial (fun _ => rfl) (fun _ => rfl) (fun holding => ?_) fun _ => trivial
  split
  · rw [bind_eq, follows_bind]
    refine follows_quiet (o := .subscription (.holdTrials now)) trivial (fun _ => rfl) (fun _ => rfl) (fun _ => ?_) fun _ => trivial
    exact expireLapsed_follows hNow
  · rw [bind_eq, follows_bind]
    refine follows_quiet (o := .subscription .findHeld) trivial (fun _ => rfl) (fun _ => rfl) (fun held => ?_) fun _ => trivial
    rw [bind_eq, follows_bind]
    refine (follows_forEach fun sub _ => endHold_follows _ _ sub).mono (fun _ pt'' hSame => ?_) fun _ _ _ => trivial
    subst hSame
    exact expireLapsed_follows hNow

def Request.sweep (r : Request) : Sweep := { sweeps := r = .trialExpirationSweep }

theorem Request.program_follows_sweeping (env : Env) (r : Request) :
    (r.program env).Follows store sweeping r.sweep (fun _ _ => True) fun _ _ => True := by
  cases r with
  | trialExpirationSweep => exact runTrialExpirationSweep_follows rfl
  | _ => exact follows_other rfl

end Walk

/-! ## What a sweep expires -/

/-- The stored trial is the one that the query has found: no checkout has
replaced its dates or its provider, and nobody has extended it. -/
def Subscription.isAsFound (holding extensionActive : Bool) (copy stored : Subscription) : Bool :=
  stored.trialEnd = copy.trialEnd && stored.provider = copy.provider && stored.backed = copy.backed &&
    (!extensionActive || holding)

/-- An expiry lands on the trial that the sweep's query has found, or on one
that is no trial any more. -/
def expiresAsFound (c : State) : Label Answer Event → Bool
  | .run t _ =>
    match c.waiting? t, c.latest? Op.found? t with
    | some (.subscription (.findOneAndUpdate filter { status := some .expired, .. })), some (holding, copies) =>
      copies.all fun copy => copy.id ≠ filter.id || (c.state.subscription? filter.id).all fun stored =>
        stored.status ≠ .trialing || copy.isAsFound holding c.state.trialExtensionActive stored
    | _, _ => true
  | _ => true

section Runs

variable {requests : List Request} {c c' : State} {pts : List Sweep}

/-- What the sweeps know is what they have been told, and is so. -/
structure Sweeping (requests : List Request) (c : State) (pts : List Sweep) : Prop where
  sweeps : ∀ {t : Nat} {pt : Sweep}, pts[t]? = some pt → requests[t]? = some .trialExpirationSweep → pt.sweeps = true
  now : ∀ {t : Nat} {pt : Sweep}, pts[t]? = some pt → c.latest? Op.time? t = pt.now
  found : ∀ {t : Nat} {pt : Sweep}, pts[t]? = some pt → c.latest? Op.found? t = pt.found
  sound : ∀ {t : Nat} {pt : Sweep}, pts[t]? = some pt → pt.sweeps = true → pt.Sound

theorem found_of_perform {o : Op} {a : Answer} {w : World} {holding : Bool} {copies : List Subscription}
    (h : o.found? (o.perform a w).1 = some (holding, copies)) : ∃ now, o = .subscription (.findLapsed now holding) ∧
      ∀ copy ∈ copies, copy.trialOver now = true ∧ (holding = true → copy.backed = true) := by
  cases o with
  | subscription op =>
    cases op with
    | findLapsed now active =>
      simp only [Op.perform, unlessFault] at h
      cases hFault : a.fault with
      | some text =>
        rw [hFault] at h
        cases h
      | none =>
        rw [hFault] at h
        cases h
        refine ⟨now, rfl, fun copy hMem => ?_⟩
        obtain ⟨-, hSel⟩ := List.mem_filter.mp hMem
        simp only [Bool.and_eq_true, Bool.or_eq_true, Bool.not_eq_true'] at hSel
        refine ⟨hSel.1, fun hHolding => ?_⟩
        rcases hSel.2 with hOff | hBacked
        · rw [hHolding] at hOff
          cases hOff
        · exact hBacked
    | _ => cases h
  | _ => cases h

theorem Sweep.Sound.after {pt : Sweep} {o : Op} {a : Answer} {w : World} (h : pt.Sound) (hAllows : pt.Allows o) :
    (pt.after o (o.perform a w).1).Sound := by
  intro holding copies hFound
  cases hNew : o.found? (o.perform a w).1 with
  | some found =>
    simp only [Sweep.after, hNew, Option.some_or, Option.some.injEq] at hFound
    subst hFound
    obtain ⟨now, rfl, hCopies⟩ := found_of_perform hNew
    exact ⟨now, hAllows, hCopies⟩
  | none =>
    simp only [Sweep.after, hNew, Option.none_or] at hFound
    obtain ⟨now, hNow, hCopies⟩ := h holding copies hFound
    refine ⟨now, ?_, hCopies⟩
    have hTime : o.time? (o.perform a w).1 = none := by
      cases o with
      | clock =>
        rw [show pt.found = none from hAllows] at hFound
        cases hFound
      | _ => rfl
    simp only [Sweep.after, hTime, Option.none_or, hNow]

theorem Sweeping.ran {t : Nat} {a : Answer} {o : Op} {th : Thread Op Op.Resp Err World Unit}
    {k : Except Err o.Resp → Promise Unit} {pt : Sweep} (h : Sweeping requests c pts) (hPoint : pts[t]? = some pt)
    (hAllows : pt.sweeps = true → pt.Allows o) (hRan : store.Ran c t a o th k c') :
    Sweeping requests c' (pts.set t (pt.after o (o.perform a c.state).1)) := by
  have hPoints : ∀ {u : Nat} {ptU : Sweep}, (pts.set t (pt.after o (o.perform a c.state).1))[u]? = some ptU →
      t = u ∧ ptU = pt.after o (o.perform a c.state).1 ∨ t ≠ u ∧ pts[u]? = some ptU := by
    intro u ptU hU
    by_cases hEq : t = u
    · subst hEq
      rw [Tables.getElem?_set_eq hPoint] at hU
      exact .inl ⟨rfl, (Option.some.inj hU).symm⟩
    · rw [List.getElem?_set_ne hEq] at hU
      exact .inr ⟨hEq, hU⟩
  constructor
  · intro u ptU hU hRequest
    rcases hPoints hU with ⟨rfl, rfl⟩ | ⟨-, hOld⟩
    · have hSweeps : pt.sweeps = true := h.sweeps hPoint hRequest
      exact hSweeps
    · exact h.sweeps hOld hRequest
  · intro u ptU hU
    rw [hRan.latest?]
    rcases hPoints hU with ⟨rfl, rfl⟩ | ⟨hNe, hOld⟩
    · rw [if_pos rfl, h.now hPoint]
      rfl
    · rw [if_neg hNe, h.now hOld]
  · intro u ptU hU
    rw [hRan.latest?]
    rcases hPoints hU with ⟨rfl, rfl⟩ | ⟨hNe, hOld⟩
    · rw [if_pos rfl, h.found hPoint]
      rfl
    · rw [if_neg hNe, h.found hOld]
  · intro u ptU hU hSweeps
    rcases hPoints hU with ⟨rfl, rfl⟩ | ⟨-, hOld⟩
    · exact (h.sound hPoint hSweeps).after (hAllows hSweeps)
    · exact h.sound hOld hSweeps

theorem sweeping_of_reach {env : Env} {w : World} {ok : State → Label Answer Event → Prop}
    (h : store.Reach ok (State.start env w requests) c) :
    ∃ pts, Tracks store sweeping (requests.map Request.sweep) c pts ∧ Sweeping requests c pts := by
  have hTracks : Tracks store sweeping (requests.map Request.sweep) (State.start env w requests) (requests.map Request.sweep) :=
    Tracks.initial fun r _ => r.program_follows_sweeping env
  refine hTracks.invariant (I := Sweeping requests) ?_ (fun _ hI _ hRan hPoint hMove _ => ?_)
    (fun _ hI _ _ => ⟨hI.sweeps, hI.now, hI.found, hI.sound⟩) (fun _ hI _ => ⟨hI.sweeps, hI.now, hI.found, hI.sound⟩) h
  · have hPoint : ∀ {t : Nat} {pt : Sweep}, (requests.map Request.sweep)[t]? = some pt → ∃ r, requests[t]? = some r ∧ r.sweep = pt := by
      intro t pt hPt
      rw [List.getElem?_map, Option.map_eq_some_iff] at hPt
      exact hPt
    constructor
    · intro t pt hPt hRequest
      obtain ⟨r, hr, rfl⟩ := hPoint hPt
      rw [hRequest] at hr
      cases hr
      rfl
    · intro t pt hPt
      obtain ⟨r, -, rfl⟩ := hPoint hPt
      rfl
    · intro t pt hPt
      obtain ⟨r, -, rfl⟩ := hPoint hPt
      rfl
    · intro t pt hPt _ holding copies hFound
      obtain ⟨r, -, rfl⟩ := hPoint hPt
      cases hFound
  · obtain ⟨hAllows, rfl⟩ := hMove
    exact hI.ran hPoint hAllows hRan

end Runs

/-- Whatever the interleaving, a sweep that makes a trial expired found its end
passed by the sweep's time, and it is neither internal nor held by the
extension. -/
theorem sweep_spares_running_trials {env : Env} {w : World} {requests : List Request} {c c' : State} {t : Nat} {a : Answer}
    {id : Id} {stored next : Subscription} (h : store.Reach (fun c l => expiresAsFound c l) (State.start env w requests) c)
    (hSweep : requests[t]? = some .trialExpirationSweep) (hAsFound : expiresAsFound c (.run t a) = true)
    (hStep : store.step (.run t a) c = some c') (hStored : c.state.subscription? id = some stored)
    (hNext : c'.state.subscription? id = some next) (hLive : stored.status ≠ .expired) (hExpired : next.status = .expired) :
    ∃ now, c.latest? Op.time? t = some now ∧ stored.trialEnd.any (· ≤ now) = true ∧ stored.provider ≠ .internal ∧
      (c.state.trialExtensionActive = true → isExtendableTrial stored = false) := by
  obtain ⟨o, th, k, hRan⟩ := Store.run_cases hStep
  obtain ⟨pts, hTracks, hSweeping⟩ := sweeping_of_reach h
  obtain ⟨pt, pt', hPoint, hMove, -⟩ := hTracks.ran hRan
  have hSweeps := hSweeping.sweeps hPoint hSweep
  have hAllows := hMove.1 hSweeps
  obtain ⟨next', hNext', hTurns⟩ := o.turns a hStored
  rw [← hRan.state, hNext] at hNext'
  cases hNext'
  cases hTurns with
  | same => exact absurd hExpired hLive
  | held => exact absurd hExpired hLive
  | @updated filter update hOp hSelects =>
    subst hOp
    obtain ⟨r, hRequest, hWrites⟩ := (hRan.performs_each (h.performsEach (@State.start_writes env w requests))).1
    rw [hSweep] at hRequest
    cases hRequest
    cases hWrites with
    | plain hPlain => cases hPlain
    | graces => exact absurd hExpired hLive
    | expires filterId =>
      obtain ⟨hId, hStatus, -⟩ := SubscriptionFilter.selects_iff.mp hSelects
      have hTrial : stored.status = .trialing := hStatus .trialing rfl
      obtain ⟨holding, copies, copy, hFound, hMem, hCopyId⟩ := hAllows rfl
      obtain ⟨now, hNow, hCopies⟩ := hSweeping.sound hPoint hSweeps holding copies hFound
      obtain ⟨hOver, hBacked⟩ := hCopies copy hMem
      have hFilter : id = filterId := (World.id_of_subscription hStored).symm.trans hId
      subst hFilter
      have hAll := hAsFound
      simp only [expiresAsFound, hRan.waiting?, hSweeping.found hPoint, hFound] at hAll
      have hAsCopy := List.all_eq_true.mp hAll copy hMem
      simp only [hCopyId, ne_eq, not_true_eq_false, decide_false, Bool.false_or, hStored, Option.all_some, hTrial,
        Subscription.isAsFound, Bool.and_eq_true, decide_eq_true_eq, Bool.or_eq_true, Bool.not_eq_true'] at hAsCopy
      obtain ⟨⟨⟨hEnd, hProvider⟩, hBackedSame⟩, hActive⟩ := hAsCopy
      simp only [Subscription.trialOver, Bool.and_eq_true, decide_eq_true_eq] at hOver
      refine ⟨now, (hSweeping.now hPoint).trans hNow, by rw [hEnd]; exact hOver.1.2, by rw [hProvider]; exact hOver.2, ?_⟩
      intro hExtension
      rcases hActive with hOff | hHolding
      · rw [hExtension] at hOff
        cases hOff
      · simp only [isExtendableTrial, hBackedSame, hBacked hHolding, Bool.not_true, Bool.and_false, Bool.false_and]

theorem sweep_spares_running_trials_expired : ∃ c c' : State, c.state.subscription? 0 = some localTrial ∧
    c'.state.subscription? 0 = some { localTrial with status := .expired } ∧
    ∃ now, c.latest? Op.time? 0 = some now ∧ localTrial.trialEnd.any (· ≤ now) = true ∧ localTrial.provider ≠ .internal ∧
      (c.state.trialExtensionActive = true → isExtendableTrial localTrial = false) := by
  obtain ⟨c, hReach, hEnd⟩ := store.exists_of_exec expiresAsFound
    (State.start {} { trialWorld with now := 100 } [.trialExpirationSweep]) (List.replicate 5 (.run 0 {}))
    (fun c : State => c.state.subscription? 0 = some localTrial && expiresAsFound c (.run 0 {}) &&
      (store.step (.run 0 {}) c).any fun c' : State => c'.state.subscription? 0 = some { localTrial with status := .expired })
    (by decide +kernel)
  simp only [Bool.and_eq_true, decide_eq_true_eq] at hEnd
  obtain ⟨⟨hStored, hGuard⟩, hStep⟩ := hEnd
  obtain ⟨c', hStep, hNext⟩ := (Option.any_eq_true _ _).mp hStep
  rw [decide_eq_true_eq] at hNext
  exact ⟨c, c', hStored, hNext, sweep_spares_running_trials hReach rfl hGuard hStep hStored hNext (by decide) rfl⟩

/-- The checkout of an ended trial completes between the query and the write:
the provider's trial, with time left, is expired. -/
theorem sweep_ends_running_trial : ¬ ∀ (env : Env) (w : World) (requests : List Request) (c c' : State) (t : Nat) (a : Answer)
    (id : Id) (stored next : Subscription), store.Reach (fun _ _ => True) (State.start env w requests) c →
    requests[t]? = some .trialExpirationSweep → store.step (.run t a) c = some c' → c.state.subscription? id = some stored →
    c'.state.subscription? id = some next → stored.status ≠ .expired → next.status = .expired →
    ∃ now, c.latest? Op.time? t = some now ∧ stored.trialEnd.any (· ≤ now) = true := by
  intro hClaim
  let converted : Subscription := { localTrial with
    trialEnd := some 900, currentPeriodStart := 100, currentPeriodEnd := 900, providerCustomerId := some "ctm_1"
    providerSubscriptionId := some "sub_1", lastProviderEventAt := some 40 }
  obtain ⟨c, hReach, hEnd⟩ := store.exists_of_exec (fun _ _ => true)
    (State.start {} { trialWorld with now := 100 } [.trialExpirationSweep, .billingEvent .paddle checkoutCompleted])
    (List.flatten [List.replicate 5 (.run 0 {}), List.replicate 6 (.run 1 { snapshot := ⟨.trialing, 100, 900, some 900⟩ })])
    (fun c : State => c.state.subscription? 0 = some converted && c.latest? Op.time? 0 = some 100 &&
      (store.step (.run 0 {}) c).any fun c' : State => c'.state.subscription? 0 = some { converted with status := .expired })
    (by decide +kernel)
  simp only [Bool.and_eq_true, decide_eq_true_eq] at hEnd
  obtain ⟨⟨hStored, hTime⟩, hStep⟩ := hEnd
  obtain ⟨c', hStep, hNext⟩ := (Option.any_eq_true _ _).mp hStep
  rw [decide_eq_true_eq] at hNext
  obtain ⟨now, hNow, hOver⟩ := hClaim {} _ _ c c' 0 {} 0 converted _ (hReach.mono fun _ _ _ => trivial) rfl hStep hStored hNext
    (by decide) rfl
  rw [hTime] at hNow
  cases hNow
  exact absurd hOver (by decide)

end RestaurantOs.Billing
