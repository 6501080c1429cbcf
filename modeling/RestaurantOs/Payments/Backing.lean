import RestaurantOs.Payments.Exposure

/-!
# Backing

Every move, stop and event keeps the exposed refunds backed. A refund stops
being exposed only when its reservation is released or when it fails, and then
the provider has nothing left to refund of it.
-/

namespace RestaurantOs.Payments

open Async

variable {S : Id → Prop} {c c' : State} {start pts : List Point} {t u : Nat} {a : Answer} {o : Op}
  {th : Thread Op Op.Resp Err World Unit} {k : Except Err o.Resp → Promise Unit} {pt pt' pu : Point}

/-! ## Requests that work on the same refund -/

section Working

variable {w : World} {ph : Phase} {r r' : Refund} {s s' : Stake}

theorem Phase.working_cases (h : ph.working = some r) (hFits : ph.Fits) :
    ph.owner = some r.id ∨ ph.reissues = some r.id := by
  cases ph with
  | claimed claim | unreserved claim | reserved claim =>
    cases h
    exact .inl rfl
  | ready call | calling call =>
    cases h
    cases hReissue : call.reissue with
    | true => exact .inr (if_pos hReissue)
    | false => exact .inl (if_neg (by rw [hReissue]; exact Bool.false_ne_true))
  | refused call | released call =>
    cases h
    exact .inl (if_neg (by rw [hFits.2]; exact Bool.false_ne_true))
  | _ => cases h

theorem World.Consistent.key_ne (h : w.Consistent) (hStored : w.Stored r) (hStored' : w.Stored r') (hNe : r'.id ≠ r.id) :
    r'.refundKey ≠ r.refundKey := by
  obtain ⟨s, hs, hClaim⟩ := hStored
  obtain ⟨s', hs', hClaim'⟩ := hStored'
  intro hKey
  have hEq : s' = s := Tables.eq_of_id h.refundKeys hs' hs (by rw [hClaim, hClaim']; exact hKey)
  rw [hEq, hClaim] at hClaim'
  exact hNe (congrArg Claim.id hClaim').symm

theorem World.Consistent.stored_claim (h : w.Consistent) (hStored : w.Stored r) (hs : s ∈ w.stakes)
    (hId : s.claim.id = r.id) : s.claim = r.claim := by
  obtain ⟨s₀, hs₀, hClaim⟩ := hStored
  have hEq : s₀ = s := Tables.eq_of_id h.refundIds hs₀ hs (by rw [hClaim]; exact hId.symm)
  rw [← hEq]
  exact hClaim

theorem Posts.working {ph' : Phase} {key : ProviderRefundKey} (h : Posts o a ph ph' key) :
    ∃ r, ph.working = some r ∧ r.refundKey = key := by
  cases h with
  | send => exact ⟨_, rfl, rfl⟩
  | reject => exact ⟨_, rfl, rfl⟩

theorem Move.dropped (h : Move o a w pt pt') (hOn : (o.edit w).on s = none) :
    ∃ r, r.id = s.claim.id ∧ pt.phase.working = some r ∧ (pt.phase.Fits → pt.phase.owner = some r.id) ∧
      ∀ {S : Id → Prop}, pt.phase.Safe S w → w.Unsent r.refundKey := by
  have hEdits := h.edits
  generalize o.edit w = e at hEdits hOn
  generalize pt.phase = ph at hEdits ⊢
  generalize pt'.phase = ph' at hEdits
  induction hEdits with
  | @dropUnreserved claim =>
    simp only [Edit.on] at hOn
    split at hOn
    · rename_i hSel
      exact ⟨claim, hSel.1.symm, rfl, fun _ => rfl, fun hSafe => hSafe⟩
    · cases hOn
  | @dropRefused call =>
    simp only [Edit.on] at hOn
    split at hOn
    · rename_i hSel
      exact ⟨call.claim, hSel.1.symm, rfl, fun hFits => if_neg (by rw [hFits.2]; exact Bool.false_ne_true), fun hSafe => hSafe⟩
    · cases hOn
  | _ => cases hOn

theorem Move.failed (h : Move o a w pt pt') (hOn : (o.edit w).on s = some s') (hFailed : s.status = .failed) :
    s'.status = .failed := by
  have hEdits := h.edits
  generalize o.edit w = e at hEdits hOn
  generalize pt.phase = ph at hEdits
  generalize pt'.phase = ph' at hEdits
  induction hEdits with
  | dropUnreserved | dropRefused =>
    simp only [Edit.on] at hOn
    split at hOn
    · cases hOn
    · cases hOn
      exact hFailed
  | mark =>
    cases hOn
    split <;> exact hFailed
  | settle hOp hApplies hId hSource hTarget hAllowed =>
    cases hOn
    split
    · rename_i hSel
      rw [← hSel.2, hFailed] at hAllowed
      cases hAllowed
    · exact hFailed
  | _ =>
    cases hOn
    exact hFailed

end Working

theorem Config.RunsAt.waiting (hT : Tracks store protocol start c pts) (h : Config.RunsAt c pts u pu)
    (hRest : pu.phase.calm = false) : ∃ o, c.waiting? u = some o ∧ ∃ a w pt', Move o a w pu pt' := by
  obtain ⟨⟨thU, hThread, hRunning⟩, hU⟩ := h
  refine hT.waiting hThread hU hRunning ?_
  rintro ⟨-, hCalm⟩
  rw [hRest] at hCalm
  cases hCalm

theorem Config.RunsAt.worksOn {id : Id} (hT : Tracks store protocol start c pts) (h : Config.RunsAt c pts u pu)
    (hWorker : pu.phase.worker = some id) : c.waiting.any (Op.worksOn id) = true := by
  have hBusy : pu.phase.calm = false := by
    by_contra hCalm
    rw [Phase.worker_calm (Bool.eq_true_of_not_eq_false hCalm)] at hWorker
    cases hWorker
  obtain ⟨o, hWaiting, a, w, pt', hMove⟩ := h.waiting hT hBusy
  exact List.any_eq_true.mpr ⟨o, Config.mem_waiting hWaiting, hMove.worksOn hWorker⟩

theorem Config.RunsAt.claims {id : Id} (hT : Tracks store protocol start c pts) (h : Config.RunsAt c pts u pu)
    (hOwner : pu.phase.owner = some id) : c.waiting.any (Op.claims id) = true := by
  have hBusy : pu.phase.calm = false := by
    by_contra hCalm
    rw [Phase.owner_calm (Bool.eq_true_of_not_eq_false hCalm)] at hOwner
    cases hOwner
  obtain ⟨o, hWaiting, a, w, pt', hMove⟩ := h.waiting hT hBusy
  exact List.any_eq_true.mpr ⟨o, Config.mem_waiting hWaiting, hMove.claims hOwner⟩

section Apart

variable {r r' : Refund}

theorem Exposed.id_ne (h : Exposed S c pts) (hU : Config.RunsAt c pts u pu) (hT : Config.RunsAt c pts t pt) (hNe : u ≠ t)
    (hOwner : pu.phase.owner = some r.id) (hWorking : pt.phase.working = some r') : r'.id ≠ r.id := by
  intro hEq
  have hMem := List.mem_of_getElem? hT.2
  rcases Phase.working_cases hWorking (h.ordered.fits pt hMem) with hOwner' | hReissues
  · exact hNe (h.ordered.owners hU.2 hT.2 hOwner (hEq ▸ hOwner'))
  · exact h.apart u pu _ hU hOwner pt hMem (hEq ▸ hReissues)

theorem Exposed.key_ne (h : Exposed S c pts) (hU : Config.RunsAt c pts u pu) (hT : Config.RunsAt c pts t pt) (hNe : u ≠ t)
    (hOwner : pu.phase.owner = some r.id) (hWorkingU : pu.phase.working = some r)
    (hWorking : pt.phase.working = some r') : r'.refundKey ≠ r.refundKey :=
  h.ordered.consistent.key_ne (h.stored u pu r hU hWorkingU) (h.stored t pt r' hT hWorking)
    (h.id_ne hU hT hNe hOwner hWorking)

theorem Exposed.posts_ne (h : Exposed S c pts) (hU : Config.RunsAt c pts u pu) (hT : Config.RunsAt c pts t pt)
    (hNe : u ≠ t) (hOwner : pu.phase.owner = some r.id) (hWorking : pu.phase.working = some r) :
    ∀ key, Posts o a pt.phase pt'.phase key → key ≠ r.refundKey := by
  intro key hPosts
  obtain ⟨r', hWorking', rfl⟩ := hPosts.working
  exact h.key_ne hU hT hNe hOwner hWorking hWorking'

end Apart

/-! ## Where an exposure ends -/

structure Ended (S : Id → Prop) (c : State) (pts : List Point) (t : Nat) (o : Op) (r : Refund) : Prop where
  stored : c.state.Stored r
  exposed : S r.id
  ledger : ∀ e ∈ c.state.ledger, e.key = r.refundKey → e.status = .failed ∧
    ∀ s ∈ c.state.stakes, s.claim.id = r.id → ∀ s', (o.edit c.state).on s = some s' → s'.status = .failed
  received : c.state.inFlight r.refundKey = 0 ∨ c.state.Recorded r.refundKey
  others : ∀ u pu, u ≠ t → Config.RunsAt c pts u pu → pu.phase.worker = some r.id → c.state.Recorded r.refundKey

theorem Phase.worker_working {ph : Phase} {id : Id} (h : ph.worker = some id) : ∃ r, ph.working = some r ∧ r.id = id := by
  cases ph with
  | reserved claim =>
    cases h
    exact ⟨claim, rfl, rfl⟩
  | ready call | refused call | released call =>
    cases h
    exact ⟨call.claim, rfl, rfl⟩
  | _ => cases h

section Ended

variable {s : Settlement} {before current r : Refund} {report : RefundReport} {method : ReportMethod}

theorem Exposed.ended_release {call : RefundCall} (h : Exposed S c pts) (hRunsAt : Config.RunsAt c pts t pt)
    (hPhase : pt.phase = .refused call) : Ended S c pts t o call.claim := by
  have hSafe := h.safe t pt hRunsAt
  have hFits := h.ordered.fits pt (List.mem_of_getElem? hRunsAt.2)
  have hWorking : pt.phase.working = some call.claim := by rw [hPhase]; rfl
  have hOwner : pt.phase.owner = some call.claim.id := by
    rw [hPhase] at hFits ⊢
    exact if_neg (by rw [hFits.2]; exact Bool.false_ne_true)
  rw [hPhase] at hSafe
  obtain ⟨hUnsent, hS⟩ := hSafe
  refine ⟨h.stored t pt _ hRunsAt hWorking, hS, fun e he hKey => absurd ⟨e, he, hKey⟩ hUnsent.recorded,
    .inl hUnsent.inFlight, fun u pu hNe hRunsU hWorker => ?_⟩
  obtain ⟨r', hWorking', hId⟩ := Phase.worker_working hWorker
  exact absurd hId (h.id_ne hRunsAt hRunsU hNe.symm hOwner hWorking')

theorem careful_byHand (hCareful : careful c (.run t a) = true) (hWaiting : c.waiting? t = some (.refund (.settle s)))
    (hApplies : s.Applies c.state before) (hHand : s.byHand = true) (hFailed : s.target = .failed)
    (hCounted : before.counted = true) : before.status = .pending ∧ c.waiting.any (Op.worksOn before.id) = false ∧
      c.state.inFlight before.refundKey = 0 ∧ ∀ e ∈ c.state.ledger, e.key = before.refundKey → e.status = .failed := by
  have hNot : notRefunded c s = true := by
    simpa [careful, hWaiting, hHand, hFailed, hApplies.applies] using hCareful
  have hSel := List.find?_some hApplies.1
  have hBefore := List.all_eq_true.mp hNot before (List.mem_of_find?_eq_some hApplies.1)
  rw [Bool.and_eq_true] at hSel
  simp only [hSel.1, hSel.2, hCounted, Bool.and_self, Bool.not_true, Bool.false_or, Bool.and_eq_true,
    decide_eq_true_eq, Bool.not_eq_eq_eq_not, Bool.not_true] at hBefore
  obtain ⟨⟨⟨hPending, hIdle⟩, hReceived⟩, hLedger⟩ := hBefore
  refine ⟨hPending, hIdle, List.countP_eq_zero.mpr fun r hr => ?_, fun e he hKey => ?_⟩
  · exact List.any_eq_false.mp hReceived r hr
  · have hDead := List.any_eq_false.mp hLedger e he
    simpa [hKey] using hDead

theorem Exposed.ended_fail (hT : Tracks store protocol start c pts) (h : Exposed S c pts)
    (hCareful : careful c (.run t a) = true) (hRan : store.Ran c t a o th k c') (hPoint : pts[t]? = some pt)
    (hPhase : pt.phase = .decided current report method) (hApplies : s.Applies c.state before)
    (hOp : o = .refund (.settle s)) (hId : s.id = current.id) (hAllowed : s.target ∈ refundTransitions s.source) (hTarget : s.target = report.status)
    (hHand : s.byHand = decide (method = .manual)) (hFailed : s.target = .failed) (hCounted : before.counted = true) :
    Ended S c pts t o before := by
  subst hOp
  have hMem := List.mem_of_getElem? hPoint
  have hConsistent := h.ordered.consistent
  have hSel := List.find?_some hApplies.1
  simp only [Bool.and_eq_true, decide_eq_true_eq] at hSel
  have hBefore : before ∈ c.state.refunds := List.mem_of_find?_eq_some hApplies.1
  have hStored : c.state.Stored before := ⟨before.stake, stake_mem hBefore, rfl⟩
  have hSettled : ∀ s₁ ∈ c.state.stakes, s₁.claim.id = before.id → ∀ s', ((Op.refund (.settle s)).edit c.state).on s₁ = some s' →
      s'.status = .failed := by
    intro s₁ hs₁ hEq s' hOn
    have hSame : s₁ = before.stake := Tables.eq_of_id hConsistent.refundIds hs₁ (stake_mem hBefore) hEq
    rw [Op.edit_settle hApplies, hSame] at hOn
    have hOn' : some (Stake.mk before.claim s.target (s.target ≠ .failed)) = some s' :=
      (congrArg some (if_pos hSel)).symm.trans hOn
    cases hOn'
    exact hFailed
  have hReserved : before.status = .pending → S before.id ∨
      ∃ u pu call, Config.RunsAt c pts u pu ∧ pu.phase = .released call ∧ call.claim.id = before.id := by
    intro hPending
    refine h.reserved before.stake (stake_mem hBefore) hPending ?_
    simpa [Refund.counted, hPending] using hCounted
  by_cases hManual : method = .manual
  · obtain ⟨hPending, hIdle, hReceived, hLedger⟩ := careful_byHand hCareful hRan.waiting? hApplies
      (by rw [hHand, hManual]; rfl) hFailed hCounted
    have hWorker : ∀ u pu, Config.RunsAt c pts u pu → pu.phase.worker ≠ some before.id := by
      intro u pu hRunsU hWorker
      rw [hRunsU.worksOn hT hWorker] at hIdle
      cases hIdle
    refine ⟨hStored, ?_, fun e he hKey => ⟨hLedger e he hKey, hSettled⟩, .inl hReceived,
      fun u pu _ hRunsU hEq => absurd hEq (hWorker u pu hRunsU)⟩
    rcases hReserved hPending with hS | ⟨u, pu, call, hRunsU, hReleased, hEq⟩
    · exact hS
    · exact absurd (by rw [hReleased, ← hEq]; rfl) (hWorker u pu hRunsU)
  · have hHonest := h.honest pt hMem
    have hKnows := h.ordered.knows pt hMem
    rw [hPhase] at hHonest hKnows
    obtain ⟨e, he, hKey, hDead⟩ := (hHonest hManual).failed (hTarget.symm.trans hFailed)
    have hClaim := (hKnows current (List.mem_singleton_self _)).eq_of_id _ (stake_mem hBefore) (hSel.1.trans hId)
    have hKey' : e.key = before.refundKey := hKey.trans (congrArg Claim.key hClaim).symm
    have hRecorded : c.state.Recorded before.refundKey := ⟨e, he, hKey'⟩
    refine ⟨hStored, ?_, fun e' he' hEq => ⟨?_, hSettled⟩, .inr hRecorded, fun _ _ _ _ _ => hRecorded⟩
    · cases hStatus : before.status with
      | pending =>
        rcases hReserved hStatus with hS | ⟨u, pu, call, hRunsU, hReleased, hEq⟩
        · exact hS
        · have hSafe := h.safe u pu hRunsU
          have hStoredU := h.stored u pu call.claim hRunsU (by rw [hReleased]; rfl)
          rw [hReleased] at hSafe
          have hSame := hConsistent.stored_claim hStoredU (stake_mem hBefore) hEq.symm
          have hKeys : call.claim.refundKey = before.refundKey := (congrArg Claim.key hSame).symm
          exact absurd (hKeys ▸ hRecorded) hSafe.recorded
      | succeeded =>
        obtain ⟨s₀, hs₀, hMatches, hExposed⟩ := h.ledger e he
        have hSame : s₀ = before.stake := Tables.eq_of_id hConsistent.refundKeys hs₀ (stake_mem hBefore)
          (hMatches.key_eq.trans hKey')
        subst hSame
        rcases hExposed with hS | ⟨-, hStakeFailed⟩
        · exact hS
        · rw [Refund.stake_status, hStatus] at hStakeFailed
          cases hStakeFailed
      | failed =>
        rw [← hSel.2, hStatus] at hAllowed
        cases hAllowed
    · have hSame : e' = e := Tables.eq_of_id h.ledgerKeys he' he (hEq.trans hKey'.symm)
      rw [hSame]
      exact hDead

theorem Exposed.ended (hT : Tracks store protocol start c pts) (h : Exposed S c pts)
    (hCareful : careful c (.run t a) = true) (hRan : store.Ran c t a o th k c') (hPoint : pts[t]? = some pt)
    (hEnds : Ends o c.state pt.phase pt'.phase r) : Ended S c pts t o r := by
  generalize hPhase : pt.phase = ph at hEnds
  generalize pt'.phase = ph' at hEnds
  induction hEnds with
  | release => exact h.ended_release (.of_ran hRan hPoint) hPhase
  | fail hApplies hOp hId hAllowed hTarget hHand hFailed hCounted =>
    exact h.ended_fail hT hCareful hRan hPoint hPhase hApplies hOp hId hAllowed hTarget hHand hFailed hCounted

end Ended

/-! ## What a move keeps -/

section Kept

variable {s : Stake}

def EndsSafely (S : Id → Prop) (c : State) (pts : List Point) (t : Nat) (o : Op) (pt pt' : Point) : Prop :=
  ∀ r, Ends o c.state pt.phase pt'.phase r → Ended S c pts t o r

theorem Exposed.kept (h : Exposed S c pts) (hRunsAt : Config.RunsAt c pts t pt) (hMove : Move o a c.state pt pt')
    (hs : s ∈ c.state.stakes) (hUsed : ¬ c.state.Unsent s.claim.key) :
    ∃ s', (o.edit c.state).on s = some s' ∧ s' ∈ (o.perform a c.state).2.stakes := by
  cases hOn : (o.edit c.state).on s with
  | none =>
    obtain ⟨r, hId, hWorking, -, hUnsent⟩ := hMove.dropped hOn
    have hClaim := h.ordered.consistent.stored_claim (h.stored t pt r hRunsAt hWorking) hs hId.symm
    exact absurd (by rw [hClaim]; exact hUnsent (h.safe t pt hRunsAt)) hUsed
  | some s' =>
    refine ⟨s', rfl, ?_⟩
    rw [o.stakes_perform, Edit.mem_apply]
    exact .inl ⟨s, hs, hOn⟩

theorem Exposed.exposed_or (h : Exposed S c pts) (hEnds : EndsSafely S c pts t o pt pt') (hMove : Move o a c.state pt pt')
    (hs : s ∈ c.state.stakes) (hS : S s.claim.id) :
    exposedAfter S o pt' s.claim.id ∨ ∃ r, Ended S c pts t o r ∧ s.claim = r.claim := by
  rcases hMove.exposedAfter_of hS with hStill | hNew | ⟨r, hEnd, hId⟩
  · exact .inl hStill
  · exact absurd hNew (Nat.ne_of_lt (h.ordered.consistent.sound s hs).id_lt)
  · have hEnded := hEnds r hEnd
    exact .inr ⟨r, hEnded, h.ordered.consistent.stored_claim hEnded.stored hs hId.symm⟩

theorem Stake.Matches.congr {s s' : Stake} {request : RefundRequest} (h : s.Matches request) (hClaim : s'.claim = s.claim) :
    s'.Matches request := by
  obtain ⟨hKey, hPayment, hAmount⟩ := h
  exact ⟨by rw [hClaim]; exact hKey, by rw [hClaim]; exact hPayment, by rw [hClaim]; exact hAmount⟩

theorem Exposed.ledger_run (h : Exposed S c pts) (hRunsAt : Config.RunsAt c pts t pt)
    (hEnds : EndsSafely S c pts t o pt pt') (hMove : Move o a c.state pt pt') :
    ∀ e ∈ (o.perform a c.state).2.ledger, ∃ s ∈ (o.perform a c.state).2.stakes, s.Matches e.toRefundRequest ∧
      (exposedAfter S o pt' s.claim.id ∨ (e.status = .failed ∧ s.status = .failed)) := by
  intro e he
  rw [(o.ledger_perform a c.state).1] at he
  obtain ⟨s, hs, hMatches, hExposed⟩ := h.ledger e he
  obtain ⟨s', hOn, hs'⟩ := h.kept hRunsAt hMove hs fun hUnsent => hUnsent.recorded ⟨e, he, hMatches.key_eq.symm⟩
  have hClaim := Edit.on_claim hOn
  refine ⟨s', hs', hMatches.congr hClaim, ?_⟩
  rcases hExposed with hS | ⟨hDead, hFailed⟩
  · rcases h.exposed_or hEnds hMove hs hS with hStill | ⟨r, hEnded, hEq⟩
    · rw [hClaim]
      exact .inl hStill
    · obtain ⟨hDead, hFailed⟩ := hEnded.ledger e he (hMatches.key_eq.symm.trans (congrArg Claim.key hEq))
      exact .inr ⟨hDead, hFailed s hs (congrArg Claim.id hEq) s' hOn⟩
  · exact .inr ⟨hDead, hMove.failed hOn hFailed⟩

theorem Exposed.received_run (h : Exposed S c pts) (hRunsAt : Config.RunsAt c pts t pt)
    (hEnds : EndsSafely S c pts t o pt pt') (hMove : Move o a c.state pt pt') :
    ∀ r ∈ (o.perform a c.state).2.received, ∃ s ∈ (o.perform a c.state).2.stakes, s.Matches r ∧
      (exposedAfter S o pt' s.claim.id ∨ (o.perform a c.state).2.Recorded r.key) := by
  have hOld : ∀ r ∈ c.state.received, ∃ s ∈ (o.perform a c.state).2.stakes, s.Matches r ∧
      (exposedAfter S o pt' s.claim.id ∨ (o.perform a c.state).2.Recorded r.key) := by
    intro r hr
    obtain ⟨s, hs, hMatches, hExposed⟩ := h.received r hr
    obtain ⟨s', hOn, hs'⟩ := h.kept hRunsAt hMove hs fun hUnsent => hUnsent.not_received hr hMatches.key_eq.symm
    have hClaim := Edit.on_claim hOn
    refine ⟨s', hs', hMatches.congr hClaim, ?_⟩
    rw [World.recorded_perform, hClaim]
    rcases hExposed with hS | hRecorded
    · rcases h.exposed_or hEnds hMove hs hS with hStill | ⟨r', hEnded, hEq⟩
      · exact .inl hStill
      · have hKey : r'.refundKey = r.key := (congrArg Claim.key hEq).symm.trans hMatches.key_eq
        rcases hEnded.received with hNone | hRecorded
        · exact absurd (decide_eq_true hKey.symm) (List.countP_eq_zero.mp hNone r hr)
        · exact .inr (hKey ▸ hRecorded)
    · exact .inr hRecorded
  intro r hr
  rw [o.received_perform] at hr
  rcases hMove.posts with hSame | ⟨key, hPosts⟩
  · rw [hSame] at hr
    exact hOld r hr
  · generalize hPhase : pt.phase = ph at hPosts
    generalize pt'.phase = ph' at hPosts
    cases hPosts with
    | @send call hOp =>
      subst hOp
      rcases List.mem_append.mp hr with hr | hr
      · exact hOld r hr
      · cases List.mem_singleton.mp hr
        have hSafe := h.safe t pt hRunsAt
        have hFits := h.ordered.fits pt (List.mem_of_getElem? hRunsAt.2)
        obtain ⟨s, hs, hClaim⟩ := h.stored t pt call.claim hRunsAt (by rw [hPhase]; rfl)
        rw [hPhase] at hSafe hFits
        refine ⟨s, hs, ⟨by rw [hClaim]; rfl, by rw [hClaim]; exact hFits.symm, by rw [hClaim]; rfl⟩, ?_⟩
        rw [hClaim]
        cases hReissue : call.reissue with
        | false => exact .inl (hSafe.1 hReissue).2
        | true => exact hSafe.2 hReissue
    | @reject call _ err hOp hAnswer hRejected =>
      subst hOp
      simp only [Op.inbox, hAnswer, hRejected, if_true] at hr
      exact hOld r (List.mem_of_mem_erase hr)

theorem Exposed.reserved_before {s' : Stake} (h : Exposed S c pts) (hRunsAt : Config.RunsAt c pts t pt)
    (hMove : Move o a c.state pt pt') (hs : s ∈ c.state.stakes) (hOn : (o.edit c.state).on s = some s')
    (hPending : s'.status = .pending) (hReserved : s'.reserved = true) : S s.claim.id ∨
      ∃ u pu call, Config.RunsAt c pts u pu ∧ pu.phase = .released call ∧ call.claim.id = s.claim.id := by
  have hSafe := h.safe t pt hRunsAt
  have hEdits := hMove.edits
  generalize o.edit c.state = e at hEdits hOn
  generalize pt.phase = ph at hEdits hSafe
  generalize pt'.phase = ph' at hEdits
  induction hEdits with
  | dropUnreserved | dropRefused =>
    simp only [Edit.on] at hOn
    split at hOn
    · cases hOn
    · cases hOn
      exact h.reserved s hs hPending hReserved
  | mark =>
    simp only [Edit.on, Option.some.injEq] at hOn
    subst hOn
    split at hPending
    · rename_i hSel
      exact .inl (hSel.1 ▸ hSafe.2)
    · rename_i hSel
      rw [if_neg hSel] at hReserved
      exact h.reserved s hs hPending hReserved
  | settle hOp hApplies hId hSource hTarget hAllowed =>
    simp only [Edit.on, Option.some.injEq] at hOn
    subst hOn
    split at hPending
    · exact absurd hPending (refundTransitions_ne_pending hAllowed)
    · rename_i hSel
      rw [if_neg hSel] at hReserved
      exact h.reserved s hs hPending hReserved
  | _ =>
    cases hOn
    exact h.reserved s hs hPending hReserved

theorem Exposed.reserved_run (h : Exposed S c pts) (hRan : store.Ran c t a o th k c') (hPoint : pts[t]? = some pt)
    (hEnds : EndsSafely S c pts t o pt pt') (hMove : Move o a c.state pt pt') :
    ∀ s ∈ (o.perform a c.state).2.stakes, s.status = .pending → s.reserved = true → exposedAfter S o pt' s.claim.id ∨
      ∃ u pu call, Config.RunsAt c' (pts.set t pt') u pu ∧ pu.phase = .released call ∧ call.claim.id = s.claim.id := by
  have hRunsAt := Config.RunsAt.of_ran hRan hPoint
  intro s' hs' hPending hReserved
  rw [o.stakes_perform, Edit.mem_apply] at hs'
  rcases hs' with ⟨s, hs, hOn⟩ | hBorn
  · have hClaim := Edit.on_claim hOn
    rw [hClaim]
    have hBefore := h.reserved_before hRunsAt hMove hs hOn hPending hReserved
    rcases hBefore with hS | ⟨u, pu, call, hRunsU, hReleased, hId⟩
    · rcases hMove.exposedAfter_of hS with hStill | hNew | ⟨r, hEnd, hId⟩
      · exact .inl hStill
      · exact absurd hNew (Nat.ne_of_lt (h.ordered.consistent.sound s hs).id_lt)
      · generalize hPhase : pt.phase = ph at hEnd
        generalize hPhase' : pt'.phase = ph' at hEnd
        cases hEnd with
        | release => exact .inr ⟨t, pt', _, Config.RunsAt.self hRan hPoint, hPhase', hId⟩
        | @fail st _ _ _ _ hApplies hOp _ _ _ _ hFailed =>
          have hSel := List.find?_some hApplies.1
          simp only [Bool.and_eq_true, decide_eq_true_eq] at hSel
          have hSame : s = r.stake := Tables.eq_of_id h.ordered.consistent.refundIds hs (refund_of_find? hApplies.1) hId.symm
          rw [hOp, Op.edit_settle hApplies, hSame] at hOn
          have hOn' : some (Stake.mk r.claim st.target (st.target ≠ .failed)) = some s' :=
            (congrArg some (if_pos hSel)).symm.trans hOn
          cases hOn'
          exact absurd (hFailed.symm.trans hPending) (by simp)
    · by_cases hNe : u = t
      · subst hNe
        cases hPoint.symm.trans hRunsU.2
        rw [hMove.of_released hReleased] at hOn
        change ite _ none (some s) = some s' at hOn
        split at hOn
        · cases hOn
        · rename_i hSel
          cases hOn
          exact absurd ⟨hId.symm, hPending⟩ hSel
      · exact .inr ⟨u, pu, call, hRunsU.other hRan hNe, hReleased, hId⟩
  · obtain ⟨_, -, hOpens⟩ := hMove.born hBorn
    rw [hOpens.reserved_eq] at hReserved
    cases hReserved

theorem Move.working {w : World} {r : Refund} (h : Move o a w pt pt') (hWorking : pt'.phase.working = some r) :
    (∃ r₀, pt.phase.working = some r₀ ∧ r₀.claim = r.claim ∧ ∀ s, (o.edit w).on s ≠ none) ∨
      (∃ r₀ ∈ w.refunds, r₀.claim = r.claim ∧ o.edit w = .keep) ∨ ∃ s ∈ (o.edit w).born, s.claim = r.claim := by
  induction h with
  | quiet _ hph | setLookup hph =>
    rw [Phase.working_calm hph] at hWorking
    cases hWorking
  | reserve | reserveRefused | mark | send | refused | release =>
    cases hWorking
    exact .inl ⟨_, rfl, rfl, fun s hOn => by cases hOn⟩
  | lease _ _ _ hFind =>
    cases hWorking
    exact .inr (.inl ⟨_, List.mem_of_find?_eq_some hFind, rfl, rfl⟩)
  | claim hDraft hPayment hFree =>
    cases hWorking
    rw [Op.edit_create hFree]
    exact .inr (.inr ⟨_, List.mem_singleton_self _, rfl⟩)
  | _ => cases hWorking

theorem Exposed.stored_run (h : Exposed S c pts) (hRan : store.Ran c t a o th k c') (hPoint : pts[t]? = some pt)
    (hMove : Move o a c.state pt pt') : ∀ u pu r, Config.RunsAt c' (pts.set t pt') u pu → pu.phase.working = some r →
      (o.perform a c.state).2.Stored r := by
  have hRunsAt := Config.RunsAt.of_ran hRan hPoint
  have hStays : ∀ {s s' : Stake} {r : Refund}, s ∈ c.state.stakes → s.claim = r.claim → (o.edit c.state).on s = some s' →
      (o.perform a c.state).2.Stored r := by
    intro s s' r hs hClaim hOn
    refine ⟨s', ?_, (Edit.on_claim hOn).trans hClaim⟩
    rw [o.stakes_perform, Edit.mem_apply]
    exact .inl ⟨s, hs, hOn⟩
  intro u pu r hU hWorking
  rcases hU.cases hRan with ⟨rfl, rfl⟩ | ⟨hNe, hU⟩
  · rcases hMove.working hWorking with ⟨r₀, hOld, hClaim, hOn⟩ | ⟨r₀, hr₀, hClaim, hKeep⟩ | ⟨s, hs, hClaim⟩
    · obtain ⟨s, hs, hEq⟩ := h.stored u pt r₀ hRunsAt hOld
      obtain ⟨s', hOn⟩ := Option.ne_none_iff_exists'.mp (hOn s)
      exact hStays hs (hEq.trans hClaim) hOn
    · exact hStays (stake_mem hr₀) hClaim (by rw [hKeep]; rfl)
    · refine ⟨s, ?_, hClaim⟩
      rw [o.stakes_perform, Edit.mem_apply]
      exact .inr hs
  · obtain ⟨s, hs, hClaim⟩ := h.stored u pu r hU hWorking
    cases hOn : (o.edit c.state).on s with
    | some s' => exact hStays hs hClaim hOn
    | none =>
      obtain ⟨r', hId, hWorking', hOwner, -⟩ := hMove.dropped hOn
      have hOwner := hOwner (h.ordered.fits pt (List.mem_of_getElem? hPoint))
      exact absurd ((congrArg Claim.id hClaim).symm.trans hId.symm) (h.id_ne hRunsAt hU hNe.symm hOwner hWorking)

theorem Phase.reissues_owner {ph : Phase} {id : Id} (h : ph.owner = some id) : ph.reissues = none := by
  cases ph with
  | ready call | calling call =>
    simp only [owner] at h
    split at h
    · cases h
    · rename_i hFresh
      exact if_neg hFresh
  | _ => rfl

theorem Phase.reissues_copies {ph : Phase} {id : Id} (h : ph.reissues = some id) : ∃ r ∈ ph.copies, r.id = id := by
  cases ph with
  | ready call | calling call =>
    simp only [reissues] at h
    split at h
    · cases h
      exact ⟨call.claim, List.mem_singleton_self _, rfl⟩
    · cases h
  | _ => cases h

theorem Move.reissues {w : World} {id : Id} (h : Move o a w pt pt') (hReissues : pt'.phase.reissues = some id) :
    pt.phase.reissues = some id ∨ ∃ now expiry, o = .refund (.lease id now expiry) ∧
      ∃ r ∈ w.refunds, r.id = id ∧ r.status = .pending ∧ r.leaseFree now = true := by
  induction h with
  | quiet | setLookup | send => exact .inl hReissues
  | @lease _ _ _ latest now stored _ _ _ _ _ hFind =>
    have hSel := List.find?_some hFind
    simp only [Bool.and_eq_true, decide_eq_true_eq] at hSel
    cases hReissues
    exact .inr ⟨_, _, by rw [← hSel.1.1]; rfl, stored, List.mem_of_find?_eq_some hFind, rfl, hSel.1.2, hSel.2⟩
  | _ => cases hReissues

theorem careful_lease {id : Id} {now expiry : Time} (hCareful : careful c (.run t a) = true)
    (hWaiting : c.waiting? t = some (.refund (.lease id now expiry)))
    (hFind : ∃ r ∈ c.state.refunds, r.id = id ∧ r.status = .pending ∧ r.leaseFree now = true) :
    c.waiting.any (Op.claims id) = false := by
  obtain ⟨r, hr, hId, hPending, hFree⟩ := hFind
  have hAny : (c.state.refunds.any fun r => r.id = id && r.status = .pending && r.leaseFree now) = true :=
    List.any_eq_true.mpr ⟨r, hr, by simp [hId, hPending, hFree]⟩
  simpa [careful, hWaiting, hAny] using hCareful

theorem Exposed.apart_run (hT : Tracks store protocol start c pts) (h : Exposed S c pts)
    (hCareful : careful c (.run t a) = true) (hRan : store.Ran c t a o th k c') (hPoint : pts[t]? = some pt)
    (hMove : Move o a c.state pt pt') : ∀ u pu id, Config.RunsAt c' (pts.set t pt') u pu → pu.phase.owner = some id →
      ∀ pv ∈ pts.set t pt', pv.phase.reissues ≠ some id := by
  have hRunsAt := Config.RunsAt.of_ran hRan hPoint
  -- a request that owned the refund before the move excludes every re-issue of it
  have hOld : ∀ {u : Nat} {pu : Point} {id : Id}, Config.RunsAt c pts u pu → pu.phase.owner = some id →
      ∀ pv ∈ pts.set t pt', pv.phase.reissues ≠ some id := by
    intro u pu id hU hOwner pv hv hReissues
    rcases List.mem_or_eq_of_mem_set hv with hv | rfl
    · exact h.apart u pu id hU hOwner pv hv hReissues
    · rcases hMove.reissues hReissues with hBefore | ⟨now, expiry, rfl, hFind⟩
      · exact h.apart u pu id hU hOwner pt (List.mem_of_getElem? hPoint) hBefore
      · have hNone := careful_lease hCareful hRan.waiting? hFind
        rw [hU.claims hT hOwner] at hNone
        cases hNone
  intro u pu id hU hOwner
  rcases hU.cases hRan with ⟨rfl, rfl⟩ | ⟨-, hU⟩
  · rcases hMove.owner hOwner with hBefore | ⟨s, hs, rfl⟩
    · exact hOld hRunsAt hBefore
    · intro pv hv hReissues
      rcases List.mem_or_eq_of_mem_set hv with hv | rfl
      · obtain ⟨_, -, hOpens⟩ := hMove.born hs
        obtain ⟨r, hr, hId⟩ := Phase.reissues_copies hReissues
        have hLt := (h.ordered.knows pv hv r hr).sound.id_lt
        exact Nat.ne_of_lt hLt (hId.trans hOpens.id_eq)
      · rw [Phase.reissues_owner hOwner] at hReissues
        cases hReissues
  · exact hOld hU hOwner

/-! ### The provider's books while a request is working -/

theorem Exposed.safe_other (h : Exposed S c pts) (hRunsAt : Config.RunsAt c pts t pt) (hU : Config.RunsAt c pts u pu)
    (hNe : u ≠ t) (hEnds : EndsSafely S c pts t o pt pt') (hMove : Move o a c.state pt pt') :
    pu.phase.Safe (exposedAfter S o pt') (o.perform a c.state).2 := by
  have hSafe := h.safe u pu hU
  have hFits := h.ordered.fits pu (List.mem_of_getElem? hU.2)
  have hUnsent : ∀ r, pu.phase.owner = some r.id → pu.phase.working = some r → c.state.Unsent r.refundKey →
      (o.perform a c.state).2.Unsent r.refundKey := fun r hOwner hWorking hUnsent =>
    hUnsent.perform hMove (h.posts_ne hU hRunsAt hNe hOwner hWorking)
  have hInFlight : ∀ r, pu.phase.owner = some r.id → pu.phase.working = some r →
      (o.perform a c.state).2.inFlight r.refundKey = c.state.inFlight r.refundKey := fun r hOwner hWorking =>
    World.inFlight_perform hMove (h.posts_ne hU hRunsAt hNe hOwner hWorking)
  have hStill : ∀ r, pu.phase.working = some r → pu.phase.worker = some r.id → S r.id →
      exposedAfter S o pt' r.id ∨ c.state.Recorded r.refundKey := by
    intro r hWorking hWorker hS
    obtain ⟨s, hs, hClaim⟩ := h.stored u pu r hU hWorking
    have hId : s.claim.id = r.id := congrArg Claim.id hClaim
    rcases hMove.exposedAfter_of hS with hStill | hNew | ⟨r', hEnd, hEq⟩
    · exact .inl hStill
    · exact absurd (hId.trans hNew) (Nat.ne_of_lt (h.ordered.consistent.sound s hs).id_lt)
    · have hEnded := hEnds r' hEnd
      have hSame := h.ordered.consistent.stored_claim hEnded.stored hs (hId.trans hEq.symm)
      have hKey : r'.refundKey = r.refundKey := congrArg Claim.key (hSame.symm.trans hClaim)
      exact .inr (hKey ▸ hEnded.others u pu hNe hU (hEq ▸ hWorker))
  generalize pu.phase = ph at hSafe hFits hUnsent hInFlight hStill ⊢
  cases ph with
  | claimed claim | unreserved claim => exact hUnsent claim rfl rfl hSafe
  | reserved claim =>
    exact ⟨hUnsent claim rfl rfl hSafe.1, (hStill claim rfl rfl hSafe.2).resolve_right hSafe.1.recorded⟩
  | ready call =>
    refine ⟨fun hFresh => ?_, fun hReissue => ?_⟩
    · obtain ⟨hNone, hS⟩ := hSafe.1 hFresh
      exact ⟨hUnsent call.claim (if_neg (by rw [hFresh]; exact Bool.false_ne_true)) rfl hNone,
        (hStill call.claim rfl rfl hS).resolve_right hNone.recorded⟩
    · rw [World.recorded_perform]
      exact (hSafe.2 hReissue).elim (hStill call.claim rfl rfl) .inr
  | calling call =>
    intro hFresh
    rw [World.recorded_perform, hInFlight call.claim (if_neg (by rw [hFresh]; exact Bool.false_ne_true)) rfl]
    exact hSafe hFresh
  | refused call =>
    have hOwner : (Phase.refused call).owner = some call.claim.id := if_neg (by rw [hFits.2]; exact Bool.false_ne_true)
    exact ⟨hUnsent call.claim hOwner rfl hSafe.1, (hStill call.claim rfl rfl hSafe.2).resolve_right hSafe.1.recorded⟩
  | released call =>
    have hOwner : (Phase.released call).owner = some call.claim.id := if_neg (by rw [hFits.2]; exact Bool.false_ne_true)
    exact hUnsent call.claim hOwner rfl hSafe
  | _ => trivial

theorem Phase.safe_calm {ph : Phase} {w : World} (h : ph.calm = true) : ph.Safe S w := by
  cases ph <;> trivial

theorem Exposed.unsent_new {s : Stake} {payment : Payment} (h : Exposed S c pts) (hOpens : s.Opens c.state payment) :
    c.state.Unsent s.claim.key := by
  have hFree : ∀ s₀ ∈ c.state.stakes, s₀.claim.key ≠ s.claim.key := by
    intro s₀ hs₀ hKey
    obtain ⟨r, hr, rfl⟩ := List.mem_map.mp hs₀
    rw [hOpens.key_eq, (h.ordered.consistent.sound _ hs₀).key_eq] at hKey
    injection hKey with hRestaurant hIdempotency
    exact hOpens.keyFree r hr ⟨hRestaurant, hIdempotency⟩
  refine ⟨List.countP_eq_zero.mpr fun r hr hKey => ?_, ?_⟩
  · obtain ⟨s₀, hs₀, hMatches, -⟩ := h.received r hr
    exact hFree s₀ hs₀ (hMatches.key_eq.trans (of_decide_eq_true hKey))
  · rintro ⟨e, he, hKey⟩
    obtain ⟨s₀, hs₀, hMatches, -⟩ := h.ledger e he
    exact hFree s₀ hs₀ (hMatches.key_eq.trans hKey)

theorem Exposed.safe_refused {call : RefundCall} {err : Err} (h : Exposed S c pts) (hRunsAt : Config.RunsAt c pts t pt)
    (hPhase : pt.phase = .calling call) (hFresh : call.reissue = false) (hAnswer : a.refund = .error err)
    (hRejected : err.isRejected = true) (hReceived : call.request ∈ c.state.received) :
    ((Op.provider (.refundAnswered call)).perform a c.state).2.Unsent call.claim.refundKey ∧ S call.claim.id := by
  have hSafe := h.safe t pt hRunsAt
  obtain ⟨s₀, hs₀, hClaim⟩ := h.stored t pt call.claim hRunsAt (by rw [hPhase]; rfl)
  rw [hPhase] at hSafe
  have hMine : c.state.inFlight call.claim.refundKey ≠ 0 := by
    intro hNone
    exact List.countP_eq_zero.mp hNone call.request hReceived (decide_eq_true rfl)
  obtain ⟨hOne, hNot⟩ := (hSafe hFresh).resolve_right fun hDone => hMine hDone.1
  refine ⟨⟨?_, fun hRecorded => hNot (World.recorded_perform.mp hRecorded)⟩, ?_⟩
  · have hCount := (List.perm_cons_erase hReceived).countP_eq (fun r => decide (r.key = call.claim.refundKey))
    rw [List.countP_cons_of_pos (p := fun r : RefundRequest => decide (r.key = call.claim.refundKey)) (decide_eq_true rfl)]
      at hCount
    unfold World.inFlight at hOne ⊢
    rw [Op.received_perform]
    simp only [Op.inbox, hAnswer, hRejected, if_true]
    omega
  · obtain ⟨s, hs, hMatches, hExposed⟩ := h.received call.request hReceived
    have hSame : s = s₀ := Tables.eq_of_id h.ordered.consistent.refundKeys hs hs₀
      (hMatches.key_eq.trans (congrArg Claim.key hClaim).symm)
    have hId : s.claim.id = call.claim.id := by rw [hSame, hClaim]; rfl
    exact hId ▸ hExposed.resolve_right hNot

theorem Exposed.safe_self (hT : Tracks store protocol start c pts) (h : Exposed S c pts)
    (hCareful : careful c (.run t a) = true) (hHonest : honestProvider c (.run t a) = true) (hRan : store.Ran c t a o th k c')
    (hPoint : pts[t]? = some pt) (hMove : Move o a c.state pt pt') :
    pt'.phase.Safe (exposedAfter S o pt') (o.perform a c.state).2 := by
  have hRunsAt := Config.RunsAt.of_ran hRan hPoint
  have hSafe := h.safe t pt hRunsAt
  have hNone : ∀ {key : ProviderRefundKey}, (∀ key', ¬ Posts o a pt.phase pt'.phase key') → c.state.Unsent key →
      (o.perform a c.state).2.Unsent key := fun hPosts hUnsent =>
    hUnsent.perform hMove fun key' hPost => absurd hPost (hPosts key')
  cases hMove with
  | quiet _ hph | setLookup hph => exact Phase.safe_calm hph
  | reserve => exact ⟨hNone (by rintro _ ⟨⟩) hSafe, .inr rfl⟩
  | reserveRefused => exact hNone (by rintro _ ⟨⟩) hSafe
  | mark =>
    exact ⟨fun _ => ⟨hNone (by rintro _ ⟨⟩) hSafe.1, hSafe.2⟩, fun hReissue => by cases hReissue⟩
  | @claim draft _ _ payment hDraft hPayment hFree =>
    have hBorn : Refund.stake { draft with id := c.state.nextId, createdAt := c.state.now } ∈
        ((Op.refund (.create draft)).edit c.state).born := by
      rw [Op.edit_create hFree]
      exact List.mem_singleton_self _
    obtain ⟨_, -, hOpens⟩ := (Move.claim (a := a) hDraft hPayment hFree).born hBorn
    exact hNone (by rintro _ ⟨⟩) (h.unsent_new hOpens)
  | @lease _ _ refund latest now stored payment provider hRef hReserved hPayment hFind =>
    have hSel := List.find?_some hFind
    simp only [Bool.and_eq_true, decide_eq_true_eq] at hSel
    have hStored : stored ∈ c.state.refunds := List.mem_of_find?_eq_some hFind
    have hLeasing := h.honest _ (List.mem_of_getElem? hPoint) hReserved stored.stake (stake_mem hStored) hSel.1.1 hSel.1.2
    refine ⟨(fun hFresh => by cases hFresh), fun _ => ?_⟩
    rcases h.reserved stored.stake (stake_mem hStored) hSel.1.2 hLeasing with hS | ⟨u, pu, call, hU, hReleased, hId⟩
    · exact .inl hS
    · have hFits := h.ordered.fits pu (List.mem_of_getElem? hU.2)
      have hIdle := careful_lease hCareful hRan.waiting? ⟨stored, hStored, hSel.1.1, hSel.1.2, hSel.2⟩
      have hOwner : pu.phase.owner = some latest.id := by
        rw [hReleased] at hFits ⊢
        rw [← hSel.1.1]
        exact (if_neg (by rw [hFits.2]; exact Bool.false_ne_true)).trans (congrArg some hId)
      rw [hU.claims hT hOwner] at hIdle
      cases hIdle
  | @send call =>
    intro hFresh
    obtain ⟨hUnsent, -⟩ := hSafe.1 hFresh
    refine .inl ⟨?_, fun hRecorded => hUnsent.recorded (World.recorded_perform.mp hRecorded)⟩
    have hCount := hUnsent.inFlight
    unfold World.inFlight at hCount ⊢
    rw [Op.received_perform]
    simp only [Op.inbox, List.countP_append, hCount, List.countP_singleton, zero_add]
    exact if_pos (decide_eq_true rfl)
  | @refused call _ _ _ err hAnswer hRejected hFresh =>
    refine h.safe_refused hRunsAt rfl hFresh hAnswer hRejected ?_
    simpa [honestProvider, hRan.waiting?, hAnswer, hRejected] using hHonest
  | release => exact hNone (by rintro _ ⟨⟩) hSafe.1
  | _ => trivial

end Kept

/-! ### What the requests and the documents say of the provider's refunds -/

section Honest

variable {w : World} {ph : Phase}

theorem RefundOp.settleLost_perform {s : Settlement}
    (hFind : ∀ before, w.refunds.find? (fun r => r.id = s.id && r.status = s.source) = some before →
      refTaken w.refunds before s.details = true) : ((RefundOp.settle s).perform w).2 = w := by
  simp only [perform]
  split
  · rfl
  · rename_i before hBefore
    rw [if_pos (hFind before hBefore)]

theorem reportDetails_ref {current : Refund} {report : RefundReport} {ref : String}
    (h : (reportDetails current report).providerRefundRef = some ref) : report.refundRef = some ref := by
  simp only [reportDetails] at h
  split at h
  · exact truthy_eq_some h
  · cases h

theorem Exposed.writtenRef {r : Refund} {op : RefundOp} {ref : String} (h : Exposed S c pts) (hMem : pt ∈ pts)
    (hMove : Move (.refund op) a c.state pt pt') (hr : r ∈ c.state.refunds) (hHand : op.byHand = false)
    (hRef : op.writtenRef r = some ref) : ref = c.state.refundRefs r.refundKey ∨ (op.perform c.state).2.refunds = c.state.refunds := by
  have hHonest := h.honest pt hMem
  have hKnows := h.ordered.knows pt hMem
  have hTrue : ∀ {current : Refund} {report : RefundReport}, c.state.Knows current.claim → r.id = current.id →
      report.Truthful c.state current.refundKey → (reportDetails current report).providerRefundRef = some ref →
      ref = c.state.refundRefs r.refundKey := by
    intro current report hKnows hId hTruthful hDetails
    rw [hTruthful.ref ref (reportDetails_ref hDetails)]
    exact congrArg c.state.refundRefs (congrArg Claim.key (hKnows.eq_of_id _ (stake_mem hr) hId)).symm
  cases hMove with
  | @note _ _ _ current report method clearUnknown hStatus hClear =>
    simp only [RefundOp.writtenRef] at hRef
    split at hRef
    · rename_i hId
      have hMethod : method ≠ .manual := by
        rw [RefundOp.byHand, hClear] at hHand
        simpa using hHand
      exact .inl (hTrue (hKnows current (List.mem_singleton_self _)) hId (hHonest hMethod) hRef)
    · cases hRef
  | @settle s _ _ _ current report method _ _ _ before hId hSource hTarget hDetails hResolution hAllowed hFind =>
    simp only [RefundOp.writtenRef] at hRef
    split at hRef
    · rename_i hIdR
      have hMethod : method ≠ .manual := by
        have hByHand := Settlement.byHand_eq hResolution
        rw [RefundOp.byHand, hByHand] at hHand
        exact of_decide_eq_false hHand
      rw [hDetails] at hRef
      exact .inl (hTrue (hKnows current (List.mem_singleton_self _)) (hIdR.trans hId) (hHonest hMethod) hRef)
    · cases hRef
  | settleLost hph hFind => exact .inr (congrArg World.refunds (RefundOp.settleLost_perform hFind))
  | quiet ho | rest ho => cases op <;> first | cases hRef | cases ho
  | see hph hRead => cases hRead <;> cases hRef
  | _ => cases hRef

theorem Exposed.refs_run (h : Exposed S c pts) (hInjective : Function.Injective c.state.refundRefs)
    (hNames : NamesOwn c (.run t a)) (hRan : store.Ran c t a o th k c') (hPoint : pts[t]? = some pt)
    (hMove : Move o a c.state pt pt') : ∀ r ∈ (o.perform a c.state).2.refunds, r.RefOwn (o.perform a c.state).2 := by
  have hMem := List.mem_of_getElem? hPoint
  have hRefs := (o.ledger_perform a c.state).2.1
  have hClaims : ∀ {r r₀ : Refund}, r₀ ∈ c.state.refunds → r.claim = r₀.claim → r₀.RefOwn c.state → ∀ {ref : String},
      r₀.providerRefundRef = some ref → ∀ key, c.state.refundRefs key = ref → key = r.refundKey := by
    intro r r₀ hr₀ hClaim hOwn ref hRef key hKey
    exact (hOwn ref hRef key hKey).trans (congrArg Claim.key hClaim).symm
  intro r hr ref hRef key hKey
  rw [hRefs] at hKey
  rcases o.refs_perform a c.state r hr with ⟨r₀, hr₀, hClaim, hOld⟩ | ⟨draft, rfl, hBorn, hOld⟩
  · rcases hOld ref hRef with hRef₀ | ⟨op, rfl, hWritten⟩
    · exact hClaims hr₀ hClaim (h.refs r₀ hr₀) hRef₀ key hKey
    · cases hHand : op.byHand with
      | true =>
        rcases hNames op hRan.waiting? hHand r hr ref hRef with ⟨r₁, hr₁, hId, hRef₁⟩ | hOwn
        · have hSame : r₁.claim = r₀.claim :=
            congrArg Stake.claim (Tables.eq_of_id h.ordered.consistent.refundIds (stake_mem hr₁) (stake_mem hr₀)
              (hId.trans (congrArg Claim.id hClaim)))
          exact hClaims hr₁ (hClaim.trans hSame.symm) (h.refs r₁ hr₁) hRef₁ key hKey
        · exact hOwn key hKey
      | false =>
        rcases h.writtenRef hMem hMove hr₀ hHand hWritten with hOwn | hSame
        · rw [hOwn] at hKey
          exact (hInjective hKey).trans (congrArg Claim.key hClaim).symm
        · have hr' : r ∈ c.state.refunds := hSame ▸ hr
          exact h.refs r hr' ref hRef key hKey
  · cases hMove with
    | claim hDraft =>
      rw [hDraft.providerRefundRef] at hOld
      rw [hOld] at hRef
      cases hRef
    | keyTaken hph hTaken =>
      rw [Op.edit_taken hTaken] at hBorn
      cases hBorn
    | quiet ho | rest ho => cases ho
    | see hph hRead => cases hRead

theorem ProviderRefund.truthful {e : ProviderRefund} {result : ProviderRefundResult} (he : e ∈ w.ledger)
    (h : e.agrees w result = true) : result.report.Truthful w e.key := by
  rw [agrees, Bool.and_eq_true, decide_eq_true_eq] at h
  constructor
  · intro ref hRef
    cases hRef
    exact h.1
  · intro hFailed
    refine ⟨e, he, rfl, ?_⟩
    have hStatus : result.status = .failed := hFailed
    have hUpTo := h.2
    rw [hStatus] at hUpTo
    cases hNow : e.status with
    | failed => rfl
    | pending | succeeded =>
      rw [hNow] at hUpTo
      cases hUpTo

theorem RefundReport.Truthful.perform {key : ProviderRefundKey} {report : RefundReport} (h : report.Truthful w key) :
    report.Truthful (o.perform a w).2 key := by
  obtain ⟨hLedger, hRefs, -⟩ := o.ledger_perform a w
  exact ⟨by rw [hRefs]; exact h.ref, by rw [hLedger]; exact h.failed⟩

theorem Phase.Honest.perform (hMove : Move o a w pt pt') (hKnows : ∀ r ∈ ph.copies, w.Knows r.claim) (h : ph.Honest w) :
    ph.Honest (o.perform a w).2 := by
  obtain ⟨hLedger, hRefs, -⟩ := o.ledger_perform a w
  have hStakes : ∀ latest ∈ ph.copies, (latest.amountReserved = true →
      ∀ s ∈ w.stakes, s.claim.id = latest.id → s.status = .pending → s.reserved = true) →
      latest.amountReserved = true → ∀ s ∈ (o.perform a w).2.stakes, s.claim.id = latest.id → s.status = .pending →
        s.reserved = true := by
    intro latest hLatest hOld hReserved s' hs' hId hPending
    have hLt := (hKnows latest hLatest).sound.id_lt
    obtain ⟨s, hs, hClaim, hWas, hKept⟩ := hMove.pending_before hs' (by rw [hId]; exact Nat.ne_of_lt hLt) hPending
    exact hKept (hOld hReserved s hs (by rw [hClaim]; exact hId) hWas)
  cases ph with
  | heard body =>
    simp only [Honest, hLedger, hRefs]
    exact h
  | seen r | held r =>
    simp only [Honest, Refund.RefOwn, hRefs]
    exact h
  | reporting r report method | decided r report method => exact fun hMethod => (h hMethod).perform
  | fresh r latest => exact hStakes latest (List.mem_cons_of_mem _ (List.mem_singleton_self _)) h
  | leasing r latest now => exact hStakes latest (List.mem_cons_of_mem _ (List.mem_singleton_self _)) h
  | _ => trivial

theorem Exposed.honest_self (h : Exposed S c pts) (hHonest : honestProvider c (.run t a) = true)
    (hRan : store.Ran c t a o th k c') (hPoint : pts[t]? = some pt) (hMove : Move o a c.state pt pt') :
    pt'.phase.Honest (o.perform a c.state).2 := by
  have hMem := List.mem_of_getElem? hPoint
  have hOld := h.honest pt hMem
  have hKnows := h.ordered.knows pt hMem
  have hWaiting := hRan.waiting?
  have hKept := hOld.perform hMove hKnows
  cases hMove with
  | quiet | setLookup | hold | clock => exact hKept
  | @hear _ _ _ _ body hph hBody =>
    intro update hUpdate
    simp only [honestProvider, hWaiting, hBody, Option.bind_some, hUpdate] at hHonest
    obtain ⟨e, he, hSays⟩ := List.any_eq_true.mp hHonest
    simp only [Bool.and_eq_true, Bool.or_eq_true, decide_eq_true_eq] at hSays
    have hTruthful := ProviderRefund.truthful he hSays.2
    refine ⟨e, he, hTruthful.ref _ rfl, hSays.1, fun hFailed => ?_⟩
    obtain ⟨e', he', hKey, hDead⟩ := hTruthful.failed hFailed
    rw [← Tables.eq_of_id h.ledgerKeys he' he hKey]
    exact hDead
  | see hph hRead =>
    have hRefs := (o.ledger_perform a c.state).2.1
    simp only [Phase.Honest, Refund.RefOwn, hRefs]
    exact h.refs _ hRead.mem
  | byHand => exact fun hMethod => absurd rfl hMethod
  | @found provider payment _ _ _ refund result hAnswer =>
    intro _
    simp only [honestProvider, hWaiting, hAnswer] at hHonest
    obtain ⟨e, he, hSays⟩ := List.any_eq_true.mp hHonest
    simp only [Bool.and_eq_true, Bool.or_eq_true, decide_eq_true_eq] at hSays
    have hKey : e.key = refund.refundKey := hSays.1.1.elim id fun hRef => hOld _ hRef e.key rfl
    exact hKey ▸ ProviderRefund.truthful he hSays.1.2
  | @fresh _ _ _ refund latest hFind =>
    intro hReserved s hs hId _
    have hSame : s = latest.stake := Tables.eq_of_id h.ordered.consistent.refundIds hs (refund_of_find? hFind) hId
    rw [hSame]
    exact hReserved
  | @answered call _ _ _ result hAnswer =>
    intro _
    simp only [honestProvider, hWaiting, hAnswer] at hHonest
    obtain ⟨e, he, hSays⟩ := List.any_eq_true.mp hHonest
    simp only [Bool.and_eq_true, decide_eq_true_eq] at hSays
    have hKey : e.key = call.claim.refundKey := hSays.1
    exact (hKey ▸ ProviderRefund.truthful he hSays.2).perform
  | @matchRef provider update body _ _ _ refund hUpdate hFind =>
    intro _
    obtain ⟨e, he, hRef, -, hFailed⟩ := hOld update hUpdate
    have hSel := List.find?_some hFind
    simp only [Bool.and_eq_true, decide_eq_true_eq] at hSel
    have hKey := h.refs refund (List.mem_of_find?_eq_some hFind) _ hSel.2 e.key hRef.symm
    refine ⟨fun ref hEq => ?_, fun hDead => ⟨e, he, hKey, hFailed hDead⟩⟩
    cases hEq
    rw [← hKey]
    exact hRef
  | @matchKey provider update body key _ _ _ refund hUpdate hUpdateKey hFind =>
    intro _
    obtain ⟨e, he, hRef, hNamed, hFailed⟩ := hOld update hUpdate
    have hSel := List.find?_some hFind
    simp only [Bool.and_eq_true, decide_eq_true_eq] at hSel
    have hKey : e.key = refund.refundKey := by
      rw [hUpdateKey] at hNamed
      rw [Refund.refundKey, hSel.2]
      exact (Option.some.inj (hNamed.resolve_left (by simp))).symm
    refine ⟨fun ref hEq => ?_, fun hDead => ⟨e, he, hKey, hFailed hDead⟩⟩
    cases hEq
    rw [← hKey]
    exact hRef
  | @decide _ _ _ refund report method current hFind =>
    intro hMethod
    have hSel := List.find?_some hFind
    rw [decide_eq_true_eq] at hSel
    have hClaim := (hKnows refund (List.mem_singleton_self _)).eq_of_id _ (refund_of_find? hFind) hSel
    have hKey : current.refundKey = refund.refundKey := congrArg Claim.key hClaim
    rw [hKey]
    exact hOld hMethod
  | _ => trivial

end Honest

/-! ### The payment's total and the exposed refunds -/

section Funds

variable {S' : Id → Prop} {w : World} {l : List Stake} {s : Stake} {paymentId : Id} {p : Payment} {ph : Phase}

open Classical in
theorem Stake.exposure_congr (h : S' s.claim.id ↔ S s.claim.id) : s.exposure S' paymentId = s.exposure S paymentId :=
  if_congr (and_congr_right fun _ => h) rfl rfl

theorem Stake.exposure_claim {s' : Stake} (h : s'.claim = s.claim) : s'.exposure S paymentId = s.exposure S paymentId := by
  unfold exposure
  rw [h]

theorem Stake.exposure_nonneg (S : Id → Prop) (paymentId : Id) (h : 0 < s.claim.amount) : 0 ≤ s.exposure S paymentId := by
  unfold exposure
  split
  · exact h.le
  · exact le_refl _

theorem Stake.exposure_mono (hPos : 0 < s.claim.amount) (h : S' s.claim.id → S s.claim.id) :
    s.exposure S' paymentId ≤ s.exposure S paymentId := by
  by_cases hExposed : S' s.claim.id
  · exact (Stake.exposure_congr ⟨h, fun _ => hExposed⟩).le
  · have hZero : s.exposure S' paymentId = 0 := if_neg fun hSel => hExposed hSel.2
    rw [hZero]
    exact Stake.exposure_nonneg S paymentId hPos

open Classical in
theorem Stake.exposure_of (h : S s.claim.id) :
    s.exposure S paymentId = if s.claim.paymentId = paymentId then s.claim.amount else 0 :=
  if_congr (and_iff_left h) rfl rfl

theorem Stake.exposure_of_not (h : ¬ S s.claim.id) : s.exposure S paymentId = 0 := if_neg fun hSel => h hSel.2

theorem Edit.exposure_le (e : Edit) (paymentId : Id) (hPos : ∀ s ∈ l, 0 < s.claim.amount) (hBorn : ∀ s ∈ e.born, ¬ S s.claim.id) :
    Tables.total (Stake.exposure S paymentId) (e.apply l) ≤ Tables.total (Stake.exposure S paymentId) l := by
  rw [e.total_apply, Tables.total_zero fun s hs => Stake.exposure_of_not (hBorn s hs), add_zero]
  refine Tables.total_le_total fun s hs => ?_
  cases hOn : e.on s with
  | none => exact Stake.exposure_nonneg S paymentId (hPos s hs)
  | some s' => exact (Stake.exposure_claim (Edit.on_claim hOn)).le

theorem Phase.refundDue_calm (h : ph.calm = true) : ph.refundDue paymentId = 0 := by
  cases ph <;> first | rfl | cases h

theorem Phase.refundDue_nonneg (h : ∀ r ∈ ph.copies, 0 < r.amount) : 0 ≤ ph.refundDue paymentId := by
  cases ph with
  | settled before target =>
    simp only [refundDue]
    split
    · exact (h before (List.mem_singleton_self _)).le
    · exact le_refl _
  | owing updated target =>
    simp only [refundDue]
    split
    · exact (h updated (List.mem_singleton_self _)).le
    · exact le_refl _
  | _ => exact le_refl _

theorem Phase.refundDue_other (h : ∀ r ∈ ph.copies, r.paymentId ≠ paymentId) : ph.refundDue paymentId = 0 := by
  cases ph with
  | settled before target => exact if_neg fun hDue => h before (List.mem_singleton_self _) hDue.1
  | owing updated target => exact if_neg fun hDue => h updated (List.mem_singleton_self _) hDue.1
  | _ => rfl

def Funds (S : Id → Prop) (o : Op) (w : World) (pt pt' : Point) (p : Payment) : Prop :=
  Tables.total (Stake.exposure (exposedAfter S o pt') p.id) ((o.edit w).apply w.stakes) + pt'.phase.refundDue p.id + p.totalRefunded ≤
    Tables.total (Stake.exposure S p.id) w.stakes + pt.phase.refundDue p.id + (o.revise w p).totalRefunded

theorem Funds.moved {x y : ℚ} (hPos : ∀ s ∈ w.stakes, 0 < s.claim.amount)
    (hBorn : ∀ s ∈ (o.edit w).born, ¬ exposedAfter S o pt' s.claim.id)
    (hExposed : Tables.total (Stake.exposure (exposedAfter S o pt') p.id) w.stakes ≤ Tables.total (Stake.exposure S p.id) w.stakes + x)
    (hTotal : (o.revise w p).totalRefunded = p.totalRefunded + y)
    (hDue : pt'.phase.refundDue p.id + x ≤ pt.phase.refundDue p.id + y) : Funds S o w pt pt' p := by
  have hEdit := (o.edit w).exposure_le p.id hPos hBorn
  unfold Funds
  rw [hTotal]
  linarith

theorem Funds.still (hPos : ∀ s ∈ w.stakes, 0 < s.claim.amount) (hBorn : (o.edit w).born = []) (hAdds : o.adds = false)
    (hSame : ∀ id, exposedAfter S o pt' id ↔ S id) (hDue : pt'.phase.refundDue p.id ≤ pt.phase.refundDue p.id) :
    Funds S o w pt pt' p := by
  refine .moved (x := 0) (y := 0) hPos ?_ ?_ ?_ ?_
  · rw [hBorn]
    intro s hs
    cases hs
  · rw [add_zero]
    exact (Tables.total_congr fun s _ => Stake.exposure_congr (hSame _)).le
  · rw [Op.revise_total hAdds, add_zero]
  · rw [add_zero, add_zero]
    exact hDue

theorem exposure_change (S S' : Id → Prop) (paymentId : Id) (hIds : (l.map fun s => s.claim.id).Nodup) (hs : s ∈ l) (h : ∀ id, id ≠ s.claim.id → (S' id ↔ S id)) :
    Tables.total (Stake.exposure S' paymentId) l = Tables.total (Stake.exposure S paymentId) l +
      (s.exposure S' paymentId - s.exposure S paymentId) :=
  Tables.total_change (fun s : Stake => s.claim.id) hIds hs fun _ _ hNe => Stake.exposure_congr (h _ hNe)

theorem born_quiet (h : o.quiet = true) : (o.edit w).born = [] := by
  rw [Op.edit_quiet h]
  rfl

theorem Exposed.funds (h : Exposed S c pts) (hRunsAt : Config.RunsAt c pts t pt) (hEnds : EndsSafely S c pts t o pt pt')
    (hMove : Move o a c.state pt pt') (hp : p ∈ c.state.payments) : Funds S o c.state pt pt' p := by
  have hMem := List.mem_of_getElem? hRunsAt.2
  have hIds := h.ordered.consistent.refundIds
  have hPos : ∀ s ∈ c.state.stakes, 0 < s.claim.amount := fun s hs => (h.ordered.consistent.sound s hs).amount_pos
  have hKnows := h.ordered.knows pt hMem
  have hFits := h.ordered.fits pt hMem
  have hStored := h.stored t pt
  cases hMove with
  | quiet ho hph =>
    exact .still hPos (born_quiet ho) (Op.adds_quiet ho) (fun _ => by rw [exposedAfter_quiet ho]) (le_refl _)
  | rest ho hph =>
    exact .still hPos (born_quiet ho) (Op.adds_quiet ho) (fun _ => by rw [exposedAfter_quiet ho]) (Phase.refundDue_calm hph).ge
  | see hph hRead =>
    exact .still hPos (born_quiet hRead.quiet) (Op.adds_quiet hRead.quiet) (fun _ => by rw [exposedAfter_quiet hRead.quiet])
      (Phase.refundDue_calm hph).ge
  | hear hph | leaseTaken _ hph | unlease hph | pay hph | retrieved hph | cancel hph | charge hph =>
    exact .still hPos rfl rfl (fun _ => Iff.rfl) (Phase.refundDue_calm hph).ge
  | keyTaken hph hTaken =>
    refine .still hPos ?_ rfl (fun _ => Iff.rfl) (Phase.refundDue_calm hph).ge
    rw [Op.edit_taken hTaken]
    rfl
  | settleLost hph hFind =>
    refine .still hPos ?_ rfl (fun _ => Iff.rfl) (Phase.refundDue_calm hph).ge
    rw [Op.edit_settleLost hFind]
    rfl
  | byHand hFrom => exact .still hPos rfl rfl (fun _ => Iff.rfl) (by rcases hFrom with rfl | ⟨rfl, -⟩ <;> exact le_refl _)
  | @claim draft _ _ payment hDraft hPayment hFree =>
    refine .moved (x := 0) (y := 0) hPos ?_ ?_ (by rw [Op.revise_total rfl, add_zero]) (le_refl _)
    · rw [Op.edit_create hFree]
      intro s hs hExposed
      cases List.mem_singleton.mp hs
      exact hExposed.2 rfl
    · rw [add_zero]
      exact Tables.total_le_total fun s hs => Stake.exposure_mono (hPos s hs) And.left
  | @reserve payment claim _ _ L _ hPayment hFind =>
    obtain ⟨s, hs, hClaim⟩ := hStored claim hRunsAt rfl
    refine .moved (x := if p.id = payment.id then claim.amount else 0) hPos ?_ ?_
      (revise_reserve h.ordered.consistent.paymentIds hp hFind) (le_refl _)
    · intro s hs
      cases hs
    · have hId : s.claim.id = claim.id := congrArg Claim.id hClaim
      rw [exposure_change S _ p.id hIds hs fun id hNe => ⟨fun hS => hS.resolve_right (hId ▸ hNe), .inl⟩]
      have hNonneg := Stake.exposure_nonneg S p.id (hPos s hs)
      have hNow : s.exposure (exposedAfter S (.payment (.reserve payment claim)) ⟨L, .reserved claim⟩) p.id =
          if p.id = payment.id then claim.amount else 0 := by
        rw [Stake.exposure_of (.inr hId), hClaim, Refund.claim_paymentId, Refund.claim_amount, hPayment]
        simp only [eq_comm]
      linarith
  | reserveRefused hFind =>
    refine .moved (x := 0) (y := 0) hPos (by rintro s ⟨⟩) ?_ (by rw [revise_reserveRefused hp hFind, add_zero]) (le_refl _)
    rw [add_zero]
    exact (Tables.total_congr fun s _ => Stake.exposure_congr Iff.rfl).le
  | dropUnreserved | dropRefused | mark => exact .still hPos rfl rfl (fun _ => Iff.rfl) (le_refl _)
  | send | answered | refused | reissueRefused | unanswered | setUnknown | setLookup | hold | found | missing
  | fresh | clock | lease | matchRef | matchKey | decide | note => exact .still hPos rfl rfl (fun _ => Iff.rfl) (le_refl _)
  | @release call _ _ L =>
    have hEnded := hEnds call.claim .release
    obtain ⟨s, hs, hClaim⟩ := hEnded.stored
    have hId : s.claim.id = call.claim.id := congrArg Claim.id hClaim
    refine .moved (x := if p.id = call.payment.id then -call.claim.amount else 0)
      (y := if p.id = call.payment.id then -call.claim.amount else 0) hPos (by rintro s ⟨⟩) ?_ ?_ (le_refl _)
    · rw [exposure_change S (exposedAfter S (.payment (.release call.payment call.claim)) ⟨L, .released call⟩) p.id hIds hs
          fun id hNe => ⟨And.left, fun hS => ⟨hS, hId ▸ hNe⟩⟩,
        Stake.exposure_of_not (fun hS => hS.2 hId), Stake.exposure_of (hId ▸ hEnded.exposed), hClaim, Refund.claim_paymentId,
        Refund.claim_amount, ← hFits.1]
      by_cases hPayment : p.id = call.payment.id
      · simp [hPayment]
      · simp [hPayment, Ne.symm hPayment]
    · simp only [Op.revise, PaymentOp.revise]
      split
      · rfl
      · exact (add_zero _).symm
  | @settle st _ _ L current report method _ _ _ before hId hSource hTarget hDetails hResolution hAllowed hFind hRef =>
    have hBorn : ((Op.refund (.settle st)).edit c.state).born = [] := by
      rw [Op.edit_settle ⟨hFind, hRef⟩]
      rfl
    by_cases hFailed : st.target = .failed
    · cases hCounted : before.counted with
      | true =>
        have hEnded := hEnds before (by
          rw [hFailed]
          exact .fail ⟨hFind, hRef⟩ rfl hId hAllowed hTarget (Settlement.byHand_eq hResolution) hFailed hCounted)
        have hBefore := refund_of_find? hFind
        refine .moved (x := if before.paymentId = p.id then -before.amount else 0) (y := 0) hPos
          (by rw [hBorn]; rintro s ⟨⟩) ?_ (by rw [Op.revise_total rfl, add_zero]) ?_
        · rw [exposure_change S (exposedAfter S (.refund (.settle st)) ⟨L, .settled before st.target⟩) p.id hIds hBefore ?_,
            Stake.exposure_of_not ?_, Stake.exposure_of (show S before.stake.claim.id from hEnded.exposed)]
          · by_cases hPayment : before.paymentId = p.id <;> simp [hPayment]
          · rw [hFailed]
            exact fun hS => hS.2 ⟨hCounted, rfl⟩
          · rw [hFailed]
            exact fun id hNe => ⟨And.left, fun hS => ⟨hS, fun hSame => hNe hSame.2⟩⟩
        · by_cases hPayment : before.paymentId = p.id <;> simp [Phase.refundDue, hFailed, hCounted, hPayment]
      | false =>
        refine .still hPos hBorn rfl ?_ ?_
        · rw [hFailed]
          exact fun id => ⟨And.left, fun hS => ⟨hS, fun hSame => by rw [hCounted] at hSame; cases hSame.1⟩⟩
        · simp [Phase.refundDue, hCounted]
    · refine .still hPos hBorn rfl ?_ ?_
      · intro id
        cases hStatus : st.target with
        | failed => exact absurd hStatus hFailed
        | pending | succeeded => exact Iff.rfl
      · simp [Phase.refundDue, hFailed]
  | @reread _ _ _ before target updated hFind hDue =>
    have hSel := List.find?_some hFind
    rw [decide_eq_true_eq] at hSel
    have hClaim := (hKnows before (List.mem_singleton_self _)).eq_of_id _ (refund_of_find? hFind) hSel
    have hPayment : updated.paymentId = before.paymentId := congrArg Claim.paymentId hClaim
    have hAmount : updated.amount = before.amount := congrArg Claim.amount hClaim
    refine .still hPos rfl rfl (fun _ => Iff.rfl) ?_
    simp only [Phase.refundDue, hPayment, hAmount]
    by_cases hFailed : target = .failed
    · have hCounted : before.counted = true := by simpa [settlementDue, hFailed] using hDue
      simp [hFailed, hCounted]
    · simp [hFailed]
  | @rereadEven _ _ _ before target updated hFind hDue =>
    exact .still hPos rfl rfl (fun _ => Iff.rfl)
      (Phase.refundDue_nonneg fun r hr => (hKnows r hr).sound.amount_pos)
  | rereadGone hFind =>
    exact .still hPos rfl rfl (fun _ => Iff.rfl)
      (Phase.refundDue_nonneg fun r hr => (hKnows r hr).sound.amount_pos)
  | @giveBack _ _ _ updated =>
    refine .moved (x := 0) (y := if p.id = updated.paymentId then -updated.amount else 0) hPos (by rintro s ⟨⟩) ?_ ?_ ?_
    · rw [add_zero]
      exact (Tables.total_congr fun s _ => Stake.exposure_congr Iff.rfl).le
    · simp only [Op.revise, PaymentOp.revise]
      split
      · rfl
      · exact (add_zero _).symm
    · by_cases hId : p.id = updated.paymentId
      · simp [Phase.refundDue, hId]
      · simp [Phase.refundDue, hId, Ne.symm hId]
  | @count _ _ _ updated =>
    have hAmount : 0 < updated.amount := (hKnows updated (List.mem_singleton_self _)).sound.amount_pos
    refine .moved (x := 0) (y := if p.id = updated.paymentId then updated.amount else 0) hPos (by rintro s ⟨⟩) ?_ ?_ ?_
    · rw [add_zero]
      exact (Tables.total_congr fun s _ => Stake.exposure_congr Iff.rfl).le
    · simp only [Op.revise, PaymentOp.revise]
      split
      · rfl
      · exact (add_zero _).symm
    · have hNone : (Phase.owing updated .succeeded).refundDue p.id = 0 := if_neg fun hDue => by cases hDue.2
      change (0 : ℚ) + 0 ≤ (Phase.owing updated .succeeded).refundDue p.id + _
      rw [hNone, zero_add, zero_add]
      split
      · exact hAmount.le
      · exact le_refl _
  | syncRead | syncSkip | syncSum | syncEven | syncWrite | matchPayment | transition =>
    exact .still hPos rfl rfl (fun _ => Iff.rfl) (le_refl _)

theorem exposedAfter_sub {id : Id} (hNot : ∀ payment claim, o ≠ .payment (.reserve payment claim))
    (h : exposedAfter S o pt' id) : S id := by
  unfold exposedAfter at h
  split at h
  · exact absurd rfl (hNot _ _)
  · exact h.1
  · exact h.1
  · exact h.1
  · exact h

theorem Move.born_unexposed (hMove : Move o a w pt pt') (hs : s ∈ (o.edit w).born) : ¬ exposedAfter S o pt' s.claim.id := by
  induction hMove with
  | claim hDraft hPayment hFree =>
    rw [Op.edit_create hFree] at hs
    cases List.mem_singleton.mp hs
    exact fun hExposed => hExposed.2 rfl
  | quiet ho | rest ho =>
    rw [born_quiet ho] at hs
    cases hs
  | see hph hRead =>
    rw [born_quiet hRead.quiet] at hs
    cases hs
  | keyTaken hph hTaken =>
    rw [Op.edit_taken hTaken] at hs
    cases hs
  | settle _ _ _ _ _ _ hFind hRef =>
    rw [Op.edit_settle ⟨hFind, hRef⟩] at hs
    cases hs
  | settleLost hph hFind =>
    rw [Op.edit_settleLost hFind] at hs
    cases hs
  | _ => cases hs

theorem Exposed.within_run (h : Exposed S c pts) (hRunsAt : Config.RunsAt c pts t pt) (hEnds : EndsSafely S c pts t o pt pt')
    (hMove : Move o a c.state pt pt') (hp : p ∈ c.state.payments) :
    Tables.total (Stake.exposure (exposedAfter S o pt') p.id) (o.perform a c.state).2.stakes ≤ p.amount := by
  have hPos : ∀ s ∈ c.state.stakes, 0 < s.claim.amount := fun s hs => (h.ordered.consistent.sound s hs).amount_pos
  have hWithin := h.within p hp
  have hFunds := h.funds hRunsAt hEnds hMove hp
  have hFunded := h.funded p hp
  have hDues : 0 ≤ Tables.total (fun pt : Point => pt.phase.refundDue p.id) pts :=
    Tables.total_nonneg fun pu hu => Phase.refundDue_nonneg fun r hr => (h.ordered.knows pu hu r hr).sound.amount_pos
  rw [o.stakes_perform]
  by_cases hReserve : ∃ payment claim, o = .payment (.reserve payment claim)
  · obtain ⟨payment, claim, rfl⟩ := hReserve
    unfold Funds at hFunds
    cases hMove with
    | @reserve _ _ _ _ _ stored hPayment hFind =>
      rw [revise_reserve h.ordered.consistent.paymentIds hp hFind] at hFunds
      simp only [Phase.refundDue] at hFunds
      split at hFunds
      · rename_i hId
        have hSel := List.find?_some hFind
        simp only [Bool.and_eq_true, decide_eq_true_eq] at hSel
        have hStored : stored = p := Tables.eq_of_id h.ordered.consistent.paymentIds (List.mem_of_find?_eq_some hFind) hp
          (hSel.1.1.trans hId.symm)
        rw [hStored] at hSel
        linarith [hSel.2]
      · linarith
    | reserveRefused hFind =>
      rw [revise_reserveRefused hp hFind] at hFunds
      simp only [Phase.refundDue] at hFunds
      linarith
    | quiet ho | rest ho => cases ho
    | see hph hRead => cases hRead
  · have hSub : ∀ id, exposedAfter S o pt' id → S id := fun id =>
      exposedAfter_sub fun payment claim hOp => hReserve ⟨payment, claim, hOp⟩
    calc Tables.total (Stake.exposure (exposedAfter S o pt') p.id) ((o.edit c.state).apply c.state.stakes)
        ≤ Tables.total (Stake.exposure (exposedAfter S o pt') p.id) c.state.stakes :=
          (o.edit c.state).exposure_le p.id hPos fun s hs => hMove.born_unexposed hs
      _ ≤ Tables.total (Stake.exposure S p.id) c.state.stakes :=
          Tables.total_le_total fun s hs => Stake.exposure_mono (hPos s hs) (hSub s.claim.id)
      _ ≤ p.amount := hWithin

theorem Exposed.funds_run (h : Exposed S c pts) (hRunsAt : Config.RunsAt c pts t pt) (hEnds : EndsSafely S c pts t o pt pt')
    (hMove : Move o a c.state pt pt') : ∀ p ∈ (o.perform a c.state).2.payments,
      Tables.total (Stake.exposure (exposedAfter S o pt') p.id) (o.perform a c.state).2.stakes +
        Tables.total (fun pt : Point => pt.phase.refundDue p.id) (pts.set t pt') ≤ p.totalRefunded ∧
      Tables.total (Stake.exposure (exposedAfter S o pt') p.id) (o.perform a c.state).2.stakes ≤ p.amount := by
  intro p' hp'
  rw [o.payments_perform a, List.mem_append, List.mem_map] at hp'
  rcases hp' with ⟨p, hp, rfl⟩ | hOpened
  · rw [o.revise_id, o.revise_amount]
    refine ⟨?_, h.within_run hRunsAt hEnds hMove hp⟩
    have hFunds := h.funds hRunsAt hEnds hMove hp
    have hFunded := h.funded p hp
    unfold Funds at hFunds
    rw [o.stakes_perform, Tables.total_set hRunsAt.2]
    linarith
  · obtain ⟨hTotal, hAmount, -, hEdit, hIdle⟩ := hMove.opened hOpened
    have hId := Op.mem_opened hOpened
    have hWeights : Tables.total (Stake.exposure (exposedAfter S o pt') p'.id) (o.perform a c.state).2.stakes = 0 := by
      rw [o.stakes_perform, hEdit, Edit.apply_keep]
      refine Tables.total_zero fun s hs => if_neg fun hSel => ?_
      exact Nat.ne_of_lt (h.ordered.consistent.sound s hs).paymentId_lt (hSel.1.trans hId)
    have hDues : Tables.total (fun pt : Point => pt.phase.refundDue p'.id) (pts.set t pt') = 0 := by
      refine Tables.total_zero fun pu hu => ?_
      rcases List.mem_or_eq_of_mem_set hu with hu | rfl
      · refine Phase.refundDue_other fun r hr hPayment => ?_
        exact Nat.ne_of_lt (h.ordered.knows pu hu r hr).sound.paymentId_lt (hPayment.trans hId)
      · rw [hIdle]
        rfl
    rw [hWeights, hDues, hTotal]
    exact ⟨(add_zero _).le, hAmount⟩

end Funds

/-! ## The invariant of a run -/

section Runs

theorem Exposed.run (hInjective : Function.Injective c.state.refundRefs) (hT : Tracks store protocol start c pts)
    (h : Exposed S c pts) (hHonest : honestProvider c (.run t a) = true) (hCareful : careful c (.run t a) = true)
    (hNames : NamesOwn c (.run t a)) (hRan : store.Ran c t a o th k c') (hPoint : pts[t]? = some pt)
    (hMove : Move o a c.state pt pt') : Exposed (exposedAfter S o pt') c' (pts.set t pt') := by
  have hRunsAt := Config.RunsAt.of_ran hRan hPoint
  have hEnds : EndsSafely S c pts t o pt pt' := fun r hEnd => h.ended hT hCareful hRan hPoint hEnd
  have hState : c'.state = (o.perform a c.state).2 := hRan.state
  have hFunds := h.funds_run hRunsAt hEnds hMove
  constructor <;> try rw [hState]
  · exact h.ordered.move hPoint hMove
  · exact h.refs_run hInjective hNames hRan hPoint hMove
  · intro pu hu
    rcases List.mem_or_eq_of_mem_set hu with hu | rfl
    · exact (h.honest pu hu).perform hMove (h.ordered.knows pu hu)
    · exact h.honest_self hHonest hRan hPoint hMove
  · rw [(o.ledger_perform a c.state).1]
    exact h.ledgerKeys
  · exact h.ledger_run hRunsAt hEnds hMove
  · exact h.received_run hRunsAt hEnds hMove
  · exact h.reserved_run hRan hPoint hEnds hMove
  · exact h.stored_run hRan hPoint hMove
  · intro u pu hU
    rcases hU.cases hRan with ⟨rfl, rfl⟩ | ⟨hNe, hU⟩
    · exact h.safe_self hT hCareful hHonest hRan hPoint hMove
    · exact h.safe_other hRunsAt hU hNe hEnds hMove
  · exact h.apart_run hT hCareful hRan hPoint hMove
  · exact fun p hp => (hFunds p hp).1
  · exact fun p hp => (hFunds p hp).2

/-! ### Stops and events -/

theorem Config.RunsAt.of_stop (hThread : c.threads[t]? = some th)
    (h : Config.RunsAt { c with threads := c.threads.set t { th with stopped := true } } pts u pu) :
    u ≠ t ∧ Config.RunsAt c pts u pu := by
  obtain ⟨⟨thU, hThreadU, hRunning⟩, hU⟩ := h
  rcases Tables.getElem?_set_cases hThreadU with ⟨rfl, rfl⟩ | ⟨hNe, hThreadU⟩
  · cases hRunning
  · exact ⟨hNe, ⟨thU, hThreadU, hRunning⟩, hU⟩

theorem Config.RunsAt.stop (h : Config.RunsAt c pts u pu) (hNe : u ≠ t) :
    Config.RunsAt { c with threads := c.threads.set t { th with stopped := true } } pts u pu := by
  obtain ⟨⟨thU, hThreadU, hRunning⟩, hU⟩ := h
  exact ⟨⟨thU, by rw [List.getElem?_set_ne hNe.symm]; exact hThreadU, hRunning⟩, hU⟩

theorem Exposed.stop (hT : Tracks store protocol start c pts) (h : Exposed S c pts) (hCareful : careful c (.stop t) = true)
    (hThread : c.threads[t]? = some th) :
    Exposed S { c with threads := c.threads.set t { th with stopped := true } } pts := by
  refine ⟨h.ordered, h.refs, h.honest, h.ledgerKeys, h.ledger, h.received, ?_,
    fun u pu r hU => h.stored u pu r (hU.of_stop hThread).2, fun u pu hU => h.safe u pu (hU.of_stop hThread).2,
    fun u pu id hU => h.apart u pu id (hU.of_stop hThread).2, h.funded, h.within⟩
  intro s hs hPending hReserved
  rcases h.reserved s hs hPending hReserved with hS | ⟨u, pu, call, hU, hReleased, hId⟩
  · exact .inl hS
  · by_cases hNe : u = t
    · subst hNe
      obtain ⟨o, hWaiting, _, _, _, hMove⟩ := hU.waiting hT (by rw [hReleased]; rfl)
      rw [hMove.of_released hReleased] at hWaiting
      obtain ⟨r, hr, rfl⟩ := List.mem_map.mp hs
      have hNone : (c.state.refunds.any fun r => r.id = call.claim.id && r.status = .pending && r.amountReserved) = false := by
        simpa [careful, hWaiting] using hCareful
      refine absurd ?_ (List.any_eq_false.mp hNone r hr)
      have hStatus : r.status = .pending := hPending
      have hAmount : r.amountReserved = true := hReserved
      have hSame : r.id = call.claim.id := hId.symm
      simp [hStatus, hAmount, hSame]
    · exact .inr ⟨u, pu, call, hU.stop hNe, hReleased, hId⟩

section Events

variable {w : World} (e : Event)

theorem Event.refunds_advance (w : World) : (e.advance w).refunds = w.refunds ∧ (e.advance w).refundRefs = w.refundRefs := by
  cases e with
  | process index status =>
    simp only [advance]
    split <;> exact ⟨rfl, rfl⟩
  | _ => exact ⟨rfl, rfl⟩

theorem Event.received_advance (w : World) : ∀ r ∈ (e.advance w).received, r ∈ w.received := by
  intro r hr
  cases e with
  | process index status =>
    simp only [advance] at hr
    split at hr
    · exact hr
    · exact List.mem_of_mem_eraseIdx hr
  | _ => exact hr

theorem Event.ledger_kept (w : World) : ∀ r ∈ w.ledger, ∃ r' ∈ (e.advance w).ledger,
    r'.toRefundRequest = r.toRefundRequest ∧ (r.status = .failed → r'.status = .failed) := by
  intro r hr
  cases e with
  | tick elapsed => exact ⟨r, hr, rfl, id⟩
  | process index status =>
    simp only [advance]
    split
    · exact ⟨r, hr, rfl, id⟩
    · refine ⟨r, ?_, rfl, id⟩
      dsimp only
      split
      · exact hr
      · exact List.mem_append_left _ hr
  | update key status =>
    refine ⟨_, Tables.mem_update.mpr ⟨r, hr, rfl⟩, ?_, ?_⟩
    · split <;> rfl
    · intro hFailed
      rw [if_neg (by simp [hFailed, refundTransitions])]
      exact hFailed

theorem Event.ledger_from (w : World) : ∀ r' ∈ (e.advance w).ledger,
    (∃ r ∈ w.ledger, r'.toRefundRequest = r.toRefundRequest ∧ (r.status = .failed → r'.status = .failed)) ∨
      (r'.toRefundRequest ∈ w.received ∧ ¬ w.Recorded r'.key) := by
  intro r' hr'
  cases e with
  | tick elapsed => exact .inl ⟨r', hr', rfl, id⟩
  | process index status =>
    simp only [advance] at hr'
    split at hr'
    · exact .inl ⟨r', hr', rfl, id⟩
    · rename_i request hFind
      dsimp only at hr'
      split at hr'
      · exact .inl ⟨r', hr', rfl, id⟩
      · rename_i hNew
        rcases List.mem_append.mp hr' with hr' | hr'
        · exact .inl ⟨r', hr', rfl, id⟩
        · cases List.mem_singleton.mp hr'
          refine .inr ⟨List.mem_of_getElem? hFind, ?_⟩
          rintro ⟨r, hr, hKey⟩
          exact hNew (List.any_eq_true.mpr ⟨r, hr, decide_eq_true hKey⟩)
  | update key status =>
    obtain ⟨r, hr, rfl⟩ := Tables.mem_update.mp hr'
    refine .inl ⟨r, hr, by split <;> rfl, fun hFailed => ?_⟩
    rw [if_neg (by simp [hFailed, refundTransitions])]
    exact hFailed

theorem Event.ledgerKeys_advance (h : (w.ledger.map fun r => r.key).Nodup) :
    ((e.advance w).ledger.map fun r => r.key).Nodup := by
  cases e with
  | tick elapsed => exact h
  | process index status =>
    simp only [advance]
    split
    · exact h
    · dsimp only
      split
      · exact h
      · rename_i hNew
        rw [List.map_append, List.nodup_append]
        refine ⟨h, List.nodup_singleton _, ?_⟩
        intro key hKey key' hKey' hEq
        obtain ⟨r, hr, rfl⟩ := List.mem_map.mp hKey
        cases List.mem_singleton.mp hKey'
        exact hNew (List.any_eq_true.mpr ⟨r, hr, decide_eq_true hEq⟩)
  | update key status =>
    have hKeys : ((Event.update key status).advance w).ledger.map (fun r => r.key) = w.ledger.map fun r => r.key :=
      Tables.map_update_eq (fun r : ProviderRefund => r.key) fun _ => rfl
    rw [hKeys]
    exact h

theorem World.Recorded.advance {key : ProviderRefundKey} (h : w.Recorded key) : (e.advance w).Recorded key := by
  obtain ⟨r, hr, hKey⟩ := h
  obtain ⟨r', hr', hSame, -⟩ := e.ledger_kept w r hr
  exact ⟨r', hr', (congrArg RefundRequest.key hSame).trans hKey⟩

theorem World.Unsent.advance {key : ProviderRefundKey} (h : w.Unsent key) : (e.advance w).Unsent key := by
  constructor
  · refine List.countP_eq_zero.mpr fun r hr hKey => ?_
    exact h.not_received (e.received_advance w r hr) (of_decide_eq_true hKey)
  · rintro ⟨r', hr', hKey⟩
    rcases e.ledger_from w r' hr' with ⟨r, hr, hSame, -⟩ | ⟨hReceived, -⟩
    · exact h.recorded ⟨r, hr, (congrArg RefundRequest.key hSame).symm.trans hKey⟩
    · exact h.not_received hReceived hKey

theorem World.inFlight_advance {key : ProviderRefundKey}
    (h : (w.inFlight key = 1 ∧ ¬ w.Recorded key) ∨ (w.inFlight key = 0 ∧ w.Recorded key)) :
    ((e.advance w).inFlight key = 1 ∧ ¬ (e.advance w).Recorded key) ∨
      ((e.advance w).inFlight key = 0 ∧ (e.advance w).Recorded key) := by
  rcases h with ⟨hOne, hNot⟩ | ⟨hNone, hRecorded⟩
  · cases e with
    | tick elapsed => exact .inl ⟨hOne, hNot⟩
    | update key' status =>
      refine .inl ⟨hOne, ?_⟩
      rintro ⟨r', hr', hKey⟩
      obtain ⟨r, hr, rfl⟩ := Tables.mem_update.mp hr'
      refine hNot ⟨r, hr, Eq.trans ?_ hKey⟩
      split <;> rfl
    | process index status =>
      cases hFind : w.received[index]? with
      | none =>
        simp only [Event.advance, hFind]
        exact .inl ⟨hOne, hNot⟩
      | some request =>
        obtain ⟨hLt, hGet⟩ := List.getElem?_eq_some_iff.mp hFind
        have hPerm := (List.getElem_cons_eraseIdx_perm hLt).countP_eq fun r : RefundRequest => decide (r.key = key)
        rw [hGet] at hPerm
        unfold World.inFlight at hOne ⊢
        by_cases hKey : request.key = key
        · rw [List.countP_cons_of_pos (p := fun r : RefundRequest => decide (r.key = key)) (decide_eq_true hKey)] at hPerm
          refine .inr ⟨?_, ?_⟩
          · simp only [Event.advance, hFind]
            omega
          · have hAny : (w.ledger.any fun r => r.key = request.key) = false := by
              refine List.any_eq_false.mpr fun r hr hSame => hNot ⟨r, hr, ?_⟩
              exact (of_decide_eq_true hSame).trans hKey
            refine ⟨⟨request, status⟩, ?_, hKey⟩
            simp only [Event.advance, hFind, hAny, Bool.false_eq_true, if_false]
            exact List.mem_append_right _ (List.mem_singleton_self _)
        · rw [List.countP_cons_of_neg (p := fun r : RefundRequest => decide (r.key = key)) (by simpa using hKey)] at hPerm
          refine .inl ⟨?_, ?_⟩
          · simp only [Event.advance, hFind]
            omega
          · rintro ⟨r', hr', hEq⟩
            rcases (Event.process index status).ledger_from w r' hr' with ⟨r, hr, hSame, -⟩ | ⟨hReceived, hNew⟩
            · exact hNot ⟨r, hr, (congrArg RefundRequest.key hSame).symm.trans hEq⟩
            · simp only [Event.advance, hFind] at hr'
              split at hr'
              · exact hNot ⟨r', hr', hEq⟩
              · rcases List.mem_append.mp hr' with hr' | hr'
                · exact hNot ⟨r', hr', hEq⟩
                · cases List.mem_singleton.mp hr'
                  exact hKey hEq
  · refine .inr ⟨?_, hRecorded.advance e⟩
    refine List.countP_eq_zero.mpr fun r hr => ?_
    exact List.countP_eq_zero.mp hNone r (e.received_advance w r hr)

theorem Phase.Honest.advance {ph : Phase} (h : ph.Honest w) : ph.Honest (e.advance w) := by
  obtain ⟨-, hRefs⟩ := e.refunds_advance w
  have hStakes := (e.advance_fields w).1
  have hTruthful : ∀ {key : ProviderRefundKey} {report : RefundReport}, report.Truthful w key →
      report.Truthful (e.advance w) key := by
    intro key report hTrue
    refine ⟨by rw [hRefs]; exact hTrue.ref, fun hFailed => ?_⟩
    obtain ⟨r, hr, hKey, hDead⟩ := hTrue.failed hFailed
    obtain ⟨r', hr', hSame, hStill⟩ := e.ledger_kept w r hr
    exact ⟨r', hr', (congrArg RefundRequest.key hSame).trans hKey, hStill hDead⟩
  cases ph with
  | heard body =>
    intro update hUpdate
    obtain ⟨r, hr, hRef, hNamed, hFailed⟩ := h update hUpdate
    obtain ⟨r', hr', hSame, hStill⟩ := e.ledger_kept w r hr
    have hKey : r'.key = r.key := congrArg RefundRequest.key hSame
    exact ⟨r', hr', by rw [hRefs, hKey]; exact hRef, by rw [hKey]; exact hNamed, fun hDead => hStill (hFailed hDead)⟩
  | seen r | held r =>
    simp only [Honest, Refund.RefOwn, hRefs]
    exact h
  | reporting r report method | decided r report method => exact fun hMethod => hTruthful (h hMethod)
  | fresh r latest | leasing r latest now =>
    simp only [Honest, hStakes]
    exact h
  | _ => trivial

theorem Phase.Safe.advance {ph : Phase} (h : ph.Safe S w) : ph.Safe S (e.advance w) := by
  cases ph with
  | claimed claim | unreserved claim => exact World.Unsent.advance e h
  | reserved claim => exact ⟨World.Unsent.advance e h.1, h.2⟩
  | ready call =>
    exact ⟨fun hFresh => ⟨World.Unsent.advance e (h.1 hFresh).1, (h.1 hFresh).2⟩,
      fun hReissue => (h.2 hReissue).imp id (World.Recorded.advance e)⟩
  | calling call => exact fun hFresh => World.inFlight_advance e (h hFresh)
  | refused call => exact ⟨World.Unsent.advance e h.1, h.2⟩
  | released call => exact World.Unsent.advance e h
  | _ => trivial

theorem Exposed.event (h : Exposed S c pts) : Exposed S { c with state := store.advance e c.state } pts := by
  obtain ⟨hRefunds, hRefs⟩ := e.refunds_advance c.state
  obtain ⟨hStakes, hPayments, -⟩ := e.advance_fields c.state
  constructor
  · exact h.ordered.advance e
  · simp only [Refund.RefOwn, hRefunds, hRefs]
    exact h.refs
  · exact fun pt hpt => (h.honest pt hpt).advance e
  · exact e.ledgerKeys_advance h.ledgerKeys
  · intro r' hr'
    simp only [hStakes]
    rcases e.ledger_from c.state r' hr' with ⟨r, hr, hSame, hStill⟩ | ⟨hReceived, hNew⟩
    · obtain ⟨s, hs, hMatches, hExposed⟩ := h.ledger r hr
      exact ⟨s, hs, hSame ▸ hMatches, hExposed.imp id fun hDead => ⟨hStill hDead.1, hDead.2⟩⟩
    · obtain ⟨s, hs, hMatches, hExposed⟩ := h.received _ hReceived
      exact ⟨s, hs, hMatches, .inl (hExposed.resolve_right hNew)⟩
  · intro r hr
    simp only [hStakes]
    obtain ⟨s, hs, hMatches, hExposed⟩ := h.received r (e.received_advance c.state r hr)
    exact ⟨s, hs, hMatches, hExposed.imp id (World.Recorded.advance e)⟩
  · simp only [hStakes]
    exact h.reserved
  · simp only [World.Stored, hStakes]
    exact h.stored
  · exact fun u pu hU => (h.safe u pu hU).advance e
  · exact h.apart
  · simp only [hStakes, hPayments]
    exact h.funded
  · simp only [hStakes, hPayments]
    exact h.within

end Events

theorem Exposed.initial {env : Env} {w : World} {requests : List Request} (hOpening : w.Opening) :
    Exposed (fun _ => False) (State.start env w requests) (requests.map fun _ => {}) := by
  obtain ⟨hConsistent, hRefunds, hReceived, hLedger, hTotals⟩ := hOpening
  have hPoints : ∀ pt ∈ requests.map fun _ => ({} : Point), pt = {} := by
    intro pt hpt
    obtain ⟨_, -, rfl⟩ := List.mem_map.mp hpt
    rfl
  have hStakes : w.stakes = [] := by rw [World.stakes, hRefunds, List.map_nil]
  have hIdle : ∀ {u pu}, Config.RunsAt (State.start env w requests) (requests.map fun _ => ({} : Point)) u pu → pu = {} :=
    fun hU => hPoints _ (List.mem_of_getElem? hU.2)
  have hFunds : ∀ p ∈ w.payments, Tables.total (Stake.exposure (fun _ => False) p.id) w.stakes = 0 := by
    intro p hp
    rw [hStakes, Tables.total_nil]
  constructor
  · exact .initial hConsistent hPoints
  · intro r hr
    have hMem : r ∈ w.refunds := hr
    rw [hRefunds] at hMem
    cases hMem
  · intro pt hpt
    rw [hPoints pt hpt]
    trivial
  · change (w.ledger.map _).Nodup
    rw [hLedger]
    exact List.nodup_nil
  · intro e he
    have hMem : e ∈ w.ledger := he
    rw [hLedger] at hMem
    cases hMem
  · intro r hr
    have hMem : r ∈ w.received := hr
    rw [hReceived] at hMem
    cases hMem
  · intro s hs
    have hMem : s ∈ w.stakes := hs
    rw [hStakes] at hMem
    cases hMem
  · intro u pu r hU hWorking
    rw [hIdle hU] at hWorking
    cases hWorking
  · intro u pu hU
    rw [hIdle hU]
    trivial
  · intro u pu id hU hOwner
    rw [hIdle hU] at hOwner
    cases hOwner
  · intro p hp
    have hDues : Tables.total (fun pt : Point => pt.phase.refundDue p.id) (requests.map fun _ => ({} : Point)) = 0 :=
      Tables.total_zero fun pt hpt => by rw [hPoints pt hpt]; rfl
    rw [hDues, add_zero]
    exact (hFunds p hp).le.trans (hTotals p hp).1.ge
  · exact fun p hp => (hFunds p hp).le.trans (hTotals p hp).2

theorem Exposed.refunded_le (h : Exposed S c pts) (paymentId : Id) :
    c.state.refunded paymentId ≤ Tables.total (Stake.exposure S paymentId) c.state.stakes := by
  have hPos : ∀ s ∈ c.state.stakes, 0 < s.claim.amount := fun s hs => (h.ordered.consistent.sound s hs).amount_pos
  refine Tables.total_le_of_keys (fun e => e.key) (fun s => s.claim.key) ?_ ?_ fun s hs =>
    Stake.exposure_nonneg S paymentId (hPos s hs)
  · exact h.ledgerKeys.sublist (List.Sublist.map _ List.filter_sublist)
  · intro e he
    obtain ⟨he, hSelected⟩ := List.mem_filter.mp he
    simp only [Bool.and_eq_true, decide_eq_true_eq] at hSelected
    obtain ⟨hPayment, hSucceeded⟩ := hSelected
    obtain ⟨s, hs, hMatches, hExposed⟩ := h.ledger e he
    have hS : S s.claim.id := hExposed.resolve_right fun hFailed => by
      rw [hSucceeded] at hFailed
      cases hFailed.1
    refine ⟨s, hs, hMatches.key_eq, ?_⟩
    rw [Stake.exposure_of hS, if_pos (hMatches.paymentId_eq.trans hPayment), hMatches.amount_eq]

theorem Exposed.backed (h : Exposed S c pts) : c.state.Backed := by
  intro p hp
  have hRefunded := h.refunded_le p.id
  have hDues : 0 ≤ Tables.total (fun pt : Point => pt.phase.refundDue p.id) pts :=
    Tables.total_nonneg fun pt hpt => Phase.refundDue_nonneg fun r hr => (h.ordered.knows pt hpt r hr).sound.amount_pos
  have hUnreserved : 0 ≤ c.state.unreserved p.id :=
    Tables.total_nonneg fun r hr => (h.ordered.consistent.sound _ (stake_mem (List.mem_filter.mp hr).1)).amount_pos.le
  have hFunded := h.funded p hp
  exact ⟨by linarith, hRefunded.trans (h.within p hp)⟩

end Runs

def keyRef (key : ProviderRefundKey) : String :=
  String.ofList (List.replicate key.restaurantId 'r' ++ '_' :: key.idempotencyKey.toList)

theorem World.Opening.single : ({ World.single paidPayment with refundRefs := keyRef } : World).Opening :=
  ⟨{ World.Consistent.single paidPayment with }, rfl, rfl, rfl, by decide⟩

end RestaurantOs.Payments
