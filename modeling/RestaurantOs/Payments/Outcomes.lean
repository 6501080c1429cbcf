import RestaurantOs.Payments.Claims

/-!
# Refund outcomes

Any number of `applyRefundOutcome` calls on one refund, in any order: what they
have added to the payment's total, once they are done, is a function of the refund
at the start and its status at the end.
-/

namespace RestaurantOs.Payments

open Async

structure OutcomeCall where
  refund : Refund
  report : RefundReport
  method : ReportMethod
  ctx : ActorContext
  evidence : Option String := none

def OutcomeCall.program (call : OutcomeCall) : Promise (Option Refund) :=
  applyRefundOutcome call.refund call.report call.method call.ctx call.evidence

abbrev OutcomeState := Config Op Op.Resp Err World (Option Refund)

def OutcomeState.start (w : World) (calls : List OutcomeCall) : OutcomeState :=
  Config.initial w (calls.map OutcomeCall.program)

def OutcomeCall.point (call : OutcomeCall) : Point := { phase := .reporting call.refund call.report call.method }

def noStop {τ : Type} (_ : τ) : Label Answer Event → Bool
  | .stop _ => false
  | _ => true

def World.refundStatus (w : World) (id : Id) : Option RefundStatus :=
  (w.refunds.find? fun r => r.id = id).map Refund.status

/-- The net change of the payment's total once `refund` has come to `status`. -/
def netChange (refund : Refund) (status : RefundStatus) : ℚ :=
  if status = .succeeded ∧ refund.counted = false then refund.amount
  else if status = .failed ∧ refund.counted = true then -refund.amount
  else 0

/-! ## What a call performs -/

def Op.ofOutcome : Op → Bool
  | .clock | .audit _ _ _ | .order _ => true
  | .refund op =>
    match op with
    | .findById _ | .findUpdated _ | .setDetails _ _ _ | .settle _ | .sumSucceeded _ => true
    | _ => false
  | .payment op =>
    match op with
    | .findById _ | .giveBack _ | .count _ | .setStatus _ _ => true
    | _ => false
  | _ => false

open Prog

theorem performs_outcome {o : Op} (h : o.ofOutcome = true) :
    (Prog.call o : Promise o.Resp).Performs fun o => o.ofOutcome := performs_call h

theorem syncPaymentRefundStatus_performs (paymentId : Id) :
    (syncPaymentRefundStatus paymentId).Performs fun o => o.ofOutcome := by
  unfold syncPaymentRefundStatus
  refine (performs_outcome rfl).bind fun payment => ?_
  cases payment with
  | none => trivial
  | some payment =>
    dsimp only
    split
    · trivial
    · refine (performs_outcome rfl).bind fun total => ?_
      split
      · trivial
      · exact (performs_outcome rfl).bind fun _ => trivial

theorem announceRefund_performs (updated : Refund) (paymentStatus : Option PaymentStatus) :
    (announceRefund updated paymentStatus).Performs fun o => o.ofOutcome := by
  unfold announceRefund
  refine (performs_outcome rfl).bind fun order => ?_
  cases order with
  | none => trivial
  | some order => exact (performs_onlyIf (performs_outcome rfl)).bind fun _ => performs_outcome rfl

theorem settlementEffects_performs (before updated : Refund) (target : RefundStatus) (method : ReportMethod)
    (ctx : ActorContext) : (settlementEffects before updated target method ctx).Performs fun o => o.ofOutcome := by
  unfold settlementEffects adjustTotal
  refine Performs.bind ?_ fun _ => (syncPaymentRefundStatus_performs _).bind fun paymentStatus => ?_
  · split
    · exact performs_outcome rfl
    · split
      · exact performs_outcome rfl
      · trivial
  · exact (performs_onlyIf (performs_outcome rfl)).bind fun _ =>
      (performs_onlyIf (announceRefund_performs _ _)).bind fun _ => trivial

theorem applyRefundOutcome_performs (refund : Refund) (report : RefundReport) (method : ReportMethod)
    (ctx : ActorContext) (evidence : Option String) :
    (applyRefundOutcome refund report method ctx evidence).Performs fun o => o.ofOutcome := by
  unfold applyRefundOutcome
  refine (performs_outcome rfl).bind fun current => ?_
  cases current with
  | none => trivial
  | some current =>
    dsimp only
    split
    · exact (performs_outcome rfl).bind fun _ => performs_outcome rfl
    · split
      · trivial
      · refine (performs_outcome rfl).bind fun now => (performs_outcome rfl).bind fun before => ?_
        cases before with
        | none => exact performs_outcome rfl
        | some before =>
          refine (performs_outcome rfl).bind fun updated => ?_
          cases updated with
          | none => trivial
          | some updated => exact settlementEffects_performs _ _ _ _ _

/-! ## The invariant -/

def Phase.OfOutcome (refund : Refund) : Phase → Prop
  | idle | unsynced _ | reading _ | writing _ _ => True
  | reporting r _ _ | decided r _ _ => r.id = refund.id
  | settled r _ | owing r _ => r.claim = refund.claim
  | _ => False

def Phase.change (refund : Refund) : Phase → ℚ
  | settled before target =>
    if settlementDue before target = true then if target = .failed then -refund.amount else refund.amount else 0
  | owing _ target => if target = .failed then -refund.amount else refund.amount
  | _ => 0

structure Stake.From (refund : Refund) (s : Stake) : Prop where
  claim_eq : s.claim = refund.claim
  pending : s.status = .pending → s.reserved = refund.amountReserved ∧ refund.status = .pending

structure Netted (w : World) (refund : Refund) (c : OutcomeState) (pts : List Point) : Prop where
  performs : ∀ th ∈ c.threads, th.prog.Performs fun o => o.ofOutcome
  ids : (c.state.stakes.map fun s => s.claim.id).Nodup
  phases : ∀ pt ∈ pts, pt.phase.OfOutcome refund
  stake : ∃ s ∈ c.state.stakes, s.From refund ∧
    ∀ p ∈ c.state.payments, p.id = refund.paymentId → ∃ p₀ ∈ w.payments, p₀.id = p.id ∧
      p.totalRefunded + Tables.total (fun pt : Point => pt.phase.change refund) pts =
        p₀.totalRefunded + netChange refund s.status

section Step

variable {refund : Refund} {o : Op} {a : Answer} {w : World} {pt pt' : Point}

theorem Phase.change_calm {ph : Phase} (h : ph.calm = true) : ph.change refund = 0 := by
  cases ph <;> first | rfl | cases h

structure Advances (o : Op) (w : World) (pt pt' : Point) (refund : Refund) (s s' : Stake) : Prop where
  phase : pt'.phase.OfOutcome refund
  opened : o.opened w = []
  born : (o.edit w).born = []
  on : (o.edit w).on s = some s'
  kept : s'.From refund
  moves : s'.status = s.status ∨ s'.status ∈ refundTransitions s.status
  total : ∀ p : Payment, p.id = refund.paymentId → (o.revise w p).totalRefunded + pt'.phase.change refund +
    netChange refund s.status = p.totalRefunded + pt.phase.change refund + netChange refund s'.status

theorem Advances.still {s : Stake} (hFrom : s.From refund) (hEdit : o.edit w = .keep) (hAdds : o.adds = false)
    (hOpened : o.opened w = []) (hPhase : pt'.phase.OfOutcome refund)
    (hChange : pt'.phase.change refund = pt.phase.change refund) : Advances o w pt pt' refund s s := by
  refine ⟨hPhase, hOpened, by rw [hEdit]; rfl, by rw [hEdit]; rfl, hFrom, .inl rfl, fun p _ => ?_⟩
  rw [Op.revise_total hAdds, hChange]

theorem Op.opened_quiet (h : o.quiet = true) : o.opened w = [] := by
  cases o with
  | payment op => cases op <;> first | rfl | cases h
  | _ => rfl

theorem net_settled {before : Refund} {target : RefundStatus} (hFrom : before.stake.From refund)
    (hAllowed : target ∈ refundTransitions before.status) :
    (Phase.settled before target).change refund + netChange refund before.status = netChange refund target := by
  rcases refundTransitions_cases hAllowed with ⟨hStatus, rfl⟩ | ⟨hStatus, rfl⟩ | ⟨hStatus, rfl⟩
  · obtain ⟨hReserved, hPending⟩ := hFrom.pending hStatus
    rw [Refund.stake_reserved] at hReserved
    cases hAmount : refund.amountReserved <;>
      simp [Phase.change, settlementDue, netChange, Refund.counted, hStatus, hReserved, hPending, hAmount]
  · obtain ⟨hReserved, hPending⟩ := hFrom.pending hStatus
    rw [Refund.stake_reserved] at hReserved
    cases hAmount : refund.amountReserved <;>
      simp [Phase.change, settlementDue, netChange, Refund.counted, hStatus, hReserved, hPending, hAmount]
  · have hDue : settlementDue before .failed = true := by simp [settlementDue, Refund.counted, hStatus]
    cases hCounted : refund.counted <;> simp [Phase.change, hDue, netChange, hStatus, hCounted]

theorem Move.advances {s : Stake} (hOp : o.ofOutcome = true) (hPhase : pt.phase.OfOutcome refund)
    (hIds : (w.stakes.map fun s => s.claim.id).Nodup) (hs : s ∈ w.stakes) (hFrom : s.From refund)
    (hMove : Move o a w pt pt') : ∃ s', Advances o w pt pt' refund s s' := by
  have hStored : ∀ {r : Refund}, r ∈ w.refunds → r.id = refund.id → r.stake = s := fun hr hId =>
    Tables.eq_of_id hIds (stake_mem hr) hs (hId.trans (congrArg Claim.id hFrom.claim_eq).symm)
  have hClaim : ∀ {r : Refund}, r ∈ w.refunds → r.id = refund.id → r.claim = refund.claim := fun hr hId =>
    (congrArg Stake.claim (hStored hr hId)).trans hFrom.claim_eq
  induction hMove with
  | quiet ho hph =>
    exact ⟨s, .still hFrom (Op.edit_quiet ho) (Op.adds_quiet ho) (Op.opened_quiet ho) hPhase rfl⟩
  | rest ho hph =>
    exact ⟨s, .still hFrom (Op.edit_quiet ho) (Op.adds_quiet ho) (Op.opened_quiet ho) trivial
      (Phase.change_calm hph).symm⟩
  | decide hFind =>
    have hId := List.find?_some hFind
    rw [decide_eq_true_eq] at hId
    exact ⟨s, .still hFrom rfl rfl rfl (hId.trans hPhase) rfl⟩
  | note => exact ⟨s, .still hFrom rfl rfl rfl trivial rfl⟩
  | settleLost hph hFind =>
    exact ⟨s, .still hFrom (Op.edit_settleLost hFind) rfl rfl trivial (Phase.change_calm hph).symm⟩
  | @settle st _ _ _ current report method _ _ _ before hId hSource hTarget hDetails hResolution hAllowed hFind hRef =>
    have hSel := List.find?_some hFind
    simp only [Bool.and_eq_true, decide_eq_true_eq] at hSel
    have hMem := List.mem_of_find?_eq_some hFind
    have hIdEq : before.id = refund.id := hSel.1.trans (hId.trans hPhase)
    have hEq := hStored hMem hIdEq
    have hEdit := Op.edit_settle ⟨hFind, hRef⟩
    have hStatus : s.status = st.source := by rw [← hEq]; exact hSel.2
    have hOn : (Edit.settle st.id st.source st.target).on s = some ⟨s.claim, st.target, st.target ≠ .failed⟩ :=
      congrArg some (if_pos ⟨by rw [← hEq]; exact hSel.1, hStatus⟩)
    refine ⟨⟨s.claim, st.target, st.target ≠ .failed⟩, hClaim hMem hIdEq, rfl, by rw [hEdit]; rfl,
      by rw [hEdit]; exact hOn, ⟨hFrom.claim_eq, ?_⟩, .inr (by rw [hStatus]; exact hAllowed), fun p _ => ?_⟩
    · intro hPending
      exact absurd hPending (refundTransitions_ne_pending hAllowed)
    · have hNet := net_settled (hEq ▸ hFrom) (hSel.2 ▸ hAllowed)
      rw [Op.revise_total rfl, hStatus, ← hSel.2, ← hNet]
      simp only [Phase.change]
      ring
  | @reread _ _ _ before target updated hFind hDue =>
    have hSel := List.find?_some hFind
    rw [decide_eq_true_eq] at hSel
    have hIdEq : updated.id = refund.id := hSel.trans (congrArg Claim.id hPhase)
    refine ⟨s, .still hFrom rfl rfl rfl (hClaim (List.mem_of_find?_eq_some hFind) hIdEq) ?_⟩
    simp only [Phase.change, hDue, if_true]
  | @rereadEven _ _ _ before target updated hFind hDue =>
    refine ⟨s, .still hFrom rfl rfl rfl trivial ?_⟩
    simp only [Phase.change, hDue, Bool.false_eq_true, if_false]
  | @rereadGone _ _ _ before target hFind =>
    obtain ⟨r, hr, hEq⟩ := List.mem_map.mp hs
    have hNot := List.find?_eq_none.mp hFind r hr
    rw [decide_eq_true_eq] at hNot
    have hId : r.id = s.claim.id := congrArg (fun s : Stake => s.claim.id) hEq
    rw [hFrom.claim_eq] at hId
    exact absurd (hId.trans (congrArg Claim.id hPhase).symm) hNot
  | @giveBack _ _ _ updated =>
    have hPayment : updated.paymentId = refund.paymentId := congrArg Claim.paymentId hPhase
    have hAmount : updated.amount = refund.amount := congrArg Claim.amount hPhase
    refine ⟨s, trivial, rfl, rfl, rfl, hFrom, .inl rfl, fun p hp => ?_⟩
    simp only [Op.revise, PaymentOp.revise, hPayment, hp, if_true, Payment.addRefunded, hAmount, Phase.change]
    ring
  | @count _ _ _ updated =>
    have hPayment : updated.paymentId = refund.paymentId := congrArg Claim.paymentId hPhase
    have hAmount : updated.amount = refund.amount := congrArg Claim.amount hPhase
    refine ⟨s, trivial, rfl, rfl, rfl, hFrom, .inl rfl, fun p hp => ?_⟩
    simp [Op.revise, PaymentOp.revise, hPayment, hp, Payment.addRefunded, hAmount, Phase.change]
  | syncRead | syncSkip | syncSum | syncEven | syncWrite => exact ⟨s, .still hFrom rfl rfl rfl trivial rfl⟩
  | byHand hFrom => rcases hFrom with rfl | ⟨rfl, -⟩ <;> cases hPhase
  | see hph hRead => cases hRead <;> cases hOp
  | hold | missing | fresh | clock | send => cases hPhase
  | _ => cases hOp

end Step

section Runs

variable {refund : Refund} {calls : List OutcomeCall} {c c' : OutcomeState} {start pts : List Point} {t : Nat}
  {a : Answer} {o : Op} {th : Thread Op Op.Resp Err World (Option Refund)}
  {k : Except Err o.Resp → Promise (Option Refund)} {w : World} {pt pt' : Point}

theorem Netted.run (h : Netted w refund c pts) (hRan : store.Ran c t a o th k c') (hPoint : pts[t]? = some pt)
    (hMove : Move o a c.state pt pt') : Netted w refund c' (pts.set t pt') := by
  obtain ⟨hOp, hPerforms⟩ := hRan.performs h.performs
  obtain ⟨s, hs, hFrom, hTotal⟩ := h.stake
  have hPhase := h.phases pt (List.mem_of_getElem? hPoint)
  obtain ⟨s', hAdvances⟩ := hMove.advances hOp hPhase h.ids hs hFrom
  have hState : c'.state = (o.perform a c.state).2 := hRan.state
  refine ⟨hPerforms, ?_, ?_, s', ?_, hAdvances.kept, ?_⟩
  · rw [hState, o.stakes_perform, Edit.apply, hAdvances.born, List.append_nil]
    have hIds := ((o.edit c.state).claims_sublist c.state.stakes).map Claim.id
    rw [List.map_map, List.map_map] at hIds
    exact hIds.nodup h.ids
  · intro pu hu
    rcases List.mem_or_eq_of_mem_set hu with hu | rfl
    · exact h.phases pu hu
    · exact hAdvances.phase
  · rw [hState, o.stakes_perform, Edit.mem_apply]
    exact .inl ⟨s, hs, hAdvances.on⟩
  · intro p' hp' hId
    rw [hState, o.payments_perform a, hAdvances.opened, List.append_nil, List.mem_map] at hp'
    obtain ⟨p, hp, rfl⟩ := hp'
    rw [o.revise_id] at hId ⊢
    obtain ⟨p₀, hp₀, hId₀, hEq⟩ := hTotal p hp hId
    refine ⟨p₀, hp₀, hId₀, ?_⟩
    have hStep := hAdvances.total p hId
    rw [Tables.total_set hPoint]
    linarith

theorem Netted.initial (hIds : (w.refunds.map Refund.id).Nodup) (hRefund : refund ∈ w.refunds)
    (hFailed : refund.status = .failed → refund.amountReserved = false)
    (hCalls : ∀ call ∈ calls, call.refund.id = refund.id) :
    Netted w refund (OutcomeState.start w calls) (calls.map OutcomeCall.point) := by
  refine ⟨?_, ?_, ?_, refund.stake, stake_mem hRefund, ⟨rfl, fun hPending => ⟨rfl, hPending⟩⟩, ?_⟩
  · intro th hth
    obtain ⟨p, hp, rfl⟩ := List.mem_map.mp hth
    obtain ⟨call, -, rfl⟩ := List.mem_map.mp hp
    exact applyRefundOutcome_performs _ _ _ _ _
  · change ((w.refunds.map Refund.stake).map _).Nodup
    rw [List.map_map]
    exact hIds
  · intro pt hpt
    obtain ⟨call, hCall, rfl⟩ := List.mem_map.mp hpt
    exact hCalls call hCall
  · intro p hp hId
    refine ⟨p, hp, rfl, ?_⟩
    have hChange : Tables.total (fun pt : Point => pt.phase.change refund) (calls.map OutcomeCall.point) = 0 := by
      refine Tables.total_zero fun pt hpt => ?_
      obtain ⟨call, -, rfl⟩ := List.mem_map.mp hpt
      rfl
    have hNet : netChange refund refund.status = 0 := by
      cases hStatus : refund.status with
      | pending => simp [netChange]
      | succeeded => simp [netChange, Refund.counted, hStatus]
      | failed => simp [netChange, Refund.counted, hStatus, hFailed hStatus]
    rw [hChange, Refund.stake_status, hNet]

theorem netted_of_reach (hIds : (w.refunds.map Refund.id).Nodup) (hRefund : refund ∈ w.refunds)
    (hFailed : refund.status = .failed → refund.amountReserved = false)
    (hCalls : ∀ call ∈ calls, call.refund.id = refund.id)
    (h : store.Reach (fun c l => noStop c l) (OutcomeState.start w calls) c) :
    ∃ pts, Tracks store protocol (calls.map OutcomeCall.point) c pts ∧ Netted w refund c pts ∧
      ∀ th ∈ c.threads, th.stopped = false := by
  have hTracks : Tracks store protocol (calls.map OutcomeCall.point) (OutcomeState.start w calls)
      (calls.map OutcomeCall.point) :=
    Tracks.initial fun call _ => applyRefundOutcome_follows
  refine hTracks.invariant (I := fun c pts => Netted w refund c pts ∧ ∀ th ∈ c.threads, th.stopped = false)
    ⟨Netted.initial hIds hRefund hFailed hCalls, ?_⟩ ?_ ?_ ?_ h
  · intro th hth
    obtain ⟨p, -, rfl⟩ := List.mem_map.mp hth
    rfl
  · rintro c c' pts t a o th k pt pt' - ⟨hI, hStopped⟩ - hRan hPoint hMove -
    refine ⟨hI.run hRan hPoint hMove, fun thU hU => ?_⟩
    rw [hRan.threads] at hU
    rcases List.mem_or_eq_of_mem_set hU with hU | rfl
    · exact hStopped thU hU
    · rfl
  · intro c pts t th _ _ hok
    cases hok
  · rintro c pts e - ⟨hI, hStopped⟩ -
    obtain ⟨hStakes, hPayments, -⟩ := e.advance_fields c.state
    exact ⟨⟨hI.performs, by simpa only [hStakes] using hI.ids, hI.phases, by simpa only [hStakes, hPayments] using hI.stake⟩,
      hStopped⟩

end Runs

theorem refundStatus_of_mem {w : World} {refund : Refund} {s : Stake} (hIds : (w.stakes.map fun s => s.claim.id).Nodup)
    (hs : s ∈ w.stakes) (hClaim : s.claim = refund.claim) : w.refundStatus refund.id = some s.status := by
  obtain ⟨r, hr, rfl⟩ := List.mem_map.mp hs
  have hRefundIds : (w.refunds.map Refund.id).Nodup := by
    rw [World.stakes, List.map_map] at hIds
    exact hIds
  have hId : r.id = refund.id := congrArg Claim.id hClaim
  have hFind : w.refunds.find? (fun d => d.id = refund.id) = some r := by
    have hFound := Tables.find?_id hRefundIds hr
    rw [hId] at hFound
    exact hFound
  rw [World.refundStatus, hFind]
  rfl

/-- However the calls interleave, the refund's status moves along the refund
transitions only, and once they are done the payment's total has changed by
the net change for the status the refund has then. -/
theorem applyRefundOutcome_once {w : World} {refund : Refund} {calls : List OutcomeCall} {c : OutcomeState}
    (hIds : (w.refunds.map Refund.id).Nodup) (hRefund : refund ∈ w.refunds)
    (hFailed : refund.status = .failed → refund.amountReserved = false)
    (hCalls : ∀ call ∈ calls, call.refund.id = refund.id)
    (h : store.Reach (fun c l => noStop c l) (OutcomeState.start w calls) c) :
    ∃ status, c.state.refundStatus refund.id = some status ∧
      (∀ l c', noStop c l = true → store.step l c = some c' → ∃ status', c'.state.refundStatus refund.id = some status' ∧
        (status' = status ∨ status' ∈ refundTransitions status)) ∧
      (c.Quiet → ∀ p ∈ c.state.payments, p.id = refund.paymentId →
        ∃ p₀ ∈ w.payments, p₀.id = p.id ∧ p.totalRefunded = p₀.totalRefunded + netChange refund status) := by
  obtain ⟨pts, hT, hI, hStopped⟩ := netted_of_reach hIds hRefund hFailed hCalls h
  obtain ⟨s, hs, hFrom, hTotal⟩ := hI.stake
  refine ⟨s.status, refundStatus_of_mem hI.ids hs hFrom.claim_eq, ?_, ?_⟩
  · intro l c' hok hStep
    cases l with
    | run t a =>
      obtain ⟨o, th, k, hRan⟩ := Store.runThread_cases (S := store) hStep
      obtain ⟨pt, pt', hPoint, hMove, -⟩ := hT.ran hRan
      obtain ⟨hOp, -⟩ := hRan.performs hI.performs
      obtain ⟨s', hAdvances⟩ := hMove.advances hOp (hI.phases pt (List.mem_of_getElem? hPoint)) hI.ids hs hFrom
      have hState : c'.state = (o.perform a c.state).2 := hRan.state
      have hs' : s' ∈ c'.state.stakes := by
        rw [hState, o.stakes_perform, Edit.mem_apply]
        exact .inl ⟨s, hs, hAdvances.on⟩
      exact ⟨s'.status, refundStatus_of_mem (hI.run hRan hPoint hMove).ids hs' hAdvances.kept.claim_eq, hAdvances.moves⟩
    | stop t => cases hok
    | event e =>
      cases hStep
      have hStakes := (e.advance_fields c.state).1
      refine ⟨s.status, refundStatus_of_mem (s := s) ?_ ?_ hFrom.claim_eq, .inl rfl⟩
      · simpa only [hStakes] using hI.ids
      · simpa only [hStakes] using hs
  · intro hQuiet p hp hId
    obtain ⟨p₀, hp₀, hId₀, hEq⟩ := hTotal p hp hId
    refine ⟨p₀, hp₀, hId₀, ?_⟩
    have hChange : Tables.total (fun pt : Point => pt.phase.change refund) pts = 0 := by
      refine Tables.total_zero fun pt hpt => ?_
      obtain ⟨t, hPoint⟩ := List.mem_iff_getElem?.mp hpt
      obtain ⟨th, hThread⟩ := hT.thread_exists hPoint
      cases hBorn : th.born with
      | none =>
        have hStart := hT.unborn hThread hBorn
        rw [hPoint, List.getElem?_map] at hStart
        obtain ⟨call, -, hEq⟩ := Option.map_eq_some_iff.mp hStart.symm
        rw [← hEq]
        rfl
      | some w =>
        have hMem := List.mem_of_getElem? hThread
        have hEnded : th.next?.isSome = false := by
          by_contra hNext
          exact hQuiet th hMem ⟨hStopped th hMem, by rw [hBorn]; rfl, Bool.eq_true_of_not_eq_false hNext⟩
        exact Phase.change_calm (hT.rest_of_ended hThread hPoint hEnded).2
    rw [hChange, add_zero] at hEq
    exact hEq

def reservedRefund : Refund where
  id := 1
  restaurantId := 1
  paymentId := 0
  orderId := 2
  provider := .stripe
  amount := 4
  idempotencyKey := "refund-1"
  amountReserved := true
  initiatedByUserId := 4
  createdAt := 0

/-- A webhook reports the refund as failed before the provider's answer has
done all its writes: the reservation is given back once. -/
theorem applyRefundOutcome_once_reserved : ∃ c : OutcomeState, c.Quiet ∧
    c.state.refundStatus reservedRefund.id = some .failed ∧
      ∀ p ∈ c.state.payments, p.id = reservedRefund.paymentId → p.totalRefunded = 0 := by
  obtain ⟨c, hReach, hEnd⟩ := store.exists_of_exec noStop
    (OutcomeState.start
      { nextId := 2, payments := [{ paidPayment with totalRefunded := 4 }], refunds := [reservedRefund] }
      [⟨reservedRefund, { status := .succeeded }, .providerResponse, ⟨4, "staff"⟩, none⟩,
        ⟨reservedRefund, { status := .failed }, .webhook, ⟨4, "system"⟩, none⟩])
    (List.flatten [List.replicate 3 (.run 0 {}), List.replicate 8 (.run 1 {}), List.replicate 4 (.run 0 {})])
    (fun c => c.Quiet && c.state.refundStatus reservedRefund.id = some .failed) (by decide +kernel)
  simp only [Bool.and_eq_true, decide_eq_true_eq] at hEnd
  obtain ⟨status, hStatus, -, hNet⟩ := @applyRefundOutcome_once _ reservedRefund _ c (by decide) (by decide)
    (by decide) (by decide) hReach
  cases hStatus.symm.trans hEnd.2
  refine ⟨c, hEnd.1, hEnd.2, fun p hp hId => ?_⟩
  obtain ⟨p₀, hp₀, -, hTotal⟩ := hNet hEnd.1 p hp hId
  cases List.mem_singleton.mp hp₀
  rw [hTotal]
  decide +kernel

end RestaurantOs.Payments
