import RestaurantOs.Payments.Claims

/-!
# Reservations

A payment's total covers its succeeded refunds and its pending refunds with a
recorded reservation. The total and the refunds are written one after the
other; what lies between the two writes is the due of the request's phase.
-/

namespace RestaurantOs.Payments

open Async

def World.committed (w : World) (paymentId : Id) : ℚ :=
  Tables.total Refund.amount (w.refunds.filter fun r => r.paymentId = paymentId &&
    (r.status = .succeeded || (r.status = .pending && r.amountReserved)))

def World.Covered (w : World) : Prop :=
  ∀ p ∈ w.payments, w.committed p.id ≤ p.totalRefunded ∧ 0 ≤ p.totalRefunded ∧ p.totalRefunded ≤ p.amount

instance (w : World) : Decidable w.Covered := inferInstanceAs (Decidable (∀ p ∈ w.payments, _ ∧ _ ∧ _))

/-- The request has settled as succeeded a refund that its payment did not
count, and has done nothing since. -/
def succeededUncounted (c : State) (t : Nat) : Bool :=
  match c.last? t with
  | some ⟨_, .refund (.settle s), .ok (some before)⟩ => s.target = .succeeded && !before.counted
  | _ => false

def deletes (c : State) (id : Id) : Bool :=
  c.waiting.any fun
    | .refund (.deleteRefused claim) => claim.id = id
    | _ => false

/-- A refused claim's reservation is released only while the claim is pending,
the claim is not settled before it is deleted, and an uncounted success is
counted only within the payment's amount. No request stops between the two
writes of a release or of an uncounted success. -/
def keepsCover (c : State) : Label Answer Event → Bool
  | .run t _ =>
    match c.waiting? t with
    | some (.payment (.release _ claim)) => c.state.refunds.any fun r => r.id = claim.id && r.status = .pending
    | some (.refund (.settle s)) => !(s.applies c.state && deletes c s.id)
    | some (.payment (.count refund)) => c.state.payments.all fun p =>
        p.id ≠ refund.paymentId || p.totalRefunded + refund.amount ≤ p.amount
    | _ => true
  | .stop t =>
    match c.waiting? t with
    | some (.payment (.count _)) => false
    | some (.refund (.deleteRefused _)) => false
    | _ => !succeededUncounted c t
  | .event _ => true

/-! ## What is still to be written -/

def Phase.due (paymentId : Id) : Phase → ℚ
  | reserved claim => if claim.paymentId = paymentId then claim.amount else 0
  | released call => if call.claim.paymentId = paymentId then -call.claim.amount else 0
  | settled before target =>
    if before.paymentId = paymentId ∧ settlementDue before target = true then
      if target = .failed then before.amount else -before.amount
    else 0
  | owing updated target =>
    if updated.paymentId = paymentId then if target = .failed then updated.amount else -updated.amount else 0
  | _ => 0

def Phase.short : Phase → Bool
  | released _ => true
  | settled before target => target = .succeeded && !before.counted
  | owing _ target => target = .succeeded
  | _ => false

def Phase.Standing (w : World) : Phase → Prop
  | ready call | calling call | refused call => call.reissue = false →
    ∀ s ∈ w.stakes, s.claim.id = call.claim.id → s.status = .pending → s.reserved = true
  | released call => ∃ s ∈ w.stakes, s.claim = call.claim.claim ∧ s.status = .pending ∧ s.reserved = true
  | settled before _ => ∃ s ∈ w.stakes, s.claim = before.claim ∧ s.status ≠ .pending
  | owing _ target => target ≠ .pending
  | _ => True

def Stake.committed (s : Stake) : Bool := s.status = .succeeded || (s.status = .pending && s.reserved)

def Stake.weight (paymentId : Id) (s : Stake) : ℚ :=
  if s.claim.paymentId = paymentId ∧ s.committed = true then s.claim.amount else 0

theorem World.committed_eq (w : World) (paymentId : Id) :
    w.committed paymentId = Tables.total (Stake.weight paymentId) w.stakes := by
  rw [committed, Tables.total_filter, stakes, Tables.total_map]
  refine Tables.total_congr fun r _ => ?_
  simp only [Function.comp_apply, Stake.weight, Stake.committed, Refund.stake_claim, Refund.claim_paymentId,
    Refund.stake_status, Refund.stake_reserved, Refund.claim_amount, Bool.and_eq_true, decide_eq_true_eq]
  rfl

structure Reckoned (c : State) (pts : List Point) : Prop where
  ordered : Ordered c.state pts
  standing : ∀ pt ∈ pts, pt.phase.Standing c.state
  stopped : ∀ {t : Nat} {th : Thread Op Op.Resp Err World Unit} {pt : Point}, c.threads[t]? = some th →
    th.stopped = true → pts[t]? = some pt → pt.phase.short = false
  last : ∀ {t : Nat} {pt : Point} {before : Refund} {target : RefundStatus}, pts[t]? = some pt →
    pt.phase = .settled before target →
    ∃ s, c.last? t = some ⟨t, .refund (.settle s), .ok (some before)⟩ ∧ s.target = target
  covered : ∀ p ∈ c.state.payments, Tables.total (Stake.weight p.id) c.state.stakes +
    Tables.total (fun pt : Point => pt.phase.due p.id) pts ≤ p.totalRefunded ∧ p.totalRefunded ≤ p.amount

theorem Phase.due_calm {ph : Phase} (h : ph.calm = true) (paymentId : Id) : ph.due paymentId = 0 := by
  cases ph <;> first | rfl | cases h

theorem Phase.short_calm {ph : Phase} (h : ph.calm = true) : ph.short = false := by
  cases ph <;> first | rfl | cases h

theorem Phase.due_nonneg {w : World} {ph : Phase} (hShort : ph.short = false) (hStanding : ph.Standing w)
    (hAmounts : ∀ r ∈ ph.copies, 0 < r.amount) (paymentId : Id) : 0 ≤ ph.due paymentId := by
  cases ph with
  | reserved claim =>
    have hPos := hAmounts claim (List.mem_singleton_self _)
    simp only [due]
    split <;> linarith
  | released call => cases hShort
  | settled before target =>
    have hPos := hAmounts before (List.mem_singleton_self _)
    simp only [due]
    split
    · rename_i hDue
      have hFailed : target = .failed := by
        have hDue := hDue.2
        cases target <;> simp_all [settlementDue, short]
      rw [if_pos hFailed]
      exact hPos.le
    · exact le_refl _
  | owing updated target =>
    have hPos := hAmounts updated (List.mem_singleton_self _)
    have hFailed : target = .failed := by
      cases target <;> simp_all [Standing, short]
    simp only [due, hFailed, if_true]
    split
    · exact hPos.le
    · exact le_refl _
  | _ => exact le_refl _

/-! ## What the database says stays true -/

section Standing

variable {o : Op} {a : Answer} {w : World} {pts : List Point} {t : Nat} {pt pt' : Point}

theorem Phase.Standing.perform {u : Nat} {pu : Point} (hOrdered : Ordered w pts) (hPoint : pts[t]? = some pt)
    (hMove : Move o a w pt pt') (hU : pts[u]? = some pu) (hNe : u ≠ t) (h : pu.phase.Standing w)
    (hSettle : ∀ call s before, pu.phase = .released call → o = .refund (.settle s) → s.Applies w before →
      call.claim.id ≠ s.id) : pu.phase.Standing (o.perform a w).2 := by
  have hMem := List.mem_of_getElem? hU
  have hKnows := hOrdered.knows pu hMem
  have hFits := hOrdered.fits pu hMem
  have hOwners : ∀ {id : Id}, pt.phase.owner = some id → pu.phase.owner ≠ some id :=
    fun hOwner hOwnerU => hNe (hOrdered.owners hU hPoint hOwnerU hOwner)
  have hFitsT := hOrdered.fits pt (List.mem_of_getElem? hPoint)
  generalize pu.phase = ph at h hKnows hFits hOwners hSettle ⊢
  cases ph with
  | ready call | calling call | refused call =>
    intro hFresh s' hs' hId hPending
    have hLt := (hKnows call.claim (List.mem_singleton_self _)).sound.id_lt
    obtain ⟨s, hs, hClaim, hWas, hReserved⟩ := hMove.pending_before hs'
      (by rw [hId]; exact Nat.ne_of_lt hLt) hPending
    exact hReserved (h hFresh s hs (by rw [hClaim]; exact hId) hWas)
  | settled before target =>
    obtain ⟨s, hs, hClaim, hSettled⟩ := h
    obtain ⟨s', hs', hClaim', hSettled'⟩ := hMove.settled_after hs hSettled
    exact ⟨s', hs', hClaim'.trans hClaim, hSettled'⟩
  | released call =>
    obtain ⟨s, hs, hClaim, hPending, hReserved⟩ := h
    refine ⟨s, ?_, hClaim, hPending, hReserved⟩
    rw [o.stakes_perform, Edit.mem_apply]
    refine .inl ⟨s, hs, ?_⟩
    have hOwner : (Phase.released call).owner = some s.claim.id := by
      rw [hClaim]
      exact if_neg (by rw [hFits.2]; exact Bool.false_ne_true)
    have hEdits := hMove.edits
    generalize o.edit w = e at hEdits
    generalize pt.phase = phT at hEdits hOwners hFitsT
    generalize pt'.phase = phT' at hEdits
    induction hEdits with
    | keep | claim => rfl
    | @dropUnreserved claim =>
      refine Edit.on_of_ne fun hEq => ?_
      exact @hOwners claim.id rfl (hOwner.trans hEq.symm)
    | @dropRefused call' =>
      refine Edit.on_of_ne fun hEq => ?_
      have hOwnerT : (Phase.released call').owner = some call'.claim.id :=
        if_neg (by rw [hFitsT.2]; exact Bool.false_ne_true)
      exact hOwners hOwnerT (hOwner.trans hEq.symm)
    | mark =>
      simp only [Edit.on]
      split
      · obtain ⟨_, _, reserved⟩ := s
        cases hReserved
        rfl
      · rfl
    | settle hOp hApplies =>
      refine Edit.on_of_ne fun hEq => ?_
      have hNot := hSettle call _ _ rfl hOp hApplies
      rw [hClaim] at hEq
      exact hNot (Option.some.inj hEq).symm
  | owing updated target => exact h
  | _ => trivial

theorem Ordered.standing_move (hOrdered : Ordered w pts) (hMem : pt ∈ pts) (hMove : Move o a w pt pt')
    (h : pt.phase.Standing w)
    (hRelease : ∀ payment claim, o = .payment (.release payment claim) →
      ∃ r ∈ w.refunds, r.id = claim.id ∧ r.status = .pending) : pt'.phase.Standing (o.perform a w).2 := by
  have hSame : ∀ {ph : Phase}, o.edit w = .keep → ph.Standing w → ph.Standing (o.perform a w).2 := by
    intro ph hEdit hStanding
    have hStakes : (o.perform a w).2.stakes = w.stakes := by rw [o.stakes_perform, hEdit, Edit.apply_keep]
    cases ph <;> simp only [Phase.Standing, hStakes] at hStanding ⊢ <;> exact hStanding
  have hCalm : ∀ {ph : Phase}, ph.calm = true → ph.Standing (o.perform a w).2 := by
    intro ph hph
    cases ph <;> trivial
  have hStakes := o.stakes_perform a w
  have hSettled : ∀ before target, pt'.phase = .settled before target →
      ∃ s ∈ (o.perform a w).2.stakes, s.claim = before.claim ∧ s.status ≠ .pending := fun _ _ => hMove.settled_stored
  induction hMove with
  | quiet _ hph | setLookup hph => exact hCalm hph
  | send | refused => exact hSame rfl h
  | lease => exact fun hFresh => by cases hFresh
  | @mark claim payment provider =>
    intro _ s' hs' hId hPending
    rw [hStakes, Edit.mem_apply] at hs'
    rcases hs' with ⟨s, -, hOn⟩ | hBorn
    · change some _ = _ at hOn
      split at hOn
      · cases hOn
        rfl
      · rename_i hSel
        cases hOn
        exact absurd ⟨hId, hPending⟩ hSel
    · cases hBorn
  | @release call _ w =>
    obtain ⟨r, hr, hId, hPending⟩ := hRelease _ _ rfl
    have hFits := hOrdered.fits _ hMem
    have hKnows := hOrdered.knows _ hMem call.claim (List.mem_singleton_self _)
    refine hSame rfl (show (Phase.released call).Standing w from ⟨r.stake, stake_mem hr, hKnows.eq_of_id _ (stake_mem hr) hId, hPending, ?_⟩)
    exact h hFits.2 r.stake (stake_mem hr) hId hPending
  | settle => exact hSettled _ _ rfl
  | @reread _ _ _ before target updated hFind hDue =>
    intro hPending
    cases hPending
    cases hDue
  | _ => trivial

end Standing

/-! ## What a move does to the books -/

section Balance

variable {o : Op} {a : Answer} {w : World} {pts : List Point} {pt pt' : Point} {p : Payment}

def Balanced (o : Op) (w : World) (pt pt' : Point) (p : Payment) : Prop :=
  Tables.total (Stake.weight p.id) ((o.edit w).apply w.stakes) + pt'.phase.due p.id + p.totalRefunded ≤
    Tables.total (Stake.weight p.id) w.stakes + pt.phase.due p.id + (o.revise w p).totalRefunded

theorem Balanced.still (hEdit : o.edit w = .keep) (hAdds : o.adds = false)
    (hDue : pt'.phase.due p.id = pt.phase.due p.id) : Balanced o w pt pt' p := by
  unfold Balanced
  rw [hEdit, Edit.apply_keep, hDue, Op.revise_total hAdds]

theorem Balanced.moved {x : ℚ} (hEdit : o.edit w = .keep) (hTotal : (o.revise w p).totalRefunded = p.totalRefunded + x)
    (hDue : pt'.phase.due p.id ≤ pt.phase.due p.id + x) : Balanced o w pt pt' p := by
  unfold Balanced
  rw [hEdit, Edit.apply_keep, hTotal]
  linarith

theorem Balanced.edited {s : Stake} (hIds : (w.stakes.map fun s => s.claim.id).Nodup) (hs : s ∈ w.stakes)
    (hSubject : (o.edit w).subject = some s.claim.id) (hBorn : (o.edit w).born = []) (hAdds : o.adds = false)
    (hDue : ((o.edit w).on s).elim 0 (Stake.weight p.id) + pt'.phase.due p.id ≤
      Stake.weight p.id s + pt.phase.due p.id) : Balanced o w pt pt' p := by
  have hChange := (o.edit w).total_change (Stake.weight p.id) hIds hs
    fun id hId => Option.some.inj (hId.symm.trans hSubject)
  unfold Balanced
  rw [hChange, hBorn, Tables.total_nil, Op.revise_total hAdds]
  linarith

theorem Balanced.edited_le {id : Id} (hIds : (w.stakes.map fun s => s.claim.id).Nodup)
    (hSubject : (o.edit w).subject = some id) (hBorn : (o.edit w).born = []) (hAdds : o.adds = false)
    (hGone : pt'.phase.due p.id ≤ pt.phase.due p.id)
    (hDue : ∀ s ∈ w.stakes, s.claim.id = id → ((o.edit w).on s).elim 0 (Stake.weight p.id) + pt'.phase.due p.id ≤
      Stake.weight p.id s + pt.phase.due p.id) : Balanced o w pt pt' p := by
  by_cases hExists : ∃ s ∈ w.stakes, s.claim.id = id
  · obtain ⟨s, hs, rfl⟩ := hExists
    exact .edited hIds hs hSubject hBorn hAdds (hDue s hs rfl)
  · have hSame := (o.edit w).total_same (Stake.weight p.id) (l := w.stakes) fun s hs =>
      Edit.on_of_ne fun hEq => hExists ⟨s, hs, (Option.some.inj (hEq.symm.trans hSubject))⟩
    unfold Balanced
    rw [hSame, hBorn, Tables.total_nil, Op.revise_total hAdds]
    linarith

theorem Stake.weight_nonneg {s : Stake} (h : 0 < s.claim.amount) (paymentId : Id) : 0 ≤ s.weight paymentId := by
  unfold weight
  split
  · exact h.le
  · exact le_refl _

theorem weight_settled {before : Refund} {target : RefundStatus} (hAllowed : target ∈ refundTransitions before.status)
    (paymentId : Id) : Stake.weight paymentId ⟨before.claim, target, target ≠ .failed⟩ +
      (Phase.settled before target).due paymentId = Stake.weight paymentId before.stake := by
  rcases refundTransitions_cases hAllowed with ⟨hStatus, rfl⟩ | ⟨hStatus, rfl⟩ | ⟨hStatus, rfl⟩ <;>
    cases hReserved : before.amountReserved <;> by_cases hPayment : before.paymentId = paymentId <;>
    simp [Stake.weight, Phase.due, Stake.committed, settlementDue, Refund.counted, hStatus, hReserved, hPayment]

theorem Ordered.balanced (hOrdered : Ordered w pts) (hMem : pt ∈ pts) (hMove : Move o a w pt pt')
    (hStanding : pt.phase.Standing w) (hp : p ∈ w.payments) : Balanced o w pt pt' p := by
  have hIds := hOrdered.consistent.refundIds
  have hKnows := hOrdered.knows pt hMem
  have hFits := hOrdered.fits pt hMem
  have hAmounts : ∀ s ∈ w.stakes, 0 < s.claim.amount := fun s hs => (hOrdered.consistent.sound s hs).amount_pos
  induction hMove with
  | quiet ho => exact .still (Op.edit_quiet ho) (Op.adds_quiet ho) rfl
  | rest ho hph => exact .still (Op.edit_quiet ho) (Op.adds_quiet ho) (Phase.due_calm hph p.id).symm
  | see hph hRead =>
    exact .still (Op.edit_quiet hRead.quiet) (Op.adds_quiet hRead.quiet) (Phase.due_calm hph p.id).symm
  | hear hph | leaseTaken _ hph | unlease hph | pay hph | retrieved hph | cancel hph | charge hph =>
    exact .still rfl rfl (Phase.due_calm hph p.id).symm
  | keyTaken hph hTaken => exact .still (Op.edit_taken hTaken) rfl (Phase.due_calm hph p.id).symm
  | settleLost hph hFind => exact .still (Op.edit_settleLost hFind) rfl (Phase.due_calm hph p.id).symm
  | byHand hFrom => exact .still rfl rfl (by rcases hFrom with rfl | ⟨rfl, -⟩ <;> rfl)
  | @claim draft _ w payment hDraft hPayment hFree =>
    have hEdit := Op.edit_create hFree
    have hWeight : Stake.weight p.id { draft with id := w.nextId, createdAt := w.now : Refund }.stake = 0 := by
      simp [Stake.weight, Stake.committed, hDraft.status, hDraft.amountReserved]
    unfold Balanced
    rw [hEdit, Edit.total_same _ _ fun s _ => rfl, Edit.born, Tables.total_cons, Tables.total_nil, hWeight,
      Op.revise_total rfl]
    simp [Phase.due]
  | @reserve payment claim _ _ _ _ hPayment hFind =>
    refine .moved rfl (revise_reserve hOrdered.consistent.paymentIds hp hFind) ?_
    simp only [Phase.due, hPayment, eq_comm, zero_add, le_refl]
  | reserveRefused hFind =>
    exact .moved (x := 0) rfl (by rw [revise_reserveRefused hp hFind, add_zero]) (add_zero _).ge
  | @dropUnreserved claim =>
    refine .edited_le hIds rfl rfl rfl (le_refl _) fun s hs hId => ?_
    have hNonneg := Stake.weight_nonneg (hAmounts s hs) p.id
    change (ite _ none (some s)).elim 0 (Stake.weight p.id) + 0 ≤ s.weight p.id + 0
    split
    · simpa using hNonneg
    · exact le_refl _
  | @mark claim payment provider =>
    have hKnows := hKnows claim (List.mem_singleton_self _)
    have hPos := hKnows.sound.amount_pos
    have hDue : 0 ≤ (Phase.reserved claim).due p.id := by
      simp only [Phase.due]
      split
      · exact hPos.le
      · exact le_refl _
    refine .edited_le hIds rfl rfl rfl hDue fun s hs hId => ?_
    have hNonneg := Stake.weight_nonneg (hAmounts s hs) p.id
    have hClaim := hKnows.eq_of_id s hs hId
    change Stake.weight p.id (ite _ _ s) + 0 ≤ s.weight p.id + (Phase.reserved claim).due p.id
    split
    · have hWeight : Stake.weight p.id { s with reserved := true } ≤ (Phase.reserved claim).due p.id := by
        by_cases hPayment : claim.paymentId = p.id
        · simp only [Stake.weight, Phase.due, hClaim, Refund.claim_paymentId, Refund.claim_amount, hPayment,
            true_and, if_true]
          split
          · exact le_refl _
          · exact hPos.le
        · simp [Stake.weight, Phase.due, hClaim, hPayment]
      linarith
    · linarith
  | send | answered | refused | reissueRefused | unanswered | setUnknown | setLookup | hold | found | missing
  | fresh | clock | lease | matchRef | matchKey | decide | note => exact .still rfl rfl rfl
  | @release call =>
    refine .moved (x := if p.id = call.payment.id then -call.claim.amount else 0) rfl ?_ ?_
    · simp only [Op.revise, PaymentOp.revise]
      split
      · rfl
      · exact (add_zero _).symm
    · simp only [Phase.due, hFits.1, eq_comm, zero_add, le_refl]
  | @dropRefused call =>
    obtain ⟨s, hs, hClaim, hPending, hReserved⟩ := hStanding
    refine .edited hIds hs (by rw [hClaim]; rfl) rfl rfl ?_
    have hOn : (Edit.drop call.claim.id).on s = none := if_pos ⟨by rw [hClaim]; rfl, hPending⟩
    change ((Edit.drop call.claim.id).on s).elim 0 _ + 0 ≤ _
    rw [hOn]
    simp only [Option.elim_none, Stake.weight, Stake.committed, Phase.due, hClaim, hPending, hReserved,
      Refund.claim_paymentId, Refund.claim_amount]
    split <;> simp_all
  | @settle s _ _ _ current report method _ _ _ before hId hSource hTarget hDetails hResolution hAllowed hFind hRef =>
    have hSel := List.find?_some hFind
    simp only [Bool.and_eq_true, decide_eq_true_eq] at hSel
    have hEdit := Op.edit_settle ⟨hFind, hRef⟩
    refine .edited hIds (refund_of_find? hFind) (by rw [hEdit]; exact congrArg some hSel.1.symm) (by rw [hEdit]; rfl)
      rfl ?_
    have hOn : (Edit.settle s.id s.source s.target).on before.stake = some ⟨before.claim, s.target, s.target ≠ .failed⟩ :=
      congrArg some (if_pos hSel)
    have hWeight := weight_settled (hSel.2 ▸ hAllowed) p.id
    rw [hEdit, hOn, Option.elim_some, hWeight]
    exact (add_zero _).ge
  | @reread _ _ _ before target updated hFind hDue =>
    have hId : updated.id = before.id := by
      have hSel := List.find?_some hFind
      rw [decide_eq_true_eq] at hSel
      exact hSel
    have hClaim := (hKnows before (List.mem_singleton_self _)).eq_of_id _ (refund_of_find? hFind) hId
    have hPayment : updated.paymentId = before.paymentId := congrArg Claim.paymentId hClaim
    have hAmount : updated.amount = before.amount := congrArg Claim.amount hClaim
    refine .still rfl rfl ?_
    simp only [Phase.due, hPayment, hAmount, hDue, and_true]
  | @rereadEven _ _ _ before target updated hFind hDue =>
    refine .still rfl rfl ?_
    simp only [Phase.due, hDue, Bool.false_eq_true, and_false, if_false]
  | rereadGone hFind =>
    obtain ⟨s, hs, hClaim, -⟩ := hStanding
    obtain ⟨r, hr, rfl⟩ := List.mem_map.mp hs
    have hNot := List.find?_eq_none.mp hFind r hr
    exact absurd (congrArg Claim.id hClaim) (by simpa using hNot)
  | @giveBack _ _ _ updated =>
    refine .moved (x := if p.id = updated.paymentId then -updated.amount else 0) rfl ?_ ?_
    · simp only [Op.revise, PaymentOp.revise]
      split
      · rfl
      · exact (add_zero _).symm
    · by_cases hId : p.id = updated.paymentId
      · simp [Phase.due, hId]
      · simp [Phase.due, hId, Ne.symm hId]
  | @count _ _ _ updated =>
    refine .moved (x := if p.id = updated.paymentId then updated.amount else 0) rfl ?_ ?_
    · simp only [Op.revise, PaymentOp.revise]
      split
      · rfl
      · exact (add_zero _).symm
    · by_cases hId : p.id = updated.paymentId
      · simp [Phase.due, hId]
      · simp [Phase.due, hId, Ne.symm hId]
  | syncRead | syncSkip | syncSum | syncEven | syncWrite | matchPayment | transition => exact .still rfl rfl rfl

theorem Ordered.within (hOrdered : Ordered w pts) (hMem : pt ∈ pts) (hMove : Move o a w pt pt')
    (hWithin : p.totalRefunded ≤ p.amount)
    (hCount : ∀ refund, o = .payment (.count refund) → p.id = refund.paymentId →
      p.totalRefunded + refund.amount ≤ p.amount) : (o.revise w p).totalRefunded ≤ (o.revise w p).amount := by
  have hKnows := hOrdered.knows pt hMem
  rw [Op.revise_amount]
  cases hAdds : o.adds with
  | false => exact (Op.revise_total hAdds w p).trans_le hWithin
  | true =>
    induction hMove with
    | reserve | reserveRefused =>
      simp only [Op.revise, PaymentOp.revise]
      split
      · rename_i hSel
        simp only [Bool.and_eq_true, decide_eq_true_eq] at hSel
        exact hSel.2
      · exact hWithin
    | @release call =>
      have hPos : 0 < call.claim.amount := (hKnows _ (List.mem_singleton_self _)).sound.amount_pos
      simp only [Op.revise, PaymentOp.revise]
      split
      · simp only [Payment.addRefunded]
        linarith
      · exact hWithin
    | @giveBack _ _ _ updated =>
      have hPos : 0 < updated.amount := (hKnows _ (List.mem_singleton_self _)).sound.amount_pos
      simp only [Op.revise, PaymentOp.revise]
      split
      · simp only [Payment.addRefunded]
        linarith
      · exact hWithin
    | @count _ _ _ updated =>
      simp only [Op.revise, PaymentOp.revise]
      split
      · rename_i hId
        exact hCount updated rfl hId
      · exact hWithin
    | quiet ho | rest ho =>
      rw [Op.adds_quiet ho] at hAdds
      cases hAdds
    | see hph hRead =>
      rw [Op.adds_quiet hRead.quiet] at hAdds
      cases hAdds
    | _ => cases hAdds

theorem Phase.due_other {ph : Phase} {paymentId : Id} (h : ∀ r ∈ ph.copies, r.paymentId ≠ paymentId) :
    ph.due paymentId = 0 := by
  cases ph with
  | reserved claim => exact if_neg (h claim (List.mem_singleton_self _))
  | released call => exact if_neg (h call.claim (List.mem_singleton_self _))
  | settled before target => exact if_neg fun hDue => h before (List.mem_singleton_self _) hDue.1
  | owing updated target => exact if_neg (h updated (List.mem_singleton_self _))
  | _ => rfl

end Balance

/-! ## The invariant of a run -/

section Runs

variable {requests : List Request} {c c' : State} {start pts : List Point} {t : Nat} {a : Answer} {o : Op}
  {th : Thread Op Op.Resp Err World Unit} {k : Except Err o.Resp → Promise Unit} {pt pt' : Point}

theorem Reckoned.waiting_released (hT : Tracks store protocol start c pts) (h : Reckoned c pts) {u : Nat}
    {pu : Point} {call : RefundCall} (hU : pts[u]? = some pu) (hPhase : pu.phase = .released call) :
    c.waiting? u = some (.refund (.deleteRefused call.claim)) := by
  obtain ⟨thU, hThread⟩ := hT.thread_exists hU
  have hRunning : thU.stopped = false := by
    cases hStopped : thU.stopped with
    | false => rfl
    | true =>
      have hShort := h.stopped hThread hStopped hU
      rw [hPhase] at hShort
      cases hShort
  obtain ⟨L, ph⟩ := pu
  cases hPhase
  obtain ⟨o, hWaiting, _, _, _, hMove⟩ := hT.waiting hThread hU hRunning fun hRest => by cases hRest.2
  rw [← hMove.of_released rfl]
  exact hWaiting

theorem last_settled (hRan : store.Ran c t a o th k c') (hMove : Move o a c.state pt pt') {before : Refund}
    {target : RefundStatus} (hPhase : pt'.phase = .settled before target) :
    ∃ s, c'.last? t = some ⟨t, .refund (.settle s), .ok (some before)⟩ ∧ s.target = target := by
  have hLast := hRan.last? (u := t)
  rw [if_pos rfl] at hLast
  generalize c.state = w at hMove hLast
  induction hMove with
  | @settle s _ _ _ current report method _ _ _ _ hId hSource hTarget hDetails hResolution hAllowed hFind hRef =>
    cases hPhase
    refine ⟨s, ?_, rfl⟩
    rw [hLast]
    simp only [Op.perform, RefundOp.perform, hFind, hRef, Bool.false_eq_true, if_false]
  | quiet _ hph | setLookup hph =>
    cases hPhase
    cases hph
  | _ => cases hPhase

theorem Reckoned.covered_run (h : Reckoned c pts) (hPoint : pts[t]? = some pt) (hMove : Move o a c.state pt pt')
    (hCount : ∀ refund, o = .payment (.count refund) → ∀ p ∈ c.state.payments, p.id = refund.paymentId →
      p.totalRefunded + refund.amount ≤ p.amount) :
    ∀ p ∈ (o.perform a c.state).2.payments,
      Tables.total (Stake.weight p.id) (o.perform a c.state).2.stakes +
        Tables.total (fun pt : Point => pt.phase.due p.id) (pts.set t pt') ≤ p.totalRefunded ∧
      p.totalRefunded ≤ p.amount := by
  have hMem := List.mem_of_getElem? hPoint
  intro p' hp'
  rw [o.payments_perform a, List.mem_append, List.mem_map] at hp'
  rcases hp' with ⟨p, hp, rfl⟩ | hOpened
  · obtain ⟨hCovered, hWithin⟩ := h.covered p hp
    refine ⟨?_, h.ordered.within hMem hMove hWithin fun refund hOp => hCount refund hOp p hp⟩
    have hBalanced := h.ordered.balanced hMem hMove (h.standing pt hMem) hp
    unfold Balanced at hBalanced
    rw [o.revise_id, o.stakes_perform, Tables.total_set hPoint]
    linarith
  · obtain ⟨hTotal, hAmount, -, hEdit, hIdle⟩ := hMove.opened hOpened
    have hId := Op.mem_opened hOpened
    have hWeights : Tables.total (Stake.weight p'.id) (o.perform a c.state).2.stakes = 0 := by
      rw [o.stakes_perform, hEdit, Edit.apply_keep]
      refine Tables.total_zero fun s hs => if_neg fun hSel => ?_
      have hLt := (h.ordered.consistent.sound s hs).paymentId_lt
      exact Nat.ne_of_lt hLt (hSel.1.trans hId)
    have hDues : Tables.total (fun pt : Point => pt.phase.due p'.id) (pts.set t pt') = 0 := by
      refine Tables.total_zero fun pu hu => ?_
      rcases List.mem_or_eq_of_mem_set hu with hu | rfl
      · refine Phase.due_other fun r hr hPayment => ?_
        have hLt := (h.ordered.knows pu hu r hr).sound.paymentId_lt
        exact Nat.ne_of_lt hLt (hPayment.trans hId)
      · rw [hIdle]
        rfl
    rw [hWeights, hDues, hTotal]
    exact ⟨(add_zero _).le, hAmount⟩

theorem keepsCover_settle {s : Settlement} {before : Refund} {u : Nat} {claim : Refund}
    (h : keepsCover c (.run t a) = true) (hWaiting : c.waiting? t = some (.refund (.settle s)))
    (hApplies : s.Applies c.state before) (hDeletes : c.waiting? u = some (.refund (.deleteRefused claim))) :
    claim.id ≠ s.id := by
  intro hId
  have hAny : deletes c s.id = true := List.any_eq_true.mpr ⟨_, Config.mem_waiting hDeletes, decide_eq_true hId⟩
  simp only [keepsCover, hWaiting, hApplies.applies, hAny] at h
  cases h

theorem keepsCover_count {refund : Refund} (h : keepsCover c (.run t a) = true)
    (hWaiting : c.waiting? t = some (.payment (.count refund))) :
    ∀ p ∈ c.state.payments, p.id = refund.paymentId → p.totalRefunded + refund.amount ≤ p.amount := by
  intro p hp hId
  simp only [keepsCover, hWaiting, List.all_eq_true] at h
  simpa [hId] using h p hp

theorem keepsCover_release {payment : Payment} {claim : Refund} (h : keepsCover c (.run t a) = true)
    (hWaiting : c.waiting? t = some (.payment (.release payment claim))) :
    ∃ r ∈ c.state.refunds, r.id = claim.id ∧ r.status = .pending := by
  simpa [keepsCover, hWaiting] using h

theorem Reckoned.run (hT : Tracks store protocol start c pts) (h : Reckoned c pts)
    (hKeeps : keepsCover c (.run t a) = true) (hRan : store.Ran c t a o th k c') (hPoint : pts[t]? = some pt)
    (hMove : Move o a c.state pt pt') : Reckoned c' (pts.set t pt') := by
  have hMem := List.mem_of_getElem? hPoint
  have hState : c'.state = (o.perform a c.state).2 := hRan.state
  refine ⟨?_, ?_, ?_, ?_, ?_⟩
  · rw [hState]
    exact h.ordered.move hPoint hMove
  · rw [hState]
    intro pu hu
    obtain ⟨u, hU⟩ := List.mem_iff_getElem?.mp hu
    rcases Tables.getElem?_set_cases hU with ⟨rfl, rfl⟩ | ⟨hNe, hU⟩
    · exact h.ordered.standing_move hMem hMove (h.standing pt hMem) fun payment claim hOp =>
        keepsCover_release hKeeps (hOp ▸ hRan.waiting?)
    · refine (h.standing pu (List.mem_of_getElem? hU)).perform h.ordered hPoint hMove hU hNe ?_
      intro call s before hPhase hOp hApplies
      exact keepsCover_settle hKeeps (hOp ▸ hRan.waiting?) hApplies (h.waiting_released hT hU hPhase)
  · intro u thU pu hThread hStopped hU
    rw [hRan.threads] at hThread
    rcases Tables.getElem?_set_cases hThread with ⟨rfl, rfl⟩ | ⟨hNe, hThread⟩
    · cases hStopped
    · rw [List.getElem?_set_ne hNe.symm] at hU
      exact h.stopped hThread hStopped hU
  · intro u pu before target hU hPhase
    rcases Tables.getElem?_set_cases hU with ⟨rfl, rfl⟩ | ⟨hNe, hU⟩
    · exact last_settled hRan hMove hPhase
    · rw [hRan.last?, if_neg hNe.symm]
      exact h.last hU hPhase
  · rw [hState]
    exact h.covered_run hPoint hMove fun refund hOp => keepsCover_count hKeeps (hOp ▸ hRan.waiting?)

theorem Reckoned.not_short (hT : Tracks store protocol start c pts) (h : Reckoned c pts)
    (hKeeps : keepsCover c (.stop t) = true) (hThread : c.threads[t]? = some th) (hRunning : th.stopped = false)
    (hPoint : pts[t]? = some pt) : pt.phase.short = false := by
  obtain ⟨L, ph⟩ := pt
  cases ph with
  | released call =>
    have hWaiting := h.waiting_released hT hPoint rfl
    simp only [keepsCover, hWaiting] at hKeeps
    cases hKeeps
  | settled before target =>
    obtain ⟨s, hLast, rfl⟩ := h.last hPoint rfl
    have hUncounted : succeededUncounted c t = Phase.short (.settled before s.target) := by
      simp only [succeededUncounted, hLast]
      rfl
    rw [← hUncounted]
    simp only [keepsCover] at hKeeps
    split at hKeeps
    · cases hKeeps
    · cases hKeeps
    · simpa using hKeeps
  | owing updated target =>
    obtain ⟨o, hWaiting, a, w, pt', hMove⟩ := hT.waiting hThread hPoint hRunning fun hRest => by cases hRest.2
    cases hMove with
    | giveBack => rfl
    | count =>
      simp only [keepsCover, hWaiting] at hKeeps
      cases hKeeps
    | quiet _ hph | rest _ hph | setLookup hph | hear hph | see hph | leaseTaken _ hph | unlease hph | keyTaken hph
    | settleLost hph | pay hph | retrieved hph | cancel hph | charge hph => cases hph
    | byHand hFrom => rcases hFrom with hFrom | ⟨hFrom, -⟩ <;> cases hFrom
  | _ => rfl

theorem Reckoned.stop (hT : Tracks store protocol start c pts) (h : Reckoned c pts)
    (hKeeps : keepsCover c (.stop t) = true) (hThread : c.threads[t]? = some th) :
    Reckoned { c with threads := c.threads.set t { th with stopped := true } } pts := by
  refine ⟨h.ordered, h.standing, ?_, h.last, h.covered⟩
  intro u thU pu hThreadU hStopped hU
  rcases Tables.getElem?_set_cases hThreadU with ⟨rfl, rfl⟩ | ⟨hNe, hThreadU⟩
  · cases hRunning : th.stopped with
    | true => exact h.stopped hThread hRunning hU
    | false => exact h.not_short hT hKeeps hThread hRunning hU
  · exact h.stopped hThreadU hStopped hU

theorem Reckoned.event {e : Event} (h : Reckoned c pts) :
    Reckoned { c with state := store.advance e c.state } pts := by
  obtain ⟨hStakes, hPayments, hNext⟩ := e.advance_fields c.state
  refine ⟨h.ordered.advance e, ?_, h.stopped, h.last, ?_⟩
  · intro pt hpt
    have hStanding := h.standing pt hpt
    generalize pt.phase = ph at hStanding ⊢
    cases ph <;> simp only [Phase.Standing, hStakes] at hStanding ⊢ <;> exact hStanding
  · simp only [hStakes, hPayments]
    exact h.covered

theorem Reckoned.due_nonneg (hT : Tracks store protocol (requests.map fun _ => {}) c pts) (h : Reckoned c pts)
    (hQuiet : c.Quiet) (paymentId : Id) (hpt : pt ∈ pts) : 0 ≤ pt.phase.due paymentId := by
  obtain ⟨t, hPoint⟩ := List.mem_iff_getElem?.mp hpt
  obtain ⟨th, hThread⟩ := hT.thread_exists hPoint
  have hAmounts : ∀ r ∈ pt.phase.copies, 0 < r.amount := fun r hr => (h.ordered.knows pt hpt r hr).sound.amount_pos
  refine Phase.due_nonneg ?_ (h.standing pt hpt) hAmounts paymentId
  cases hStopped : th.stopped with
  | true => exact h.stopped hThread hStopped hPoint
  | false =>
    cases hBorn : th.born with
    | none =>
      have hStart := hT.unborn hThread hBorn
      rw [hPoint, List.getElem?_map] at hStart
      obtain ⟨_, -, hEq⟩ := Option.map_eq_some_iff.mp hStart.symm
      rw [← hEq]
      rfl
    | some w =>
      have hEnded : th.next?.isSome = false := by
        by_contra hNext
        exact hQuiet th (List.mem_of_getElem? hThread) ⟨hStopped, by rw [hBorn]; rfl, Bool.eq_true_of_not_eq_false hNext⟩
      exact Phase.short_calm (hT.rest_of_ended hThread hPoint hEnded).2

theorem Reckoned.initial {env : Env} {w : World} (hConsistent : w.Consistent) (hCovered : w.Covered) :
    Reckoned (State.start env w requests) (requests.map fun _ => {}) := by
  have hPoints : ∀ pt ∈ requests.map fun _ => ({} : Point), pt = {} := by
    intro pt hpt
    obtain ⟨_, -, rfl⟩ := List.mem_map.mp hpt
    rfl
  refine ⟨.initial hConsistent hPoints, ?_, ?_, ?_, ?_⟩
  · intro pt hpt
    rw [hPoints pt hpt]
    trivial
  · intro t th pt _ _ hPoint
    rw [hPoints pt (List.mem_of_getElem? hPoint)]
    rfl
  · intro t pt before target hPoint hPhase
    rw [hPoints pt (List.mem_of_getElem? hPoint)] at hPhase
    cases hPhase
  · intro p hp
    obtain ⟨hCommitted, -, hWithin⟩ := hCovered p hp
    have hDues : Tables.total (fun pt : Point => pt.phase.due p.id) (requests.map fun _ => {}) = 0 :=
      Tables.total_zero fun pt hpt => by rw [hPoints pt hpt]; rfl
    rw [World.committed_eq] at hCommitted
    rw [hDues, add_zero]
    exact ⟨hCommitted, hWithin⟩

theorem reckoned_of_reach {env : Env} {w : World} (hConsistent : w.Consistent) (hCovered : w.Covered)
    (h : store.Reach (fun c l => keepsCover c l) (State.start env w requests) c) :
    ∃ pts, Tracks store protocol (requests.map fun _ => {}) c pts ∧ Reckoned c pts :=
  (Tracks.initial fun r _ => Request.program_follows env r).invariant
    (Reckoned.initial hConsistent hCovered)
    (fun hT hI hok hRan hPoint hMove _ => hI.run hT hok hRan hPoint hMove)
    (fun hT hI hok hThread => hI.stop hT hok hThread) (fun _ hI _ => hI.event) h

end Runs

/-- Whenever no request is in the middle of its steps, every payment's total
covers its succeeded refunds and its recorded reservations, and lies between
nothing and the payment's amount. -/
theorem totalRefunded_covers {env : Env} {w : World} {requests : List Request} {c : State}
    (hConsistent : w.Consistent) (hCovered : w.Covered)
    (h : store.Reach (fun c l => keepsCover c l) (State.start env w requests) c) (hQuiet : c.Quiet) :
    c.state.Covered := by
  obtain ⟨pts, hT, hI⟩ := reckoned_of_reach hConsistent hCovered h
  intro p hp
  obtain ⟨hBooks, hWithin⟩ := hI.covered p hp
  have hDues : 0 ≤ Tables.total (fun pt : Point => pt.phase.due p.id) pts :=
    Tables.total_nonneg fun pt hpt => hI.due_nonneg hT hQuiet p.id hpt
  have hWeights : 0 ≤ Tables.total (Stake.weight p.id) c.state.stakes :=
    Tables.total_nonneg fun s hs => Stake.weight_nonneg (hI.ordered.consistent.sound s hs).amount_pos p.id
  rw [World.committed_eq]
  exact ⟨by linarith, by linarith, hWithin⟩

def refundSteps : List (Label Answer Event) :=
  List.replicate 7 (.run 0 {}) ++
    .run 0 { refund := .ok { refundRef := "re_1", status := .succeeded } } :: List.replicate 8 (.run 0 {})

theorem totalRefunded_covers_refund : ∃ c : State, c.Quiet ∧ c.state.committed 0 = 10 ∧ c.state.Covered := by
  obtain ⟨c, hReach, hEnd⟩ := store.exists_of_exec keepsCover
    (State.start {} (.single paidPayment) [.refund paidRefund]) refundSteps (fun c => c.Quiet && c.state.committed 0 = 10) (by decide +kernel)
  simp only [Bool.and_eq_true, decide_eq_true_eq] at hEnd
  exact ⟨c, hEnd.1, hEnd.2, totalRefunded_covers (.single paidPayment) (by decide +kernel) hReach hEnd.1⟩

def releaseSteps : List (Label Answer Event) :=
  List.replicate 7 (.run 0 {}) ++
    [.run 0 { refund := .error (.providerRequest "" .rejected) }, .run 0 {}, .stop 0]

theorem totalRefunded_not_covers : ¬ ∀ (env : Env) (w : World) (requests : List Request) (c : State),
    w.Consistent → w.Covered → store.Reach (fun _ _ => True) (State.start env w requests) c → c.Quiet →
    c.state.Covered := by
  intro hClaim
  obtain ⟨c, hReach, hEnd⟩ := store.exists_of_exec (fun _ _ => true)
    (State.start {} (.single paidPayment) [.refund paidRefund]) releaseSteps (fun c => c.Quiet && !(c.state.Covered)) (by decide +kernel)
  simp only [Bool.and_eq_true, Bool.not_eq_eq_eq_not, Bool.not_true, decide_eq_true_eq, decide_eq_false_iff_not] at hEnd
  exact hEnd.2 (hClaim {} _ _ c (.single paidPayment) (by decide +kernel) (hReach.mono fun _ _ _ => trivial) hEnd.1)

end RestaurantOs.Payments
