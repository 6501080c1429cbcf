import RestaurantOs.Payments.Reservations
import RestaurantOs.Payments.StatusMoves

/-!
# The refunded status

A settled refund leaves the status of its payment to be written: its succeeded
refunds are added up, and the status that follows is written. While the sum does
not change in between, some request answers for a status that does not follow.
-/

namespace RestaurantOs.Payments

open Async

/-! ## The property -/

def World.succeeded (w : World) (paymentId : Id) : ℚ :=
  Tables.total Refund.amount (w.refunds.filter fun r => r.paymentId = paymentId && r.status = .succeeded)

structure Payment.Agrees (payment : Payment) (succeeded : ℚ) : Prop where
  refunded : payment.amount ≤ succeeded → payment.status = .refunded
  partiallyRefunded : 0 < succeeded → succeeded < payment.amount → payment.status = .partiallyRefunded
  paid : succeeded ≤ 0 → succeeded < payment.amount → payment.status = .paid

def World.isRefundOf (w : World) (refundId paymentId : Id) : Bool :=
  w.refunds.any fun r => r.id = refundId && r.paymentId = paymentId

def endsSettlement : Entry Op Op.Resp Err → Bool
  | ⟨_, .refund (.findUpdated _), _⟩ | ⟨_, .payment (.count _), _⟩ | ⟨_, .payment (.giveBack _), _⟩ => true
  | _ => false

/-- The request has settled a refund of the payment and has not written the
payment's status since. -/
def inOutcome (id : Id) (c : State) (t : Nat) : Bool :=
  match c.waiting? t with
  | some (.refund (.findUpdated refundId)) => c.state.isRefundOf refundId id
  | some (.payment (.count refund)) => refund.paymentId = id
  | some (.payment (.giveBack refund)) => refund.paymentId = id
  | some (.payment (.findById paymentId)) => paymentId = id && (c.last? t).any endsSettlement
  | some (.refund (.sumSucceeded payment)) => payment.id = id
  | some (.payment (.setStatus payment _)) => payment.id = id
  | _ => false

def outcomesDone (id : Id) (c : State) : Bool := (List.range c.threads.length).all fun t => !inOutcome id c t

def writesStatus (id : Id) : Op → Bool
  | .payment (.setStatus payment _) => payment.id = id
  | _ => false

def Settlement.changesSum (s : Settlement) : Bool := s.source = .succeeded || s.target = .succeeded

/-- No refund of the payment enters or leaves `succeeded` between the addition and
the write of another request; rounding to cents does not change what the sum says;
no other payment of the order is paid when the status goes back to `paid`. No
report of the provider is written over the payment, and no request stops before its
write. -/
def syncsInTurn (id : Id) (c : State) : Label Answer Event → Bool
  | .run t _ =>
    match c.waiting? t with
    | some (.refund (.settle s)) => !(s.changesSum && c.state.isRefundOf s.id id && c.waiting.any (writesStatus id))
    | some (.refund (.sumSucceeded payment)) => payment.id ≠ id ||
        refundedStatus payment.amount (roundCurrency (c.state.succeeded id)) = refundedStatus payment.amount (c.state.succeeded id)
    | some (.payment (.setStatus payment next)) => payment.id ≠ id || next ≠ .paid ||
        c.state.payments.all fun p => p.id ≠ id || !paidTaken c.state.payments p
    | some (.payment (.transition payment _)) => payment.id ≠ id
    | _ => true
  | .stop t => !inOutcome id c t
  | .event _ => true

theorem Payment.agrees_iff {payment : Payment} {succeeded : ℚ} :
    payment.Agrees succeeded ↔ payment.status = refundedStatus payment.amount succeeded := by
  unfold refundedStatus
  constructor
  · intro h
    split
    · rename_i hFull
      exact h.refunded hFull
    · rename_i hLess
      split
      · rename_i hSome
        exact h.partiallyRefunded hSome (not_le.mp hLess)
      · rename_i hNone
        exact h.paid (not_lt.mp hNone) (not_le.mp hLess)
  · intro h
    refine ⟨fun hFull => ?_, fun hSome hLess => ?_, fun hNone hLess => ?_⟩
    · rw [h, if_pos hFull]
    · rw [h, if_neg (not_le.mpr hLess), if_pos hSome]
    · rw [h, if_neg (not_le.mpr hLess), if_neg (not_lt.mpr hNone)]

/-! ## The sum -/

def Stake.refunded (paymentId : Id) (s : Stake) : ℚ :=
  if s.claim.paymentId = paymentId ∧ s.status = .succeeded then s.claim.amount else 0

section Sum

variable {o : Op} {a : Answer} {w : World} {pts : List Point} {pt pt' : Point} {s : Stake} {id : Id}

theorem World.succeeded_eq (w : World) (paymentId : Id) : w.succeeded paymentId = Tables.total (Stake.refunded paymentId) w.stakes := by
  rw [succeeded, Tables.total_filter, stakes, Tables.total_map]
  refine Tables.total_congr fun r _ => ?_
  simp only [Function.comp_apply, Stake.refunded, Refund.stake_claim, Refund.claim_paymentId, Refund.stake_status,
    Refund.claim_amount, Bool.and_eq_true, decide_eq_true_eq]
  rfl

theorem Stake.refunded_of_status (h : s.status ≠ .succeeded) : s.refunded id = 0 := if_neg fun hBoth => h hBoth.2

theorem Stake.refunded_of_payment (h : s.claim.paymentId ≠ id) : s.refunded id = 0 := if_neg fun hBoth => h hBoth.1

/-- Only a settlement that enters or leaves `succeeded` changes what has been
refunded. -/
theorem Move.succeeded_same (h : Move o a w pt pt') (hConsistent : w.Consistent)
    (hSame : ∀ s before, o = .refund (.settle s) → s.Applies w before → s.changesSum = true → before.paymentId ≠ id) :
    (o.perform a w).2.succeeded id = w.succeeded id := by
  rw [World.succeeded_eq, World.succeeded_eq, o.stakes_perform, Edit.total_apply]
  have hBorn : Tables.total (Stake.refunded id) (o.edit w).born = 0 := by
    refine Tables.total_zero fun s hs => Stake.refunded_of_status ?_
    obtain ⟨_, -, hOpens⟩ := h.born hs
    rw [hOpens.status_eq]
    rintro ⟨⟩
  rw [hBorn, add_zero]
  refine Tables.total_congr fun s hs => ?_
  have hEdits := h.edits
  generalize o.edit w = e at hEdits ⊢
  generalize pt.phase = ph at hEdits
  generalize pt'.phase = ph' at hEdits
  induction hEdits with
  | keep | claim => rfl
  | dropUnreserved | dropRefused =>
    simp only [Edit.on]
    split
    · rename_i hSel
      refine (Stake.refunded_of_status ?_).symm
      rw [hSel.2]
      rintro ⟨⟩
    · rfl
  | mark =>
    simp only [Edit.on]
    split
    · rfl
    · rfl
  | @settle settlement before _ _ _ hOp hApplies =>
    simp only [Edit.on, Option.elim_some]
    split
    · rename_i hSel
      cases hChanges : settlement.changesSum with
      | false =>
        rw [Settlement.changesSum, Bool.or_eq_false_iff, decide_eq_false_iff_not, decide_eq_false_iff_not] at hChanges
        rw [Stake.refunded_of_status (s := s) (by rw [hSel.2]; exact hChanges.1)]
        exact Stake.refunded_of_status hChanges.2
      | true =>
        have hBefore := List.find?_some hApplies.1
        rw [Bool.and_eq_true, decide_eq_true_eq, decide_eq_true_eq] at hBefore
        have hStake : s = before.stake := by
          refine Tables.eq_of_id hConsistent.refundIds hs (refund_of_find? hApplies.1) ?_
          exact hSel.1.trans hBefore.1.symm
        have hOther : s.claim.paymentId ≠ id := by
          rw [hStake]
          exact hSame settlement before hOp hApplies hChanges
        rw [Stake.refunded_of_payment hOther]
        exact Stake.refunded_of_payment hOther
    · rfl

end Sum

/-! ## Who answers for the status -/

def Phase.Owes (id : Id) (status : PaymentStatus) : Phase → Prop
  | settled before _ => before.paymentId = id
  | owing updated _ => updated.paymentId = id
  | unsynced paymentId => paymentId = id
  | reading copy => copy.id = id ∧ copy.status = status
  | writing copy _ => copy.id = id
  | _ => False

def Phase.Follows (payment : Payment) (succeeded : ℚ) : Phase → Prop
  | reading copy => copy.id = payment.id → copy.amount = payment.amount
  | writing copy next => copy.id = payment.id → next = refundedStatus payment.amount succeeded
  | _ => True

theorem Phase.Owes.busy {id : Id} {status : PaymentStatus} {ph : Phase} (h : ph.Owes id status) : ph.calm = false := by
  cases ph <;> first | rfl | exact h.elim

theorem Phase.follows_calm {payment : Payment} {succeeded : ℚ} {ph : Phase} (h : ph.calm = true) : ph.Follows payment succeeded := by
  cases ph <;> trivial

def Phase.InOutcome (id : Id) : Phase → Prop
  | settled before _ => before.paymentId = id
  | owing updated _ => updated.paymentId = id
  | unsynced paymentId => paymentId = id
  | reading copy | writing copy _ => copy.id = id
  | _ => False

theorem Phase.Owes.inOutcome {id : Id} {status : PaymentStatus} {ph : Phase} (h : ph.Owes id status) : ph.InOutcome id := by
  cases ph with
  | reading copy => exact h.1
  | _ => exact h

theorem Phase.InOutcome.busy {id : Id} {ph : Phase} (h : ph.InOutcome id) : ph.calm = false := by
  cases ph <;> first | rfl | exact h.elim

section Moves

variable {o : Op} {a : Answer} {w : World} {pt pt' : Point} {p payment : Payment}

theorem Move.owes (h : Move o a w pt pt') (hConsistent : w.Consistent) (hp : p ∈ w.payments) (hCollected : p.status.collected = true)
    (hKnows : ∀ r ∈ pt.phase.copies, w.Knows r.claim)
    (hSettled : ∀ before target, pt.phase = .settled before target → ∃ s ∈ w.stakes, s.claim = before.claim ∧ s.status ≠ .pending)
    (hOwes : pt.phase.Owes p.id p.status) : pt'.phase.Owes p.id p.status ∨
    (∃ copy, pt.phase = .reading copy ∧ copy.id = p.id ∧ o = .refund (.sumSucceeded copy) ∧
      p.status = refundedStatus copy.amount (roundCurrency (w.succeeded copy.id))) ∨
    ∃ copy next, pt.phase = .writing copy next ∧ o = .payment (.setStatus copy next) ∧ copy.id = p.id := by
  have hBusy := hOwes.busy
  -- the refund that is read again is the one that was settled
  have hSame : ∀ {before updated : Refund}, before ∈ pt.phase.copies → w.refunds.find? (fun r => r.id = before.id) = some updated →
      updated.paymentId = before.paymentId := by
    intro before updated hCopy hFind
    have hId := List.find?_some hFind
    rw [decide_eq_true_eq] at hId
    exact congrArg Claim.paymentId ((hKnows before hCopy).eq_of_id _ (refund_of_find? hFind) hId)
  induction h with
  | quiet _ hph | rest _ hph | setLookup hph | hear hph | see hph | leaseTaken _ hph | unlease hph | keyTaken hph
  | settleLost hph | pay hph | retrieved hph | cancel hph | charge hph => exact absurd hph (by rw [hBusy]; exact Bool.false_ne_true)
  | byHand hFrom => rcases hFrom with rfl | ⟨rfl, -⟩ <;> exact False.elim hOwes
  | reread hFind _ => exact .inl ((hSame (List.mem_singleton_self _) hFind).trans hOwes)
  | rereadEven hFind _ => exact .inl ((hSame (List.mem_singleton_self _) hFind).trans hOwes)
  | @rereadGone _ _ _ before target hFind =>
    obtain ⟨s, hs, hClaim, -⟩ := hSettled before target rfl
    obtain ⟨r, hr, rfl⟩ := List.mem_map.mp hs
    exact absurd (decide_eq_true (congrArg Claim.id hClaim)) (List.find?_eq_none.mp hFind r hr)
  | giveBack | count => exact .inl hOwes
  | @syncRead _ _ _ paymentId payment hFind _ =>
    have hId := List.find?_some hFind
    rw [decide_eq_true_eq] at hId
    have hEq := Tables.eq_of_id hConsistent.paymentIds (List.mem_of_find?_eq_some hFind) hp (hId.trans hOwes)
    rw [hEq]
    exact .inl ⟨rfl, rfl⟩
  | @syncSkip _ _ _ paymentId hFind =>
    obtain rfl : paymentId = p.id := hOwes
    rw [hFind p (Tables.find?_id hConsistent.paymentIds hp)] at hCollected
    cases hCollected
  | syncSum _ _ => exact .inl hOwes.1
  | syncEven hNext => exact .inr (.inl ⟨_, rfl, hOwes.1, rfl, hOwes.2.symm.trans hNext⟩)
  | syncWrite => exact .inr (.inr ⟨_, _, rfl, rfl, hOwes⟩)
  | _ => exact False.elim hOwes

theorem Move.follows (h : Move o a w pt pt') (hStored : ∀ p ∈ w.payments, p.id = payment.id → p.amount = payment.amount)
    (hFollows : pt.phase.Follows payment (w.succeeded payment.id))
    (hRound : ∀ copy, o = .refund (.sumSucceeded copy) → copy.id = payment.id →
      refundedStatus copy.amount (roundCurrency (w.succeeded payment.id)) = refundedStatus copy.amount (w.succeeded payment.id)) :
    pt'.phase.Follows payment (w.succeeded payment.id) := by
  induction h with
  | quiet _ hph | setLookup hph => exact Phase.follows_calm hph
  | syncRead hFind _ => exact fun hId => hStored _ (List.mem_of_find?_eq_some hFind) hId
  | @syncSum _ _ _ copy next hNext _ =>
    intro hId
    rw [← hFollows hId, ← hRound copy rfl hId, ← hId]
    exact hNext
  | _ => trivial

theorem Move.into_unsynced {t : Nat} {r : Except Err o.Resp} {paymentId : Id} (h : Move o a w pt pt')
    (hPhase : pt'.phase = .unsynced paymentId) : endsSettlement ⟨t, o, r⟩ = true := by
  induction h with
  | rereadEven | giveBack | count => rfl
  | quiet _ hph | setLookup hph =>
    cases hPhase
    cases hph
  | _ => cases hPhase

theorem Move.of_setStatus {copy : Payment} {next : PaymentStatus} (h : Move (.payment (.setStatus copy next)) a w pt pt') :
    pt.phase = .writing copy next := by
  cases h with
  | syncWrite => rfl
  | quiet ho | rest ho => cases ho
  | see _ hRead => cases hRead

theorem Move.of_writing {copy : Payment} {next : PaymentStatus} (h : Move o a w pt pt') (hPhase : pt.phase = .writing copy next) :
    o = .payment (.setStatus copy next) := by
  have hBusy : pt.phase.calm = false := by rw [hPhase]; rfl
  induction h with
  | syncWrite =>
    cases hPhase
    rfl
  | quiet _ hph | rest _ hph | setLookup hph | hear hph | see hph | leaseTaken _ hph | unlease hph | keyTaken hph
  | settleLost hph | pay hph | retrieved hph | cancel hph | charge hph => exact absurd hph (by rw [hBusy]; exact Bool.false_ne_true)
  | byHand hFrom => rcases hFrom with rfl | ⟨rfl, -⟩ <;> cases hPhase
  | _ => cases hPhase

theorem Move.of_settle {s : Settlement} {before : Refund} (h : Move (.refund (.settle s)) a w pt pt') (hApplies : s.Applies w before) :
    pt'.phase = .settled before s.target := by
  cases h with
  | settle _ _ _ _ _ _ hFind _ =>
    rw [hApplies.1] at hFind
    cases hFind
    rfl
  | settleLost _ hFind =>
    have hTaken := hFind before hApplies.1
    rw [hApplies.2] at hTaken
    cases hTaken
  | quiet ho | rest ho => cases ho
  | see _ hRead => cases hRead

theorem revise_setStatus {copy : Payment} {next : PaymentStatus} (hIds : (w.payments.map Payment.id).Nodup) (hp : p ∈ w.payments)
    (hId : p.id = copy.id) (hFree : next = .paid → paidTaken w.payments p = false) :
    ((Op.payment (.setStatus copy next)).revise w p).status = next := by
  have hBlocked : statusBlocked w (fun p => p.id = copy.id) next = false := by
    have hFind : w.payments.find? (fun q => q.id = p.id) = some p := Tables.find?_id hIds hp
    rw [statusBlocked, ← hId, hFind, Option.map_some, Option.getD_some]
    by_cases hPaid : next = .paid
    · rw [hFree hPaid, Bool.and_false]
    · rw [decide_eq_false hPaid, Bool.false_and]
  simp only [Op.revise, PaymentOp.revise]
  rw [hBlocked, if_pos (by simp [hId])]
  rfl

end Moves

/-! ## The invariant of a run -/

section Runs

variable {requests : List Request} {c c' : State} {start pts : List Point} {t : Nat} {a : Answer} {o : Op}
  {th : Thread Op Op.Resp Err World Unit} {k : Except Err o.Resp → Promise Unit} {pt pt' : Point} {payment : Payment}

structure Synced (payment : Payment) (c : State) (pts : List Point) : Prop where
  ordered : Ordered c.state pts
  settled : ∀ pt ∈ pts, ∀ before target, pt.phase = .settled before target →
    ∃ s ∈ c.state.stakes, s.claim = before.claim ∧ s.status ≠ .pending
  last : ∀ {t : Nat} {pt : Point} {paymentId : Id}, pts[t]? = some pt → pt.phase = .unsynced paymentId →
    (c.last? t).any endsSettlement = true
  stopped : ∀ {t : Nat} {th : Thread Op Op.Resp Err World Unit} {pt : Point}, c.threads[t]? = some th →
    th.stopped = true → pts[t]? = some pt → ¬ pt.phase.InOutcome payment.id
  present : ∃ p ∈ c.state.payments, p.id = payment.id
  stored : ∀ p ∈ c.state.payments, p.id = payment.id → p.amount = payment.amount ∧ p.status.collected = true
  follows : ∀ pt ∈ pts, pt.phase.Follows payment (c.state.succeeded payment.id)
  agrees : ∀ p ∈ c.state.payments, p.id = payment.id →
    p.status = refundedStatus payment.amount (c.state.succeeded payment.id) ∨ ∃ pt ∈ pts, pt.phase.Owes payment.id p.status

theorem Synced.in_progress (hT : Tracks store protocol start c pts) (h : Synced payment c pts) (hPoint : pts[t]? = some pt)
    (hIn : pt.phase.InOutcome payment.id) : inOutcome payment.id c t = true := by
  obtain ⟨th, hThread⟩ := hT.thread_exists hPoint
  have hRunning : th.stopped = false := by
    rw [← Bool.not_eq_true]
    exact fun hStopped => h.stopped hThread hStopped hPoint hIn
  have hBusy := hIn.busy
  obtain ⟨o, hWaiting, a, w, pt', hMove⟩ := hT.waiting hThread hPoint hRunning fun hRest => by
    rw [hRest.2] at hBusy
    cases hBusy
  have hRefund : ∀ before target, pt.phase = .settled before target → before.paymentId = payment.id →
      c.state.isRefundOf before.id payment.id = true := by
    intro before target hPhase hId
    obtain ⟨s, hs, hClaim, -⟩ := h.settled pt (List.mem_of_getElem? hPoint) before target hPhase
    obtain ⟨r, hr, rfl⟩ := List.mem_map.mp hs
    refine List.any_eq_true.mpr ⟨r, hr, ?_⟩
    rw [Bool.and_eq_true, decide_eq_true_eq, decide_eq_true_eq]
    exact ⟨congrArg Claim.id hClaim, (congrArg Claim.paymentId hClaim).trans hId⟩
  have hLast : ∀ paymentId, pt.phase = .unsynced paymentId → (c.last? t).any endsSettlement = true := fun _ => h.last hPoint
  simp only [inOutcome, hWaiting]
  induction hMove with
  | quiet _ hph | rest _ hph | setLookup hph | hear hph | see hph | leaseTaken _ hph | unlease hph | keyTaken hph
  | settleLost hph | pay hph | retrieved hph | cancel hph | charge hph => exact absurd hph (by rw [hBusy]; exact Bool.false_ne_true)
  | byHand hFrom => rcases hFrom with rfl | ⟨rfl, -⟩ <;> exact False.elim hIn
  | reread | rereadEven | rereadGone => exact hRefund _ _ rfl hIn
  | giveBack | count => exact decide_eq_true hIn
  | syncRead | syncSkip => exact Bool.and_eq_true_iff.mpr ⟨decide_eq_true hIn, hLast _ rfl⟩
  | syncSum | syncEven => exact decide_eq_true hIn
  | syncWrite => exact decide_eq_true hIn
  | _ => exact False.elim hIn

theorem Synced.writing_waits (hT : Tracks store protocol start c pts) (h : Synced payment c pts) {copy : Payment} {next : PaymentStatus}
    (hPoint : pts[t]? = some pt) (hPhase : pt.phase = .writing copy next) (hId : copy.id = payment.id) :
    c.waiting? t = some (.payment (.setStatus copy next)) := by
  obtain ⟨th, hThread⟩ := hT.thread_exists hPoint
  have hIn : pt.phase.InOutcome payment.id := by
    rw [hPhase]
    exact hId
  have hRunning : th.stopped = false := by
    rw [← Bool.not_eq_true]
    exact fun hStopped => h.stopped hThread hStopped hPoint hIn
  obtain ⟨o, hWaiting, _, _, _, hMove⟩ := hT.waiting hThread hPoint hRunning fun hRest => by
    have hCalm := hRest.2
    rw [hPhase] at hCalm
    cases hCalm
  rw [← hMove.of_writing hPhase]
  exact hWaiting

theorem Synced.sum_cases (h : Synced payment c pts) (hMove : Move o a c.state pt pt') :
    (o.perform a c.state).2.succeeded payment.id = c.state.succeeded payment.id ∨
      ∃ s before, o = .refund (.settle s) ∧ s.Applies c.state before ∧ s.changesSum = true ∧ before.paymentId = payment.id := by
  by_cases hChanges : ∃ s before, o = .refund (.settle s) ∧ s.Applies c.state before ∧ s.changesSum = true ∧ before.paymentId = payment.id
  · exact .inr hChanges
  · exact .inl (hMove.succeeded_same h.ordered.consistent fun s before hOp hApplies hSum hId =>
      hChanges ⟨s, before, hOp, hApplies, hSum, hId⟩)

theorem Synced.status_cases (h : Synced payment c pts) (hGuard : syncsInTurn payment.id c (.run t a) = true)
    (hWaiting : c.waiting? t = some o) (hMem : pt ∈ pts) (hMove : Move o a c.state pt pt') {p : Payment} (hp : p ∈ c.state.payments)
    (hId : p.id = payment.id) :
    ((o.revise c.state p).status = p.status ∧ ∀ copy next, o = .payment (.setStatus copy next) → copy.id ≠ payment.id) ∨
      ((o.revise c.state p).status = refundedStatus payment.amount (c.state.succeeded payment.id) ∧
        ∃ copy next, o = .payment (.setStatus copy next)) := by
  by_cases hWrites : ∃ copy next, o = .payment (.setStatus copy next) ∧ copy.id = payment.id
  · obtain ⟨copy, next, rfl, hCopy⟩ := hWrites
    refine .inr ⟨?_, copy, next, rfl⟩
    have hFollows := h.follows pt hMem
    rw [hMove.of_setStatus] at hFollows
    rw [← hFollows hCopy]
    refine revise_setStatus h.ordered.consistent.paymentIds hp (hId.trans hCopy.symm) fun hPaid => ?_
    simp only [syncsInTurn, hWaiting, hCopy, hPaid, ne_eq, not_true, decide_false, Bool.false_or, List.all_eq_true] at hGuard
    simpa [hId] using hGuard p hp
  · refine .inl ⟨?_, fun copy next hOp hCopy => hWrites ⟨copy, next, hOp, hCopy⟩⟩
    rcases o.revise_status c.state p with hSame | ⟨copy, next, rfl, hCopy, -⟩ | ⟨copy, next, hOp, hCopy, -⟩
    · exact hSame
    · simp only [syncsInTurn, hWaiting, decide_eq_true_eq] at hGuard
      exact absurd (hCopy.symm.trans hId) hGuard
    · exact absurd ⟨copy, next, hOp, hCopy.symm.trans hId⟩ hWrites

theorem Synced.follows_ran (hT : Tracks store protocol start c pts) (h : Synced payment c pts)
    (hGuard : syncsInTurn payment.id c (.run t a) = true) (hWaiting : c.waiting? t = some o) (hPoint : pts[t]? = some pt)
    (hMove : Move o a c.state pt pt') :
    ∀ pu ∈ pts.set t pt', pu.phase.Follows payment ((o.perform a c.state).2.succeeded payment.id) := by
  have hMem := List.mem_of_getElem? hPoint
  intro pu hu
  rcases h.sum_cases hMove with hSame | ⟨s, before, rfl, hApplies, hChanges, hBefore⟩
  · rw [hSame]
    rcases List.mem_or_eq_of_mem_set hu with hOld | rfl
    · exact h.follows pu hOld
    · refine hMove.follows (fun p hp hId => (h.stored p hp hId).1) (h.follows pt hMem) fun copy hOp hCopy => ?_
      simpa [syncsInTurn, hWaiting, hOp, hCopy] using hGuard
  · rcases List.mem_or_eq_of_mem_set hu with hOld | rfl
    · -- no status is about to be written
      have hNone : ∀ copy next, pu.phase = .writing copy next → copy.id ≠ payment.id := by
        intro copy next hPhase hCopy
        obtain ⟨u, hU⟩ := List.mem_iff_getElem?.mp hOld
        have hWrites := Config.mem_waiting (h.writing_waits hT hU hPhase hCopy)
        have hRefund : c.state.isRefundOf s.id payment.id = true := by
          have hSel := List.find?_some hApplies.1
          rw [Bool.and_eq_true, decide_eq_true_eq] at hSel
          refine List.any_eq_true.mpr ⟨before, List.mem_of_find?_eq_some hApplies.1, ?_⟩
          rw [Bool.and_eq_true, decide_eq_true_eq, decide_eq_true_eq]
          exact ⟨hSel.1, hBefore⟩
        simp only [syncsInTurn, hWaiting, hChanges, hRefund, Bool.true_and, Bool.not_eq_true', List.any_eq_false] at hGuard
        exact hGuard _ hWrites (decide_eq_true hCopy)
      have hFollows := h.follows pu hOld
      generalize pu.phase = ph at hNone hFollows ⊢
      cases ph with
      | writing copy next => exact fun hCopy => absurd hCopy (hNone copy next rfl)
      | _ => exact hFollows
    · rw [hMove.of_settle hApplies]
      trivial

theorem Synced.agrees_ran (h : Synced payment c pts) (hGuard : syncsInTurn payment.id c (.run t a) = true)
    (hWaiting : c.waiting? t = some o) (hPoint : pts[t]? = some pt) (hMove : Move o a c.state pt pt') {p : Payment}
    (hp : p ∈ c.state.payments) (hId : p.id = payment.id) :
    (o.revise c.state p).status = refundedStatus payment.amount ((o.perform a c.state).2.succeeded payment.id) ∨
      ∃ pu ∈ pts.set t pt', pu.phase.Owes payment.id (o.revise c.state p).status := by
  have hMem := List.mem_of_getElem? hPoint
  have hMemSet : pt' ∈ pts.set t pt' := List.mem_set (List.getElem?_eq_some_iff.mp hPoint).1 pt'
  rcases h.status_cases hGuard hWaiting hMem hMove hp hId with ⟨hStatus, hNot⟩ | ⟨hWritten, copy, next, rfl⟩
  · rw [hStatus]
    rcases h.agrees p hp hId with hAgrees | ⟨pu, hu, hOwes⟩
    · rcases h.sum_cases hMove with hSame | ⟨s, before, rfl, hApplies, -, hBefore⟩
      · rw [hSame]
        exact .inl hAgrees
      · refine .inr ⟨pt', hMemSet, ?_⟩
        rw [hMove.of_settle hApplies]
        exact hBefore
    · obtain ⟨u, hU⟩ := List.mem_iff_getElem?.mp hu
      by_cases hMover : u = t
      · subst hMover
        cases hPoint.symm.trans hU
        rw [← hId] at hOwes
        rcases hMove.owes h.ordered.consistent hp (h.stored p hp hId).2 (h.ordered.knows pt hMem) (h.settled pt hMem) hOwes with
          hStill | ⟨copy, hPhase, hCopy, rfl, hEven⟩ | ⟨copy, next, -, hOp, hCopy⟩
        · rw [hId] at hStill
          exact .inr ⟨pt', hMemSet, hStill⟩
        · refine .inl ?_
          have hFollows := h.follows pt hMem
          rw [hPhase] at hFollows
          rw [hMove.succeeded_same h.ordered.consistent (fun _ _ hOp => by cases hOp), ← hFollows (hCopy.trans hId), hEven, hCopy, hId]
          simpa [syncsInTurn, hWaiting, hCopy, hId] using hGuard
        · exact absurd (hCopy.trans hId) (hNot copy next hOp)
      · have hKept : (pts.set t pt')[u]? = some pu := by
          rw [List.getElem?_set_ne (Ne.symm hMover)]
          exact hU
        exact .inr ⟨pu, List.mem_of_getElem? hKept, hOwes⟩
  · rw [hMove.succeeded_same h.ordered.consistent (fun _ _ hOp => by cases hOp)]
    exact .inl hWritten

theorem Synced.run (hT : Tracks store protocol start c pts) (h : Synced payment c pts)
    (hGuard : syncsInTurn payment.id c (.run t a) = true) (hRan : store.Ran c t a o th k c') (hPoint : pts[t]? = some pt)
    (hMove : Move o a c.state pt pt') : Synced payment c' (pts.set t pt') := by
  have hMem := List.mem_of_getElem? hPoint
  have hState : c'.state = (o.perform a c.state).2 := hRan.state
  have hWaiting := hRan.waiting?
  -- what is stored of the payment afterwards is what becomes of it
  have hLater : ∀ p' ∈ (o.perform a c.state).2.payments, p'.id = payment.id →
      ∃ p ∈ c.state.payments, p.id = payment.id ∧ p' = o.revise c.state p := by
    intro p' hp' hId
    rcases mem_perform_payments hp' with ⟨p, hp, rfl⟩ | hOpened
    · exact ⟨p, hp, (o.revise_id c.state p).symm.trans hId, rfl⟩
    · obtain ⟨p₀, hp₀, hId₀⟩ := h.present
      have hLt := h.ordered.consistent.payment_lt p₀ hp₀
      rw [hId₀, ← hId, Op.mem_opened hOpened] at hLt
      exact absurd hLt (Nat.lt_irrefl _)
  refine ⟨?_, ?_, ?_, ?_, ?_, ?_, ?_, ?_⟩
  · rw [hState]
    exact h.ordered.move hPoint hMove
  · rw [hState]
    intro pu hu before target hPhase
    rcases List.mem_or_eq_of_mem_set hu with hOld | rfl
    · obtain ⟨s, hs, hClaim, hSettled⟩ := h.settled pu hOld before target hPhase
      obtain ⟨s', hs', hClaim', hSettled'⟩ := hMove.settled_after hs hSettled
      exact ⟨s', hs', hClaim'.trans hClaim, hSettled'⟩
    · exact hMove.settled_stored hPhase
  · intro u pu paymentId hU hPhase
    rw [hRan.last?]
    rcases Tables.getElem?_set_cases hU with ⟨rfl, rfl⟩ | ⟨hNe, hU⟩
    · rw [if_pos rfl]
      exact hMove.into_unsynced hPhase
    · rw [if_neg hNe.symm]
      exact h.last hU hPhase
  · intro u thU pu hThread hStopped hU
    rw [hRan.threads] at hThread
    rcases Tables.getElem?_set_cases hThread with ⟨rfl, rfl⟩ | ⟨hNe, hThread⟩
    · cases hStopped
    · rw [List.getElem?_set_ne hNe.symm] at hU
      exact h.stopped hThread hStopped hU
  · obtain ⟨p, hp, hId⟩ := h.present
    rw [hState]
    exact ⟨_, revise_mem_perform hp, (o.revise_id c.state p).trans hId⟩
  · rw [hState]
    intro p' hp' hId'
    obtain ⟨p, hp, hId, rfl⟩ := hLater p' hp' hId'
    refine ⟨(o.revise_amount c.state p).trans (h.stored p hp hId).1, ?_⟩
    rcases h.status_cases hGuard hWaiting hMem hMove hp hId with ⟨hSame, -⟩ | ⟨hWritten, -⟩
    · rw [hSame]
      exact (h.stored p hp hId).2
    · rw [hWritten]
      exact refundedStatus_collected _ _
  · rw [hState]
    exact h.follows_ran hT hGuard hWaiting hPoint hMove
  · rw [hState]
    intro p' hp' hId'
    obtain ⟨p, hp, hId, rfl⟩ := hLater p' hp' hId'
    exact h.agrees_ran hGuard hWaiting hPoint hMove hp hId

theorem Synced.stop (hT : Tracks store protocol start c pts) (h : Synced payment c pts)
    (hGuard : syncsInTurn payment.id c (.stop t) = true) (hThread : c.threads[t]? = some th) :
    Synced payment { c with threads := c.threads.set t { th with stopped := true } } pts := by
  refine ⟨h.ordered, h.settled, h.last, ?_, h.present, h.stored, h.follows, h.agrees⟩
  intro u thU pu hThreadU hStopped hU hIn
  rcases Tables.getElem?_set_cases hThreadU with ⟨rfl, rfl⟩ | ⟨hNe, hThreadU⟩
  · have hNot : (!inOutcome payment.id c u) = true := hGuard
    rw [h.in_progress hT hU hIn] at hNot
    cases hNot
  · exact h.stopped hThreadU hStopped hU hIn

theorem Synced.event {e : Event} (h : Synced payment c pts) : Synced payment { c with state := store.advance e c.state } pts := by
  obtain ⟨hStakes, hPayments, -⟩ := e.advance_fields c.state
  have hSum : (e.advance c.state).succeeded payment.id = c.state.succeeded payment.id := by
    rw [World.succeeded_eq, World.succeeded_eq, hStakes]
  refine ⟨h.ordered.advance e, ?_, h.last, h.stopped, ?_, ?_, ?_, ?_⟩
  · simp only [hStakes]
    exact h.settled
  · simp only [hPayments]
    exact h.present
  · simp only [hPayments]
    exact h.stored
  · simp only [hSum]
    exact h.follows
  · simp only [hPayments, hSum]
    exact h.agrees

theorem Synced.initial {env : Env} {w : World} (hConsistent : w.Consistent) (hPayment : payment ∈ w.payments)
    (hPaid : payment.status.collected = true) (hAgrees : payment.Agrees (w.succeeded payment.id)) :
    Synced payment (State.start env w requests) (requests.map fun _ => {}) := by
  have hPoints : ∀ pt ∈ requests.map fun _ => ({} : Point), pt = {} := by
    intro pt hpt
    obtain ⟨_, -, rfl⟩ := List.mem_map.mp hpt
    rfl
  have hStored : ∀ p ∈ w.payments, p.id = payment.id → p = payment := fun p hp hId =>
    Tables.eq_of_id hConsistent.paymentIds hp hPayment hId
  refine ⟨.initial hConsistent hPoints, ?_, ?_, ?_, ⟨payment, hPayment, rfl⟩, ?_, ?_, ?_⟩
  · intro pt hpt before target hPhase
    rw [hPoints pt hpt] at hPhase
    cases hPhase
  · intro t pt paymentId hPoint hPhase
    rw [hPoints pt (List.mem_of_getElem? hPoint)] at hPhase
    cases hPhase
  · intro t th pt _ _ hPoint
    rw [hPoints pt (List.mem_of_getElem? hPoint)]
    exact id
  · intro p hp hId
    rw [hStored p hp hId]
    exact ⟨rfl, hPaid⟩
  · intro pt hpt
    rw [hPoints pt hpt]
    trivial
  · intro p hp hId
    rw [hStored p hp hId]
    exact .inl (Payment.agrees_iff.mp hAgrees)

end Runs

/-- While refunds settle and statuses are written in turn, a payment's status says
what has been refunded whenever no outcome of its refunds is in progress. -/
theorem refunded_status_agrees {env : Env} {w₀ : World} {requests : List Request} {c : State} {payment : Payment}
    (hConsistent : w₀.Consistent) (hPayment : payment ∈ w₀.payments) (hPaid : payment.status.collected = true)
    (hAgrees : payment.Agrees (w₀.succeeded payment.id))
    (h : store.Reach (fun c l => syncsInTurn payment.id c l) (State.start env w₀ requests) c)
    (hDone : outcomesDone payment.id c = true) :
    ∃ later ∈ c.state.payments, later.id = payment.id ∧ later.Agrees (c.state.succeeded payment.id) := by
  obtain ⟨pts, hT, hSynced⟩ := (Tracks.initial fun r _ => Request.program_follows env r).invariant
    (Synced.initial hConsistent hPayment hPaid hAgrees)
    (fun hT hI hGuard hRan hPoint hMove _ => hI.run hT hGuard hRan hPoint hMove)
    (fun hT hI hGuard hThread => hI.stop hT hGuard hThread) (fun _ hI _ => hI.event) h
  obtain ⟨later, hLater, hId⟩ := hSynced.present
  refine ⟨later, hLater, hId, Payment.agrees_iff.mpr ?_⟩
  rw [(hSynced.stored later hLater hId).1]
  refine (hSynced.agrees later hLater hId).resolve_right ?_
  rintro ⟨pt, hpt, hOwes⟩
  obtain ⟨t, hPoint⟩ := List.mem_iff_getElem?.mp hpt
  obtain ⟨th, hThread⟩ := hT.thread_exists hPoint
  have hLt := (List.getElem?_eq_some_iff.mp hThread).1
  have hNot := List.all_eq_true.mp hDone t (List.mem_range.mpr hLt)
  rw [hSynced.in_progress hT hPoint hOwes.inOutcome] at hNot
  cases hNot

theorem paidPayment_agrees : paidPayment.Agrees ((World.single paidPayment).succeeded paidPayment.id) :=
  Payment.agrees_iff.mpr (by decide)

def halfRefunds : List Request :=
  [.refund { paidRefund with amount := some 5 }, .refund { paidRefund with amount := some 5, idempotencyKey := "refund-2" }]

def accepted (ref : String) : Answer := { refund := .ok { refundRef := ref, status := .succeeded } }

def inTurnSteps : List (Label Answer Event) :=
  List.replicate 7 (.run 0 {}) ++ .run 0 (accepted "re_1") :: List.replicate 8 (.run 0 {}) ++
    List.replicate 7 (.run 1 {}) ++ .run 1 (accepted "re_2") :: List.replicate 8 (.run 1 {})

theorem refunded_status_agrees_halves : ∃ c : State, c.state.payments.map Payment.status = [.refunded] ∧
    ∃ later ∈ c.state.payments, later.id = paidPayment.id ∧ later.Agrees (c.state.succeeded paidPayment.id) := by
  obtain ⟨c, hReach, hEnd⟩ := store.exists_of_exec (syncsInTurn paidPayment.id) (State.start {} (.single paidPayment) halfRefunds)
    inTurnSteps (fun c => outcomesDone paidPayment.id c && c.state.payments.map Payment.status = [.refunded]) (by decide +kernel)
  rw [Bool.and_eq_true, decide_eq_true_eq] at hEnd
  exact ⟨c, hEnd.2, refunded_status_agrees (.single paidPayment) (List.mem_singleton_self _) rfl paidPayment_agrees hReach hEnd.1⟩

def crossedSteps : List (Label Answer Event) :=
  List.replicate 3 (.run 0 {}) ++ List.replicate 3 (.run 1 {}) ++ List.replicate 4 (.run 0 {}) ++
    .run 0 (accepted "re_1") :: List.replicate 6 (.run 0 {}) ++ List.replicate 4 (.run 1 {}) ++
    .run 1 (accepted "re_2") :: List.replicate 8 (.run 1 {}) ++ List.replicate 2 (.run 0 {})

theorem refunded_status_crossed : ¬ ∀ (env : Env) (w₀ : World) (requests : List Request) (c : State) (payment : Payment),
    w₀.Consistent → payment ∈ w₀.payments → payment.status.collected = true → payment.Agrees (w₀.succeeded payment.id) →
    store.Reach (fun _ _ => True) (State.start env w₀ requests) c → outcomesDone payment.id c = true →
    ∃ later ∈ c.state.payments, later.id = payment.id ∧ later.Agrees (c.state.succeeded payment.id) := by
  intro hClaim
  obtain ⟨c, hReach, hEnd⟩ := store.exists_of_exec (fun _ _ => true) (State.start {} (.single paidPayment) halfRefunds) crossedSteps
    (fun c => outcomesDone paidPayment.id c && c.state.succeeded paidPayment.id = 10 &&
      c.state.payments.all fun p => p.amount = 10 && p.status = .partiallyRefunded) (by decide +kernel)
  rw [Bool.and_eq_true, Bool.and_eq_true, decide_eq_true_eq] at hEnd
  obtain ⟨⟨hDone, hSum⟩, hStatus⟩ := hEnd
  obtain ⟨later, hLater, -, hAgrees⟩ := hClaim {} _ _ c paidPayment (.single paidPayment) (List.mem_singleton_self _) rfl
    paidPayment_agrees (hReach.mono fun _ _ _ => trivial) hDone
  have hStored := List.all_eq_true.mp hStatus later hLater
  rw [Bool.and_eq_true, decide_eq_true_eq, decide_eq_true_eq] at hStored
  have hRefunded := hAgrees.refunded (by rw [hSum, hStored.1])
  rw [hStored.2] at hRefunded
  cases hRefunded

end RestaurantOs.Payments
