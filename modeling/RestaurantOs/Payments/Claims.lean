import RestaurantOs.Payments.Book

/-!
# Claims

Ids and keys are unique, a copy of a refund that a request holds has the claim
of the stored document with its id, and a claim has one owner: the request
that inserted it, until the provider has answered.
-/

namespace RestaurantOs.Payments

open Async

def Phase.copies : Phase → List Refund
  | seen r | held r | missing r | claimed r | unreserved r | reserved r | reporting r _ _ | decided r _ _
  | settled r _ | owing r _ => [r]
  | fresh r latest | leasing r latest _ => [r, latest]
  | ready call | calling call | refused call | released call | unanswered call => [call.claim]
  | _ => []

def Phase.owner : Phase → Option Id
  | claimed claim | unreserved claim | reserved claim => some claim.id
  | ready call | calling call | refused call | released call => if call.reissue then none else some call.claim.id
  | _ => none

def Phase.Fits : Phase → Prop
  | fresh r latest | leasing r latest _ => latest.id = r.id
  | ready call | calling call | unanswered call => call.payment.id = call.claim.paymentId
  | refused call | released call => call.payment.id = call.claim.paymentId ∧ call.reissue = false
  | _ => True

theorem Phase.owner_copies {ph : Phase} {id : Id} (h : ph.owner = some id) : ∃ r ∈ ph.copies, r.id = id := by
  cases ph with
  | claimed claim | unreserved claim | reserved claim =>
    cases h
    exact ⟨claim, List.mem_singleton_self claim, rfl⟩
  | ready call | calling call | refused call | released call =>
    simp only [owner] at h
    split at h
    · cases h
    · cases h
      exact ⟨call.claim, List.mem_singleton_self _, rfl⟩
  | _ => cases h

structure Claim.Sound (nextId : Id) (claim : Claim) : Prop where
  id_lt : claim.id < nextId
  paymentId_lt : claim.paymentId < nextId
  amount_pos : 0 < claim.amount
  key_eq : claim.key = providerRefundIdempotencyKey claim.restaurantId claim.idempotencyKey

theorem Claim.Sound.mono {claim : Claim} {m n : Id} (h : claim.Sound m) (hLe : m ≤ n) : claim.Sound n :=
  ⟨h.id_lt.trans_le hLe, h.paymentId_lt.trans_le hLe, h.amount_pos, h.key_eq⟩

structure World.Consistent (w : World) : Prop where
  refundIds : (w.stakes.map fun s => s.claim.id).Nodup
  refundKeys : (w.stakes.map fun s => s.claim.key).Nodup
  sound : ∀ s ∈ w.stakes, s.claim.Sound w.nextId
  paymentIds : (w.payments.map Payment.id).Nodup
  payment_lt : ∀ p ∈ w.payments, p.id < w.nextId

structure World.Knows (w : World) (claim : Claim) : Prop where
  sound : claim.Sound w.nextId
  eq_of_id : ∀ s ∈ w.stakes, s.claim.id = claim.id → s.claim = claim

structure Ordered (w : World) (pts : List Point) : Prop where
  consistent : w.Consistent
  knows : ∀ pt ∈ pts, ∀ r ∈ pt.phase.copies, w.Knows r.claim
  paying : ∀ pt ∈ pts, ∀ payment, pt.phase = .paying payment → payment.id < w.nextId
  fits : ∀ pt ∈ pts, pt.phase.Fits
  owners : ∀ {t u : Nat} {pt pu : Point} {id : Id}, pts[t]? = some pt → pts[u]? = some pu →
    pt.phase.owner = some id → pu.phase.owner = some id → t = u

section Stakes

variable {w : World} {refund : Refund} {id : Id}

theorem stake_mem (h : refund ∈ w.refunds) : refund.stake ∈ w.stakes := List.mem_map_of_mem h

theorem refund_of_find? {p : Refund → Bool} (h : w.refunds.find? p = some refund) : refund.stake ∈ w.stakes :=
  stake_mem (List.mem_of_find?_eq_some h)

theorem World.Consistent.knows {s : Stake} (h : w.Consistent) (hs : s ∈ w.stakes) : w.Knows s.claim :=
  ⟨h.sound s hs, fun _ hs' hEq => congrArg Stake.claim (Tables.eq_of_id h.refundIds hs' hs hEq)⟩

theorem World.Consistent.knows_refund (h : w.Consistent) (hr : refund ∈ w.refunds) : w.Knows refund.claim :=
  h.knows (stake_mem hr)

end Stakes

def Settlement.Applies (s : Settlement) (w : World) (before : Refund) : Prop :=
  w.refunds.find? (fun r => r.id = s.id && r.status = s.source) = some before ∧
    refTaken w.refunds before s.details = false

def Settlement.byHand (s : Settlement) : Bool := s.resolution.any fun r => r.method = .manual

theorem Settlement.byHand_eq {s : Settlement} {current : Refund} {report : RefundReport} {method : ReportMethod}
    {ctx : ActorContext} {evidence : Option String} {now : Time}
    (h : s.resolution = reportResolution current report method ctx evidence now) :
    s.byHand = decide (method = .manual) := by
  rw [byHand, h]
  cases method <;> rfl

def Settlement.applies (s : Settlement) (w : World) : Bool :=
  (w.refunds.find? fun r => r.id = s.id && r.status = s.source).any fun before =>
    !refTaken w.refunds before s.details

theorem Settlement.Applies.applies {s : Settlement} {w : World} {before : Refund} (h : s.Applies w before) :
    s.applies w = true := by
  simp [Settlement.applies, h.1, h.2]

/-! ## What a move does to the copies -/

section Moves

variable {o : Op} {a : Answer} {w : World} {pt pt' : Point} {pts : List Point} {t : Nat}

theorem Op.Reads.mem {refund : Refund} (h : o.Reads w refund) : refund ∈ w.refunds := by
  cases h <;> assumption

theorem Op.edit_create {draft : Refund} (hFree : (w.refunds.any fun r =>
    r.restaurantId = draft.restaurantId && r.idempotencyKey = draft.idempotencyKey) = false) :
    (Op.refund (.create draft)).edit w =
      .claim { draft with id := w.nextId, createdAt := w.now : Refund }.stake := by
  simp only [edit, RefundOp.edit, hFree, Bool.false_eq_true, if_false]

theorem Op.edit_taken {draft : Refund} (hTaken : (w.refunds.any fun r =>
    r.restaurantId = draft.restaurantId && r.idempotencyKey = draft.idempotencyKey) = true) :
    (Op.refund (.create draft)).edit w = .keep := by
  simp only [edit, RefundOp.edit, hTaken, if_true]

theorem Op.edit_settle {s : Settlement} {before : Refund} (h : s.Applies w before) :
    (Op.refund (.settle s)).edit w = .settle s.id s.source s.target := by
  simp only [edit, RefundOp.edit, h.1, h.2, Bool.false_eq_true, if_false]

theorem Op.edit_settleLost {s : Settlement}
    (hFind : ∀ before, w.refunds.find? (fun r => r.id = s.id && r.status = s.source) = some before →
      refTaken w.refunds before s.details = true) : (Op.refund (.settle s)).edit w = .keep := by
  simp only [edit, RefundOp.edit]
  split
  · rfl
  · rename_i before hBefore
    rw [if_pos (hFind before hBefore)]

theorem Op.edit_quiet (h : o.quiet = true) : o.edit w = .keep := by
  cases o with
  | refund op => cases op <;> first | rfl | cases h
  | _ => rfl

theorem Op.Reads.quiet {refund : Refund} (h : o.Reads w refund) : o.quiet = true := by
  cases h <;> rfl

theorem Move.copies {r : Refund} (h : Move o a w pt pt') (hr : r ∈ pt'.phase.copies) :
    (∃ r₀ ∈ pt.phase.copies, r.claim = r₀.claim) ∨ (∃ r₀ ∈ w.refunds, r.claim = r₀.claim) ∨
      ∃ s ∈ (o.edit w).born, r.claim = s.claim := by
  induction h with
  | quiet | setLookup | hold | found | missing | clock | reserve | reserveRefused | send | answered | refused
  | unanswered | release => exact .inl ⟨r, hr, rfl⟩
  | rest | hear | pay | leaseTaken | unlease | keyTaken | dropUnreserved | reissueRefused | dropRefused | setUnknown
  | note | settleLost | rereadEven | rereadGone | giveBack | count | syncRead | syncSkip | syncSum | syncEven
  | syncWrite | retrieved | matchPayment | transition | cancel | charge => cases hr
  | see hph hRead =>
    cases List.mem_singleton.mp hr
    exact .inr (.inl ⟨r, hRead.mem, rfl⟩)
  | byHand hFrom =>
    cases List.mem_singleton.mp hr
    rcases hFrom with rfl | ⟨rfl, -⟩ <;> exact .inl ⟨r, List.mem_singleton_self r, rfl⟩
  | fresh hFind =>
    rcases List.mem_cons.mp hr with rfl | hr
    · exact .inl ⟨r, List.mem_singleton_self r, rfl⟩
    · cases List.mem_singleton.mp hr
      exact .inr (.inl ⟨r, List.mem_of_find?_eq_some hFind, rfl⟩)
  | lease hRef hReserved hPayment hFind =>
    cases List.mem_singleton.mp hr
    exact .inr (.inl ⟨_, List.mem_of_find?_eq_some hFind, rfl⟩)
  | claim hDraft hPayment hFree =>
    cases List.mem_singleton.mp hr
    rw [Op.edit_create hFree]
    exact .inr (.inr ⟨_, List.mem_singleton_self _, rfl⟩)
  | mark =>
    cases List.mem_singleton.mp hr
    exact .inl ⟨_, List.mem_singleton_self _, rfl⟩
  | matchRef hUpdate hFind =>
    cases List.mem_singleton.mp hr
    exact .inr (.inl ⟨r, List.mem_of_find?_eq_some hFind, rfl⟩)
  | matchKey hUpdate hKey hFind =>
    cases List.mem_singleton.mp hr
    exact .inr (.inl ⟨r, List.mem_of_find?_eq_some hFind, rfl⟩)
  | decide hFind =>
    cases List.mem_singleton.mp hr
    exact .inr (.inl ⟨r, List.mem_of_find?_eq_some hFind, rfl⟩)
  | settle hId hSource hTarget hDetails hResolution hAllowed hFind =>
    cases List.mem_singleton.mp hr
    exact .inr (.inl ⟨r, List.mem_of_find?_eq_some hFind, rfl⟩)
  | reread hFind =>
    cases List.mem_singleton.mp hr
    exact .inr (.inl ⟨r, List.mem_of_find?_eq_some hFind, rfl⟩)

theorem Move.owner {id : Id} (h : Move o a w pt pt') (hOwner : pt'.phase.owner = some id) :
    pt.phase.owner = some id ∨ ∃ s ∈ (o.edit w).born, s.claim.id = id := by
  induction h with
  | quiet | setLookup | reserve | reserveRefused | send | release => exact .inl hOwner
  | refused _ _ hFresh => exact .inl hOwner
  | mark => exact .inl hOwner
  | claim hDraft hPayment hFree =>
    cases hOwner
    rw [Op.edit_create hFree]
    exact .inr ⟨_, List.mem_singleton_self _, rfl⟩
  | lease | byHand | _ => cases hOwner

structure Stake.Opens (w : World) (payment : Payment) (s : Stake) : Prop where
  id_eq : s.claim.id = w.nextId
  paymentId_eq : s.claim.paymentId = payment.id
  amount_pos : 0 < s.claim.amount
  key_eq : s.claim.key = providerRefundIdempotencyKey s.claim.restaurantId s.claim.idempotencyKey
  status_eq : s.status = .pending
  reserved_eq : s.reserved = false
  keyFree : ∀ r ∈ w.refunds, ¬ (r.restaurantId = s.claim.restaurantId ∧ r.idempotencyKey = s.claim.idempotencyKey)

/-- The edits that moves make, and where the request then stands. -/
inductive Edits (o : Op) (w : World) : Phase → Phase → Edit → Prop
  | keep {ph ph'} : Edits o w ph ph' .keep
  | claim {payment stake ph'} (hOpens : stake.Opens w payment) : Edits o w (.paying payment) ph' (.claim stake)
  | dropUnreserved {claim} : Edits o w (.unreserved claim) .idle (.drop claim.id)
  | dropRefused {call} : Edits o w (.released call) .idle (.drop call.claim.id)
  | mark {claim ph'} : Edits o w (.reserved claim) ph' (.mark claim.id)
  | settle {s before current report method} (hOp : o = .refund (.settle s)) (hApplies : s.Applies w before)
      (hId : s.id = current.id) (hSource : s.source = current.status) (hTarget : s.target = report.status)
      (hAllowed : s.target ∈ refundTransitions s.source) (hHand : s.byHand = decide (method = .manual)) :
      Edits o w (.decided current report method) (.settled before s.target) (.settle s.id s.source s.target)

theorem Move.edits (h : Move o a w pt pt') : Edits o w pt.phase pt'.phase (o.edit w) := by
  induction h with
  | claim hDraft hPayment hFree =>
    rw [Op.edit_create hFree]
    refine .claim ⟨rfl, hPayment, hDraft.amount, hDraft.refundKey, hDraft.status, hDraft.amountReserved, ?_⟩
    intro r hr hKey
    have hNot := List.any_eq_false.mp hFree r hr
    simp only [Bool.and_eq_true, decide_eq_true_eq] at hNot
    exact hNot hKey
  | dropUnreserved => exact .dropUnreserved
  | dropRefused => exact .dropRefused
  | mark => exact .mark
  | settle hId hSource hTarget hDetails hResolution hAllowed hFind hRef =>
    rw [Op.edit_settle ⟨hFind, hRef⟩]
    exact .settle rfl ⟨hFind, hRef⟩ hId hSource hTarget hAllowed (Settlement.byHand_eq hResolution)
  | keyTaken hph hTaken =>
    rw [Op.edit_taken hTaken]
    exact .keep
  | quiet ho | rest ho =>
    rw [Op.edit_quiet ho]
    exact .keep
  | see hph hRead =>
    rw [Op.edit_quiet hRead.quiet]
    exact .keep
  | settleLost hph hFind =>
    rw [Op.edit_settleLost hFind]
    exact .keep
  | _ => exact .keep

theorem Move.edit_target (h : Move o a w pt pt') (id : Id) (source target : RefundStatus)
    (hEdit : o.edit w = .settle id source target) : target ≠ .pending := by
  have hEdits := h.edits
  rw [hEdit] at hEdits
  generalize pt.phase = ph at hEdits
  generalize pt'.phase = ph' at hEdits
  cases hEdits with
  | settle hOp hApplies hId hSource hTarget hAllowed => exact refundTransitions_ne_pending hAllowed

theorem Move.born {s : Stake} (h : Move o a w pt pt') (hs : s ∈ (o.edit w).born) :
    ∃ payment, pt.phase = .paying payment ∧ s.Opens w payment := by
  have hEdits := h.edits
  generalize o.edit w = e at hEdits hs
  generalize pt.phase = ph at hEdits ⊢
  generalize pt'.phase = ph' at hEdits
  induction hEdits with
  | claim hOpens =>
    cases List.mem_singleton.mp hs
    exact ⟨_, rfl, hOpens⟩
  | _ => cases hs

theorem Move.paying {payment : Payment} (h : Move o a w pt pt') (hPaying : pt'.phase = .paying payment) :
    pt.phase = .paying payment ∨ payment ∈ w.payments := by
  induction h with
  | quiet | setLookup => exact .inl hPaying
  | pay hph hRead =>
    cases hPaying
    exact .inr hRead
  | _ => cases hPaying

theorem Ordered.fits_move (h : Ordered w pts) (hPoint : pt ∈ pts) (hMove : Move o a w pt pt') :
    pt'.phase.Fits := by
  have hFits := h.fits pt hPoint
  induction hMove with
  | quiet | setLookup | clock | send | unanswered | release => exact hFits
  | refused _ _ hFresh => exact ⟨hFits, hFresh⟩
  | mark hPayment => exact hPayment
  | fresh hFind =>
    have hId := List.find?_some hFind
    rw [decide_eq_true_eq] at hId
    exact hId
  | @lease _ _ refund latest _ stored _ _ _ _ hPayment hFind =>
    have hStored : stored.id = latest.id := by
      have hSel := List.find?_some hFind
      simp only [Bool.and_eq_true, decide_eq_true_eq] at hSel
      exact hSel.1.1
    have hKnows := h.knows _ hPoint refund List.mem_cons_self
    have hClaim := hKnows.eq_of_id _ (refund_of_find? hFind) (hStored.trans hFits)
    exact hPayment.trans (congrArg Claim.paymentId hClaim).symm
  | _ => trivial

theorem World.Knows.perform {claim : Claim} (h : w.Knows claim) (hMove : Move o a w pt pt') :
    (o.perform a w).2.Knows claim := by
  refine ⟨h.sound.mono (o.nextId_le a w), fun s hs hEq => ?_⟩
  rw [o.stakes_perform, Edit.mem_apply] at hs
  rcases hs with ⟨s₀, hs₀, hOn⟩ | hBorn
  · have hClaim := Edit.on_claim hOn
    rw [hClaim] at hEq ⊢
    exact h.eq_of_id s₀ hs₀ hEq
  · obtain ⟨_, -, hOpens⟩ := hMove.born hBorn
    exact absurd (hOpens.id_eq.symm.trans hEq) (Nat.ne_of_gt h.sound.id_lt)

theorem Ordered.consistent_move (h : Ordered w pts) (hPoint : pt ∈ pts) (hMove : Move o a w pt pt') :
    (o.perform a w).2.Consistent := by
  have hMono := o.nextId_le a w
  have hKeys : ∀ s ∈ (o.edit w).born, ∀ s₀ ∈ w.stakes, s₀.claim.key ≠ s.claim.key := by
    intro s hs s₀ hs₀ hKey
    obtain ⟨_, -, hOpens⟩ := hMove.born hs
    obtain ⟨r, hr, rfl⟩ := List.mem_map.mp hs₀
    rw [hOpens.key_eq, (h.consistent.sound _ hs₀).key_eq] at hKey
    injection hKey with hRestaurant hIdempotency
    exact hOpens.keyFree r hr ⟨hRestaurant, hIdempotency⟩
  have hSublist := (o.edit w).claims_sublist w.stakes
  refine ⟨?_, ?_, ?_, ?_, ?_⟩
  · rw [o.stakes_perform, Edit.apply, List.map_append, List.nodup_append]
    refine ⟨?_, ?_, ?_⟩
    · have hIds := hSublist.map Claim.id
      rw [List.map_map, List.map_map] at hIds
      exact hIds.nodup h.consistent.refundIds
    · cases o.edit w <;> simp [Edit.born]
    · intro i hi j hj
      obtain ⟨s, hs, rfl⟩ := List.mem_map.mp hi
      obtain ⟨s', hs', rfl⟩ := List.mem_map.mp hj
      obtain ⟨s₀, hs₀, hOn⟩ := List.mem_filterMap.mp hs
      obtain ⟨_, -, hOpens⟩ := hMove.born hs'
      rw [Edit.on_claim hOn, hOpens.id_eq]
      exact Nat.ne_of_lt (h.consistent.sound _ hs₀).id_lt
  · rw [o.stakes_perform, Edit.apply, List.map_append, List.nodup_append]
    refine ⟨?_, ?_, ?_⟩
    · have hIds := hSublist.map Claim.key
      rw [List.map_map, List.map_map] at hIds
      exact hIds.nodup h.consistent.refundKeys
    · cases o.edit w <;> simp [Edit.born]
    · intro i hi j hj
      obtain ⟨s, hs, rfl⟩ := List.mem_map.mp hi
      obtain ⟨s', hs', rfl⟩ := List.mem_map.mp hj
      obtain ⟨s₀, hs₀, hOn⟩ := List.mem_filterMap.mp hs
      rw [Edit.on_claim hOn]
      exact hKeys s' hs' s₀ hs₀
  · intro s hs
    rw [o.stakes_perform, Edit.mem_apply] at hs
    rcases hs with ⟨s₀, hs₀, hOn⟩ | hBorn
    · rw [Edit.on_claim hOn]
      exact (h.consistent.sound s₀ hs₀).mono hMono
    · obtain ⟨payment, hPaying, hOpens⟩ := hMove.born hBorn
      have hPaymentLt := h.paying pt hPoint payment hPaying
      exact ⟨hOpens.id_eq ▸ o.nextId_born a w hBorn, hOpens.paymentId_eq ▸ hPaymentLt.trans_le hMono,
        hOpens.amount_pos, hOpens.key_eq⟩
  · rw [o.payments_perform a, List.map_append, List.map_map, List.nodup_append]
    have hIds : Payment.id ∘ o.revise w = Payment.id := funext (o.revise_id w)
    refine ⟨by rw [hIds]; exact h.consistent.paymentIds, ?_, ?_⟩
    · have hLength := o.opened_length w
      cases hOpened : o.opened w with
      | nil => exact List.nodup_nil
      | cons p l =>
        cases l with
        | nil => exact List.nodup_singleton _
        | cons p' l => simp [hOpened] at hLength
    · intro i hi j hj
      rw [hIds] at hi
      obtain ⟨p, hp, rfl⟩ := List.mem_map.mp hi
      obtain ⟨p', hp', rfl⟩ := List.mem_map.mp hj
      rw [Op.mem_opened hp']
      exact Nat.ne_of_lt (h.consistent.payment_lt p hp)
  · intro p hp
    rw [o.payments_perform a, List.mem_append, List.mem_map] at hp
    rcases hp with ⟨p₀, hp₀, rfl⟩ | hOpened
    · rw [o.revise_id]
      exact (h.consistent.payment_lt p₀ hp₀).trans_le hMono
    · rw [Op.mem_opened hOpened]
      exact o.nextId_opened a w hOpened

theorem Ordered.knows_move (h : Ordered w pts) (hPoint : pt ∈ pts) (hMove : Move o a w pt pt') :
    ∀ r ∈ pt'.phase.copies, (o.perform a w).2.Knows r.claim := by
  intro r hr
  rcases hMove.copies hr with ⟨r₀, hr₀, hClaim⟩ | ⟨r₀, hr₀, hClaim⟩ | ⟨s, hs, hClaim⟩
  · rw [hClaim]
    exact (h.knows pt hPoint r₀ hr₀).perform hMove
  · rw [hClaim]
    exact (h.consistent.knows_refund hr₀).perform hMove
  · have hStored : s ∈ (o.perform a w).2.stakes := by
      rw [o.stakes_perform, Edit.mem_apply]
      exact .inr hs
    rw [hClaim]
    exact (h.consistent_move hPoint hMove).knows hStored

theorem Ordered.move (h : Ordered w pts) (hPoint : pts[t]? = some pt) (hMove : Move o a w pt pt') :
    Ordered (o.perform a w).2 (pts.set t pt') := by
  have hMem := List.mem_of_getElem? hPoint
  refine ⟨h.consistent_move hMem hMove, ?_, ?_, ?_, ?_⟩
  · intro pu hu r hr
    rcases List.mem_or_eq_of_mem_set hu with hu | rfl
    · exact (h.knows pu hu r hr).perform hMove
    · exact h.knows_move hMem hMove r hr
  · intro pu hu payment hPaying
    refine lt_of_lt_of_le ?_ (o.nextId_le a w)
    rcases List.mem_or_eq_of_mem_set hu with hu | rfl
    · exact h.paying pu hu payment hPaying
    · rcases hMove.paying hPaying with hOld | hRead
      · exact h.paying pt hMem payment hOld
      · exact h.consistent.payment_lt payment hRead
  · intro pu hu
    rcases List.mem_or_eq_of_mem_set hu with hu | rfl
    · exact h.fits pu hu
    · exact h.fits_move hMem hMove
  · -- a claim that the move inserts is newer than every claim a request owns
    have hOld : ∀ {v : Nat} {pv : Point} {id : Id}, pts[v]? = some pv → pv.phase.owner = some id →
        pt'.phase.owner = some id → v = t := by
      intro v pv id hv hOwner hOwner'
      rcases hMove.owner hOwner' with hSame | ⟨s, hs, rfl⟩
      · exact h.owners hv hPoint hOwner hSame
      · obtain ⟨_, -, hOpens⟩ := hMove.born hs
        obtain ⟨r, hr, hEq⟩ := Phase.owner_copies hOwner
        have hLt := (h.knows pv (List.mem_of_getElem? hv) r hr).sound.id_lt
        exact absurd (hEq.trans hOpens.id_eq) (Nat.ne_of_lt hLt)
    intro u v pu pv id hu hv hOwnerU hOwnerV
    rcases Tables.getElem?_set_cases hu with ⟨rfl, rfl⟩ | ⟨-, hOldU⟩
    · rcases Tables.getElem?_set_cases hv with ⟨rfl, -⟩ | ⟨-, hOldV⟩
      · rfl
      · exact (hOld hOldV hOwnerV hOwnerU).symm
    · rcases Tables.getElem?_set_cases hv with ⟨rfl, rfl⟩ | ⟨-, hOldV⟩
      · exact hOld hOldU hOwnerU hOwnerV
      · exact h.owners hOldU hOldV hOwnerU hOwnerV

theorem Move.pending_before {s' : Stake} (h : Move o a w pt pt') (hs' : s' ∈ (o.perform a w).2.stakes)
    (hOld : s'.claim.id ≠ w.nextId) (hPending : s'.status = .pending) :
    ∃ s ∈ w.stakes, s.claim = s'.claim ∧ s.status = .pending ∧ (s.reserved = true → s'.reserved = true) := by
  rw [o.stakes_perform, Edit.mem_apply] at hs'
  rcases hs' with ⟨s, hs, hOn⟩ | hBorn
  · obtain ⟨hWas, hReserved⟩ := Edit.on_pending hOn h.edit_target hPending
    exact ⟨s, hs, (Edit.on_claim hOn).symm, hWas, hReserved⟩
  · obtain ⟨_, -, hOpens⟩ := h.born hBorn
    exact absurd hOpens.id_eq hOld

theorem Move.settled_after {s : Stake} (h : Move o a w pt pt') (hs : s ∈ w.stakes) (hSettled : s.status ≠ .pending) :
    ∃ s' ∈ (o.perform a w).2.stakes, s'.claim = s.claim ∧ s'.status ≠ .pending := by
  obtain ⟨s', hOn, hSettled'⟩ := Edit.on_settled h.edit_target hSettled
  refine ⟨s', ?_, Edit.on_claim hOn, hSettled'⟩
  rw [o.stakes_perform, Edit.mem_apply]
  exact .inl ⟨s, hs, hOn⟩

theorem Move.settled_stored {before : Refund} {target : RefundStatus} (h : Move o a w pt pt') (hPhase : pt'.phase = .settled before target) :
    ∃ s ∈ (o.perform a w).2.stakes, s.claim = before.claim ∧ s.status ≠ .pending := by
  induction h with
  | @settle s _ _ _ current report method _ _ _ _ _ _ _ _ _ hAllowed hFind hRef =>
    cases hPhase
    have hSel := List.find?_some hFind
    simp only [Bool.and_eq_true, decide_eq_true_eq] at hSel
    refine ⟨⟨before.claim, s.target, s.target ≠ .failed⟩, ?_, rfl, refundTransitions_ne_pending hAllowed⟩
    rw [Op.stakes_perform, Op.edit_settle ⟨hFind, hRef⟩, Edit.mem_apply]
    exact .inl ⟨before.stake, refund_of_find? hFind, congrArg some (if_pos hSel)⟩
  | quiet _ hph | setLookup hph =>
    cases hPhase
    cases hph
  | _ => cases hPhase

theorem Move.of_released {call : RefundCall} (h : Move o a w pt pt') (hPhase : pt.phase = .released call) :
    o = .refund (.deleteRefused call.claim) := by
  have hBusy : pt.phase.calm = false := by rw [hPhase]; rfl
  induction h with
  | dropRefused =>
    cases hPhase
    rfl
  | quiet _ hph | rest _ hph | setLookup hph | hear hph | see hph | leaseTaken _ hph | unlease hph | keyTaken hph
  | settleLost hph | pay hph | retrieved hph | cancel hph | charge hph => exact absurd hph (by rw [hBusy]; exact Bool.false_ne_true)
  | byHand hFrom => rcases hFrom with rfl | ⟨rfl, -⟩ <;> cases hPhase
  | _ => cases hPhase

end Moves

theorem Ordered.advance {w : World} {pts : List Point} (h : Ordered w pts) (e : Event) : Ordered (e.advance w) pts := by
  obtain ⟨hStakes, hPayments, hNext⟩ := e.advance_fields w
  have hConsistent : (e.advance w).Consistent := by
    obtain ⟨hIds, hKeys, hSound, hPaymentIds, hPaymentLt⟩ := h.consistent
    exact ⟨by rw [hStakes]; exact hIds, by rw [hStakes]; exact hKeys, by rw [hStakes, hNext]; exact hSound,
      by rw [hPayments]; exact hPaymentIds, by rw [hPayments, hNext]; exact hPaymentLt⟩
  refine ⟨hConsistent, ?_, by rw [hNext]; exact h.paying, h.fits, h.owners⟩
  intro pt hPoint r hr
  obtain ⟨hSound, hEq⟩ := h.knows pt hPoint r hr
  exact ⟨by rw [hNext]; exact hSound, by rw [hStakes]; exact hEq⟩

theorem Ordered.initial {w : World} {pts : List Point} (h : w.Consistent) (hPoints : ∀ pt ∈ pts, pt = {}) :
    Ordered w pts := by
  refine ⟨h, ?_, ?_, ?_, ?_⟩
  · intro pt hpt r hr
    rw [hPoints pt hpt] at hr
    cases hr
  · intro pt hpt payment hPaying
    rw [hPoints pt hpt] at hPaying
    cases hPaying
  · intro pt hpt
    rw [hPoints pt hpt]
    trivial
  · intro t u pt pu id ht hu hOwner
    rw [hPoints pt (List.mem_of_getElem? ht)] at hOwner
    cases hOwner

def World.single (payment : Payment) : World := { nextId := payment.id + 1, payments := [payment] }

theorem World.Consistent.single (payment : Payment) : (World.single payment).Consistent := by
  refine ⟨List.nodup_nil, List.nodup_nil, ?_, List.nodup_singleton _, ?_⟩
  · intro s hs
    cases hs
  · intro p hp
    cases List.mem_singleton.mp hp
    exact Nat.lt_succ_self _

def paidPayment : Payment where
  id := 0
  restaurantId := 1
  orderId := 2
  customerId := 3
  provider := .stripe
  providerRef := some "cs_1"
  currency := "usd"
  amount := 10
  status := .paid
  idempotencyKey := none
  createdAt := 0

def paidRefund : RefundInput where
  restaurantId := 1
  paymentId := 0
  initiatedByUserId := 4
  idempotencyKey := "refund-1"

end RestaurantOs.Payments
