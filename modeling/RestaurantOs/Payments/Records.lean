import RestaurantOs.Payments.Backing

/-!
# What stays in the books

Requests, crashes and the provider's changes come in any order, and only a
claim that is still pending can be withdrawn. Whatever was read from the books
earlier then still bounds what they say later.
-/

namespace RestaurantOs.Payments

open Async

/-- The books of `w`, read again at `w'`. A claim in flight may have been
withdrawn; nothing else is gone, and no identity is given again. -/
structure World.Kept (w w' : World) : Prop where
  nextId_le : w.nextId ≤ w'.nextId
  same : ∀ s ∈ w.stakes, ∀ s' ∈ w'.stakes, s'.claim.id = s.claim.id → s'.claim = s.claim ∧
    Relation.ReflTransGen (fun source target => target ∈ refundTransitions source) s.status s'.status
  settled : ∀ s ∈ w.stakes, s.status ≠ .pending → ∃ s' ∈ w'.stakes, s'.claim = s.claim
  payments : ∀ p ∈ w.payments, ∃ p' ∈ w'.payments, p'.id = p.id ∧ p'.amount = p.amount ∧
    p'.orderId = p.orderId ∧ p'.providerRef = p.providerRef

section Moves

variable {o : Op} {a : Answer} {w₀ w : World} {pt pt' : Point} {pts : List Point} {s s' : Stake}

theorem settled_of_moves {source target : RefundStatus} (hSettled : source ≠ .pending)
    (h : Relation.ReflTransGen (fun source target => target ∈ refundTransitions source) source target) :
    target ≠ .pending := by
  cases h with
  | refl => exact hSettled
  | tail _ hLast => exact refundTransitions_ne_pending hLast

theorem Move.status_after (h : Move o a w pt pt') (hOn : (o.edit w).on s = some s') :
    s'.status = s.status ∨ s'.status ∈ refundTransitions s.status := by
  have hEdits := h.edits
  generalize o.edit w = e at hEdits hOn
  generalize pt.phase = ph at hEdits
  generalize pt'.phase = ph' at hEdits
  cases hEdits with
  | settle _ _ _ _ _ hAllowed =>
    cases hOn
    split
    · rename_i hSel
      exact .inr (hSel.2 ▸ hAllowed)
    · exact .inl rfl
  | mark =>
    cases hOn
    split <;> exact .inl rfl
  | keep | claim =>
    cases hOn
    exact .inl rfl
  | dropUnreserved | dropRefused =>
    simp only [Edit.on] at hOn
    split at hOn
    · cases hOn
    · cases hOn
      exact .inl rfl

theorem World.Kept.refl (h : w.Consistent) : w.Kept w := by
  refine ⟨le_refl _, ?_, fun s hs _ => ⟨s, hs, rfl⟩, fun p hp => ⟨p, hp, rfl, rfl, rfl, rfl⟩⟩
  intro s hs s' hs' hId
  rw [Tables.eq_of_id h.refundIds hs' hs hId]
  exact ⟨rfl, .refl⟩

theorem World.Kept.move (h : w₀.Kept w) (hSound : ∀ s ∈ w₀.stakes, s.claim.id < w₀.nextId) (hMove : Move o a w pt pt') :
    w₀.Kept (o.perform a w).2 := by
  refine ⟨h.nextId_le.trans (o.nextId_le a w), ?_, ?_, ?_⟩
  · intro s hs s' hs' hId
    rw [o.stakes_perform, Edit.mem_apply] at hs'
    rcases hs' with ⟨s₁, hs₁, hOn⟩ | hBorn
    · have hClaim := Edit.on_claim hOn
      obtain ⟨hSame, hMoves⟩ := h.same s hs s₁ hs₁ (by rw [← hClaim]; exact hId)
      refine ⟨hClaim.trans hSame, ?_⟩
      rcases hMove.status_after hOn with hStatus | hNext
      · rw [hStatus]
        exact hMoves
      · exact hMoves.tail hNext
    · -- a refund that the move inserts is newer than all of the earlier books
      obtain ⟨_, -, hOpens⟩ := hMove.born hBorn
      exact absurd (hOpens.id_eq.symm.trans hId) (Nat.ne_of_gt ((hSound s hs).trans_le h.nextId_le))
  · intro s hs hSettled
    obtain ⟨s₁, hs₁, hSame⟩ := h.settled s hs hSettled
    obtain ⟨-, hMoves⟩ := h.same s hs s₁ hs₁ (congrArg Claim.id hSame)
    obtain ⟨s', hs', hClaim, -⟩ := hMove.settled_after hs₁ (settled_of_moves hSettled hMoves)
    exact ⟨s', hs', hClaim.trans hSame⟩
  · intro p hp
    obtain ⟨p₁, hp₁, hId, hAmount, hOrder, hRef⟩ := h.payments p hp
    refine ⟨o.revise w p₁, ?_, (o.revise_id w p₁).trans hId, (o.revise_amount w p₁).trans hAmount,
      (o.revise_orderId w p₁).trans hOrder, (o.revise_providerRef w p₁).trans hRef⟩
    rw [o.payments_perform]
    exact List.mem_append_left _ (List.mem_map_of_mem hp₁)

theorem World.Kept.event (h : w₀.Kept w) (e : Event) : w₀.Kept (e.advance w) := by
  obtain ⟨hStakes, hPayments, hNext⟩ := e.advance_fields w
  exact ⟨by rw [hNext]; exact h.nextId_le, by rw [hStakes]; exact h.same, by rw [hStakes]; exact h.settled,
    by rw [hPayments]; exact h.payments⟩

end Moves

/-- Between any two moments of a run, a settled refund stays, its terms are the
same, its status went along the table, and every payment is still there. -/
theorem books_kept {env : Env} {w : World} {requests : List Request} {c c' : State} (hConsistent : w.Consistent)
    (h : store.Reach (fun _ _ => True) (State.start env w requests) c) (hLater : store.Reach (fun _ _ => True) c c') :
    c.state.Kept c'.state := by
  have hPoints : ∀ pt ∈ requests.map fun _ => ({} : Point), pt = {} := by
    intro pt hpt
    obtain ⟨_, -, rfl⟩ := List.mem_map.mp hpt
    rfl
  have hTracks : Tracks store protocol (requests.map fun _ => {}) (State.start env w requests) (requests.map fun _ => {}) :=
    Tracks.initial fun r _ => Request.program_follows env r
  obtain ⟨pts, hT, hOrdered⟩ := hTracks.invariant (I := fun c (pts : List Point) => Ordered c.state pts) (Ordered.initial hConsistent hPoints)
    (fun _ hI _ hRan hPoint hMove _ => by rw [hRan.state]; exact hI.move hPoint hMove)
    (fun _ hI _ _ => hI) (fun _ hI _ => hI.advance _) h
  obtain ⟨_, -, hKept⟩ := hT.invariant (I := fun c' _ => c.state.Kept c'.state) (.refl hOrdered.consistent)
    (fun _ hI _ hRan _ hMove _ => by
      rw [hRan.state]
      exact hI.move (fun s hs => (hOrdered.consistent.sound s hs).id_lt) hMove)
    (fun _ hI _ _ => hI) (fun _ hI _ => hI.event _) hLater
  exact hKept

def settledSteps : List (Label Answer Event) :=
  List.replicate 7 (.run 0 {}) ++
    .run 0 { refund := .ok { refundRef := "re_1", status := .succeeded } } :: List.replicate 5 (.run 0 {})

theorem books_kept_refund : ∃ c c' : State, (∃ s ∈ c.state.stakes, s.status = .succeeded) ∧ c'.Quiet ∧ c.state.Kept c'.state := by
  obtain ⟨c, hReach, hSettled⟩ := store.exists_of_exec (fun _ _ => true) (State.start {} (.single paidPayment) [.refund paidRefund])
    settledSteps (fun c => c.state.stakes.any (·.status = .succeeded) &&
      (store.exec (fun _ _ => true) (List.replicate 3 (.run 0 {})) c).any (·.Quiet)) (by decide +kernel)
  simp only [Bool.and_eq_true, List.any_eq_true, decide_eq_true_eq] at hSettled
  obtain ⟨c', hLater, hQuiet⟩ := store.exists_of_exec (fun _ _ => true) c (List.replicate 3 (.run 0 {})) (·.Quiet) hSettled.2
  exact ⟨c, c', hSettled.1, of_decide_eq_true hQuiet,
    books_kept (.single paidPayment) (hReach.mono fun _ _ _ => trivial) (hLater.mono fun _ _ _ => trivial)⟩

/-! ## The provider's books -/

/-- What the provider made, or was asked for and may still make, is the one
refund of its key in the books, of the same payment and amount. -/
structure World.Accounted (w : World) : Prop where
  keys : (w.refunds.map (·.refundKey)).Nodup
  once : (w.ledger.map (·.key)).Nodup
  made : ∀ e ∈ w.ledger, ∃ r ∈ w.refunds, r.refundKey = e.key ∧ r.paymentId = e.paymentId ∧ r.amount = e.amount
  asked : ∀ q ∈ w.received, ∃ r ∈ w.refunds, r.refundKey = q.key ∧ r.paymentId = q.paymentId ∧ r.amount = q.amount

end RestaurantOs.Payments
