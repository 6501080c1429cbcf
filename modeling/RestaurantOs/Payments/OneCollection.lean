import RestaurantOs.Payments.StatusMoves

/-!
# One collection per order

A unique index lets one of an order's attempts be paid at a time. At most one is
ever collected, as long as none is paid once another has been refunded, and a
refund writes no status over one that has changed since.
-/

namespace RestaurantOs.Payments

open Async Prog

/-! ## The property -/

def OneCollected (payments : List Payment) : Prop :=
  ∀ payment ∈ payments, ∀ other ∈ payments, payment.orderId = other.orderId → payment.status.collected = true →
    other.status.collected = true → payment.id = other.id

instance (payments : List Payment) : Decidable (OneCollected payments) :=
  inferInstanceAs (Decidable (∀ payment ∈ payments, ∀ other ∈ payments, payment.orderId = other.orderId →
    payment.status.collected = true → other.status.collected = true → payment.id = other.id))

def PaymentStatus.refundedSome (status : PaymentStatus) : Bool := status = .partiallyRefunded || status = .refunded

/-- No other payment of its order has a status that `sel` selects. -/
def noneElse (payments : List Payment) (payment : Payment) (sel : PaymentStatus → Bool) : Bool :=
  payments.all fun other => other.orderId ≠ payment.orderId || other.id = payment.id || !sel other.status

/-- A payment is marked paid while no other of its order is refunded, in part or in
full; a refund writes the status of a payment that is still collected, or the only
one of its order that is. -/
def collectsOnce (c : State) : Label Answer Event → Bool
  | .run t _ =>
    match c.waiting? t with
    | some (.payment (.transition payment .paid)) => c.state.payments.all fun stored => stored.id ≠ payment.id ||
        noneElse c.state.payments stored PaymentStatus.refundedSome
    | some (.payment (.setStatus payment _)) => c.state.payments.all fun stored => stored.id ≠ payment.id ||
        stored.status.collected || noneElse c.state.payments stored PaymentStatus.collected
    | _ => true
  | _ => true

/-! ## One step -/

section Step

variable {c c' : State} {t : Nat} {a : Answer} {o : Op} {th : Thread Op Op.Resp Err World Unit}
  {k : Except Err o.Resp → Promise Unit} {p q : Payment}

theorem noneElse_spec {payments : List Payment} {sel : PaymentStatus → Bool} (h : noneElse payments p sel = true) (hq : q ∈ payments)
    (hOrder : q.orderId = p.orderId) (hNe : q.id ≠ p.id) : sel q.status = false := by
  have hOther := List.all_eq_true.mp h q hq
  simpa [hOrder, hNe] using hOther

theorem valid_collected {src dst : PaymentStatus} (h : isValidPaymentTransition src dst = true) (hCollected : dst.collected = true) :
    dst = .paid := by
  obtain ⟨hRefunded, hPartially, -⟩ := isValidPaymentTransition_ne_refunded h
  cases dst <;> first | rfl | exact absurd rfl hRefunded | exact absurd rfl hPartially | cases hCollected

theorem not_paid_of_free {w : World} {payment : Payment} (hIds : (w.payments.map Payment.id).Nodup) (hp : p ∈ w.payments)
    (hId : p.id = payment.id) (hNot : p.status ≠ .paid)
    (hFree : statusBlocked w (fun p => p.id = payment.id && p.status ≠ .paid) .paid = false) (hq : q ∈ w.payments)
    (hOrder : q.orderId = p.orderId) (hNe : q.id ≠ p.id) : q.status ≠ .paid := by
  have hFound : w.payments.find? (fun p => p.id = payment.id && p.status ≠ .paid) = some p := by
    cases hFind : w.payments.find? fun p => p.id = payment.id && p.status ≠ .paid with
    | none => exact absurd (List.find?_eq_none.mp hFind p hp) (by simp [hId, hNot])
    | some stored =>
      have hSel := List.find?_some hFind
      rw [Bool.and_eq_true, decide_eq_true_eq] at hSel
      rw [Tables.eq_of_id hIds (List.mem_of_find?_eq_some hFind) hp (hSel.1.trans hId.symm)]
  simp only [statusBlocked, hFound, decide_true, Bool.true_and, Option.map_some, Option.getD_some] at hFree
  have hOther := List.any_eq_false.mp hFree q hq
  simpa [hNe, hOrder] using hOther

theorem alone_of_newly_collected (hIds : (c.state.payments.map Payment.id).Nodup) (hGuard : collectsOnce c (.run t a) = true)
    (hRan : store.Ran c t a o th k c') (hOk : Watch.ok {} o) (hp : p ∈ c.state.payments) (hWas : p.status.collected = false)
    (hNow : (o.revise c.state p).status.collected = true) (hq : q ∈ c.state.payments) (hOrder : q.orderId = p.orderId)
    (hNe : q.id ≠ p.id) : q.status.collected = false := by
  rcases o.revise_status c.state p with hSame | ⟨payment, next, rfl, hId, hMoved, hFree, hNext⟩ | ⟨payment, next, rfl, hId, hNext⟩
  · rw [hSame, hWas] at hNow
    cases hNow
  · rw [hNext] at hNow
    have hPaid := valid_collected hOk.1 hNow
    subst hPaid
    have hGuard' := hGuard
    simp only [collectsOnce, hRan.waiting?] at hGuard'
    have hStored := List.all_eq_true.mp hGuard' p hp
    simp only [hId, ne_eq, not_true, decide_false, Bool.false_or] at hStored
    have hUnrefunded := noneElse_spec hStored hq hOrder hNe
    have hUnpaid := not_paid_of_free hIds hp hId hMoved hFree hq hOrder hNe
    cases hStatus : q.status <;> rw [hStatus] at hUnrefunded hUnpaid <;>
      first | rfl | exact absurd rfl hUnpaid | cases hUnrefunded
  · have hGuard' := hGuard
    simp only [collectsOnce, hRan.waiting?] at hGuard'
    have hStored := List.all_eq_true.mp hGuard' p hp
    simp only [hId, hWas, ne_eq, not_true, decide_false, Bool.false_or] at hStored
    exact noneElse_spec hStored hq hOrder hNe

theorem status_of_ne {w : World} (hNow : (o.revise w p).status ≠ p.status) (hNe : q.id ≠ p.id) : (o.revise w q).status = q.status := by
  rcases o.revise_status w q with hSame | ⟨payment, next, rfl, hId, -⟩ | ⟨payment, next, rfl, hId, -⟩
  · exact hSame
  · rcases Op.revise_status (.payment (.transition payment next)) w p with hSame | ⟨_, _, hOp, hIdP, -⟩ | ⟨_, _, hOp, -⟩
    · exact absurd hSame hNow
    · cases hOp
      exact absurd (hId.trans hIdP.symm) hNe
    · cases hOp
  · rcases Op.revise_status (.payment (.setStatus payment next)) w p with hSame | ⟨_, _, hOp, -⟩ | ⟨_, _, hOp, hIdP, -⟩
    · exact absurd hSame hNow
    · cases hOp
    · cases hOp
      exact absurd (hId.trans hIdP.symm) hNe

theorem opened_uncollected {w : World} (hOk : Watch.ok {} o) (h : p ∈ o.opened w) : p.status.collected = false := by
  cases o with
  | payment op =>
    cases op with
    | create draft =>
      simp only [Op.opened, PaymentOp.opened] at h
      split at h
      · cases h
      · cases List.mem_singleton.mp h
        exact hOk
    | _ => cases h
  | _ => cases h

theorem OneCollected.ran (h : OneCollected c.state.payments) (hSound : c.state.PaymentsSound)
    (hGuard : collectsOnce c (.run t a) = true) (hRan : store.Ran c t a o th k c') (hOk : Watch.ok {} o) :
    OneCollected c'.state.payments := by
  have hOld : ∀ later ∈ c'.state.payments, later.status.collected = true → ∃ p ∈ c.state.payments, later = o.revise c.state p := by
    intro later hMem hCollected
    rw [hRan.state] at hMem
    rcases mem_perform_payments hMem with hKept | hOpened
    · exact hKept
    · rw [opened_uncollected hOk hOpened] at hCollected
      cases hCollected
  -- a payment that is newly collected is the only one
  have hNew : ∀ p ∈ c.state.payments, ∀ q ∈ c.state.payments, q.orderId = p.orderId → p.status.collected = false →
      (o.revise c.state p).status.collected = true → (o.revise c.state q).status.collected = true → q.id = p.id := by
    intro p hp q hq hOrder hWas hNow hNowQ
    by_contra hNe
    have hAlone := alone_of_newly_collected hSound.ids hGuard hRan hOk hp hWas hNow hq hOrder hNe
    have hMoved : (o.revise c.state p).status ≠ p.status := fun hSame => by
      rw [hSame, hWas] at hNow
      cases hNow
    rw [status_of_ne hMoved hNe, hAlone] at hNowQ
    cases hNowQ
  intro p' hp' q' hq' hOrder hCollectedP hCollectedQ
  obtain ⟨p, hp, rfl⟩ := hOld p' hp' hCollectedP
  obtain ⟨q, hq, rfl⟩ := hOld q' hq' hCollectedQ
  rw [o.revise_orderId, o.revise_orderId] at hOrder
  rw [o.revise_id, o.revise_id]
  cases hWasP : p.status.collected with
  | false => exact (hNew p hp q hq hOrder.symm hWasP hCollectedP hCollectedQ).symm
  | true =>
    cases hWasQ : q.status.collected with
    | false => exact hNew q hq p hp hOrder hWasQ hCollectedQ hCollectedP
    | true => exact h p hp q hq hOrder hWasP hWasQ

end Step

/-! ## Runs -/

/-- While no payment is marked paid beside a refunded one of its order, and refunds
write over statuses that are still collected, an order is collected once. -/
theorem order_collected_once {env : Env} {w₀ : World} {requests : List Request} {c : State} (hSound : w₀.PaymentsSound)
    (hOnce : OneCollected w₀.payments) (h : store.Reach (fun c l => collectsOnce c l) (State.start env w₀ requests) c) :
    OneCollected c.state.payments := by
  induction h with
  | start => exact hOnce
  | @step c c' l hBefore hGuard hStep ih =>
    cases l with
    | run t a =>
      obtain ⟨o, th, k, hRan⟩ := Store.run_cases hStep
      have hOk := (hRan.keeps (rely_of_uncollected rfl (fun _ _ hWatched => by cases hWatched) o a) (reach_unwatched hBefore)).1
      exact ih.ran (reach_paymentsSound hSound hBefore) hGuard hRan hOk
    | stop t =>
      obtain ⟨th, -, rfl⟩ := Store.stop_cases hStep
      exact ih
    | event e =>
      cases hStep
      have hSame : (e.advance c.state).payments = c.state.payments := (e.advance_fields c.state).2.1
      exact hSame.symm ▸ ih

/-! ### A second attempt that is paid once the first is refunded -/

def twoAttempts : World := { openCheckout with
  payments := openCheckout.payments ++ openCheckout.payments.map ({ · with id := 6, providerRef := some "cs_2" }) }

theorem twoAttempts_paymentsSound : twoAttempts.PaymentsSound := ⟨by decide, by decide⟩

theorem twoAttempts_oneCollected : OneCollected twoAttempts.payments := by decide

def paidOn (ref eventId : String) : Answer where
  body := some { stripe := {
    id := some eventId
    type := some "checkout.session.completed"
    object := some { id := some ref, status := some "complete", paymentStatus := some "paid" } } }

def refundMade : Answer := { refund := .ok { refundRef := "re_1", status := .succeeded, providerStatus := none } }

def attemptsRequests : List Request :=
  [.providerWebhook .stripe,
    .refund { restaurantId := 1, paymentId := 5, amount := some 4, initiatedByUserId := 7, idempotencyKey := "k" },
    .providerWebhook .stripe]

/-- The second attempt is paid while the first still is: the index refuses it. -/
theorem twoAttempts_collected_once : ∃ c : State, c.state.payments.map Payment.status = [.partiallyRefunded, .pending] ∧
    OneCollected c.state.payments := by
  obtain ⟨c, hReach, hStatuses⟩ := store.exists_of_exec collectsOnce (State.start {} twoAttempts attemptsRequests)
    (List.flatten [List.replicate 7 (.run 0 (paidOn "cs_1" "evt_1")), List.replicate 4 (.run 2 (paidOn "cs_2" "evt_2")),
      List.replicate 17 (.run 1 refundMade)])
    (fun c : State => decide (c.state.payments.map Payment.status = [.partiallyRefunded, .pending])) (by decide +kernel)
  exact ⟨c, of_decide_eq_true hStatuses, order_collected_once twoAttempts_paymentsSound twoAttempts_oneCollected hReach⟩

/-- A part of the first attempt is refunded before the second is paid. -/
theorem order_collected_twice : ¬ ∀ (env : Env) (w₀ : World) (requests : List Request) (c : State), w₀.PaymentsSound →
    OneCollected w₀.payments → store.Reach (fun _ _ => True) (State.start env w₀ requests) c → OneCollected c.state.payments := by
  intro hClaim
  obtain ⟨c, hReach, hTwice⟩ := store.exists_of_exec (fun _ _ => true) (State.start {} twoAttempts attemptsRequests)
    (List.flatten [List.replicate 7 (.run 0 (paidOn "cs_1" "evt_1")), List.replicate 17 (.run 1 refundMade),
      List.replicate 7 (.run 2 (paidOn "cs_2" "evt_2"))])
    (fun c : State => decide (¬ OneCollected c.state.payments)) (by decide +kernel)
  exact of_decide_eq_true hTwice (hClaim {} twoAttempts attemptsRequests c twoAttempts_paymentsSound twoAttempts_oneCollected
    (hReach.mono fun _ _ _ => trivial))

end RestaurantOs.Payments
