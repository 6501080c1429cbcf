import RestaurantOs.Payments.Book
import RestaurantOs.Payments.StatusWrites

/-!
# The payment state machine

Every change of a payment's stored status is one that the state machine allows, or
one among the statuses of a collected payment, as long as a status is written over
the one that was read, or over one that it may follow too.
-/

namespace RestaurantOs.Payments

open Async Prog

/-! ## The property -/

def Moves (src dst : PaymentStatus) : Prop :=
  dst = src ∨ isValidPaymentTransition src dst = true ∨ src.collected = true ∧ dst.collected = true

structure Settles (src dst : PaymentStatus) : Prop where
  final : src = .failed ∨ src = .cancelled → dst = src
  collected : src.collected = true → dst.collected = true

/-- The status of every payment in `w` has moved to the one in `w'` as `R` allows. -/
def World.Each (R : PaymentStatus → PaymentStatus → Prop) (w w' : World) : Prop :=
  ∀ payment ∈ w.payments, ∀ later ∈ w'.payments, later.id = payment.id → R payment.status later.status

structure World.PaymentsSound (w : World) : Prop where
  ids : (w.payments.map Payment.id).Nodup
  fresh : ∀ payment ∈ w.payments, payment.id < w.nextId

/-- A transition finds the status that its copy has, its own, or one that it may
follow too. -/
def transitionsInPlace (c : State) : Label Answer Event → Bool
  | .run t _ =>
    match c.waiting? t with
    | some (.payment (.transition payment next)) => c.state.payments.all fun stored => !(stored.id = payment.id) ||
        (stored.status = payment.status || stored.status = next || isValidPaymentTransition stored.status next)
    | _ => true
  | _ => true

/-! ## Statuses -/

section Statuses

variable {src dst last : PaymentStatus}

theorem collected_not_valid (h : src.collected = true) : isValidPaymentTransition src dst = false := by
  cases src <;> first | rfl | cases h

theorem Moves.settles (h : Moves src dst) : Settles src dst := by
  rcases h with rfl | hValid | ⟨hSrc, hDst⟩
  · exact ⟨fun _ => rfl, id⟩
  · refine ⟨?_, fun hCollected => ?_⟩
    · rintro (rfl | rfl) <;> cases hValid
    · rw [collected_not_valid hCollected] at hValid
      cases hValid
  · refine ⟨?_, fun _ => hDst⟩
    rintro (rfl | rfl) <;> cases hSrc

theorem Settles.refl : Settles src src := ⟨fun _ => rfl, id⟩

theorem Settles.trans (h : Settles src dst) (h' : Settles dst last) : Settles src last := by
  refine ⟨fun hFinal => ?_, fun hCollected => h'.collected (h.collected hCollected)⟩
  have hSame := h.final hFinal
  exact (h'.final (hSame ▸ hFinal)).trans hSame

end Statuses

/-! ## What an operation does to a status -/

section Operations

variable {o : Op} {a : Answer} {w : World} {p : Payment}

theorem Op.revise_status (o : Op) (w : World) (p : Payment) : (o.revise w p).status = p.status ∨
    (∃ payment next, o = .payment (.transition payment next) ∧ p.id = payment.id ∧ p.status ≠ next ∧
      statusBlocked w (fun p => p.id = payment.id && p.status ≠ next) next = false ∧ (o.revise w p).status = next) ∨
      ∃ payment next, o = .payment (.setStatus payment next) ∧ p.id = payment.id ∧ (o.revise w p).status = next := by
  cases o with
  | payment op =>
    cases op with
    | reserve | release | count | giveBack =>
      refine .inl ?_
      simp only [Op.revise, PaymentOp.revise]
      split <;> rfl
    | transition payment next =>
      simp only [Op.revise, PaymentOp.revise]
      split
      · rename_i hSel
        rw [Bool.and_eq_true, Bool.and_eq_true, decide_eq_true_eq, decide_eq_true_eq, Bool.not_eq_true'] at hSel
        exact .inr (.inl ⟨payment, next, rfl, hSel.1.1, hSel.1.2, hSel.2, rfl⟩)
      · exact .inl rfl
    | setStatus payment next =>
      simp only [Op.revise, PaymentOp.revise]
      split
      · rename_i hSel
        rw [Bool.and_eq_true, decide_eq_true_eq] at hSel
        exact .inr (.inr ⟨payment, next, rfl, hSel.1, rfl⟩)
      · exact .inl rfl
    | _ => exact .inl rfl
  | _ => exact .inl rfl

theorem mem_perform_payments {later : Payment} (h : later ∈ (o.perform a w).2.payments) :
    (∃ p ∈ w.payments, later = o.revise w p) ∨ later ∈ o.opened w := by
  rw [o.payments_perform a, List.mem_append, List.mem_map] at h
  exact h.imp_left fun ⟨p, hp, hEq⟩ => ⟨p, hp, hEq.symm⟩

theorem revise_mem_perform (h : p ∈ w.payments) : o.revise w p ∈ (o.perform a w).2.payments := by
  rw [o.payments_perform a]
  exact List.mem_append_left _ (List.mem_map_of_mem h)

theorem World.PaymentsSound.perform (h : w.PaymentsSound) (o : Op) (a : Answer) : (o.perform a w).2.PaymentsSound := by
  have hIds : Payment.id ∘ o.revise w = Payment.id := funext (o.revise_id w)
  refine ⟨?_, fun later hMem => ?_⟩
  · rw [o.payments_perform a, List.map_append, List.map_map, List.nodup_append, hIds]
    refine ⟨h.ids, ?_, fun i hi j hj => ?_⟩
    · have hLength := o.opened_length w
      cases hOpened : o.opened w with
      | nil => exact List.nodup_nil
      | cons p l =>
        cases l with
        | nil => exact List.nodup_singleton _
        | cons p' l => simp [hOpened] at hLength
    · obtain ⟨p, hp, rfl⟩ := List.mem_map.mp hi
      obtain ⟨p', hp', rfl⟩ := List.mem_map.mp hj
      rw [Op.mem_opened hp']
      exact Nat.ne_of_lt (h.fresh p hp)
  · rcases mem_perform_payments hMem with ⟨p, hp, rfl⟩ | hOpened
    · rw [o.revise_id]
      exact Nat.lt_of_lt_of_le (h.fresh p hp) (o.nextId_le a w)
    · rw [Op.mem_opened hOpened]
      exact o.nextId_opened a w hOpened

end Operations

/-! ## Runs -/

section Run

variable {env : Env} {w₀ : World} {requests : List Request} {c c' : State}
  {guard : State → Label Answer Event → Prop}

theorem rely_of_uncollected {w : World} {f : Watch} (hSession : f.session = none) (h : ∀ p ∈ w.payments, f.payment p) (o : Op)
    (a : Answer) : f.rely o (o.perform a w).1 := by
  have hNone : ∀ session, f.session ≠ some session := fun session hSome => by
    rw [hSession] at hSome
    cases hSome
  refine Watch.rely_of_stored h (fun _ _ session hSome => absurd hSome (hNone session)) ?_
  cases o with
  | receive => exact fun _ _ session hSome => absurd hSome (hNone session)
  | provider op =>
    cases op with
    | retrieve provider providerRef => exact fun _ _ _ session hSome => absurd hSome (hNone session)
    | _ => trivial
  | _ => trivial

theorem reach_unwatched (h : store.Reach guard (State.start env w₀ requests) c) :
    c.Keeps (Watch.rely {}) (Watch.ok {}) := by
  refine ((State.start_safe env {} w₀ requests).invariant (I := fun _ => True) trivial ?_ (fun _ _ _ _ => trivial)
    (fun _ _ _ => trivial) h).2
  exact fun w o a _ => rely_of_uncollected rfl (fun _ _ hWatched => by cases hWatched) o a

theorem reach_paymentsSound (hSound : w₀.PaymentsSound) (h : store.Reach guard (State.start env w₀ requests) c) :
    c.state.PaymentsSound := by
  refine h.invariant (I := fun c => c.state.PaymentsSound) hSound ?_
  intro c l c' hOld _ hStep
  cases l with
  | run t a =>
    obtain ⟨o, th, k, hRan⟩ := Store.run_cases hStep
    rw [hRan.state]
    exact hOld.perform o a
  | stop t =>
    obtain ⟨th, -, rfl⟩ := Store.stop_cases hStep
    exact hOld
  | event e =>
    cases hStep
    obtain ⟨-, hPayments, hNext⟩ := e.advance_fields c.state
    exact ⟨hPayments ▸ hOld.ids, fun p hp => hNext ▸ hOld.fresh p (hPayments ▸ hp)⟩

theorem moves_of_ran {t : Nat} {a : Answer} {o : Op} {th : Thread Op Op.Resp Err World Unit} {k : Except Err o.Resp → Promise Unit}
    (hGuard : transitionsInPlace c (.run t a) = true) (hRan : store.Ran c t a o th k c') (hOk : Watch.ok {} o) {p : Payment}
    (hp : p ∈ c.state.payments)
    (hCollected : ∀ payment next, o = .payment (.setStatus payment next) → p.id = payment.id → p.status.collected = true) :
    Moves p.status (o.revise c.state p).status := by
  rcases o.revise_status c.state p with hSame | ⟨payment, next, rfl, hId, hNe, -, hNext⟩ | ⟨payment, next, rfl, hId, hNext⟩
  · exact .inl hSame
  · rw [hNext]
    have hAll : (c.state.payments.all fun stored => !(stored.id = payment.id) ||
        (stored.status = payment.status || stored.status = next || isValidPaymentTransition stored.status next)) = true := by
      simpa only [transitionsInPlace, hRan.waiting?] using hGuard
    have hStored := List.all_eq_true.mp hAll p hp
    simp only [hId, decide_true, Bool.not_true, Bool.false_or, Bool.or_eq_true, decide_eq_true_eq] at hStored
    rcases hStored with (hCopy | hThere) | hValid
    · exact .inr (.inl (hCopy ▸ hOk.1))
    · exact absurd hThere hNe
    · exact .inr (.inl hValid)
  · rw [hNext]
    exact .inr (.inr ⟨hCollected payment next rfl hId, hOk.2.1⟩)

theorem reach_uncollected (h : store.Reach (fun c l => transitionsInPlace c l) (State.start env w₀ requests) c) (id : Id)
    (hUncollected : ∀ p ∈ c.state.payments, p.id = id → p.status.collected = false) :
    c.Keeps (Watch.rely { id := some id }) (Watch.ok { id := some id }) := by
  induction h with
  | start => exact State.start_safe env _ w₀ requests
  | @step c c' l hBefore hGuard hStep ih =>
    cases l with
    | run t a =>
      obtain ⟨o, th, k, hRan⟩ := Store.run_cases hStep
      have hWas : ∀ p ∈ c.state.payments, p.id = id → p.status.collected = false := by
        intro p hp hId
        rw [← Bool.not_eq_true]
        intro hCollected
        have hOk := (hRan.keeps (rely_of_uncollected rfl (fun _ _ hWatched => by cases hWatched) o a) (reach_unwatched hBefore)).1
        have hMoves := moves_of_ran hGuard hRan hOk hp fun _ _ _ _ => hCollected
        have hAfter : o.revise c.state p ∈ c'.state.payments := hRan.state ▸ revise_mem_perform hp
        have hNot := hUncollected _ hAfter ((o.revise_id c.state p).trans hId)
        rw [hMoves.settles.collected hCollected] at hNot
        cases hNot
      have hRely : Watch.rely { id := some id } o (store.perform o a c.state).1 :=
        rely_of_uncollected rfl (fun p hp hWatched => ⟨hWas p hp (Option.some.inj hWatched).symm, fun _ hSome => by cases hSome⟩) o a
      exact (hRan.keeps hRely (ih hWas)).2
    | stop t =>
      obtain ⟨th, hThread, rfl⟩ := Store.stop_cases hStep
      intro thU hU
      rcases List.mem_or_eq_of_mem_set hU with hU | rfl
      · exact ih hUncollected thU hU
      · exact ih hUncollected th (List.mem_of_getElem? hThread)
    | event e =>
      cases hStep
      have hSame : (e.advance c.state).payments = c.state.payments := (e.advance_fields c.state).2.1
      exact ih fun p hp => hUncollected p (hSame.symm ▸ hp)

theorem step_moves (hSound : w₀.PaymentsSound)
    (h : store.Reach (fun c l => transitionsInPlace c l) (State.start env w₀ requests) c) {l : Label Answer Event}
    (hGuard : transitionsInPlace c l = true) (hStep : store.step l c = some c') :
    ∀ p ∈ c.state.payments, ∃ later ∈ c'.state.payments, later.id = p.id ∧ Moves p.status later.status := by
  intro p hp
  cases l with
  | run t a =>
    obtain ⟨o, th, k, hRan⟩ := Store.run_cases hStep
    refine ⟨o.revise c.state p, hRan.state ▸ revise_mem_perform hp, o.revise_id c.state p, ?_⟩
    have hOk := (hRan.keeps (rely_of_uncollected rfl (fun _ _ hWatched => by cases hWatched) o a) (reach_unwatched h)).1
    refine moves_of_ran hGuard hRan hOk hp fun payment next hSet hId => ?_
    by_contra hNot
    -- the copy that the refund read was of this payment, which was uncollected then
    have hUncollected : ∀ q ∈ c.state.payments, q.id = p.id → q.status.collected = false := by
      intro q hq hSame
      rw [Tables.eq_of_id (reach_paymentsSound hSound h).ids hq hp hSame]
      exact Bool.eq_false_of_not_eq_true hNot
    have hRely : Watch.rely { id := some p.id } o (store.perform o a c.state).1 :=
      rely_of_uncollected rfl (fun q hq hWatched =>
        ⟨hUncollected q hq (Option.some.inj hWatched).symm, fun _ hSome => by cases hSome⟩) o a
    have hWatched := (hRan.keeps hRely (reach_uncollected h p.id hUncollected)).1
    subst hSet
    exact hWatched.2.2 (congrArg some hId)
  | stop t =>
    obtain ⟨th, -, rfl⟩ := Store.stop_cases hStep
    exact ⟨p, hp, rfl, .inl rfl⟩
  | event e =>
    cases hStep
    exact ⟨p, (e.advance_fields c.state).2.1.symm ▸ hp, rfl, .inl rfl⟩

theorem step_each (hSound : w₀.PaymentsSound)
    (h : store.Reach (fun c l => transitionsInPlace c l) (State.start env w₀ requests) c) {l : Label Answer Event}
    (hGuard : transitionsInPlace c l = true) (hStep : store.step l c = some c') : World.Each Moves c.state c'.state := by
  intro p hp later hMem hId
  obtain ⟨kept, hKept, hKeptId, hMoves⟩ := step_moves hSound h hGuard hStep p hp
  have hIds := (reach_paymentsSound hSound (h.step hGuard hStep)).ids
  rw [Tables.eq_of_id hIds hMem hKept (hId.trans hKeptId.symm)]
  exact hMoves

theorem run_settles (hSound : w₀.PaymentsSound)
    (h : store.Reach (fun c l => transitionsInPlace c l) (State.start env w₀ requests) c)
    (hLater : store.Reach (fun c l => transitionsInPlace c l) c c') :
    ∀ p ∈ c.state.payments, ∃ later ∈ c'.state.payments, later.id = p.id ∧ Settles p.status later.status := by
  induction hLater with
  | start => exact fun p hp => ⟨p, hp, rfl, .refl⟩
  | step hMiddle hGuard hStep ih =>
    intro p hp
    obtain ⟨q, hq, hId, hSettles⟩ := ih p hp
    obtain ⟨later, hMem, hLaterId, hMoves⟩ := step_moves hSound (h.trans hMiddle) hGuard hStep q hq
    exact ⟨later, hMem, hLaterId.trans hId, hSettles.trans hMoves.settles⟩

/-- While every transition finds the status that was read, or one that it may
follow too, a payment's status moves along the state machine, and what failed, was
cancelled or was collected stays so. -/
theorem payment_moves_along (hSound : w₀.PaymentsSound)
    (h : store.Reach (fun c l => transitionsInPlace c l) (State.start env w₀ requests) c) :
    (∀ l c', transitionsInPlace c l = true → store.step l c = some c' → World.Each Moves c.state c'.state) ∧
      ∀ c', store.Reach (fun c l => transitionsInPlace c l) c c' → World.Each Settles c.state c'.state := by
  refine ⟨fun l c' => step_each hSound h, fun c' hLater p hp later hMem hId => ?_⟩
  obtain ⟨kept, hKept, hKeptId, hSettles⟩ := run_settles hSound h hLater p hp
  have hIds := (reach_paymentsSound hSound (h.trans hLater)).ids
  rw [Tables.eq_of_id hIds hMem hKept (hId.trans hKeptId.symm)]
  exact hSettles

end Run

/-! ### A payment that is paid while its cancellation is on the way -/

def openCheckout : World where
  nextId := 9
  orders := [{ id := 2, restaurantId := 1, customerId := 3, orderNumber := "A-1", paymentMethod := .online, total := 10, currency := "usd" }]
  payments := [{
    id := 5
    restaurantId := 1
    orderId := 2
    customerId := 3
    method := .online
    provider := .stripe
    providerRef := some "cs_1"
    currency := "usd"
    amount := 10
    idempotencyKey := none
    createdAt := 0 }]

theorem openCheckout_paymentsSound : openCheckout.PaymentsSound := ⟨by decide, by decide⟩

def sessionBody (eventId eventType status : String) (paymentStatus : Option String) : WebhookBody where
  stripe := { id := some eventId, type := some eventType, object := some { id := some "cs_1", status := some status, paymentStatus } }

def paidDelivery : Answer := { body := some (sessionBody "evt_1" "checkout.session.completed" "complete" (some "paid")) }

def expiredDelivery : Answer := { body := some (sessionBody "evt_2" "checkout.session.expired" "expired" (some "unpaid")) }

theorem openCheckout_moves_along : ∃ c : State, c.state.payments.map Payment.status = [.paid] ∧
    ((∀ l c', transitionsInPlace c l = true → store.step l c = some c' → World.Each Moves c.state c'.state) ∧
      ∀ c', store.Reach (fun c l => transitionsInPlace c l) c c' → World.Each Settles c.state c'.state) := by
  obtain ⟨c, hReach, hPaid⟩ := store.exists_of_exec transitionsInPlace
    (State.start {} openCheckout [.providerWebhook .stripe, .providerWebhook .stripe])
    (List.flatten [List.replicate 7 (.run 0 paidDelivery), List.replicate 4 (.run 1 expiredDelivery)])
    (fun c : State => decide (c.state.payments.map Payment.status = [.paid])) (by decide +kernel)
  exact ⟨c, of_decide_eq_true hPaid, payment_moves_along openCheckout_paymentsSound hReach⟩

/-- The session's expiry is decided on the copy that was read before it was paid. -/
theorem paid_payment_cancelled : ¬ ∀ (env : Env) (w₀ : World) (requests : List Request) (c : State), w₀.PaymentsSound →
    store.Reach (fun _ _ => True) (State.start env w₀ requests) c →
      (∀ l c', store.step l c = some c' → World.Each Moves c.state c'.state) ∧
        ∀ c', store.Reach (fun _ _ => True) c c' → World.Each Settles c.state c'.state := by
  intro hClaim
  obtain ⟨c, hReach, hThen⟩ := store.exists_of_exec (fun _ _ => true)
    (State.start {} openCheckout [.providerWebhook .stripe, .providerWebhook .stripe])
    (List.flatten [List.replicate 3 (.run 1 expiredDelivery), List.replicate 7 (.run 0 paidDelivery)])
    (fun c : State => decide (c.state.payments.map (fun p => (p.id, p.status)) = [(5, .paid)]) &&
      (store.exec (fun _ _ => true) [.run 1 expiredDelivery] c).any fun c' : State =>
        decide (c'.state.payments.map (fun p => (p.id, p.status)) = [(5, .cancelled)])) (by decide +kernel)
  rw [Bool.and_eq_true, decide_eq_true_eq] at hThen
  obtain ⟨c', hLater, hCancelled⟩ := store.exists_of_exec (fun _ _ => true) c [.run 1 expiredDelivery]
    (fun c' : State => decide (c'.state.payments.map (fun p => (p.id, p.status)) = [(5, .cancelled)])) hThen.2
  have hSettles := (hClaim {} openCheckout [.providerWebhook .stripe, .providerWebhook .stripe] c openCheckout_paymentsSound
    (hReach.mono fun _ _ _ => trivial)).2 c' (hLater.mono fun _ _ _ => trivial)
  obtain ⟨p, hp, hPaid⟩ := List.mem_map.mp (hThen.1 ▸ List.mem_singleton_self _ : ((5 : Id), PaymentStatus.paid) ∈
    c.state.payments.map fun p => (p.id, p.status))
  obtain ⟨later, hMem, hAfter⟩ := List.mem_map.mp (of_decide_eq_true hCancelled ▸ List.mem_singleton_self _ :
    ((5 : Id), PaymentStatus.cancelled) ∈ c'.state.payments.map fun p => (p.id, p.status))
  obtain ⟨hId, hStatus⟩ := Prod.mk.inj hPaid
  obtain ⟨hIdLater, hStatusLater⟩ := Prod.mk.inj hAfter
  have hStill := (hSettles p hp later hMem (hIdLater.trans hId.symm)).collected (congrArg PaymentStatus.collected hStatus)
  rw [hStatusLater] at hStill
  cases hStill

end RestaurantOs.Payments
