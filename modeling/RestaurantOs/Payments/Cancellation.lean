import RestaurantOs.Payments.OrderHistory

/-!
# Cancelled orders

A request that starts once an order is cancelled opens no payment for it, and
records it as paid only by confirming an attempt from before.
-/

namespace RestaurantOs.Payments

open Async Prog

def World.isCancelled (w : World) (id : Id) : Bool := w.orders.any fun order => order.id = id && order.status = .cancelled

def World.isPaid (w : World) (id : Id) : Bool := w.orders.any fun order => order.id = id && order.paid

def World.hasAttempt (w : World) (orderId id : Id) : Prop := ∃ p ∈ w.payments, p.orderId = orderId ∧ p.id = id

def Config.origin (c : State) (t : Nat) : World := (c.threads[t]?.bind Thread.born).getD c.state

/-- No request that starts on a cancelled order asks for an intent, none that
started before inserts its payment, and no save lands on the order. -/
def sparesCancelled (c : State) : Label Answer Event → Bool
  | .run t _ =>
    match c.waiting? t with
    | some (.provider (.createIntent _ order _ _)) => !(Config.origin c t).isCancelled order.id
    | some (.payment (.create draft)) => !c.state.isCancelled draft.orderId || (Config.origin c t).isCancelled draft.orderId
    | some (.order (.save copy _)) => !c.state.isCancelled copy.id
    | _ => true
  | _ => true

/-- Since `w₀` the order has been cancelled, and no attempt was added. -/
structure World.Closed (w₀ : World) (id : Id) (w : World) : Prop where
  cancelled : w.isCancelled id = true
  attempts : ∀ p ∈ w.payments, p.orderId = id → w₀.hasAttempt id p.id

theorem World.Closed.refl {w : World} {id : Id} (h : w.isCancelled id = true) : w.Closed id w :=
  ⟨h, fun p hp hOrder => ⟨p, hp, hOrder, rfl⟩⟩

def closedFacts (types : Id → OrderType) (w₀ : World) (id : Id) : Facts where
  cancelled := (· = id)
  attempt := w₀.hasAttempt id
  orderType := types

/-- Every request, told the facts about an order that was cancelled when it
started, keeps to them. -/
structure Heeding (types : Id → OrderType) (c : State) : Prop where
  ids : (c.state.orders.map Order.id).Nodup
  typed : ∀ order ∈ c.state.orders, order.orderType = types order.id
  unborn : ∀ (t : Nat) (th : Thread Op Op.Resp Err World Unit), c.threads[t]? = some th → th.born = none → ∀ f : Facts,
    th.prog.Keeps f.rely f.ok (fun _ => True) fun _ => True
  born : ∀ (t : Nat) (th : Thread Op Op.Resp Err World Unit) (w₀ : World) (id : Id), c.threads[t]? = some th →
    th.born = some w₀ → w₀.isCancelled id = true → w₀.Closed id c.state ∧
      th.prog.Keeps (closedFacts types w₀ id).rely (closedFacts types w₀ id).ok (fun _ => True) fun _ => True

section Steps

variable {types : Id → OrderType} {c c' : State} {t : Nat} {a : Answer} {o : Op}
  {th : Thread Op Op.Resp Err World Unit} {k : Except Err o.Resp → Promise Unit} {w₀ w : World} {id : Id}

theorem World.isCancelled_eq {order : Order} (hIds : (w.orders.map Order.id).Nodup) (h : w.isCancelled id = true)
    (hMem : order ∈ w.orders) (hId : order.id = id) : order.status = .cancelled := by
  obtain ⟨stored, hStored, hSel⟩ := List.any_eq_true.mp h
  simp only [Bool.and_eq_true, decide_eq_true_eq] at hSel
  have hEq : stored = order := Tables.eq_of_id hIds hStored hMem (hSel.1.trans hId.symm)
  rw [← hEq]
  exact hSel.2

theorem Config.origin_of_ran (hRan : store.Ran c t a o th k c') : Config.origin c t = th.born.getD c.state := by
  rw [Config.origin, hRan.thread, Option.bind_some]

theorem Heeding.self (h : Heeding types c) (hRan : store.Ran c t a o th k c')
    (hCancelled : (Config.origin c t).isCancelled id = true) : (Config.origin c t).Closed id c.state ∧
      th.prog.Keeps (closedFacts types (Config.origin c t) id).rely (closedFacts types (Config.origin c t) id).ok
        (fun _ => True) fun _ => True := by
  rw [Config.origin_of_ran hRan] at hCancelled ⊢
  cases hBorn : th.born with
  | none =>
    rw [hBorn] at hCancelled
    exact ⟨.refl hCancelled, h.unborn t th hRan.thread hBorn _⟩
  | some w₀ =>
    rw [hBorn] at hCancelled
    exact h.born t th w₀ id hRan.thread hBorn hCancelled

theorem Heeding.hold (h : Heeding types c) (hClosed : w₀.Closed id c.state) : (closedFacts types w₀ id).Hold c.state :=
  ⟨fun order hMem => ⟨fun hId => World.isCancelled_eq h.ids hClosed.cancelled hMem hId, h.typed order hMem⟩,
    fun payment hMem hOrder => hClosed.attempts payment hMem hOrder⟩

theorem Heeding.keeps_self (h : Heeding types c) (hSpares : sparesCancelled c (.run t a) = true)
    (hRan : store.Ran c t a o th k c') (hCancelled : (Config.origin c t).isCancelled id = true) :
    (closedFacts types (Config.origin c t) id).ok o ∧ (k (store.perform o a c.state).1).Keeps
      (closedFacts types (Config.origin c t) id).rely (closedFacts types (Config.origin c t) id).ok (fun _ => True) fun _ => True := by
  obtain ⟨hClosed, hKeeps⟩ := h.self hRan hCancelled
  refine hRan.keeps_self ((h.hold hClosed).rely o a ?_) hKeeps
  intro provider order currency returnUrl hOp hId
  have hId : order.id = id := hId
  subst hOp
  simp only [sparesCancelled, hRan.waiting?, hId, hCancelled, Bool.not_true] at hSpares
  cases hSpares

theorem World.isCancelled_perform (hSaves : ∀ copy entry, o = .order (.save copy entry) → w.isCancelled copy.id = false)
    (h : w.isCancelled id = true) : (o.perform a w).2.isCancelled id = true := by
  obtain ⟨order, hMem, hSel⟩ := List.any_eq_true.mp h
  have hCancelled := hSel
  simp only [Bool.and_eq_true, decide_eq_true_eq] at hSel
  refine List.any_eq_true.mpr ⟨o.turn w order, ?_, ?_⟩
  · rw [o.orders_perform]
    exact List.mem_map_of_mem hMem
  · have hTurns := o.turns w order
    generalize o.turn w order = order' at hTurns
    cases hTurns with
    | same | recorded | confirmed => exact hCancelled
    | moved hOp hId =>
      have hOpen := hSaves _ _ hOp
      rw [← hId, hSel.1, h] at hOpen
      cases hOpen

theorem Op.payments_of_mem {p : Payment} (h : p ∈ (o.perform a w).2.payments) :
    (∃ p₀ ∈ w.payments, p₀.id = p.id ∧ p₀.orderId = p.orderId) ∨ ∃ draft, o = .payment (.create draft) ∧ draft.orderId = p.orderId := by
  rw [o.payments_perform, List.mem_append] at h
  rcases h with hOld | hNew
  · obtain ⟨p₀, hMem, rfl⟩ := List.mem_map.mp hOld
    exact .inl ⟨p₀, hMem, (o.revise_id w p₀).symm, (o.revise_orderId w p₀).symm⟩
  · cases o with
    | payment op =>
      cases op with
      | create draft =>
        simp only [opened, PaymentOp.opened] at hNew
        split at hNew
        · cases hNew
        · cases List.mem_singleton.mp hNew
          exact .inr ⟨draft, rfl, rfl⟩
      | _ => cases hNew
    | _ => cases hNew

theorem World.Closed.step (hClosed : w₀.Closed id c.state) (h : Heeding types c)
    (hSpares : sparesCancelled c (.run t a) = true) (hRan : store.Ran c t a o th k c') : w₀.Closed id c'.state := by
  rw [hRan.state]
  refine ⟨World.isCancelled_perform ?_ hClosed.cancelled, fun p hp hOrder => ?_⟩
  · intro copy entry hOp
    subst hOp
    simpa only [sparesCancelled, hRan.waiting?, Bool.not_eq_eq_eq_not, Bool.not_true] using hSpares
  · rcases Op.payments_of_mem hp with ⟨p₀, hMem, hId, hSame⟩ | ⟨draft, hOp, hDraft⟩
    · rw [← hId]
      exact hClosed.attempts p₀ hMem (hSame.trans hOrder)
    · have hOrigin : (Config.origin c t).isCancelled id = true := by
        subst hOp
        simpa only [sparesCancelled, hRan.waiting?, hDraft, hOrder, hClosed.cancelled, Bool.not_true, Bool.false_or] using hSpares
      have hOk := (h.keeps_self hSpares hRan hOrigin).1
      rw [hOp] at hOk
      exact absurd (hDraft.trans hOrder) hOk

theorem Heeding.run (h : Heeding types c) (hSpares : sparesCancelled c (.run t a) = true)
    (hRan : store.Ran c t a o th k c') : Heeding types c' := by
  refine ⟨?_, ?_, ?_, ?_⟩
  · rw [hRan.state]
    exact (o.orderIds_perform a c.state).symm ▸ h.ids
  · intro order' hMem
    rw [hRan.state] at hMem
    obtain ⟨order, hOrder, hTurns⟩ := Op.turns_of_mem hMem
    rw [hTurns.orderType_eq, hTurns.id_eq]
    exact h.typed order hOrder
  · intro u thU hU hBorn f
    rw [hRan.threads] at hU
    rcases Tables.getElem?_set_cases hU with ⟨rfl, rfl⟩ | ⟨-, hU⟩
    · cases hBorn
    · exact h.unborn u thU hU hBorn f
  · intro u thU w₀ id hU hBorn hCancelled
    rw [hRan.threads] at hU
    rcases Tables.getElem?_set_cases hU with ⟨rfl, rfl⟩ | ⟨-, hU⟩
    · have hOrigin := Config.origin_of_ran hRan
      have hEq : w₀ = Config.origin c u := (Option.some.inj hBorn).symm.trans hOrigin.symm
      subst hEq
      exact ⟨(h.self hRan hCancelled).1.step h hSpares hRan, (h.keeps_self hSpares hRan hCancelled).2⟩
    · obtain ⟨hClosed, hKeeps⟩ := h.born u thU w₀ id hU hBorn hCancelled
      exact ⟨hClosed.step h hSpares hRan, hKeeps⟩

theorem Heeding.stop (h : Heeding types c) (hThread : c.threads[t]? = some th) :
    Heeding types { c with threads := c.threads.set t { th with stopped := true } } := by
  refine ⟨h.ids, h.typed, ?_, ?_⟩
  · intro u thU hU hBorn
    rcases Tables.getElem?_set_cases hU with ⟨rfl, rfl⟩ | ⟨-, hU⟩
    · exact h.unborn u th hThread hBorn
    · exact h.unborn u thU hU hBorn
  · intro u thU w₀ id hU hBorn
    rcases Tables.getElem?_set_cases hU with ⟨rfl, rfl⟩ | ⟨-, hU⟩
    · exact h.born u th w₀ id hThread hBorn
    · exact h.born u thU w₀ id hU hBorn

theorem World.Closed.advance (h : w₀.Closed id w) (e : Event) : w₀.Closed id (e.advance w) := by
  refine ⟨?_, ?_⟩
  · rw [isCancelled, e.orders_advance]
    exact h.cancelled
  · rw [(e.advance_fields w).2.1]
    exact h.attempts

theorem Heeding.event (h : Heeding types c) (e : Event) : Heeding types { c with state := store.advance e c.state } := by
  have hOrders : (e.advance c.state).orders = c.state.orders := e.orders_advance c.state
  refine ⟨hOrders ▸ h.ids, hOrders ▸ h.typed, h.unborn, fun u thU w₀ id hU hBorn hCancelled => ?_⟩
  obtain ⟨hClosed, hKeeps⟩ := h.born u thU w₀ id hU hBorn hCancelled
  exact ⟨hClosed.advance e, hKeeps⟩

theorem Heeding.initial {env : Env} {requests : List Request} (hIds : (w.orders.map Order.id).Nodup) :
    Heeding w.orderTypes (State.start env w requests) := by
  have hThread : ∀ {t : Nat} {th : Thread Op Op.Resp Err World Unit}, (State.start env w requests).threads[t]? = some th →
      ∃ request : Request, th = { prog := request.program env } := by
    intro t th hAt
    obtain ⟨p, hp, rfl⟩ := List.mem_map.mp (List.mem_of_getElem? hAt)
    obtain ⟨request, -, rfl⟩ := List.mem_map.mp hp
    exact ⟨request, rfl⟩
  refine ⟨hIds, fun order hMem => (World.orderTypes_eq hIds hMem).symm, ?_, ?_⟩
  · intro t th hAt _ f
    obtain ⟨request, rfl⟩ := hThread hAt
    exact request.program_keeps env f
  · intro t th w₀ id hAt hBorn
    obtain ⟨request, rfl⟩ := hThread hAt
    cases hBorn

theorem Heeding.reach {c₀ : State} (h : Heeding types c₀) (hReach : store.Reach (fun c l => sparesCancelled c l) c₀ c) :
    Heeding types c := by
  refine hReach.invariant h fun c l c' hC hSpares hStep => ?_
  cases l with
  | run t a =>
    obtain ⟨o, th, k, hRan⟩ := Store.run_cases hStep
    exact hC.run hSpares hRan
  | stop t =>
    obtain ⟨th, hThread, rfl⟩ := Store.stop_cases hStep
    exact hC.stop hThread
  | event e =>
    cases hStep
    exact hC.event e

structure Since (c₁ : State) (id : Id) (t : Nat) (c : State) : Prop where
  closed : c₁.state.Closed id c.state
  met : ∀ (th : Thread Op Op.Resp Err World Unit) (w₀ : World), c.threads[t]? = some th → th.born = some w₀ → c₁.state.Closed id w₀

theorem Since.reach {c₁ : State} (h : Heeding types c₁) (hCancelled : c₁.state.isCancelled id = true)
    (hThread : c₁.threads[t]? = some th) (hLate : th.born = none)
    (hReach : store.Reach (fun c l => sparesCancelled c l) c₁ c) : Since c₁ id t c := by
  have hBoth : Heeding types c ∧ Since c₁ id t c := by
    refine hReach.invariant (I := fun c => Heeding types c ∧ Since c₁ id t c) ⟨h, .refl hCancelled, ?_⟩ ?_
    · intro th' w₀ hAt hBorn
      rw [hThread] at hAt
      cases hAt
      rw [hLate] at hBorn
      cases hBorn
    · rintro c l c' ⟨hC, hSince⟩ hSpares hStep
      cases l with
      | run u a =>
        obtain ⟨o, thU, k, hRan⟩ := Store.run_cases hStep
        refine ⟨hC.run hSpares hRan, hSince.closed.step hC hSpares hRan, fun th' w₀ hAt hBorn => ?_⟩
        rw [hRan.threads] at hAt
        rcases Tables.getElem?_set_cases hAt with ⟨rfl, rfl⟩ | ⟨-, hAt⟩
        · cases hOld : thU.born with
          | none =>
            rw [hOld] at hBorn
            cases hBorn
            exact hSince.closed
          | some w₁ =>
            rw [hOld] at hBorn
            cases hBorn
            exact hSince.met thU _ hRan.thread hOld
        · exact hSince.met th' w₀ hAt hBorn
      | stop u =>
        obtain ⟨thU, hThreadU, rfl⟩ := Store.stop_cases hStep
        refine ⟨hC.stop hThreadU, hSince.closed, fun th' w₀ hAt hBorn => ?_⟩
        rcases Tables.getElem?_set_cases hAt with ⟨rfl, rfl⟩ | ⟨-, hAt⟩
        · exact hSince.met thU w₀ hThreadU hBorn
        · exact hSince.met th' w₀ hAt hBorn
      | event e =>
        cases hStep
        exact ⟨hC.event e, hSince.closed.advance e, hSince.met⟩
  exact hBoth.2

end Steps

/-- A step of a request that started once the order `id` was cancelled adds no
attempt to pay it, and makes it paid only by confirming an attempt that was
there when it was cancelled. -/
theorem cancelled_takes_no_payment {env : Env} {w : World} {requests : List Request} {c₁ c₂ c₃ : State} {id : Id}
    {t : Nat} {a : Answer} {th : Thread Op Op.Resp Err World Unit} (hIds : (w.orders.map Order.id).Nodup)
    (h₁ : store.Reach (fun c l => sparesCancelled c l) (State.start env w requests) c₁)
    (hCancelled : c₁.state.isCancelled id = true) (hThread : c₁.threads[t]? = some th) (hLate : th.born = none)
    (h₂ : store.Reach (fun c l => sparesCancelled c l) c₁ c₂) (hSpares : sparesCancelled c₂ (.run t a) = true)
    (hStep : store.step (.run t a) c₂ = some c₃) :
    (∀ p ∈ c₃.state.payments, p.orderId = id → c₂.state.hasAttempt id p.id) ∧
      (c₃.state.isPaid id = true → c₂.state.isPaid id = true ∨ ∃ payment,
        c₂.waiting? t = some (.payment (.transition payment .paid)) ∧ c₁.state.hasAttempt id payment.id) := by
  have hHeeding := (Heeding.initial hIds).reach h₁
  have hSince := Since.reach hHeeding hCancelled hThread hLate h₂
  have hHeeding₂ := hHeeding.reach h₂
  obtain ⟨o, thT, k, hRan⟩ := Store.run_cases hStep
  have hMet : c₁.state.Closed id (Config.origin c₂ t) := by
    rw [Config.origin_of_ran hRan]
    cases hBorn : thT.born with
    | none => exact hSince.closed
    | some w₀ => exact hSince.met thT w₀ hRan.thread hBorn
  have hOk := (hHeeding₂.keeps_self hSpares hRan hMet.cancelled).1
  refine ⟨(World.Closed.refl hSince.closed.cancelled).step hHeeding₂ hSpares hRan |>.attempts, fun hPaid => ?_⟩
  obtain ⟨order', hMem, hSel⟩ := List.any_eq_true.mp hPaid
  rw [hRan.state] at hMem
  obtain ⟨order, hOrder, hTurns⟩ := Op.turns_of_mem hMem
  simp only [Bool.and_eq_true, decide_eq_true_eq] at hSel
  obtain ⟨hId, hPaid'⟩ := hSel
  cases hTurns with
  | same | moved => exact .inl (List.any_eq_true.mpr ⟨_, hOrder, by simpa using ⟨hId, hPaid'⟩⟩)
  | recorded hOp =>
    rw [hOp] at hOk
    exact absurd hId (hOk hPaid')
  | @confirmed payment hOp hSame =>
    have hFound : (closedFacts (State.start env w requests).state.orderTypes (Config.origin c₂ t) id).payment payment := by
      rw [hOp] at hOk
      exact hOk rfl
    obtain ⟨p, hp, hOrderId, hPId⟩ := hFound (hSame.symm.trans hId)
    obtain ⟨p₁, hp₁, hOrderId₁, hP₁Id⟩ := hMet.attempts p hp hOrderId
    exact .inr ⟨payment, by rw [hRan.waiting?, hOp], p₁, hp₁, hOrderId₁, hP₁Id.trans hPId⟩

def cancelledOrder : Order := { placedOrder with status := .cancelled, statusHistory := [⟨.pending, 0⟩, ⟨.cancelled, 1⟩] }

def terminalPayment : Payment where
  id := 0
  restaurantId := 1
  orderId := 2
  customerId := 3
  method := .posTerminal
  provider := .mock
  providerRef := some "terminal-1"
  currency := "usd"
  amount := 10
  status := .requiresAction
  idempotencyKey := some "attempt-1"
  createdAt := 0

theorem cancelled_takes_no_payment_polled : ∃ c₂ c₃ : State, c₃.state.isPaid 2 = true ∧
    (∀ p ∈ c₃.state.payments, p.orderId = 2 → c₂.state.hasAttempt 2 p.id) ∧
    (c₃.state.isPaid 2 = true → c₂.state.isPaid 2 = true ∨ ∃ payment,
      c₂.waiting? 0 = some (.payment (.transition payment .paid)) ∧
        World.hasAttempt { nextId := 1, orders := [cancelledOrder], payments := [terminalPayment] } 2 payment.id) := by
  obtain ⟨c₂, hReach, hEnd⟩ := store.exists_of_exec sparesCancelled
    (State.start { posTerminal := true } { nextId := 1, orders := [cancelledOrder], payments := [terminalPayment] }
      [.pollTerminalPayment 1 2 0])
    (List.replicate 2 (.run 0 { report := .ok { status := some "paid" } }))
    (fun c => sparesCancelled c (.run 0 {}) && (store.step (.run 0 {}) c).any fun c' => c'.state.isPaid 2) (by decide +kernel)
  rw [Bool.and_eq_true] at hEnd
  obtain ⟨c₃, hStep, hPaid⟩ := (Option.any_eq_true _ _).mp hEnd.2
  exact ⟨c₂, c₃, hPaid, cancelled_takes_no_payment (by decide +kernel) .start (by decide +kernel) rfl rfl hReach hEnd.1 hStep⟩

/-- The customer pays online for an order that was cancelled before. -/
theorem cancelled_takes_payment : ¬ ∀ (env : Env) (w : World) (requests : List Request) (c₁ c₂ c₃ : State) (id : Id)
    (t : Nat) (a : Answer) (th : Thread Op Op.Resp Err World Unit), (w.orders.map Order.id).Nodup →
    store.Reach (fun _ _ => True) (State.start env w requests) c₁ → c₁.state.isCancelled id = true →
    c₁.threads[t]? = some th → th.born = none → store.Reach (fun _ _ => True) c₁ c₂ →
    store.step (.run t a) c₂ = some c₃ → ∀ p ∈ c₃.state.payments, p.orderId = id → c₂.state.hasAttempt id p.id := by
  intro hClaim
  obtain ⟨c₂, hReach, hEnd⟩ := store.exists_of_exec (fun _ _ => true)
    (State.start {} { restaurants := [{ id := 1, currency := "usd" }], orders := [{ cancelledOrder with paymentMethod := .online }] }
      [.createPayment ⟨1, 2, 3, "attempt-1"⟩])
    (List.replicate 6 (.run 0 { text := .ok "cs_1" }))
    (fun c => c.state.payments.isEmpty && (store.step (.run 0 {}) c).any fun c' => c'.state.payments.any (·.orderId = 2))
    (by decide +kernel)
  simp only [Bool.and_eq_true, List.isEmpty_iff] at hEnd
  obtain ⟨c₃, hStep, hAny⟩ := (Option.any_eq_true _ _).mp hEnd.2
  obtain ⟨p, hp, hOrder⟩ := List.any_eq_true.mp hAny
  obtain ⟨p₀, hp₀, -⟩ := hClaim {} _ _ _ c₂ c₃ 2 0 {} _ (by decide +kernel) .start (by decide +kernel) rfl rfl
    (hReach.mono fun _ _ _ => trivial) hStep p hp (of_decide_eq_true hOrder)
  rw [hEnd.1] at hp₀
  cases hp₀

end RestaurantOs.Payments
