import Mathlib.Data.List.Chain
import RestaurantOs.Payments.Book
import RestaurantOs.Payments.Orderly

/-!
# Order histories

What every operation does to the orders, and that an order's history is a path
of its state machine as long as no save lands on a status it may not follow.
-/

namespace RestaurantOs.Payments

open Async

/-! ## What an operation does to the orders -/

/-- The transition confirms the payment: it has an effect, and the index on
paid orders lets it. -/
def World.confirms (w : World) (payment : Payment) : Bool :=
  (w.payments.find? fun p => p.id = payment.id && p.status ≠ .paid).any fun stored => !paidTaken w.payments stored

def Op.turn : Op → World → Order → Order
  | .order (.save copy entry), _, stored => if stored.id = copy.id then stored.moved entry else stored
  | .order (.setPaymentStatus id restaurantId paid), _, stored =>
    if stored.id = id && stored.restaurantId = restaurantId then stored.withPaid paid else stored
  | .payment (.transition copy .paid), w, stored =>
    if w.confirms copy && (stored.id = copy.orderId && stored.restaurantId = copy.restaurantId) then
      stored.withPaid true
    else stored
  | _, _, stored => stored

section Turn

variable {o : Op} {a : Answer} {w : World} {order order' : Order}

theorem PaymentOp.orders_perform (op : PaymentOp) (w : World) :
    (op.perform w).2.orders = w.orders.map ((Op.payment op).turn w) := by
  have hSame : w.orders = w.orders.map fun order => order := (List.map_id' _).symm
  cases op with
  | create draft =>
    simp only [perform]
    split
    · exact hSame
    · split <;> exact hSame
  | reserve payment claim =>
    simp only [perform]
    split <;> exact hSame
  | setStatus payment next =>
    simp only [perform]
    split
    · exact hSame
    · split <;> exact hSame
  | transition payment next =>
    by_cases hPaid : next = .paid
    · subst hPaid
      have hIdle : w.confirms payment = false → (Op.payment (.transition payment .paid)).turn w = fun order => order := by
        intro hConfirms
        funext order
        simp only [Op.turn, hConfirms, Bool.false_and, Bool.false_eq_true, if_false]
      cases hFind : w.payments.find? fun p => p.id = payment.id && p.status ≠ .paid with
      | none =>
        rw [hIdle (by simp only [World.confirms, hFind, Option.any_none])]
        simp only [perform, hFind]
        exact hSame
      | some stored =>
        cases hTaken : paidTaken w.payments stored with
        | true =>
          rw [hIdle (by simp only [World.confirms, hFind, Option.any_some, hTaken, Bool.not_true])]
          simp only [perform, hFind, hTaken, and_self, if_true]
          exact hSame
        | false =>
          have hConfirms : w.confirms payment = true := by
            simp only [World.confirms, hFind, Option.any_some, hTaken, Bool.not_false]
          simp only [perform, hFind, hTaken, Bool.false_eq_true, and_false, if_false, if_true]
          refine List.map_congr_left fun order _ => ?_
          simp only [Op.turn, hConfirms, Bool.true_and]
          rfl
    · have hTurn : (Op.payment (.transition payment next)).turn w = fun order => order := by
        cases next <;> first | rfl | exact absurd rfl hPaid
      rw [hTurn]
      simp only [perform, hPaid, false_and, if_false]
      split
      · exact hSame
      · split <;> exact hSame
  | _ => exact hSame

theorem Op.orders_perform (o : Op) (a : Answer) (w : World) : (o.perform a w).2.orders = w.orders.map (o.turn w) := by
  have hSame : w.orders = w.orders.map fun order => order := (List.map_id' _).symm
  cases o with
  | payment op => exact op.orders_perform w
  | refund op => exact (congrArg World.orders (op.perform_fields w)).trans hSame
  | event op => exact (congrArg World.orders (op.perform_fields w)).trans hSame
  | account op => exact (congrArg World.orders (op.perform_fields w)).trans hSame
  | provider op => exact (congrArg World.orders (op.perform_fields a w)).trans hSame
  | order op =>
    cases op with
    | save copy entry => exact List.map_congr_left fun stored _ => by simp only [turn, decide_eq_true_eq]
    | setPaymentStatus id restaurantId paid => rfl
    | _ => exact hSame
  | _ => exact hSame

theorem Event.orders_advance (e : Event) (w : World) : (e.advance w).orders = w.orders := by
  cases e with
  | process index status =>
    simp only [advance]
    split <;> rfl
  | _ => rfl

/-- An order's status and history change only by a save, and it becomes paid
only by a confirmed payment or by hand. -/
inductive Op.Turns (o : Op) (order : Order) : Order → Prop
  | same : Turns o order order
  | moved {copy entry} (hOp : o = .order (.save copy entry)) (hId : order.id = copy.id) : Turns o order (order.moved entry)
  | recorded {restaurantId paid} (hOp : o = .order (.setPaymentStatus order.id restaurantId paid)) :
      Turns o order (order.withPaid paid)
  | confirmed {payment} (hOp : o = .payment (.transition payment .paid)) (hId : order.id = payment.orderId) :
      Turns o order (order.withPaid true)

theorem Op.turns (o : Op) (w : World) (order : Order) : o.Turns order (o.turn w order) := by
  cases o with
  | order op =>
    cases op with
    | save copy entry =>
      simp only [turn]
      split
      · exact .moved rfl ‹_›
      · exact .same
    | setPaymentStatus id restaurantId paid =>
      simp only [turn]
      split
      · rename_i hSel
        simp only [Bool.and_eq_true, decide_eq_true_eq] at hSel
        exact .recorded (by rw [hSel.1])
      · exact .same
    | _ => exact .same
  | payment op =>
    cases op with
    | transition payment next =>
      cases next with
      | paid =>
        simp only [turn]
        split
        · rename_i hSel
          simp only [Bool.and_eq_true, decide_eq_true_eq] at hSel
          exact .confirmed rfl hSel.2.1
        · exact .same
      | _ => exact .same
    | _ => exact .same
  | _ => exact .same

theorem Op.Turns.id_eq (h : o.Turns order order') : order'.id = order.id := by cases h <;> rfl

theorem Op.Turns.orderType_eq (h : o.Turns order order') : order'.orderType = order.orderType := by cases h <;> rfl

theorem Op.Turns.paymentMethod_eq (h : o.Turns order order') : order'.paymentMethod = order.paymentMethod := by
  cases h <;> rfl

theorem Op.turns_of_mem (h : order' ∈ (o.perform a w).2.orders) : ∃ order ∈ w.orders, o.Turns order order' := by
  rw [o.orders_perform] at h
  obtain ⟨order, hMem, rfl⟩ := List.mem_map.mp h
  exact ⟨order, hMem, o.turns w order⟩

theorem Op.orderIds_perform (o : Op) (a : Answer) (w : World) :
    (o.perform a w).2.orders.map Order.id = w.orders.map Order.id := by
  rw [o.orders_perform, List.map_map]
  exact List.map_congr_left fun order _ => (o.turns w order).id_eq

end Turn

/-! ## Answers -/

structure Facts.Hold (f : Facts) (w : World) : Prop where
  orders : ∀ order ∈ w.orders, f.order order
  payments : ∀ payment ∈ w.payments, f.payment payment

theorem Facts.Hold.rely {f : Facts} {w : World} (h : f.Hold w) (o : Op) (a : Answer)
    (hOpen : ∀ provider order currency returnUrl, o = .provider (.createIntent provider order currency returnUrl) →
      ¬ f.cancelled order.id) : f.rely o (o.perform a w).1 := by
  have hOrder : ∀ {sel : Order → Bool} {id : Id}, (∀ order, sel order = true → order.id = id) →
      ∀ order, (.ok (w.orders.find? sel) : Except Err (Option Order)) = .ok (some order) → order.id = id ∧ f.order order := by
    intro sel id hSel order hFind
    have hFound := Except.ok.inj hFind
    exact ⟨hSel order (List.find?_some hFound), h.orders order (List.mem_of_find?_eq_some hFound)⟩
  have hPayment : ∀ {sel : Payment → Bool} (payment : Payment),
      (.ok (w.payments.find? sel) : Except Err (Option Payment)) = .ok (some payment) → f.payment payment :=
    fun payment hFind => h.payments payment (List.mem_of_find?_eq_some (Except.ok.inj hFind))
  cases o with
  | order op =>
    cases op with
    | findOne id restaurantId =>
      refine hOrder fun order hSel => ?_
      simp only [Bool.and_eq_true, decide_eq_true_eq] at hSel
      exact hSel.1
    | findById id => exact hOrder fun order hSel => of_decide_eq_true hSel
    | _ => trivial
  | payment op =>
    cases op with
    | findById | findByProviderRef | findTerminal => exact hPayment
    | findStale before =>
      intro payments hFind payment hMem
      have hFound := Except.ok.inj hFind
      rw [← hFound] at hMem
      exact h.payments payment (List.mem_filter.mp (List.mem_of_mem_take hMem)).1
    | _ => trivial
  | provider op =>
    cases op with
    | createIntent provider order currency returnUrl => exact hOpen _ _ _ _ rfl
    | _ => trivial
  | _ => trivial

/-! ## Histories -/

/-- The order's history is a path of its state machine, from `pending` to the
status it has. -/
structure Order.Recorded (order : Order) : Prop where
  starts : (order.statusHistory.map StatusHistoryEntry.status).head? = some .pending
  path : (order.statusHistory.map StatusHistoryEntry.status).IsChain fun src dst =>
    isValidStatusTransition src dst order.orderType = true
  last : (order.statusHistory.map StatusHistoryEntry.status).getLast? = some order.status

def isTerminalStatus (status : OrderStatus) : Bool := (TRANSITIONS status).length = 0

theorem not_valid_of_terminal {src dst : OrderStatus} {orderType : OrderType} (h : isTerminalStatus src = true) :
    isValidStatusTransition src dst orderType = false := by
  cases src <;> first | rfl | cases h

theorem Order.Recorded.final {order : Order} {before after : List StatusHistoryEntry} {entry : StatusHistoryEntry}
    (h : order.Recorded) (hSplit : order.statusHistory = before ++ entry :: after)
    (hTerminal : isTerminalStatus entry.status = true) : after = [] := by
  have hPath := h.path
  rw [hSplit, List.map_append] at hPath
  cases after with
  | nil => rfl
  | cons next rest =>
    have hStep := (List.isChain_append_cons_cons.mp hPath).2.1
    rw [not_valid_of_terminal hTerminal] at hStep
    cases hStep

theorem Order.Recorded.moved {order : Order} {entry : StatusHistoryEntry} (h : order.Recorded)
    (hValid : isValidStatusTransition order.status entry.status order.orderType = true) : (order.moved entry).Recorded := by
  refine ⟨?_, ?_, ?_⟩
  · simp only [Order.moved, List.map_append, List.head?_append, h.starts, Option.some_or]
  · simp only [Order.moved, List.map_append]
    refine List.IsChain.append h.path (List.isChain_singleton _) ?_
    intro src hSrc dst hDst
    have hLast := h.last.symm.trans hSrc
    cases hLast
    cases hDst
    exact hValid
  · simp only [Order.moved, List.map_append, List.map_cons, List.map_nil, List.getLast?_concat]

/-- A save lands while the stored status is the one the request read, or one
that the new status may follow too. -/
def landsInPlace (c : State) : Label Answer Event → Bool
  | .run t _ =>
    match c.waiting? t with
    | some (.order (.save copy entry)) => c.state.orders.all fun stored => !(stored.id = copy.id) ||
        (stored.status = copy.status || isValidStatusTransition stored.status entry.status stored.orderType)
    | _ => true
  | _ => true

def World.orderTypes (w : World) (id : Id) : OrderType :=
  ((w.orders.find? fun order => order.id = id).map Order.orderType).getD .pickup

theorem World.orderTypes_eq {w : World} (hIds : (w.orders.map Order.id).Nodup) {order : Order} (h : order ∈ w.orders) :
    w.orderTypes order.id = order.orderType := by
  have hFind : w.orders.find? (fun e => e.id = order.id) = some order := Tables.find?_id hIds h
  rw [orderTypes, hFind]
  rfl

/-- Whatever the interleaving, an order's history is a path of its state
machine from `pending` to its status, and ends with a terminal status. -/
theorem statusHistory_path {env : Env} {w : World} {requests : List Request} {c : State}
    (hIds : (w.orders.map Order.id).Nodup) (hRecorded : ∀ order ∈ w.orders, order.Recorded)
    (h : store.Reach (fun c l => landsInPlace c l) (State.start env w requests) c) :
    ∀ order ∈ c.state.orders, order.Recorded ∧ ∀ before entry after,
      order.statusHistory = before ++ entry :: after → isTerminalStatus entry.status = true → after = [] := by
  let f : Facts := { cancelled := fun _ => False, attempt := fun _ => True, orderType := w.orderTypes }
  have hKeeps : (State.start env w requests).Keeps f.rely f.ok := by
    intro th hth
    obtain ⟨p, hp, rfl⟩ := List.mem_map.mp hth
    obtain ⟨request, -, rfl⟩ := List.mem_map.mp hp
    exact request.program_keeps env f
  have hHold : ∀ {w : World}, (∀ order ∈ w.orders, order.orderType = f.orderType order.id) → f.Hold w :=
    fun hTypes => ⟨fun order hMem => ⟨False.elim, hTypes order hMem⟩, fun _ _ => False.elim⟩
  have hRun := hKeeps.invariant (I := fun w => ∀ order ∈ w.orders, order.Recorded ∧ order.orderType = f.orderType order.id)
    (fun order hMem => ⟨hRecorded order hMem, (World.orderTypes_eq hIds hMem).symm⟩)
    (fun s o a hI => (hHold fun order hMem => (hI order hMem).2).rely o a fun _ _ _ _ _ => id) ?moved
    (fun s e hI => by rw [show (store.advance e s).orders = s.orders from e.orders_advance s]; exact hI) h
  case moved =>
    intro c c' t a o th k hI hGuard hRan hOk order' hMem
    rw [hRan.state] at hMem
    obtain ⟨order, hOrder, hTurns⟩ := Op.turns_of_mem hMem
    obtain ⟨hOld, hType⟩ := hI order hOrder
    refine ⟨?_, by rw [hTurns.orderType_eq, hTurns.id_eq]; exact hType⟩
    cases hTurns with
    | same => exact hOld
    | recorded | confirmed => exact ⟨hOld.starts, hOld.path, hOld.last⟩
    | @moved copy entry hOp hId =>
      subst hOp
      have hValid : isValidStatusTransition copy.status entry.status (f.orderType copy.id) = true := hOk
      rw [← hId, ← hType] at hValid
      have hLands : (c.state.orders.all fun stored => !(stored.id = copy.id) ||
          (stored.status = copy.status || isValidStatusTransition stored.status entry.status stored.orderType)) = true := by
        simpa only [landsInPlace, hRan.waiting?] using hGuard
      have hStored := List.all_eq_true.mp hLands order hOrder
      simp only [hId, decide_true, Bool.not_true, Bool.false_or, Bool.or_eq_true, decide_eq_true_eq] at hStored
      refine hOld.moved ?_
      rcases hStored with hSame | hFollows
      · rw [hSame]
        exact hValid
      · exact hFollows
  exact fun order hMem => ⟨(hRun.1 order hMem).1, fun _ _ _ hSplit hTerminal => (hRun.1 order hMem).1.final hSplit hTerminal⟩

def placedOrder : Order where
  id := 2
  restaurantId := 1
  customerId := 3
  orderNumber := "A-1"
  statusHistory := [⟨.pending, 0⟩]
  total := 10
  currency := "usd"

/-- Staff confirms the order, then its customer can no longer cancel it. -/
theorem statusHistory_path_confirmed : ∃ c : State, (c.state.orders.map Order.status = [.confirmed]) ∧
    ∀ order ∈ c.state.orders, order.Recorded ∧ ∀ before entry after,
      order.statusHistory = before ++ entry :: after → isTerminalStatus entry.status = true → after = [] := by
  obtain ⟨c, hReach, hEnd⟩ := store.exists_of_exec landsInPlace
    (State.start {} { orders := [placedOrder] } [.updateOrderStatus 1 2 .confirmed ⟨4, "staff"⟩, .cancelMyOrder 2 3])
    (List.flatten [List.replicate 5 (.run 0 {}), [.run 1 {}]]) (fun c => c.state.orders.map Order.status = [.confirmed]) (by decide +kernel)
  refine ⟨c, of_decide_eq_true hEnd, statusHistory_path (by decide +kernel) ?_ hReach⟩
  intro order hMem
  cases List.mem_singleton.mp hMem
  exact ⟨rfl, List.isChain_singleton _, rfl⟩

/-- Staff confirms a copy of the order that was read before its customer
cancelled it. -/
theorem statusHistory_not_path : ¬ ∀ (env : Env) (w : World) (requests : List Request) (c : State),
    (w.orders.map Order.id).Nodup → (∀ order ∈ w.orders, order.Recorded) →
    store.Reach (fun _ _ => True) (State.start env w requests) c → ∀ order ∈ c.state.orders, order.Recorded := by
  intro hClaim
  obtain ⟨c, hReach, hEnd⟩ := store.exists_of_exec (fun _ _ => true)
    (State.start {} { orders := [placedOrder] } [.updateOrderStatus 1 2 .confirmed ⟨4, "staff"⟩, .cancelMyOrder 2 3])
    [.run 0 {}, .run 1 {}, .run 1 {}, .run 1 {}, .run 0 {}, .run 0 {}]
    (fun c => c.state.orders.any fun order =>
      order.statusHistory.map StatusHistoryEntry.status = [.pending, .cancelled, .confirmed]) (by decide +kernel)
  obtain ⟨order, hMem, hHistory⟩ := List.any_eq_true.mp hEnd
  have hRecorded : order.Recorded := by
    refine hClaim {} _ _ c (by decide +kernel) ?_ (hReach.mono fun _ _ _ => trivial) order hMem
    intro order hMem
    cases List.mem_singleton.mp hMem
    exact ⟨rfl, List.isChain_singleton _, rfl⟩
  have hPath := hRecorded.path
  rw [of_decide_eq_true hHistory] at hPath
  have hStep := (List.isChain_cons_cons.mp (List.isChain_cons_cons.mp hPath).2).1
  rw [not_valid_of_terminal rfl] at hStep
  cases hStep

end RestaurantOs.Payments
