import RestaurantOs.Payments.Refunds

/-!
# Orders

The order state machine and the requests that change an order's status or
record its payment by hand.
-/

namespace RestaurantOs.Payments

open Async

def TRANSITIONS : OrderStatus → List OrderStatus
  | .pending => [.confirmed, .cancelled]
  | .confirmed => [.preparing, .cancelled]
  | .preparing => [.ready, .cancelled]
  | .ready => [.outForDelivery, .completed, .cancelled]
  | .outForDelivery => [.completed, .cancelled]
  | .completed => []
  | .cancelled => []

def isValidStatusTransition (src dst : OrderStatus) (orderType : OrderType) : Bool :=
  if !(TRANSITIONS src).contains dst then false
  else if src = .ready ∧ dst = .outForDelivery ∧ orderType ≠ .delivery then false
  else if src = .ready ∧ dst = .completed ∧ orderType ≠ .pickup ∧ orderType ≠ .dineIn then false
  else true

def courierDispatchIneligibility (order : Order) : Option String :=
  if order.channel = .marketplace then
    some ("Marketplace orders are delivered by the marketplace's own couriers — they are never dispatched from " ++
      "GarnishTable")
  else if order.orderType ≠ .delivery then some "Only delivery orders can be dispatched to a courier"
  else none

def statusToEventType (status : OrderStatus) : String :=
  if status = .pending then "order.created" else s!"order.{status.text}"

def recordStatusChange (order : Order) (nextStatus : OrderStatus) : Option ActorContext → Promise Unit
  | none => pure ()
  | some actor =>
    recordAuditEvent (if nextStatus = .cancelled then .orderCancelled else .orderStatusChanged) order.id actor.actorUserId

/-- The one place a staff member or a delivery changes an order's status. The
copy that was checked is saved as it is; no actor means a delivery's webhook. -/
def applyOrderStatusTransition (orderId restaurantId : Id) (nextStatus : OrderStatus) (actor : Option ActorContext) :
    Promise Order := do
  let order : Option Order ← orderOp (.findOne orderId restaurantId)
  match order with
  | none => throwApi (.notFound "Order not found")
  | some order =>
    if !isValidStatusTransition order.status nextStatus order.orderType then
      throwApi (.badRequest s!"Cannot move an order from \"{order.status.text}\" to \"{nextStatus.text}\"")
    else if order.paymentMethod = .online ∧ ¬ order.paid ∧ nextStatus ≠ .cancelled then
      throwApi (.badRequest "This order's online payment has not completed yet — it cannot be accepted")
    else do
      let now ← dateNow
      orderOp (.save order ⟨nextStatus, now⟩)
      .onlyIf (nextStatus = .cancelled) (orderOp (.reverseLoyalty order))
      recordStatusChange order nextStatus actor
      .onlyIf (nextStatus = .ready ∧ courierDispatchIneligibility order = none) (orderOp (.dispatchCreate order))
      pure (order.moved ⟨nextStatus, now⟩)

def updateOrderStatus (restaurantId id : Id) (nextStatus : OrderStatus) (actor : ActorContext) : Promise Unit := do
  let order ← applyOrderStatusTransition id restaurantId nextStatus (some actor)
  orderOp (.announce (statusToEventType nextStatus) order nextStatus)

inductive DeliveryStatus
  | pending | quoted | requested | accepted | driverAssigned | pickedUp | outForDelivery | delivered | cancelled
  | failed
  deriving DecidableEq

/-- The order follows its delivery: out for delivery once a courier has it,
completed once it is delivered. What is refused is only logged. -/
def advanceOrderForDeliveryStatus (orderId restaurantId : Id) (deliveryStatus : DeliveryStatus)
    (actor : Option ActorContext) : Promise Unit :=
  if deliveryStatus ≠ .pickedUp ∧ deliveryStatus ≠ .outForDelivery ∧ deliveryStatus ≠ .delivered then pure ()
  else do
    let _ ← Prog.attempt do
      let order : Option Order ← orderOp (.findOne orderId restaurantId)
      match order with
      | none => pure ()
      | some order => do
        .onlyIf (order.status = .ready) do
          let updated ← applyOrderStatusTransition orderId restaurantId .outForDelivery actor
          orderOp (.announce (statusToEventType .outForDelivery) updated .outForDelivery)
        .onlyIf (deliveryStatus = .delivered ∧ (order.status = .ready ∨ order.status = .outForDelivery)) do
          let updated ← applyOrderStatusTransition orderId restaurantId .completed actor
          orderOp (.announce (statusToEventType .completed) updated .completed)
    pure ()

def cancelMyOrder (id userId : Id) : Promise Unit := do
  let order : Option Order ← orderOp (.findById id)
  match order with
  | none => throwApi (.notFound "Order not found")
  | some order =>
    if order.customerId ≠ userId then throwApi .forbidden
    else if order.status ≠ .pending then
      throwApi (.badRequest s!"Order can no longer be cancelled — its status is already \"{order.status.text}\"")
    else do
      let now ← dateNow
      orderOp (.save order ⟨.cancelled, now⟩)
      orderOp (.reverseLoyalty order)
      orderOp (.announce "order.cancelled" order .cancelled)

def updateOrderPaymentStatus (restaurantId id : Id) (paid : Bool) : Promise Unit := do
  let existing : Option Order ← orderOp (.findOne id restaurantId)
  match existing with
  | none => throwApi (.notFound "Order not found")
  | some existing =>
    if existing.paymentMethod = .online then
      throwApi (.badRequest ("This order's payment method is online — its payment status is set by the payment " ++
        "provider, not manually"))
    else if existing.status = .cancelled ∧ paid then
      throwApi (.badRequest "This order has been cancelled and cannot be marked paid")
    else do
      let order : Option Order ← orderOp (.setPaymentStatus id restaurantId paid)
      match order with
      | none => throwApi (.notFound "Order not found")
      | some order => orderOp (.announce "order.payment_updated" order order.status)

end RestaurantOs.Payments
