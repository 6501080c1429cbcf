import RestaurantOs.Connections.Couriers
import RestaurantOs.Webhooks.EventRecords

/-!
# Deliveries

A delivery, its statuses, and the store that a courier's webhook works on. Any
call of the database may throw; it then has had no effect.
-/

namespace RestaurantOs.Deliveries

open Async Webhooks

export Payments (Id Time ApiError Err errorMessage)
export Couriers (DeliveryProviderName RestaurantDeliveryProviderAccount)

inductive DeliveryStatus
  | pending | quoted | requested | accepted | driverAssigned | pickedUp | outForDelivery | delivered | cancelled | failed
  deriving DecidableEq

def deliveryTransitions : DeliveryStatus → List DeliveryStatus
  | .pending => [.quoted, .requested, .accepted, .cancelled, .failed]
  | .quoted => [.requested, .cancelled, .failed]
  | .requested => [.accepted, .cancelled, .failed]
  | .accepted => [.driverAssigned, .pickedUp, .outForDelivery, .cancelled, .failed]
  | .driverAssigned => [.pickedUp, .outForDelivery, .cancelled, .failed]
  | .pickedUp => [.outForDelivery, .delivered, .failed]
  | .outForDelivery => [.delivered, .failed]
  | .delivered | .cancelled | .failed => []

def isValidDeliveryTransition (previous next : DeliveryStatus) : Bool :=
  (deliveryTransitions previous).contains next

structure StatusHistoryEntry where
  status : DeliveryStatus
  at' : Time
  providerEventId : Option String := none
  note : Option String := none
  deriving DecidableEq

structure Delivery where
  id : Id
  restaurantId : Id
  orderId : Id
  provider : DeliveryProviderName
  status : DeliveryStatus := .pending
  statusHistory : List StatusHistoryEntry := []
  providerDeliveryId : Option String := none
  trackingUrl : Option String := none
  courierName : Option String := none
  courierPhone : Option String := none
  cancelReason : Option String := none
  deriving DecidableEq

/-- The paths that `save` writes: those that were modified. -/
structure DeliveryUpdate where
  moved : Option StatusHistoryEntry := none
  courierName : Option String := none
  courierPhone : Option String := none
  trackingUrl : Option String := none
  cancelReason : Option String := none
  deriving DecidableEq

def DeliveryUpdate.apply (update : DeliveryUpdate) (delivery : Delivery) : Delivery :=
  { delivery with
    status := (update.moved.map (·.status)).getD delivery.status
    statusHistory := delivery.statusHistory ++ update.moved.toList
    courierName := update.courierName.or delivery.courierName
    courierPhone := update.courierPhone.or delivery.courierPhone
    trackingUrl := update.trackingUrl.or delivery.trackingUrl
    cancelReason := update.cancelReason.or delivery.cancelReason }

structure ProviderDeliveryWebhookEvent where
  eventId : String
  eventType : String
  providerDeliveryId : String
  status : DeliveryStatus
  courierName : Option String := none
  courierPhone : Option String := none
  trackingUrl : Option String := none
  cancelReason : Option String := none
  deriving DecidableEq

structure OrderStatusTransitionActor where
  userId : Id
  role : String
  deriving DecidableEq

structure World where
  now : Time := 0
  accounts : List RestaurantDeliveryProviderAccount := []
  webhookEvents : List (WebhookEvent DeliveryProviderName) := []
  deliveries : List Delivery := []

inductive DeliveryOp
  | findByCourierId (restaurantId : Id) (provider : DeliveryProviderName) (providerDeliveryId : String)
  | findOne (id restaurantId : Id)
  | save (id : Id) (update : DeliveryUpdate)
  deriving DecidableEq

/-- `advanceOrder` and `emitStatusUpdated` catch what they throw.
`acknowledge` is `res.status(200).json({ received: true })`. -/
inductive Op
  | clock
  | findAccount (id : Id) (provider : DeliveryProviderName)
  | event (op : EventOp DeliveryProviderName)
  | delivery (op : DeliveryOp)
  | audit (action : String) (deliveryId : Id) (actor : OrderStatusTransitionActor) (previous next : DeliveryStatus)
  | advanceOrder (orderId restaurantId : Id) (status : DeliveryStatus) (actor : Option OrderStatusTransitionActor)
  | emitStatusUpdated (delivery : Delivery) (restaurantId : Id)
  | acknowledge
  deriving DecidableEq

@[reducible] def DeliveryOp.Resp : DeliveryOp → Type
  | save _ _ => Unit
  | _ => Option Delivery

@[reducible] def Op.Resp : Op → Type
  | clock => Time
  | findAccount _ _ => Option RestaurantDeliveryProviderAccount
  | event op => op.Resp
  | delivery op => op.Resp
  | _ => Unit

structure Answer where
  fault : Option String := none

inductive Event
  | tick (elapsed : Time)
  | writeAccounts (accounts : List RestaurantDeliveryProviderAccount)
  | writeDeliveries (deliveries : List Delivery)

def DeliveryOp.perform : (op : DeliveryOp) → List Delivery → Except Err op.Resp × List Delivery
  | findByCourierId restaurantId provider providerDeliveryId, deliveries =>
    (.ok (deliveries.find? fun d => d.restaurantId = restaurantId && d.provider = provider &&
      d.providerDeliveryId = some providerDeliveryId), deliveries)
  | findOne id restaurantId, deliveries =>
    (.ok (deliveries.find? fun d => d.id = id && d.restaurantId = restaurantId), deliveries)
  | save id update, deliveries =>
    if deliveries.any (·.id = id) then (.ok (), Tables.update (·.id = id) update.apply deliveries)
    else (.error (.other "No document found for query on model \"Delivery\""), deliveries)

def Op.perform : (op : Op) → Answer → World → Except Err op.Resp × World
  | clock, _, w => (.ok w.now, w)
  | findAccount id provider, a, w =>
    match a.fault with
    | some text => (.error (.other text), w)
    | none => (.ok (w.accounts.find? fun account => account.id = id && account.provider = provider), w)
  | event op, a, w =>
    match a.fault with
    | some text => (.error (.other text), w)
    | none => ((op.perform w.webhookEvents).1, { w with webhookEvents := (op.perform w.webhookEvents).2 })
  | delivery op, a, w =>
    match a.fault with
    | some text => (.error (.other text), w)
    | none => ((op.perform w.deliveries).1, { w with deliveries := (op.perform w.deliveries).2 })
  | audit _ _ _ _ _, _, w => (.ok (), w)
  | advanceOrder _ _ _ _, _, w => (.ok (), w)
  | emitStatusUpdated _ _, _, w => (.ok (), w)
  | acknowledge, _, w => (.ok (), w)

def Event.advance : Event → World → World
  | tick elapsed, w => { w with now := w.now + elapsed }
  | writeAccounts accounts, w => { w with accounts }
  | writeDeliveries deliveries, w => { w with deliveries }

@[reducible] def store : Store Op Op.Resp Err World Answer Event where
  perform := Op.perform
  advance := Event.advance

instance : Inhabited Answer := ⟨{}⟩

instance : Inhabited World := ⟨{}⟩

end RestaurantOs.Deliveries
