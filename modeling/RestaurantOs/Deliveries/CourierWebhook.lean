import RestaurantOs.Deliveries.Store

/-!
# The courier's webhook

A verified event is claimed, its delivery is moved to the reported status, and the
event is marked as processed. What fails in between gives the claim up, so that the
courier delivers the event again.
-/

namespace RestaurantOs.Deliveries

open Async Webhooks

abbrev Promise (α : Type) := Prog Op Op.Resp Err α

abbrev State := Config Op Op.Resp Err World Unit

def eventOp (op : EventOp DeliveryProviderName) : Promise op.Resp := .call (Op.event op)

def deliveryOp (op : DeliveryOp) : Promise op.Resp := .call (Op.delivery op)

def throwApi {α : Type} (error : ApiError) : Promise α := .raise (.api error)

structure Env extends Couriers.Env where
  verifyWebhookSignature : Couriers.DeliveryProvider → String → Option String → Option ProviderDeliveryWebhookEvent := fun _ _ _ => none

/-! ## Moving a delivery -/

structure UpdateDeliveryStatusOptions where
  nextStatus : DeliveryStatus
  providerEventId : Option String := none
  courierName : Option String := none
  courierPhone : Option String := none
  trackingUrl : Option String := none
  cancelReason : Option String := none
  note : Option String := none
  actor : Option OrderStatusTransitionActor := none
  deriving DecidableEq

def modified (value stored : Option String) : Option String := value.filter fun v => stored ≠ some v

def UpdateDeliveryStatusOptions.update (opts : UpdateDeliveryStatusOptions) (delivery : Delivery) (at' : Time) : DeliveryUpdate where
  moved :=
    if opts.nextStatus ≠ delivery.status then
      some { status := opts.nextStatus, at', providerEventId := opts.providerEventId, note := opts.note }
    else none
  courierName := modified opts.courierName delivery.courierName
  courierPhone := modified opts.courierPhone delivery.courierPhone
  trackingUrl := modified opts.trackingUrl delivery.trackingUrl
  cancelReason := modified opts.cancelReason delivery.cancelReason

def Delivery.follows (delivery : Delivery) (nextStatus : DeliveryStatus) : Bool :=
  nextStatus = delivery.status || isValidDeliveryTransition delivery.status nextStatus

def advanceOrderForDeliveryStatus (orderId restaurantId : Id) (status : DeliveryStatus) (actor : Option OrderStatusTransitionActor) :
    Promise Unit :=
  .onlyIf (status = .pickedUp ∨ status = .outForDelivery ∨ status = .delivered)
    (.call (Op.advanceOrder orderId restaurantId status actor))

def recordDeliveryAudit (delivery : Delivery) (nextStatus : DeliveryStatus) : Option OrderStatusTransitionActor → Promise Unit
  | none => .ret ()
  | some actor =>
    .onlyIf (delivery.status ≠ nextStatus)
      (.call (Op.audit (if nextStatus = .cancelled then "delivery.cancelled" else "delivery.status_updated") delivery.id actor
        delivery.status nextStatus))

def updateDeliveryStatus (deliveryId restaurantId : Id) (opts : UpdateDeliveryStatusOptions) : Promise Delivery := do
  let delivery : Option Delivery ← deliveryOp (.findOne deliveryId restaurantId)
  match delivery with
  | none => throwApi (.notFound "Delivery not found")
  | some delivery =>
    if !delivery.follows opts.nextStatus then pure delivery
    else do
      let now : Time ← .call Op.clock
      let update := opts.update delivery now
      deliveryOp (.save delivery.id update)
      recordDeliveryAudit delivery opts.nextStatus opts.actor
      advanceOrderForDeliveryStatus delivery.orderId restaurantId opts.nextStatus opts.actor
      .onlyIf (update ≠ {}) (.call (Op.emitStatusUpdated (update.apply delivery) restaurantId))
      pure (update.apply delivery)

/-! ## The webhook -/

def claimStaleMs : Time := 5 * 60 * 1000

def claimDeliveryWebhookEvent (providerName : DeliveryProviderName) (event : ProviderDeliveryWebhookEvent) : Promise Bool := do
  let startedAt : Time ← .call Op.clock
  let created ← (eventOp (.create providerName event.eventId event.eventType startedAt)).attempt
  match created with
  | .ok _ => pure true
  | .error err =>
    if !err.isDuplicateKey then .raise err
    else do
      let now : Time ← .call Op.clock
      let restartedAt : Time ← .call Op.clock
      eventOp (.reclaim providerName event.eventId (some (now - claimStaleMs)) restartedAt)

def acknowledge : Promise Unit := .call Op.acknowledge

def markProcessed (providerName : DeliveryProviderName) (event : ProviderDeliveryWebhookEvent)
    (processingError : Option (Option String)) : Promise Unit := do
  let now : Time ← .call Op.clock
  eventOp (.update providerName event.eventId
    { processedAt := some now, processingError, unsetProcessingStartedAt := true })

def ProviderDeliveryWebhookEvent.options (event : ProviderDeliveryWebhookEvent) : UpdateDeliveryStatusOptions where
  nextStatus := event.status
  providerEventId := some event.eventId
  courierName := event.courierName
  courierPhone := event.courierPhone
  trackingUrl := event.trackingUrl
  cancelReason := event.cancelReason

def processClaimedEvent (providerName : DeliveryProviderName) (restaurantId : Id) (event : ProviderDeliveryWebhookEvent) :
    Promise Unit := do
  let delivery : Option Delivery ← deliveryOp (.findByCourierId restaurantId providerName event.providerDeliveryId)
  match delivery with
  | none => do
    markProcessed providerName event none
    acknowledge
  | some delivery => do
    let outcome ← Prog.attempt (do
      let _ ← updateDeliveryStatus delivery.id restaurantId event.options
      markProcessed providerName event (some none))
    match outcome with
    | .ok _ => acknowledge
    | .error err => do
      eventOp (.update providerName event.eventId
        { processingError := some (some (errorMessage err)), unsetProcessingStartedAt := true })
      throwApi (.serviceUnavailable "Delivery webhook processing failed; please retry")

def processDeliveryEvent (providerName : DeliveryProviderName) (restaurantId : Id) (event : ProviderDeliveryWebhookEvent) :
    Promise Unit := do
  let claimed ← claimDeliveryWebhookEvent providerName event
  if !claimed then acknowledge
  else processClaimedEvent providerName restaurantId event

structure WebhookRequest where
  provider : DeliveryProviderName
  accountId : Id
  rawBody : String
  signatureHeader : Option String := none
  deriving DecidableEq

def handleDeliveryProviderWebhook (env : Env) (request : WebhookRequest) : Promise Unit :=
  if request.provider = .manual then
    throwApi (.badRequest s!"\"{request.provider.text}\" is not a BYOC-eligible delivery provider")
  else do
    let account : Option RestaurantDeliveryProviderAccount ← .call (Op.findAccount request.accountId request.provider)
    match account with
    | none => throwApi (.badRequest "No matching restaurant delivery provider account for this provider/id")
    | some account =>
      match Couriers.buildDeliveryProviderFromAccount env.toEnv account with
      | .error _ => throwApi (.badRequest "This delivery provider account is not currently connectable")
      | .ok provider =>
        match env.verifyWebhookSignature provider request.rawBody request.signatureHeader with
        | none => throwApi (.badRequest "Invalid webhook signature")
        | some event => processDeliveryEvent request.provider account.restaurantId event

def State.start (env : Env) (w : World) (requests : List WebhookRequest) : State :=
  .initial w (requests.map (handleDeliveryProviderWebhook env))

end RestaurantOs.Deliveries
