import RestaurantOs.Payments.Refunds

/-!
# Charges

Creating a payment, online or at a card terminal, and the ways its status
changes: a provider event, the polling sweep, the terminal's polling and
cancelling.
-/

namespace RestaurantOs.Payments

open Async

structure CreatePaymentInput where
  restaurantId : Id
  orderId : Id
  customerId : Id
  idempotencyKey : String
  deriving DecidableEq

def resolveRestaurantPaymentProvider (env : Env) (restaurantId : Id) : Promise (Option Provider) := do
  let account : Option RestaurantPaymentAccount ← accountOp (.findActive restaurantId)
  match account with
  | none => pure none
  | some account => do
    let provider ← .ofExcept (buildProviderFromAccount env account)
    pure (some provider)

def chargeProviderFor (env : Env) (restaurant : Restaurant) : Promise Provider := do
  let pooled ← .ofExcept (getPaymentProvider env env.paymentProvider)
  let own ← resolveRestaurantPaymentProvider env restaurant.id
  match own with
  | some own => pure own
  | none =>
    if env.paymentEligibilityRouting then
      match resolveEligiblePaymentProvider restaurant with
      | none => throwApi (.badRequest
          "Online payment isn't available for this restaurant's country yet — please pay with cash.")
      | some name => .ofExcept (getPaymentProvider env name)
    else pure pooled

def insertPayment (draft : Payment) (restaurantId : Id) (idempotencyKey : String) : Promise (Payment × Bool) := do
  let payment : Except Err Payment ← (paymentOp (.create draft)).attempt
  match payment with
  | .ok payment => pure (payment, true)
  | .error err =>
    if err.isDuplicateKey then do
      let winner : Option Payment ← paymentOp (.findByKey restaurantId idempotencyKey)
      match winner with
      | some winner => pure (winner, false)
      | none => .raise err
    else .raise err

/-- The charge of an order that has no open attempt. Adapters open an intent
as `pending`. -/
def openIntent (env : Env) (input : CreatePaymentInput) (order : Order) : Promise (Payment × Bool) := do
  let restaurant : Option Restaurant ← .call (Op.restaurant input.restaurantId)
  match restaurant with
  | none => throwApi (.notFound "Restaurant not found")
  | some restaurant =>
    if restaurant.status = .suspended then
      throwApi (.badRequest
        "This restaurant is temporarily unable to accept payments — please contact the restaurant.")
    else do
      let provider ← chargeProviderFor env restaurant
      if !canProcessOnlinePayments env provider.account.isSome provider.name then
        throwApi (.badRequest "This restaurant hasn't connected a payment account yet — please pay with cash.")
      else do
        let providerRef : String ←
          providerOp (.createIntent provider order restaurant.currency s!"{env.clientOrigin}/orders/{order.id}")
        insertPayment {
          id := 0
          restaurantId := input.restaurantId
          orderId := input.orderId
          customerId := input.customerId
          method := .online
          provider := provider.name
          providerRef := some providerRef
          restaurantPaymentAccountId := provider.account
          currency := restaurant.currency
          amount := order.total
          status := .pending
          idempotencyKey := some input.idempotencyKey
          createdAt := 0 } input.restaurantId input.idempotencyKey

def createPaymentForOrder (env : Env) (input : CreatePaymentInput) : Promise (Payment × Bool) := do
  let existingByKey : Option Payment ← paymentOp (.findByKey input.restaurantId input.idempotencyKey)
  match existingByKey with
  | some existing => pure (existing, false)
  | none => do
    let order : Option Order ← orderOp (.findOne input.orderId input.restaurantId)
    match order with
    | none => throwApi (.notFound "Order not found")
    | some order =>
      if order.customerId ≠ input.customerId then throwApi .forbidden
      else if order.paymentMethod ≠ .online then
        throwApi (.badRequest (s!"This order was placed with paymentMethod \"{order.paymentMethod.name}\" " ++
          "and has no online payment to create."))
      else if order.paid then throwApi (.conflict "This order is already paid")
      else do
        let reusable : Option Payment ← paymentOp (.findReusable input.restaurantId input.orderId none)
        match reusable with
        | some reusable => pure (reusable, false)
        | none => openIntent env input order

/-- Applies one status change that has already been decided on the copy
`payment`, in a transaction with the order. -/
def applyPaymentStatusTransition (payment : Payment) (newStatus : PaymentStatus) : Promise Unit := do
  let order : Option Order ← paymentOp (.transition payment newStatus)
  match order with
  | none => pure ()
  | some order => orderOp (.emit order newStatus none)

def applyPaymentEvent (provider : ProviderName) (event : ProviderWebhookEvent) (account : Option Id) :
    Promise Unit := do
  let payment : Option Payment ← paymentOp (.findByProviderRef provider event.providerRef account)
  match payment with
  | none => eventOp (.finish provider event.eventId none (some "No matching payment for providerRef"))
  | some payment =>
    if !isValidPaymentTransition payment.status event.status then do
      let now ← dateNow
      eventOp (.finish provider event.eventId (some now)
        (some s!"Ignored: {statusName payment.status} -> {statusName event.status}"))
    else do
      applyPaymentStatusTransition payment event.status
      let now ← dateNow
      eventOp (.finish provider event.eventId (some now) none)

def applyProviderEvent (provider : ProviderName) (event : ProviderWebhookEvent) (account : Option Id) :
    Promise Unit :=
  match event.refund with
  | some update => do
    applyProviderRefundUpdate provider update account
    let now ← dateNow
    eventOp (.finish provider event.eventId (some now) none)
  | none => applyPaymentEvent provider event account

/-- The entry point of every webhook. The insert of the event record decides
whether it has been seen before. -/
def processProviderEvent (provider : ProviderName) (event : ProviderWebhookEvent) (account : Option Id) :
    Promise Unit := do
  let seen : Except Err Unit ← (eventOp (.create provider event.eventId event.eventType)).attempt
  match seen with
  | .error err => if err.isDuplicateKey then pure () else .raise err
  | .ok _ => applyProviderEvent provider event account

def findPaymentAccount (payment : Payment) : Promise (Option RestaurantPaymentAccount) :=
  match payment.restaurantPaymentAccountId with
  | none => pure none
  | some accountId => accountOp (.findById accountId)

def retrieveProvider (env : Env) (payment : Payment) : Option RestaurantPaymentAccount → Except Err Provider
  | some account => buildProviderFromAccount env account
  | none => getPaymentProvider env payment.provider

def reconcilePayment (env : Env) (payment : Payment) : Promise Unit := do
  let account ← findPaymentAccount payment
  if payment.restaurantPaymentAccountId.isSome && account.isNone then pure ()
  else do
    let provider ← .ofExcept (retrieveProvider env payment account)
    let report : SessionReport ← providerOp (.retrieve provider payment.providerRef)
    let status := provider.snapshotStatus report
    if status = payment.status then pure ()
    else if !isValidPaymentTransition payment.status status then pure ()
    else applyPaymentStatusTransition payment status

/-- One payment that cannot be checked does not stop the sweep. -/
def reconcilePayments (env : Env) : List Payment → Promise Unit
  | [] => pure ()
  | payment :: rest => do
    let _ ← (reconcilePayment env payment).attempt
    reconcilePayments env rest

def reconcileStalePayments (env : Env) : Promise Unit := do
  let now ← dateNow
  let stale : List Payment ← paymentOp (.findStale (now - RECONCILIATION_STALE_AFTER_MS))
  reconcilePayments env stale

/-! ## Card terminals -/

structure CreatePosTerminalInput where
  restaurantId : Id
  orderId : Id
  idempotencyKey : String
  deriving DecidableEq

def getPosTerminalProvider (env : Env) : Promise Provider :=
  if env.posTerminal then pure { name := .mock }
  else throwApi (.badRequest "No POS card-terminal provider is configured for this deployment.")

/-- A terminal asks for the card at once: its payment starts as
`requires_action`. -/
def openTerminalPayment (env : Env) (input : CreatePosTerminalInput) (order : Order) :
    Promise (Payment × Bool) := do
  let restaurant : Option Restaurant ← .call (Op.restaurant input.restaurantId)
  match restaurant with
  | none => throwApi (.notFound "Restaurant not found")
  | some restaurant =>
    if !restaurant.posTerminalEnabled then
      throwApi (.badRequest "A card terminal is not configured for this location.")
    else do
      let provider ← getPosTerminalProvider env
      let providerRef : String ← providerOp (.createTerminalPayment order)
      insertPayment {
        id := 0
        restaurantId := input.restaurantId
        orderId := input.orderId
        customerId := order.customerId
        method := .posTerminal
        provider := provider.name
        providerRef := some providerRef
        currency := order.currency
        amount := order.total
        status := .requiresAction
        idempotencyKey := some input.idempotencyKey
        createdAt := 0 } input.restaurantId input.idempotencyKey

def createPosTerminalPayment (env : Env) (input : CreatePosTerminalInput) : Promise (Payment × Bool) := do
  let existingByKey : Option Payment ← paymentOp (.findByKey input.restaurantId input.idempotencyKey)
  match existingByKey with
  | some existing => pure (existing, false)
  | none => do
    let order : Option Order ← orderOp (.findOne input.orderId input.restaurantId)
    match order with
    | none => throwApi (.notFound "Order not found")
    | some order =>
      if order.channel ≠ .pos then
        throwApi (.badRequest "Only a POS-created order can use the POS card terminal.")
      else if order.paid then throwApi (.conflict "This order is already paid")
      else if order.status = .cancelled then
        throwApi (.badRequest "This order has been cancelled and cannot accept a payment")
      else do
        let reusable : Option Payment ←
          paymentOp (.findReusable input.restaurantId input.orderId (some .posTerminal))
        match reusable with
        | some reusable => pure (reusable, false)
        | none => openTerminalPayment env input order

def loadTerminalPayment (restaurantId orderId paymentId : Id) : Promise Payment := do
  let payment : Option Payment ← paymentOp (.findTerminal restaurantId orderId paymentId)
  match payment with
  | none => throwApi (.notFound "Terminal payment not found")
  | some payment => pure payment

def getPosTerminalPaymentStatus (env : Env) (restaurantId orderId paymentId : Id) : Promise Payment := do
  let payment ← loadTerminalPayment restaurantId orderId paymentId
  if !payment.status.inFlight || (truthy payment.providerRef).isNone then pure payment
  else do
    let polled ← Prog.attempt do
      let provider ← getPosTerminalProvider env
      let report : SessionReport ← providerOp (.retrieve provider payment.providerRef)
      let status := provider.snapshotStatus report
      if status ≠ payment.status ∧ isValidPaymentTransition payment.status status then do
        applyPaymentStatusTransition payment status
        loadTerminalPayment restaurantId orderId paymentId
      else pure payment
    match polled with
    | .ok polled => pure polled
    | .error _ => pure payment

def cancelAtTerminal (env : Env) (providerRef : Option String) : Promise Unit :=
  match truthy providerRef with
  | none => pure ()
  | some ref => do
    let _ ← getPosTerminalProvider env
    providerOp (.cancelTerminalPayment ref)

def cancelPosTerminalPayment (env : Env) (restaurantId orderId paymentId : Id) : Promise Payment := do
  let payment ← loadTerminalPayment restaurantId orderId paymentId
  if !payment.status.inFlight then pure payment
  else do
    cancelAtTerminal env payment.providerRef
    .onlyIf (isValidPaymentTransition payment.status .cancelled) (applyPaymentStatusTransition payment .cancelled)
    loadTerminalPayment restaurantId orderId paymentId

/-! ## Webhook routes -/

def handleProviderWebhook (env : Env) (name : ProviderName) : Promise Unit :=
  if name = .mock ∧ ¬ mockDriversAllowed env then throwApi (.notFound "Not found")
  else
    match getPaymentProvider env name with
    | .error _ =>
      throwApi (.badRequest s!"This deployment is not configured for provider \"{name.text}\"")
    | .ok provider => do
      let body : Option WebhookBody ← .call Op.receive
      match body.bind provider.verifyWebhookSignature with
      | none => throwApi (.badRequest "Invalid webhook signature")
      | some event => processProviderEvent provider.name event none

def noteFirstWebhook (account : RestaurantPaymentAccount) : Promise Unit :=
  .onlyIf account.firstWebhookReceivedAt.isNone do
    let now ← dateNow
    accountOp (.noteFirstWebhook account.id now)

def handleRestaurantAccountWebhook (env : Env) (name : ProviderName) (accountId : Id) : Promise Unit := do
  if name = .mock then throwApi (.badRequest "\"mock\" is not a BYOC-eligible payment provider")
  else do
    let account : Option RestaurantPaymentAccount ← accountOp (.findOne accountId name)
    match account with
    | none => throwApi (.badRequest "No matching restaurant payment account for this provider/id")
    | some account =>
      if account.connectionMode = .platformConnect then
        throwApi (.badRequest "This payment account uses centralized webhook delivery, not a per-account URL")
      else do
        let provider ← .ofExcept (buildProviderFromAccount env account)
        let body : Option WebhookBody ← .call Op.receive
        match body.bind provider.verifyWebhookSignature with
        | none => throwApi (.badRequest "Invalid webhook signature")
        | some event => do
          noteFirstWebhook account
          processProviderEvent provider.name event (some account.id)

/-- `account.updated` and `account.application.deauthorized` on the account
`loaded`. A disconnect is sticky. -/
def applyAccountEvent (loaded : RestaurantPaymentAccount) (eventType : String) (object : Option StripeObject) :
    Promise Unit :=
  if eventType = "account.updated" then
    if loaded.status ≠ .disconnected then
      let status := parseAccountEventObject object
      accountOp (.save loaded { loaded with
        chargesEnabled := some status.chargesEnabled
        payoutsEnabled := some status.payoutsEnabled
        requirementsDue := some status.requirementsDue
        disabledReason := status.disabledReason
        status := resolveConnectAccountStatus status })
    else pure ()
  else accountOp (.save loaded { loaded with status := .disconnected })

def processAccountEvent (loaded : RestaurantPaymentAccount) (eventId eventType : String)
    (object : Option StripeObject) : Promise Unit := do
  let seen : Except Err Unit ← (eventOp (.create .stripe eventId eventType)).attempt
  match seen with
  | .error err => if err.isDuplicateKey then pure () else .raise err
  | .ok _ => do
    applyAccountEvent loaded eventType object
    let now ← dateNow
    eventOp (.finish .stripe eventId (some now) none)

/-- An event of the connected account `account`. -/
def processConnectEvent (account : RestaurantPaymentAccount) (parsed : StripeEventPayload)
    (eventId eventType : String) : Promise Unit :=
  if eventType = "checkout.session.completed" ∨ eventType = "checkout.session.expired" then
    match parsed.object.bind fun session => (truthy session.id).map fun id => (session, id) with
    | none => pure ()
    | some (session, id) => do
      noteFirstWebhook account
      processProviderEvent .stripe
        { eventId, eventType, providerRef := id
          status := sessionEventStatus eventType session.toSessionReport } (some account.id)
  else
    match parseStripeRefundEvent parsed with
    | some refund =>
      processProviderEvent .stripe
        { eventId, eventType, providerRef := refund.refundRef, status := .pending, refund := some refund }
        (some account.id)
    | none =>
      if eventType = "account.updated" ∨ eventType = "account.application.deauthorized" then
        processAccountEvent account eventId eventType parsed.object
      else pure ()

def handleStripeConnectWebhook (env : Env) : Promise Unit :=
  if !env.stripeConnectWebhookSecret then
    throwApi (.badRequest "This deployment is not configured for Stripe Connect webhooks")
  else do
    let body : Option WebhookBody ← .call Op.receive
    match body with
    | none => throwApi (.badRequest "Invalid webhook signature")
    | some body =>
      match truthy body.stripe.id, truthy body.stripe.type, truthy body.stripe.account with
      | some eventId, some eventType, some connectedAccountId => do
        let account : Option RestaurantPaymentAccount ← accountOp (.findConnected connectedAccountId)
        match account with
        | none => pure ()
        | some account => processConnectEvent account body.stripe eventId eventType
      | _, _, _ => throwApi (.badRequest "Malformed Stripe Connect event")

end RestaurantOs.Payments
