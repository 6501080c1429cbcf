import RestaurantOs.Async.Run
import RestaurantOs.Data.Tables
import RestaurantOs.Payments.Providers

/-!
# The store

One operation for each awaited call of the payment code: a query or a write of
the database, a call of a provider, a reading of the clock. What a provider has
received and refunded is kept beside the database.
-/

namespace RestaurantOs.Payments

open Async

structure RefundRequest where
  key : ProviderRefundKey
  paymentId : Id
  amount : ℚ
  deriving DecidableEq

structure ProviderRefund extends RefundRequest where
  status : RefundStatus
  deriving DecidableEq

/-- `refundRefs` is the reference the provider gives the refund of a key. -/
structure World where
  now : Time := 0
  nextId : Id := 0
  restaurants : List Restaurant := []
  orders : List Order := []
  payments : List Payment := []
  refunds : List Refund := []
  webhookEvents : List PaymentWebhookEvent := []
  accounts : List RestaurantPaymentAccount := []
  received : List RefundRequest := []
  ledger : List ProviderRefund := []
  refundRefs : ProviderRefundKey → String := fun _ => ""

/-- `provider.refund(payment.providerRef, claim.amount, …)`. A re-issued call
holds the refund when it is refused, a first one deletes the claim. -/
structure RefundCall where
  claim : Refund
  payment : Payment
  provider : Provider
  reissue : Bool
  deriving DecidableEq

def RefundCall.request (call : RefundCall) : RefundRequest where
  key := call.claim.refundKey
  paymentId := call.payment.id
  amount := call.claim.amount

/-- The fields of a provider's report that a refund keeps; `none` leaves the
stored value. -/
structure RefundDetails where
  providerRefundRef : Option String := none
  providerStatus : Option String := none
  deriving DecidableEq

/-- `Refund.findOneAndUpdate({ _id, status: from }, …)` -/
structure Settlement where
  id : Id
  source : RefundStatus
  target : RefundStatus
  details : RefundDetails
  resolution : Option Resolution
  deriving DecidableEq

inductive RefundOp
  | findByKey (restaurantId : Id) (idempotencyKey : String)
  | findById (id : Id)
  | findOne (id restaurantId paymentId orderId : Id)
  | findWaiting (paymentId : Id)
  | findByRef (provider : ProviderName) (ref : String)
  | findByRefundKey (provider : ProviderName) (key : ProviderRefundKey)
  | findUpdated (id : Id)
  | create (draft : Refund)
  | deleteUnreserved (claim : Refund)
  | deleteRefused (claim : Refund)
  | markReserved (claim : Refund)
  | setOutcomeUnknown (claim : Refund)
  | setDetails (id : Id) (details : RefundDetails) (clearUnknown : Bool)
  | settle (settlement : Settlement)
  | setLookup (id : Id) (time : Time) (result : LookupResult)
  | lease (id : Id) (now expiry : Time)
  | unlease (id : Id)
  | sumSucceeded (payment : Payment)
  deriving DecidableEq

inductive PaymentOp
  | findByKey (restaurantId : Id) (idempotencyKey : String)
  | findOne (id restaurantId : Id)
  | findById (id : Id)
  | findReusable (restaurantId orderId : Id) (method : Option PaymentMethod)
  | findByProviderRef (provider : ProviderName) (ref : String) (account : Option Id)
  | findStale (before : Time)
  | findTerminal (restaurantId orderId id : Id)
  | create (draft : Payment)
  | reserve (payment : Payment) (claim : Refund)
  | release (payment : Payment) (claim : Refund)
  | count (refund : Refund)
  | giveBack (refund : Refund)
  | setStatus (payment : Payment) (next : PaymentStatus)
  | transition (payment : Payment) (next : PaymentStatus)
  deriving DecidableEq

inductive OrderOp
  | findOne (id restaurantId : Id)
  | findById (id : Id)
  | reverseLoyalty (order : Order)
  | emit (order : Order) (paymentOutcome : PaymentStatus) (amount : Option ℚ)
  | save (order : Order) (entry : StatusHistoryEntry)
  | setPaymentStatus (id restaurantId : Id) (paid : Bool)
  | dispatchCreate (order : Order)
  | announce (eventType : String) (order : Order) (status : OrderStatus)
  deriving DecidableEq

inductive EventOp
  | create (provider : ProviderName) (eventId eventType : String)
  | finish (provider : ProviderName) (eventId : String) (processedAt : Option Time)
      (processingError : Option String)
  deriving DecidableEq

/-- A `save` writes the fields on which the copy differs from what was
loaded. -/
inductive AccountOp
  | findById (id : Id)
  | findOne (id : Id) (provider : ProviderName)
  | findActive (restaurantId : Id)
  | findConnected (connectedAccountId : String)
  | findResumable (restaurantId : Id)
  | findSyncable (restaurantId : Id)
  | findConnection (restaurantId : Id)
  | disconnectOthers (restaurantId : Id) (kept : Option Id)
  | insert (account : RestaurantPaymentAccount)
  | save (loaded account : RestaurantPaymentAccount)
  | noteFirstWebhook (id : Id) (time : Time)
  deriving DecidableEq

inductive ProviderOp
  | createIntent (provider : Provider) (order : Order) (currency returnUrl : String)
  | retrieve (provider : Provider) (providerRef : Option String)
  | refundSent (call : RefundCall)
  | refundAnswered (call : RefundCall)
  | lookupRefund (provider : Provider) (payment : Payment) (refundKey : ProviderRefundKey)
      (refundRef : Option String)
  | createTerminalPayment (order : Order)
  | cancelTerminalPayment (providerRef : String)
  | verifyCredentials (account : RestaurantPaymentAccount)
  | createConnectedAccount (country email : String)
  | createAccountLink (connectedAccountId : String)
  | retrieveAccount (connectedAccountId : String)
  deriving DecidableEq

inductive AuditAction
  | refundHeld | refundReconciled | accountConnected | accountDisconnected | orderCancelled | orderStatusChanged
  deriving DecidableEq

inductive Op
  | clock
  | receive
  | restaurant (id : Id)
  | audit (action : AuditAction) (targetId : Id) (actorUserId : Id)
  | refund (op : RefundOp)
  | payment (op : PaymentOp)
  | order (op : OrderOp)
  | event (op : EventOp)
  | account (op : AccountOp)
  | provider (op : ProviderOp)
  deriving DecidableEq

@[reducible] def RefundOp.Resp : RefundOp → Type
  | create _ => Refund
  | deleteUnreserved _ | deleteRefused _ | markReserved _ | setOutcomeUnknown _ | setDetails _ _ _
  | setLookup _ _ _ | unlease _ => Unit
  | sumSucceeded _ => ℚ
  | _ => Option Refund

@[reducible] def PaymentOp.Resp : PaymentOp → Type
  | create _ => Payment
  | findStale _ => List Payment
  | release _ _ | count _ | giveBack _ | setStatus _ _ => Unit
  | transition _ _ => Option Order
  | _ => Option Payment

@[reducible] def OrderOp.Resp : OrderOp → Type
  | findOne _ _ | findById _ | setPaymentStatus _ _ _ => Option Order
  | _ => Unit

@[reducible] def AccountOp.Resp : AccountOp → Type
  | insert _ => RestaurantPaymentAccount
  | disconnectOthers _ _ | save _ _ | noteFirstWebhook _ _ => Unit
  | _ => Option RestaurantPaymentAccount

@[reducible] def ProviderOp.Resp : ProviderOp → Type
  | createIntent _ _ _ _ | createTerminalPayment _ | createConnectedAccount _ _ | createAccountLink _ => String
  | retrieve _ _ => SessionReport
  | refundSent _ | cancelTerminalPayment _ => Unit
  | refundAnswered _ => ProviderRefundResult
  | lookupRefund _ _ _ _ => Option ProviderRefundResult
  | verifyCredentials _ => Bool
  | retrieveAccount _ => ConnectedAccountStatus

@[reducible] def Op.Resp : Op → Type
  | clock => Time
  | receive => Option WebhookBody
  | restaurant _ => Option Restaurant
  | audit _ _ _ => Unit
  | refund op => op.Resp
  | payment op => op.Resp
  | order op => op.Resp
  | event _ => Unit
  | account op => op.Resp
  | provider op => op.Resp

/-- What the environment answers the operation that asks for it. -/
structure Answer where
  text : Except Err String := .ok ""
  report : Except Err SessionReport := .ok {}
  refund : Except Err ProviderRefundResult := .error (.providerRequest "" .unknown)
  lookup : Except Err (Option ProviderRefundResult) := .error (.providerRequest "" .unknown)
  cancel : Except Err Unit := .ok ()
  verified : Except Err Bool := .ok true
  account : Except Err ConnectedAccountStatus := .error (.other "")
  body : Option WebhookBody := none

/-- Something that happens outside the requests: time passes, the provider
processes a refund request it has received, or a refund of its own goes on. -/
inductive Event
  | tick (elapsed : Time)
  | process (index : Nat) (status : RefundStatus)
  | update (key : ProviderRefundKey) (status : RefundStatus)
  deriving DecidableEq

/-! ## Refunds -/

/-- The unique index on `{ provider, providerRefundRef }`. -/
def refTaken (refunds : List Refund) (refund : Refund) (details : RefundDetails) : Bool :=
  details.providerRefundRef.isSome &&
    refunds.any fun other =>
      other.id ≠ refund.id && other.provider = refund.provider &&
        other.providerRefundRef = details.providerRefundRef

def Refund.withDetails (refund : Refund) (details : RefundDetails) : Refund :=
  { refund with
    providerRefundRef := details.providerRefundRef.or refund.providerRefundRef
    providerStatus := details.providerStatus.or refund.providerStatus }

def Refund.settled (refund : Refund) (s : Settlement) : Refund :=
  { refund.withDetails s.details with
    status := s.target
    amountReserved := s.target ≠ .failed
    resolution := s.resolution.or refund.resolution
    providerOutcomeUnknown := false }

def Refund.noted (refund : Refund) (details : RefundDetails) (clearUnknown : Bool) : Refund :=
  { refund.withDetails details with
    providerOutcomeUnknown := !clearUnknown && refund.providerOutcomeUnknown }

def Refund.withReservation (refund : Refund) : Refund := { refund with amountReserved := true }

def Refund.withOutcomeUnknown (refund : Refund) : Refund := { refund with providerOutcomeUnknown := true }

def Refund.lookedUp (refund : Refund) (time : Time) (result : LookupResult) : Refund :=
  { refund with lastLookupAt := some time, lastLookupResult := some result }

def Refund.withLease (refund : Refund) (expiry : Option Time) : Refund :=
  { refund with reissueLeaseUntil := expiry }

def Payment.addRefunded (payment : Payment) (amount : ℚ) : Payment :=
  { payment with totalRefunded := payment.totalRefunded + amount }

def Payment.withStatus (payment : Payment) (status : PaymentStatus) : Payment := { payment with status }

/-- `order.status = status; order.statusHistory.push({ status, at })` -/
def Order.moved (order : Order) (entry : StatusHistoryEntry) : Order :=
  { order with status := entry.status, statusHistory := order.statusHistory ++ [entry] }

def Order.withPaid (order : Order) (paid : Bool) : Order := { order with paid }

def Refund.leaseFree (refund : Refund) (now : Time) : Bool :=
  match refund.reissueLeaseUntil with
  | none => true
  | some expiry => expiry < now

namespace World

def updateRefunds (w : World) (sel : Refund → Bool) (f : Refund → Refund) : World :=
  { w with refunds := Tables.update sel f w.refunds }

def updatePayments (w : World) (sel : Payment → Bool) (f : Payment → Payment) : World :=
  { w with payments := Tables.update sel f w.payments }

def updateOrders (w : World) (sel : Order → Bool) (f : Order → Order) : World :=
  { w with orders := Tables.update sel f w.orders }

def updateAccounts (w : World) (sel : RestaurantPaymentAccount → Bool)
    (f : RestaurantPaymentAccount → RestaurantPaymentAccount) : World :=
  { w with accounts := Tables.update sel f w.accounts }

end World

def RefundOp.perform : (op : RefundOp) → World → Except Err op.Resp × World
  | findByKey restaurantId idempotencyKey, w =>
    (.ok (w.refunds.find? fun r => r.restaurantId = restaurantId && r.idempotencyKey = idempotencyKey), w)
  | findById id, w => (.ok (w.refunds.find? fun r => r.id = id), w)
  | findOne id restaurantId paymentId orderId, w =>
    (.ok (w.refunds.find? fun r => r.id = id && r.restaurantId = restaurantId && r.paymentId = paymentId &&
      r.orderId = orderId), w)
  | findWaiting paymentId, w =>
    (.ok (Tables.oldest Refund.createdAt
      (w.refunds.filter fun r => r.paymentId = paymentId && r.status = .pending)), w)
  | findByRef provider ref, w =>
    (.ok (w.refunds.find? fun r => r.provider = provider && r.providerRefundRef = some ref), w)
  | findByRefundKey provider key, w =>
    (.ok (w.refunds.find? fun r => r.provider = provider && r.providerRefundKey = some key), w)
  | findUpdated id, w => (.ok (w.refunds.find? fun r => r.id = id), w)
  | create draft, w =>
    if w.refunds.any fun r => r.restaurantId = draft.restaurantId && r.idempotencyKey = draft.idempotencyKey then
      (.error .duplicateKey, w)
    else
      let refund : Refund := { draft with id := w.nextId, createdAt := w.now }
      (.ok refund, { w with refunds := w.refunds ++ [refund], nextId := w.nextId + 1 })
  | deleteUnreserved claim, w =>
    (.ok (), { w with refunds := w.refunds.filter fun r => !(r.id = claim.id && r.status = .pending) })
  | deleteRefused claim, w =>
    (.ok (), { w with refunds := w.refunds.filter fun r => !(r.id = claim.id && r.status = .pending) })
  | markReserved claim, w =>
    (.ok (), w.updateRefunds (fun r => r.id = claim.id && r.status = .pending) Refund.withReservation)
  | setOutcomeUnknown claim, w =>
    (.ok (), w.updateRefunds (fun r => r.id = claim.id && r.status = .pending) Refund.withOutcomeUnknown)
  | setDetails id details clearUnknown, w =>
    match w.refunds.find? fun r => r.id = id with
    | none => (.ok (), w)
    | some refund =>
      if refTaken w.refunds refund details then (.error .duplicateKey, w)
      else (.ok (), w.updateRefunds (fun r => r.id = id) (·.noted details clearUnknown))
  | settle s, w =>
    match w.refunds.find? fun r => r.id = s.id && r.status = s.source with
    | none => (.ok none, w)
    | some before =>
      if refTaken w.refunds before s.details then (.error .duplicateKey, w)
      else (.ok (some before), w.updateRefunds (fun r => r.id = s.id && r.status = s.source) (·.settled s))
  | setLookup id time result, w =>
    (.ok (), w.updateRefunds (fun r => r.id = id) (·.lookedUp time result))
  | lease id now expiry, w =>
    match w.refunds.find? fun r => r.id = id && r.status = .pending && r.leaseFree now with
    | none => (.ok none, w)
    | some refund =>
      (.ok (some (refund.withLease (some expiry))),
        w.updateRefunds (fun r => r.id = id && r.status = .pending && r.leaseFree now)
          (·.withLease (some expiry)))
  | unlease id, w =>
    (.ok (), w.updateRefunds (fun r => r.id = id) (·.withLease none))
  | sumSucceeded payment, w =>
    let succeeded := w.refunds.filter fun r => r.paymentId = payment.id && r.status = .succeeded
    (.ok (Tables.total Refund.amount succeeded : ℚ), w)

/-! ## Payments -/

/-- The unique index on `{ orderId }` where `status` is `paid`. -/
def paidTaken (payments : List Payment) (payment : Payment) : Bool :=
  payments.any fun other => other.id ≠ payment.id && other.orderId = payment.orderId && other.status = .paid

def paymentTaken (payments : List Payment) (draft : Payment) : Bool :=
  payments.any fun other =>
    (draft.idempotencyKey.isSome && other.restaurantId = draft.restaurantId &&
        other.idempotencyKey = draft.idempotencyKey) ||
      (draft.providerRef.isSome && other.provider = draft.provider && other.providerRef = draft.providerRef) ||
      (draft.status = .paid && other.orderId = draft.orderId && other.status = .paid)

/-- `$inc: { totalRefunded: amount }` -/
def World.addRefunded (w : World) (paymentId : Id) (amount : ℚ) : World :=
  w.updatePayments (fun p => p.id = paymentId) (·.addRefunded amount)

def World.findOrder (w : World) (id restaurantId : Id) : Option Order :=
  w.orders.find? fun o => o.id = id && o.restaurantId = restaurantId

def PaymentOp.perform : (op : PaymentOp) → World → Except Err op.Resp × World
  | findByKey restaurantId idempotencyKey, w =>
    (.ok (w.payments.find? fun p => p.restaurantId = restaurantId && p.idempotencyKey = some idempotencyKey), w)
  | findOne id restaurantId, w =>
    (.ok (w.payments.find? fun p => p.id = id && p.restaurantId = restaurantId), w)
  | findById id, w => (.ok (w.payments.find? fun p => p.id = id), w)
  | findReusable restaurantId orderId method, w =>
    (.ok (Tables.newest Payment.createdAt (w.payments.filter fun p =>
      p.restaurantId = restaurantId && p.orderId = orderId && method.all (p.method = ·) &&
        p.status.inFlight)), w)
  | findByProviderRef provider ref account, w =>
    (.ok (w.payments.find? fun p => p.provider = provider && p.providerRef = some ref &&
      account.all (p.restaurantPaymentAccountId = some ·)), w)
  | findStale before, w =>
    (.ok ((w.payments.filter fun p => (p.status = .pending || p.status = .requiresAction) &&
      p.method = .online && p.providerRef.isSome && p.createdAt < before).take RECONCILIATION_BATCH_LIMIT), w)
  | findTerminal restaurantId orderId id, w =>
    (.ok (w.payments.find? fun p => p.id = id && p.restaurantId = restaurantId && p.orderId = orderId &&
      p.method = .posTerminal), w)
  | create draft, w =>
    if draft.amount < 0 then (.error (.other "Payment validation failed"), w)
    else if paymentTaken w.payments draft then (.error .duplicateKey, w)
    else
      let payment : Payment := { draft with id := w.nextId, createdAt := w.now }
      (.ok payment, { w with payments := w.payments ++ [payment], nextId := w.nextId + 1 })
  | reserve payment claim, w =>
    let sel := fun p : Payment => p.id = payment.id && p.status.refundable &&
      p.totalRefunded + claim.amount ≤ p.amount
    match w.payments.find? sel with
    | none => (.ok none, w)
    | some p =>
      (.ok (some (p.addRefunded claim.amount)), w.updatePayments sel (·.addRefunded claim.amount))
  | release payment claim, w => (.ok (), w.addRefunded payment.id (-claim.amount))
  | count refund, w => (.ok (), w.addRefunded refund.paymentId refund.amount)
  | giveBack refund, w => (.ok (), w.addRefunded refund.paymentId (-refund.amount))
  | setStatus payment next, w =>
    match w.payments.find? fun p => p.id = payment.id with
    | none => (.ok (), w)
    | some stored =>
      if next = .paid ∧ paidTaken w.payments stored then (.error .duplicateKey, w)
      else (.ok (), w.updatePayments (fun p => p.id = payment.id) (·.withStatus next))
  | transition payment next, w =>
    match w.payments.find? fun p => p.id = payment.id && p.status ≠ next with
    | none => (.ok none, w)
    | some stored =>
      if next = .paid ∧ paidTaken w.payments stored then (.error .duplicateKey, w)
      else
        let w' := w.updatePayments (fun p => p.id = payment.id && p.status ≠ next) (·.withStatus next)
        if next = .paid then
          let w'' := { w' with
            orders := Tables.update (fun o => o.id = payment.orderId && o.restaurantId = payment.restaurantId)
              (fun o => { o with paid := true }) w'.orders }
          (.ok (w''.findOrder payment.orderId payment.restaurantId), w'')
        else if next = .failed ∨ next = .cancelled then
          (.ok (w'.findOrder payment.orderId payment.restaurantId), w')
        else (.ok none, w')

/-! ## The other collections -/

def OrderOp.perform : (op : OrderOp) → World → Except Err op.Resp × World
  | findOne id restaurantId, w => (.ok (w.findOrder id restaurantId), w)
  | findById id, w => (.ok (w.orders.find? fun o => o.id = id), w)
  | reverseLoyalty _, w => (.ok (), w)
  | emit _ _ _, w => (.ok (), w)
  | save order entry, w => (.ok (), w.updateOrders (fun o => o.id = order.id) (·.moved entry))
  | setPaymentStatus id restaurantId paid, w =>
    let w' := w.updateOrders (fun o => o.id = id && o.restaurantId = restaurantId) (·.withPaid paid)
    (.ok (w'.findOrder id restaurantId), w')
  | dispatchCreate _, w => (.ok (), w)
  | announce _ _ _, w => (.ok (), w)

def EventOp.perform : EventOp → World → Except Err Unit × World
  | create provider eventId eventType, w =>
    if w.webhookEvents.any fun e => e.provider = provider && e.eventId = eventId then (.error .duplicateKey, w)
    else (.ok (), { w with webhookEvents := w.webhookEvents ++ [{ provider, eventId, eventType }] })
  | finish provider eventId processedAt processingError, w =>
    (.ok (), { w with
      webhookEvents := Tables.update (fun e => e.provider = provider && e.eventId = eventId)
        (fun e => { e with
          processedAt := processedAt.or e.processedAt
          processingError := processingError.or e.processingError }) w.webhookEvents })

def overwrite {α : Type} [DecidableEq α] (loaded saved stored : α) : α := if saved = loaded then stored else saved

def RestaurantPaymentAccount.saveOver (loaded saved stored : RestaurantPaymentAccount) :
    RestaurantPaymentAccount :=
  { stored with
    status := overwrite loaded.status saved.status stored.status
    chargesEnabled := overwrite loaded.chargesEnabled saved.chargesEnabled stored.chargesEnabled
    payoutsEnabled := overwrite loaded.payoutsEnabled saved.payoutsEnabled stored.payoutsEnabled
    requirementsDue := overwrite loaded.requirementsDue saved.requirementsDue stored.requirementsDue
    disabledReason := overwrite loaded.disabledReason saved.disabledReason stored.disabledReason
    lastVerifiedAt := overwrite loaded.lastVerifiedAt saved.lastVerifiedAt stored.lastVerifiedAt
    lastVerificationError :=
      overwrite loaded.lastVerificationError saved.lastVerificationError stored.lastVerificationError }

/-- The unique index on `{ restaurantId }` where `status` is `active`. -/
def activeTaken (accounts : List RestaurantPaymentAccount) (account : RestaurantPaymentAccount) : Bool :=
  accounts.any fun other =>
    other.id ≠ account.id && other.restaurantId = account.restaurantId && other.status = .active

def AccountOp.perform : (op : AccountOp) → World → Except Err op.Resp × World
  | findById id, w => (.ok (w.accounts.find? fun a => a.id = id), w)
  | findOne id provider, w => (.ok (w.accounts.find? fun a => a.id = id && a.provider = provider), w)
  | findActive restaurantId, w =>
    (.ok (w.accounts.find? fun a => a.restaurantId = restaurantId && a.status = .active), w)
  | findConnected connectedAccountId, w =>
    (.ok (w.accounts.find? fun a => a.connectedAccountId = some connectedAccountId && a.provider = .stripe), w)
  | findResumable restaurantId, w =>
    (.ok (w.accounts.find? fun a => a.restaurantId = restaurantId && a.provider = .stripe &&
      a.connectionMode = .platformConnect &&
        (a.status = .pendingVerification || a.status = .actionRequired)), w)
  | findSyncable restaurantId, w =>
    (.ok (Tables.newest RestaurantPaymentAccount.createdAt (w.accounts.filter fun a =>
      a.restaurantId = restaurantId && a.provider = .stripe && a.connectionMode = .platformConnect &&
        a.status ≠ .disconnected)), w)
  | findConnection restaurantId, w =>
    (.ok (Tables.newest RestaurantPaymentAccount.createdAt (w.accounts.filter fun a =>
      a.restaurantId = restaurantId &&
        (a.status = .active || a.status = .actionRequired || a.status = .pendingVerification))), w)
  | disconnectOthers restaurantId kept, w =>
    (.ok (), w.updateAccounts
      (fun a => a.restaurantId = restaurantId && a.status = .active && kept ≠ some a.id)
      fun a => { a with status := .disconnected })
  | insert account, w =>
    let account := { account with id := w.nextId, createdAt := w.now }
    if account.status = .active ∧ activeTaken w.accounts account then (.error .duplicateKey, w)
    else (.ok account, { w with accounts := w.accounts ++ [account], nextId := w.nextId + 1 })
  | save loaded account, w =>
    match w.accounts.find? fun a => a.id = loaded.id with
    | none => (.error (.other "No document found"), w)
    | some stored =>
      let saved := loaded.saveOver account stored
      if saved.status = .active ∧ activeTaken w.accounts saved then (.error .duplicateKey, w)
      else (.ok (), w.updateAccounts (fun a => a.id = loaded.id) (loaded.saveOver account))
  | noteFirstWebhook id time, w =>
    (.ok (), w.updateAccounts (fun a => a.id = id) fun a => { a with firstWebhookReceivedAt := some time })

/-! ## The provider -/

def ProviderOp.perform : (op : ProviderOp) → Answer → World → Except Err op.Resp × World
  | createIntent _ _ _ _, a, w => (a.text, w)
  | retrieve _ _, a, w => (a.report, w)
  | refundSent call, _, w => (.ok (), { w with received := w.received ++ [call.request] })
  | refundAnswered call, a, w =>
    match a.refund with
    | .error e => (.error e, if e.isRejected then { w with received := w.received.erase call.request } else w)
    | .ok result => (.ok result, w)
  | lookupRefund _ _ _ _, a, w => (a.lookup, w)
  | createTerminalPayment _, a, w => (a.text, w)
  | cancelTerminalPayment _, a, w => (a.cancel, w)
  | verifyCredentials _, a, w => (a.verified, w)
  | createConnectedAccount _ _, a, w => (a.text, w)
  | createAccountLink _, a, w => (a.text, w)
  | retrieveAccount _, a, w => (a.account, w)

def Op.perform : (op : Op) → Answer → World → Except Err op.Resp × World
  | clock, _, w => (.ok w.now, w)
  | receive, a, w => (.ok a.body, w)
  | restaurant id, _, w => (.ok (w.restaurants.find? fun r => r.id = id), w)
  | audit _ _ _, _, w => (.ok (), w)
  | refund op, _, w => op.perform w
  | payment op, _, w => op.perform w
  | order op, _, w => op.perform w
  | event op, _, w => op.perform w
  | account op, _, w => op.perform w
  | provider op, a, w => op.perform a w

/-- A refund request the provider processes makes one refund a key: a second
request with the key is answered from the first. -/
def Event.advance : Event → World → World
  | tick elapsed, w => { w with now := w.now + elapsed }
  | process index status, w =>
    match w.received[index]? with
    | none => w
    | some request =>
      { w with
        received := w.received.eraseIdx index
        ledger :=
          if w.ledger.any (·.key = request.key) then w.ledger else w.ledger ++ [{ toRefundRequest := request, status }] }
  | update key status, w =>
    { w with
      ledger := Tables.update (fun e => e.key = key && (refundTransitions e.status).contains status)
        (fun e => { e with status }) w.ledger }

@[reducible] def store : Store Op Op.Resp Err World Answer Event where
  perform := Op.perform
  advance := Event.advance

instance : Inhabited Answer := ⟨{}⟩

instance : Inhabited World := ⟨{}⟩

end RestaurantOs.Payments
