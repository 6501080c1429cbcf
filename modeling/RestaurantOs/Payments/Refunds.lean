import RestaurantOs.Payments.Store

/-!
# Refunds

`refundPayment`, the reconciliation of a held refund, its resolution by a
person and the provider's refund webhooks, each as the sequence of operations
its code awaits.
-/

namespace RestaurantOs.Payments

open Async

abbrev Promise (α : Type) := Prog Op Op.Resp Err α

def refundOp (op : RefundOp) : Promise op.Resp := .call (Op.refund op)

def paymentOp (op : PaymentOp) : Promise op.Resp := .call (Op.payment op)

def orderOp (op : OrderOp) : Promise op.Resp := .call (Op.order op)

def eventOp (op : EventOp) : Promise Unit := .call (Op.event op)

def accountOp (op : AccountOp) : Promise op.Resp := .call (Op.account op)

def providerOp (op : ProviderOp) : Promise op.Resp := .call (Op.provider op)

def dateNow : Promise Time := .call Op.clock

def recordAuditEvent (action : AuditAction) (targetId actorUserId : Id) : Promise Unit :=
  .call (Op.audit action targetId actorUserId)

def throwApi {α : Type} (error : ApiError) : Promise α := .raise (.api error)

def nonNull {α : Type} : Option α → Promise α
  | some a => .ret a
  | none => .raise .nullDocument

structure ActorContext where
  actorUserId : Id
  actorRole : String
  deriving DecidableEq

/-- What a source says happened to a refund. -/
structure RefundReport where
  status : RefundStatus
  refundRef : Option String := none
  providerStatus : Option String := none
  deriving DecidableEq

def ProviderRefundResult.report (result : ProviderRefundResult) : RefundReport where
  status := result.status
  refundRef := some result.refundRef
  providerStatus := result.providerStatus

/-- The provider this payment's refunds go through: the credentials the charge
used, whatever the account's status is now. -/
def refundProviderFor (env : Env) (payment : Payment) : Promise Provider :=
  match payment.restaurantPaymentAccountId with
  | none => .ofExcept (getPaymentProvider env env.paymentProvider)
  | some accountId => do
    let account : Option RestaurantPaymentAccount ← accountOp (.findById accountId)
    match account with
    | none => .raise (.other s!"This payment's restaurant payment account ({accountId}) no longer exists.")
    | some account => .ofExcept (buildProviderFromAccount env account)

def syncPaymentRefundStatus (paymentId : Id) : Promise (Option PaymentStatus) := do
  let payment : Option Payment ← paymentOp (.findById paymentId)
  match payment with
  | none => pure none
  | some payment =>
    if !payment.status.collected then pure (some payment.status)
    else do
      let total : ℚ ← refundOp (.sumSucceeded payment)
      let next := refundedStatus payment.amount (roundCurrency total)
      if next = payment.status then pure (some next)
      else do
        paymentOp (.setStatus payment next)
        pure (some next)

/-- The customer's side of a refund that succeeded: loyalty is reversed only
when all of the payment is refunded. -/
def announceRefund (updated : Refund) (paymentStatus : Option PaymentStatus) : Promise Unit := do
  let order : Option Order ← orderOp (.findById updated.orderId)
  match order with
  | none => pure ()
  | some order => do
    .onlyIf (paymentStatus = some .refunded) (orderOp (.reverseLoyalty order))
    orderOp (.emit order .refunded (some updated.amount))

def Refund.counted (refund : Refund) : Bool := refund.amountReserved || refund.status = .succeeded

/-- The change to the payment's total: an amount it counts is given back only
on entering `failed`, and a success it does not count is counted now. -/
def adjustTotal (before updated : Refund) (dst : RefundStatus) : Promise Unit :=
  if dst = .failed ∧ before.counted then paymentOp (.giveBack updated)
  else if dst = .succeeded ∧ ¬ before.counted then paymentOp (.count updated)
  else pure ()

/-- What `applyRefundOutcome` does once its update has taken effect. `before`
is the document the update replaced, `updated` the one it left. -/
def settlementEffects (before updated : Refund) (dst : RefundStatus) (method : ReportMethod)
    (ctx : ActorContext) : Promise (Option Refund) := do
  adjustTotal before updated dst
  let paymentStatus ← syncPaymentRefundStatus updated.paymentId
  .onlyIf (method ≠ .providerResponse ∨ dst = .failed)
    (recordAuditEvent .refundReconciled updated.paymentId ctx.actorUserId)
  .onlyIf (dst = .succeeded) (announceRefund updated paymentStatus)
  pure (some updated)

def reportDetails (current : Refund) (report : RefundReport) : RefundDetails where
  providerRefundRef := if (truthy current.providerRefundRef).isNone then truthy report.refundRef else none
  providerStatus := truthy report.providerStatus

def reportResolution (current : Refund) (report : RefundReport) (method : ReportMethod) (ctx : ActorContext)
    (evidence : Option String) (now : Time) : Option Resolution :=
  if method = .providerResponse then none
  else some {
    method
    refunded := report.status = .succeeded
    providerRefundRef := report.refundRef.or current.providerRefundRef
    evidence
    resolvedByUserId := if ctx.actorRole = "system" then none else some ctx.actorUserId
    resolvedAt := now }

/-- The one place a refund changes status. The change is a single update
guarded by the status it was decided on. -/
def applyRefundOutcome (refund : Refund) (report : RefundReport) (method : ReportMethod) (ctx : ActorContext)
    (evidence : Option String := none) : Promise (Option Refund) := do
  let current : Option Refund ← refundOp (.findById refund.id)
  match current with
  | none => pure (some refund)
  | some current =>
    if current.status = report.status then do
      refundOp (.setDetails current.id (reportDetails current report) (method ≠ .manual))
      refundOp (.findById current.id)
    else if !(refundTransitions current.status).contains report.status then pure (some current)
    else do
      let now ← dateNow
      let before : Option Refund ← refundOp (.settle {
        id := current.id
        source := current.status
        target := report.status
        details := reportDetails current report
        resolution := reportResolution current report method ctx evidence now })
      match before with
      | none => refundOp (.findById current.id)
      | some before => do
        let updated : Option Refund ← refundOp (.findUpdated current.id)
        let updated ← nonNull updated
        settlementEffects before updated report.status method ctx

def REFUND_ON_HOLD_MESSAGE : String :=
  "The payment provider didn't confirm this refund, so it may or may not have gone through. It's on hold — the amount stays reserved so it can't be refunded twice. Open the order's payment panel to check it with the provider or resolve it."

def callProviderAndRecord (claim : Refund) (payment : Payment) (provider : Provider) (reissue : Bool)
    (ctx : ActorContext) : Promise (Option Refund) := do
  let call : RefundCall := { claim, payment, provider, reissue }
  providerOp (.refundSent call)
  let result : Except Err ProviderRefundResult ← (providerOp (.refundAnswered call)).attempt
  match result with
  | .error err =>
    if err.isRejected then
      if reissue then .raise err
      else do
        paymentOp (.release payment claim)
        refundOp (.deleteRefused claim)
        .raise err
    else do
      refundOp (.setOutcomeUnknown claim)
      recordAuditEvent .refundHeld payment.id ctx.actorUserId
      throwApi (.serviceUnavailable REFUND_ON_HOLD_MESSAGE)
  | .ok result => applyRefundOutcome claim result.report .providerResponse ctx

inductive RefundReconcileOutcome
  | alreadyFinal | inProgress | found | reissued | notFound | inconclusive | manualRequired
  deriving DecidableEq

def reissueLeased (leased : Refund) (payment : Payment) (provider : Provider) (ctx : ActorContext) :
    Promise (Option Refund × RefundReconcileOutcome) :=
  Prog.finallyDo
    (do
      let reissued : Except Err (Option Refund) ←
        (callProviderAndRecord leased payment provider true ctx).attempt
      match reissued with
      | .ok refund => pure (refund, .reissued)
      | .error _ => do
        let refund : Option Refund ← refundOp (.findById leased.id)
        pure (refund, .inconclusive))
    (refundOp (.unlease leased.id))

def reissueMissing (refund : Refund) (payment : Payment) (provider : Provider) (ctx : ActorContext)
    (allowReissue : Bool) : Promise (Option Refund × RefundReconcileOutcome) := do
  let lookedUpAt ← dateNow
  refundOp (.setLookup refund.id lookedUpAt .notFound)
  let fresh : Option Refund ← refundOp (.findById refund.id)
  let fresh ← nonNull fresh
  let now ← dateNow
  if allowReissue ∧ provider.supportsRefundIdempotency ∧ (truthy fresh.providerRefundRef).isNone ∧
      fresh.amountReserved ∧ now < fresh.createdAt + PROVIDER_IDEMPOTENCY_WINDOW_MS then do
    let leased : Option Refund ← refundOp (.lease fresh.id now (now + STALE_REFUND_CLAIM_MS))
    match leased with
    | none => pure (some fresh, .inProgress)
    | some leased => reissueLeased leased payment provider ctx
  else pure (some fresh, .notFound)

def reconcileRefund (env : Env) (refund : Refund) (ctx : ActorContext) (allowReissue : Bool) :
    Promise (Option Refund × RefundReconcileOutcome) := do
  if refund.status ≠ .pending then pure (some refund, .alreadyFinal)
  else do
    let now ← dateNow
    if !isHeld now refund && (truthy refund.providerRefundRef).isNone then pure (some refund, .inProgress)
    else do
      let payment : Option Payment ← paymentOp (.findById refund.paymentId)
      match payment with
      | none => pure (some refund, .manualRequired)
      | some payment => do
        let provider ← refundProviderFor env payment
        if !provider.supportsRefundLookup then pure (some refund, .manualRequired)
        else do
          let result : Except Err (Option ProviderRefundResult) ←
            (providerOp (.lookupRefund provider payment refund.refundKey refund.providerRefundRef)).attempt
          match result with
          | .error _ => do
            let now ← dateNow
            refundOp (.setLookup refund.id now .inconclusive)
            let refund : Option Refund ← refundOp (.findById refund.id)
            pure (refund, .inconclusive)
          | .ok (some result) => do
            let now ← dateNow
            refundOp (.setLookup refund.id now .found)
            let applied ← applyRefundOutcome refund result.report .providerLookup ctx
            pure (applied, .found)
          | .ok none => reissueMissing refund payment provider ctx allowReissue

structure RefundInput where
  restaurantId : Id
  paymentId : Id
  amount : Option ℚ := none
  reason : Option String := none
  initiatedByUserId : Id
  idempotencyKey : String
  deriving DecidableEq

def sameKeyRefund (env : Env) (input : RefundInput) : Promise (Option Refund) := do
  let existing : Option Refund ← refundOp (.findByKey input.restaurantId input.idempotencyKey)
  match existing with
  | none => pure none
  | some existing => do
    let now ← dateNow
    if isHeld now existing then do
      let reconciled ← reconcileRefund env existing ⟨input.initiatedByUserId, "staff"⟩ true
      pure reconciled.1
    else pure (some existing)

def refuseUnlessDuplicate (env : Env) (input : RefundInput) (error : ApiError) : Promise (Option Refund) := do
  let duplicate ← sameKeyRefund env input
  match duplicate with
  | some duplicate => pure (some duplicate)
  | none => throwApi error

def statusName : PaymentStatus → String
  | .pending => "pending"
  | .requiresAction => "requires_action"
  | .authorized => "authorized"
  | .paid => "paid"
  | .failed => "failed"
  | .cancelled => "cancelled"
  | .refunded => "refunded"
  | .partiallyRefunded => "partially_refunded"

def refundClaimed (claim : Refund) (payment : Payment) (provider : Provider) (initiatedByUserId : Id) :
    Promise (Option Refund) := do
  let reserved : Option Payment ← paymentOp (.reserve payment claim)
  match reserved with
  | none => do
    refundOp (.deleteUnreserved claim)
    throwApi (.conflict
      "Refund amount exceeds what's left to refund — another refund may have just been processed. Please retry.")
  | some _ => do
    refundOp (.markReserved claim)
    callProviderAndRecord claim.withReservation payment provider false ⟨initiatedByUserId, "staff"⟩

def claimRefund (env : Env) (input : RefundInput) (payment : Payment) (amount : ℚ) : Promise (Option Refund) := do
  let provider ← refundProviderFor env payment
  let claim : Except Err Refund ← (refundOp (.create {
    id := 0
    restaurantId := input.restaurantId
    paymentId := payment.id
    orderId := payment.orderId
    provider := provider.name
    amount
    reason := input.reason
    idempotencyKey := input.idempotencyKey
    providerRefundKey := some (providerRefundIdempotencyKey input.restaurantId input.idempotencyKey)
    initiatedByUserId := input.initiatedByUserId
    createdAt := 0 })).attempt
  match claim with
  | .error err =>
    if err.isDuplicateKey then do
      let winner : Option Refund ← refundOp (.findByKey input.restaurantId input.idempotencyKey)
      match winner with
      | some winner => pure (some winner)
      | none => .raise err
    else .raise err
  | .ok claim => refundClaimed claim payment provider input.initiatedByUserId

def refundWaiting (env : Env) (input : RefundInput) (waiting : Refund) : Promise (Option Refund) := do
  if waiting.idempotencyKey = input.idempotencyKey then do
    let duplicate ← sameKeyRefund env input
    pure (some (duplicate.getD waiting))
  else do
    let duplicate ← sameKeyRefund env input
    match duplicate with
    | some duplicate => pure (some duplicate)
    | none => do
      let now ← dateNow
      if isHeld now waiting || (truthy waiting.providerRefundRef).isSome then
        throwApi (.conflict (s!"A refund of {env.showNumber waiting.amount} on this payment is waiting to be " ++
          s!"confirmed by {waiting.provider.text}. Resolve it first (order → Payment → Refunds)."))
      else
        throwApi (.conflict "Another refund for this payment is being processed right now. Try again in a moment.")

def refundLoaded (env : Env) (input : RefundInput) (payment : Payment) : Promise (Option Refund) :=
  if !payment.status.refundable then
    refuseUnlessDuplicate env input
      (.badRequest s!"Cannot refund a payment with status \"{statusName payment.status}\"")
  else do
    let waiting : Option Refund ← refundOp (.findWaiting payment.id)
    match waiting with
    | some waiting => refundWaiting env input waiting
    | none =>
      let remaining := roundCurrency (payment.amount - payment.totalRefunded)
      let amount := input.amount.getD remaining
      if amount ≤ 0 ∨ amount > remaining then
        refuseUnlessDuplicate env input (.badRequest
          (s!"Refund amount must be between 0 and {env.showNumber remaining} " ++
            s!"(already refunded: {env.showNumber payment.totalRefunded})"))
      else claimRefund env input payment amount

def refundPayment (env : Env) (input : RefundInput) : Promise (Option Refund) := do
  let existingByKey ← sameKeyRefund env input
  match existingByKey with
  | some existing => pure (some existing)
  | none => do
    let payment : Option Payment ← paymentOp (.findOne input.paymentId input.restaurantId)
    match payment with
    | none => throwApi (.notFound "Payment not found")
    | some payment => refundLoaded env input payment

structure ResolveRefundInput where
  refunded : Bool
  providerRefundRef : Option String := none
  evidence : String
  confirmChecked : Bool := false
  deriving DecidableEq

def trim (s : String) : String := s.trimAscii.toString

def holdMinutesLeft (heldFor : Time) : Nat := (MANUAL_NOT_REFUNDED_MIN_HOLD_MS - heldFor + 59999) / 60000

def Refund.freshEvidence (refund : Refund) (now : Time) : Bool :=
  refund.lastLookupResult = some .notFound &&
    (refund.lastLookupAt.map fun lookedUpAt => decide (now ≤ lookedUpAt + LOOKUP_EVIDENCE_MAX_AGE_MS)).getD false

def refundProviderOf (env : Env) : Option Payment → Promise (Option Provider)
  | none => pure none
  | some payment => do
    let provider ← refundProviderFor env payment
    pure (some provider)

def confirmNotRefunded (env : Env) (refund : Refund) (input : ResolveRefundInput) (actor : ActorContext) :
    Promise (Option Refund) := do
  if !input.confirmChecked then
    throwApi (.badRequest "Confirm that you checked the provider's dashboard and this refund doesn't exist there.")
  else do
    let now ← dateNow
    let heldFor := now - refund.createdAt
    if heldFor < MANUAL_NOT_REFUNDED_MIN_HOLD_MS then
      throwApi (.conflict
        s!"Give the provider time to finish first — you can confirm this in {holdMinutesLeft heldFor} minute(s).")
    else do
      let payment : Option Payment ← paymentOp (.findById refund.paymentId)
      let provider ← refundProviderOf env payment
      let now ← dateNow
      match provider with
      | some provider =>
        if provider.supportsRefundLookup && !refund.freshEvidence now then
          throwApi (.conflict (s!"Check with {provider.name.text} first — it must report no such refund " ++
            "(within the last 15 minutes) before this can be confirmed."))
        else
          applyRefundOutcome refund { status := .failed, providerStatus := some "confirmed_not_refunded" } .manual
            actor (some (trim input.evidence))
      | none =>
        applyRefundOutcome refund { status := .failed, providerStatus := some "confirmed_not_refunded" } .manual
          actor (some (trim input.evidence))

def resolveHeldRefund (env : Env) (refund : Refund) (input : ResolveRefundInput) (actor : ActorContext) :
    Promise (Option Refund) := do
  if refund.status ≠ .pending then throwApi (.conflict "This refund is already settled.")
  else do
    let now ← dateNow
    if !isHeld now refund && (truthy refund.providerRefundRef).isNone then
      throwApi (.conflict "This refund is still being processed. Try again in a moment.")
    else if input.refunded then
      match truthy (input.providerRefundRef.map trim) with
      | none => throwApi (.badRequest "Enter the provider's refund reference from its dashboard.")
      | some ref =>
        applyRefundOutcome refund
          { status := .succeeded, refundRef := some ref, providerStatus := some "confirmed_manually" } .manual
          actor (some (trim input.evidence))
    else confirmNotRefunded env refund input actor

def findUpdatedRefund (provider : ProviderName) (update : ProviderRefundUpdate) : Promise (Option Refund) := do
  let byRef : Option Refund ← refundOp (.findByRef provider update.refundRef)
  match byRef, update.refundKey with
  | some refund, _ => pure (some refund)
  | none, some key => refundOp (.findByRefundKey provider key)
  | none, none => pure none

def applyProviderRefundUpdate (provider : ProviderName) (update : ProviderRefundUpdate) (account : Option Id) :
    Promise Unit := do
  let refund ← findUpdatedRefund provider update
  match refund with
  | none => pure ()
  | some refund => do
    let payment : Option Payment ← paymentOp (.findById refund.paymentId)
    if (payment.bind Payment.restaurantPaymentAccountId) ≠ account then pure ()
    else do
      let _ ← applyRefundOutcome refund update.report .webhook ⟨refund.initiatedByUserId, "system"⟩
      pure ()

def findPaymentRefund (restaurantId orderId paymentId refundId : Id) : Promise Refund := do
  let refund : Option Refund ← refundOp (.findOne refundId restaurantId paymentId orderId)
  match refund with
  | none => throwApi (.notFound "Refund not found")
  | some refund => pure refund

end RestaurantOs.Payments
