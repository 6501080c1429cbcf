import RestaurantOs.Async.Protocol
import RestaurantOs.Payments.Requests

/-!
# Where a request stands

The phases of a request that touches payments and refunds, and the move each
operation makes. Between two database writes that belong together a request is
in a phase of its own, which says what is still to be written.
-/

namespace RestaurantOs.Payments

open Async

inductive Phase
  | idle
  /-- a webhook body has been received -/
  | heard (body : WebhookBody)
  /-- a refund has been read -/
  | seen (refund : Refund)
  /-- the refund that was read is held, or known to the provider -/
  | held (refund : Refund)
  /-- a lookup found no such refund -/
  | missing (refund : Refund)
  | fresh (refund latest : Refund)
  | leasing (refund latest : Refund) (now : Time)
  /-- the payment to refund has been read -/
  | paying (payment : Payment)
  | claimed (claim : Refund)
  | unreserved (claim : Refund)
  | reserved (claim : Refund)
  | ready (call : RefundCall)
  | calling (call : RefundCall)
  | refused (call : RefundCall)
  | released (call : RefundCall)
  | unanswered (call : RefundCall)
  | reporting (refund : Refund) (report : RefundReport) (method : ReportMethod)
  | decided (current : Refund) (report : RefundReport) (method : ReportMethod)
  | settled (before : Refund) (target : RefundStatus)
  | owing (updated : Refund) (target : RefundStatus)
  | unsynced (paymentId : Id)
  | reading (payment : Payment)
  | writing (payment : Payment) (next : PaymentStatus)
  | judging (payment : Payment) (status : PaymentStatus)

def Phase.calm : Phase → Bool
  | idle | heard _ | seen _ | held _ | missing _ | fresh _ _ | leasing _ _ _ | paying _
  | reporting _ _ _ | decided _ _ _ | judging _ _ => true
  | _ => false

/-- `lease` is the refund whose re-issue lease the request holds. -/
structure Point where
  lease : Option Id := none
  phase : Phase := .idle

def Op.quiet : Op → Bool
  | clock | receive | restaurant _ | audit _ _ _ | order _ | event _ | account _ => true
  | refund op =>
    match op with
    | .findByKey _ _ | .findById _ | .findOne _ _ _ _ | .findWaiting _ | .findByRef _ _
    | .findByRefundKey _ _ | .findUpdated _ => true
    | _ => false
  | payment op =>
    match op with
    | .findByKey _ _ | .findOne _ _ | .findById _ | .findReusable _ _ _ | .findByProviderRef _ _ _
    | .findStale _ | .findTerminal _ _ _ => true
    | _ => false
  | provider op =>
    match op with
    | .refundSent _ | .refundAnswered _ => false
    | _ => true

inductive Op.Reads (w : World) (refund : Refund) : Op → Prop
  | findByKey {restaurantId : Id} {idempotencyKey : String} (h : refund ∈ w.refunds) :
      Reads w refund (.refund (.findByKey restaurantId idempotencyKey))
  | findOne {id restaurantId paymentId orderId : Id} (h : refund ∈ w.refunds) :
      Reads w refund (.refund (.findOne id restaurantId paymentId orderId))

/-- The document a new claim is inserted as. -/
structure Refund.IsDraft (draft : Refund) : Prop where
  status : draft.status = .pending
  amountReserved : draft.amountReserved = false
  providerOutcomeUnknown : draft.providerOutcomeUnknown = false
  providerRefundRef : draft.providerRefundRef = none
  reissueLeaseUntil : draft.reissueLeaseUntil = none
  amount : 0 < draft.amount
  refundKey : draft.refundKey = providerRefundIdempotencyKey draft.restaurantId draft.idempotencyKey

def Refund.open_ (refund : Refund) (now : Time) : Prop :=
  refund.status = .pending ∧ (isHeld now refund ∨ (truthy refund.providerRefundRef).isSome)

theorem Refund.open_iff {refund : Refund} {now : Time} (h : refund.status = .pending) :
    refund.open_ now ↔ (!isHeld now refund && (truthy refund.providerRefundRef).isNone) = false := by
  unfold Refund.open_
  cases isHeld now refund <;> cases truthy refund.providerRefundRef <;> simp [h]

def WebhookBody.Says (body : WebhookBody) (ref : String) (status : PaymentStatus) : Prop :=
  ∃ session eventType, body.stripe.object = some session ∧ session.id = some ref ∧
    body.stripe.type = some eventType ∧ status = sessionEventStatus eventType session.toSessionReport

/-- The amount that a settlement of `before` leaves to be written to the
payment. -/
def settlementDue (before : Refund) (target : RefundStatus) : Bool :=
  (target = .failed && before.counted) || (target = .succeeded && !before.counted)

inductive Move : Op → Answer → World → Point → Point → Prop
  | quiet {o a w L ph} (ho : o.quiet = true) (hph : ph.calm = true) : Move o a w ⟨L, ph⟩ ⟨L, ph⟩
  | rest {o a w L ph} (ho : o.quiet = true) (hph : ph.calm = true) : Move o a w ⟨L, ph⟩ ⟨L, .idle⟩
  | setLookup {id time result a w L ph} (hph : ph.calm = true) :
      Move (.refund (.setLookup id time result)) a w ⟨L, ph⟩ ⟨L, ph⟩
  | hear {a w L ph body} (hph : ph.calm = true) (hBody : a.body = some body) :
      Move .receive a w ⟨L, ph⟩ ⟨L, .heard body⟩
  | see {o a w L ph refund} (hph : ph.calm = true) (hRead : o.Reads w refund) :
      Move o a w ⟨L, ph⟩ ⟨L, .seen refund⟩
  | hold {a w L refund} (hOpen : refund.open_ w.now) : Move .clock a w ⟨L, .seen refund⟩ ⟨L, .held refund⟩
  | byHand {a w L ph refund report} (hFrom : ph = .held refund ∨ (ph = .seen refund ∧ refund.open_ w.now))
      (hStatus : report.status ≠ .pending) (hRef : report.status = .failed → report.refundRef = none) :
      Move .clock a w ⟨L, ph⟩ ⟨L, .reporting refund report .manual⟩
  | found {provider payment a w L refund result} (hAnswer : a.lookup = .ok (some result)) :
      Move (.provider (.lookupRefund provider payment refund.refundKey refund.providerRefundRef)) a w
        ⟨L, .held refund⟩ ⟨L, .reporting refund result.report .providerLookup⟩
  | missing {provider payment a w L refund} (hAnswer : a.lookup = .ok none) :
      Move (.provider (.lookupRefund provider payment refund.refundKey refund.providerRefundRef)) a w
        ⟨L, .held refund⟩ ⟨L, .missing refund⟩
  | fresh {a w L refund latest} (hFind : w.refunds.find? (fun r => r.id = refund.id) = some latest) :
      Move (.refund (.findById refund.id)) a w ⟨L, .missing refund⟩ ⟨L, .fresh refund latest⟩
  | clock {a w L refund latest} :
      Move .clock a w ⟨L, .fresh refund latest⟩ ⟨L, .leasing refund latest w.now⟩
  | lease {a w refund latest now stored payment provider}
      (hRef : (truthy latest.providerRefundRef).isNone = true) (hReserved : latest.amountReserved = true)
      (hPayment : payment.id = refund.paymentId)
      (hFind : w.refunds.find? (fun r => r.id = latest.id && r.status = .pending && r.leaseFree now) =
        some stored) :
      Move (.refund (.lease latest.id now (now + STALE_REFUND_CLAIM_MS))) a w
        ⟨none, .leasing refund latest now⟩
        ⟨some stored.id, .ready {
          claim := stored.withLease (some (now + STALE_REFUND_CLAIM_MS))
          payment, provider, reissue := true }⟩
  | leaseTaken {id now expiry a w L ph}
      (hFind : w.refunds.find? (fun r => r.id = id && r.status = .pending && r.leaseFree now) = none)
      (hph : ph.calm = true) : Move (.refund (.lease id now expiry)) a w ⟨L, ph⟩ ⟨L, .idle⟩
  | unlease {id a w ph} (hph : ph.calm = true) :
      Move (.refund (.unlease id)) a w ⟨some id, ph⟩ ⟨none, .idle⟩
  | pay {id restaurantId a w L ph payment} (hph : ph.calm = true) (hRead : payment ∈ w.payments) :
      Move (.payment (.findOne id restaurantId)) a w ⟨L, ph⟩ ⟨L, .paying payment⟩
  | claim {draft a w payment} (hDraft : draft.IsDraft) (hPayment : draft.paymentId = payment.id)
      (hFree : (w.refunds.any fun r =>
        r.restaurantId = draft.restaurantId && r.idempotencyKey = draft.idempotencyKey) = false) :
      Move (.refund (.create draft)) a w ⟨none, .paying payment⟩
        ⟨none, .claimed { draft with id := w.nextId, createdAt := w.now }⟩
  | keyTaken {draft a w L ph} (hph : ph.calm = true)
      (hTaken : (w.refunds.any fun r =>
        r.restaurantId = draft.restaurantId && r.idempotencyKey = draft.idempotencyKey) = true) :
      Move (.refund (.create draft)) a w ⟨L, ph⟩ ⟨L, .idle⟩
  | reserve {payment claim a w L stored} (hPayment : payment.id = claim.paymentId)
      (hFind : w.payments.find? (fun p => p.id = payment.id && p.status.refundable &&
        p.totalRefunded + claim.amount ≤ p.amount) = some stored) :
      Move (.payment (.reserve payment claim)) a w ⟨L, .claimed claim⟩ ⟨L, .reserved claim⟩
  | reserveRefused {payment claim a w L}
      (hFind : w.payments.find? (fun p => p.id = payment.id && p.status.refundable &&
        p.totalRefunded + claim.amount ≤ p.amount) = none) :
      Move (.payment (.reserve payment claim)) a w ⟨L, .claimed claim⟩ ⟨L, .unreserved claim⟩
  | dropUnreserved {claim a w L} :
      Move (.refund (.deleteUnreserved claim)) a w ⟨L, .unreserved claim⟩ ⟨L, .idle⟩
  | mark {claim payment provider a w L} (hPayment : payment.id = claim.paymentId) :
      Move (.refund (.markReserved claim)) a w ⟨L, .reserved claim⟩
        ⟨L, .ready { claim := claim.withReservation, payment, provider, reissue := false }⟩
  | send {call a w L} : Move (.provider (.refundSent call)) a w ⟨L, .ready call⟩ ⟨L, .calling call⟩
  | answered {call a w L result} (hAnswer : a.refund = .ok result) :
      Move (.provider (.refundAnswered call)) a w ⟨L, .calling call⟩
        ⟨L, .reporting call.claim result.report .providerResponse⟩
  | refused {call a w L err} (hAnswer : a.refund = .error err) (hRejected : err.isRejected = true)
      (hFresh : call.reissue = false) :
      Move (.provider (.refundAnswered call)) a w ⟨L, .calling call⟩ ⟨L, .refused call⟩
  | reissueRefused {call a w L err} (hAnswer : a.refund = .error err) (hRejected : err.isRejected = true)
      (hReissue : call.reissue = true) :
      Move (.provider (.refundAnswered call)) a w ⟨L, .calling call⟩ ⟨L, .idle⟩
  | unanswered {call a w L err} (hAnswer : a.refund = .error err) (hRejected : err.isRejected = false) :
      Move (.provider (.refundAnswered call)) a w ⟨L, .calling call⟩ ⟨L, .unanswered call⟩
  | release {call a w L} :
      Move (.payment (.release call.payment call.claim)) a w ⟨L, .refused call⟩ ⟨L, .released call⟩
  | dropRefused {call a w L} :
      Move (.refund (.deleteRefused call.claim)) a w ⟨L, .released call⟩ ⟨L, .idle⟩
  | setUnknown {call a w L} :
      Move (.refund (.setOutcomeUnknown call.claim)) a w ⟨L, .unanswered call⟩ ⟨L, .idle⟩
  | matchRef {provider update body a w L refund}
      (hUpdate : parseStripeRefundEvent body.stripe = some update)
      (hFind : w.refunds.find? (fun r => r.provider = provider && r.providerRefundRef = some update.refundRef) =
        some refund) :
      Move (.refund (.findByRef provider update.refundRef)) a w ⟨L, .heard body⟩
        ⟨L, .reporting refund update.report .webhook⟩
  | matchKey {provider update body key a w L refund}
      (hUpdate : parseStripeRefundEvent body.stripe = some update) (hKey : update.refundKey = some key)
      (hFind : w.refunds.find? (fun r => r.provider = provider && r.providerRefundKey = some key) =
        some refund) :
      Move (.refund (.findByRefundKey provider key)) a w ⟨L, .heard body⟩
        ⟨L, .reporting refund update.report .webhook⟩
  | decide {a w L refund report method current}
      (hFind : w.refunds.find? (fun r => r.id = refund.id) = some current) :
      Move (.refund (.findById refund.id)) a w ⟨L, .reporting refund report method⟩
        ⟨L, .decided current report method⟩
  | note {a w L current report method clearUnknown} (hStatus : current.status = report.status)
      (hClear : clearUnknown = decide (method ≠ .manual)) :
      Move (.refund (.setDetails current.id (reportDetails current report) clearUnknown)) a w
        ⟨L, .decided current report method⟩ ⟨L, .idle⟩
  | settle {s a w L current report method ctx evidence now before} (hId : s.id = current.id)
      (hSource : s.source = current.status) (hTarget : s.target = report.status)
      (hDetails : s.details = reportDetails current report)
      (hResolution : s.resolution = reportResolution current report method ctx evidence now)
      (hAllowed : s.target ∈ refundTransitions s.source)
      (hFind : w.refunds.find? (fun r => r.id = s.id && r.status = s.source) = some before)
      (hRef : refTaken w.refunds before s.details = false) :
      Move (.refund (.settle s)) a w ⟨L, .decided current report method⟩ ⟨L, .settled before s.target⟩
  | settleLost {s a w L ph} (hph : ph.calm = true)
      (hFind : ∀ before, w.refunds.find? (fun r => r.id = s.id && r.status = s.source) = some before →
        refTaken w.refunds before s.details = true) :
      Move (.refund (.settle s)) a w ⟨L, ph⟩ ⟨L, .idle⟩
  | reread {a w L before target updated}
      (hFind : w.refunds.find? (fun r => r.id = before.id) = some updated)
      (hDue : settlementDue before target = true) :
      Move (.refund (.findUpdated before.id)) a w ⟨L, .settled before target⟩ ⟨L, .owing updated target⟩
  | rereadEven {a w L before target updated}
      (hFind : w.refunds.find? (fun r => r.id = before.id) = some updated)
      (hDue : settlementDue before target = false) :
      Move (.refund (.findUpdated before.id)) a w ⟨L, .settled before target⟩
        ⟨L, .unsynced updated.paymentId⟩
  | rereadGone {a w L before target} (hFind : w.refunds.find? (fun r => r.id = before.id) = none) :
      Move (.refund (.findUpdated before.id)) a w ⟨L, .settled before target⟩ ⟨L, .idle⟩
  | giveBack {a w L updated} :
      Move (.payment (.giveBack updated)) a w ⟨L, .owing updated .failed⟩ ⟨L, .unsynced updated.paymentId⟩
  | count {a w L updated} :
      Move (.payment (.count updated)) a w ⟨L, .owing updated .succeeded⟩ ⟨L, .unsynced updated.paymentId⟩
  | syncRead {a w L paymentId payment} (hFind : w.payments.find? (fun p => p.id = paymentId) = some payment)
      (hCollected : payment.status.collected = true) :
      Move (.payment (.findById paymentId)) a w ⟨L, .unsynced paymentId⟩ ⟨L, .reading payment⟩
  | syncSkip {a w L paymentId}
      (hFind : ∀ payment, w.payments.find? (fun p => p.id = paymentId) = some payment →
        payment.status.collected = false) :
      Move (.payment (.findById paymentId)) a w ⟨L, .unsynced paymentId⟩ ⟨L, .idle⟩
  | syncSum {a w L payment next}
      (hNext : next = refundedStatus payment.amount (roundCurrency (Tables.total Refund.amount
        (w.refunds.filter fun r => r.paymentId = payment.id && r.status = .succeeded))))
      (hNe : next ≠ payment.status) :
      Move (.refund (.sumSucceeded payment)) a w ⟨L, .reading payment⟩ ⟨L, .writing payment next⟩
  | syncEven {a w L payment}
      (hNext : payment.status = refundedStatus payment.amount (roundCurrency (Tables.total Refund.amount
        (w.refunds.filter fun r => r.paymentId = payment.id && r.status = .succeeded)))) :
      Move (.refund (.sumSucceeded payment)) a w ⟨L, .reading payment⟩ ⟨L, .idle⟩
  | syncWrite {a w L payment next} :
      Move (.payment (.setStatus payment next)) a w ⟨L, .writing payment next⟩ ⟨L, .idle⟩
  | retrieved {provider ref payment report a w L ph} (hph : ph.calm = true) (hRef : payment.providerRef = ref)
      (hAnswer : a.report = .ok report)
      (hValid : isValidPaymentTransition payment.status (provider.snapshotStatus report) = true) :
      Move (.provider (.retrieve provider ref)) a w ⟨L, ph⟩
        ⟨L, .judging payment (provider.snapshotStatus report)⟩
  | matchPayment {provider ref account payment body status a w L}
      (hFind : w.payments.find? (fun p => p.provider = provider && p.providerRef = some ref &&
        account.all (p.restaurantPaymentAccountId = some ·)) = some payment)
      (hSays : provider = .stripe → body.Says ref status)
      (hValid : isValidPaymentTransition payment.status status = true) :
      Move (.payment (.findByProviderRef provider ref account)) a w ⟨L, .heard body⟩
        ⟨L, .judging payment status⟩
  | transition {payment status a w L} (hValid : isValidPaymentTransition payment.status status = true) :
      Move (.payment (.transition payment status)) a w ⟨L, .judging payment status⟩ ⟨L, .idle⟩
  | cancel {payment a w L ph} (hph : ph.calm = true)
      (hValid : isValidPaymentTransition payment.status .cancelled = true) :
      Move (.payment (.transition payment .cancelled)) a w ⟨L, ph⟩ ⟨L, .idle⟩
  | charge {draft a w L ph} (hph : ph.calm = true) (hStatus : draft.status.inFlight = true)
      (hTotal : draft.totalRefunded = 0) :
      Move (.payment (.create draft)) a w ⟨L, ph⟩ ⟨L, .idle⟩

def Point.Ended (pt : Point) : Prop := pt.lease = none ∧ pt.phase.calm = true

@[reducible] def protocol : Protocol Op World Answer where
  Point := Point
  Move := Move
  Rest := Point.Ended

end RestaurantOs.Payments
