import RestaurantOs.Payments.Rules

/-!
# Provider adapters

Which adapter a payment goes through, what each adapter makes of the
provider's words, and the eligibility rules for online payments.
-/

namespace RestaurantOs.Payments

/-- The deployment: `env` and what the adapters need of it. -/
structure Env where
  paymentProvider : ProviderName := .mock
  production : Bool := false
  paymentEligibilityRouting : Bool := false
  /-- the credentials of this pooled provider are set -/
  configured : ProviderName → Bool := fun _ => true
  posTerminal : Bool := true
  clientOrigin : String := ""
  stripeSecretKey : Bool := true
  stripeConnectWebhookSecret : Bool := true
  decrypts : Option String → Bool := fun _ => true
  /-- a number as a template string prints it -/
  showNumber : ℚ → String := fun _ => ""

/-- An adapter instance: the provider it talks to and the restaurant account
whose credentials it holds, if not the platform's own. -/
structure Provider where
  name : ProviderName
  account : Option Id := none
  deriving DecidableEq

def Provider.supportsRefundIdempotency (provider : Provider) : Bool := provider.name ≠ .safepay

def Provider.supportsRefundLookup (provider : Provider) : Bool := provider.name ≠ .safepay

def ProviderName.text : ProviderName → String
  | mock => "mock"
  | safepay => "safepay"
  | stripe => "stripe"

def missingCredentials : ProviderName → String
  | .mock => ""
  | .safepay => "Provider \"safepay\" requires SAFEPAY_API_KEY, SAFEPAY_SECRET_KEY, and SAFEPAY_WEBHOOK_SECRET to all be set."
  | .stripe => "Provider \"stripe\" requires STRIPE_SECRET_KEY and STRIPE_WEBHOOK_SECRET to both be set."

def getPaymentProvider (env : Env) (name : ProviderName) : Except Err Provider :=
  if name = .mock ∨ env.configured name then .ok { name }
  else .error (.other (missingCredentials name))

def buildProviderFromAccount (env : Env) (account : RestaurantPaymentAccount) : Except Err Provider :=
  if account.provider = .stripe ∧ account.connectionMode = .platformConnect then
    if ¬ env.stripeSecretKey then .error (.other "STRIPE_SECRET_KEY is not configured on this deployment")
    else if account.connectedAccountId = none then
      .error (.other "This account has no connectedAccountId — onboarding was never completed")
    else .ok { name := .stripe, account := some account.id }
  else if account.provider = .mock then .error (.other "\"mock\" is not a BYOC-eligible payment provider.")
  else if env.decrypts account.encryptedCredentials then
    .ok { name := account.provider, account := some account.id }
  else .error (.other "Unsupported state or unable to authenticate data")

def mockDriversAllowed (env : Env) : Bool := !env.production

def canProcessOnlinePayments (env : Env) (hasOwnAccount : Bool) (pooledProviderName : ProviderName) : Bool :=
  if hasOwnAccount then true else pooledProviderName = .mock && mockDriversAllowed env

def normalizeCountry (country : Option String) : String :=
  ((country.getD "").trimAscii.toString.map Char.toUpper)

def pakistanAliases : List String := ["PK", "PAK", "PAKISTAN"]

def stripeUnsupportedAliases : List String :=
  ["PK", "PAK", "PAKISTAN", "IR", "IRAN", "KP", "NORTH KOREA", "SY", "SYRIA", "CU", "CUBA"]

def resolveEligiblePaymentProvider (restaurant : Restaurant) : Option ProviderName :=
  let country := normalizeCountry restaurant.country
  if country = "" then none
  else if pakistanAliases.contains country then some .safepay
  else if stripeUnsupportedAliases.contains country then none
  else some .stripe

/-- What a provider's own records say about a payment: a session's `status`
and, at Stripe, its `payment_status`. -/
structure SessionReport where
  status : Option String := none
  paymentStatus : Option String := none
  deriving DecidableEq

def mapCheckoutSessionStatus (status paymentStatus : Option String) : PaymentStatus :=
  if status = some "expired" then .cancelled
  else if paymentStatus = some "paid" ∨ paymentStatus = some "no_payment_required" then .paid
  else if status = some "complete" then .paid
  else if status = some "open" then .pending
  else .pending

def mapSafepayStatus (raw : Option String) : PaymentStatus :=
  let word := (raw.getD "").map Char.toUpper
  if ["PAID", "CAPTURED", "TRACKER_COMPLETED", "COMPLETED", "SUCCEEDED"].contains word then .paid
  else if word = "AUTHORIZED" then .authorized
  else if ["REQUIRES_ACTION", "ACTION_REQUIRED"].contains word then .requiresAction
  else if ["FAILED", "DECLINED", "ERROR"].contains word then .failed
  else if ["CANCELLED", "CANCELED", "EXPIRED", "VOIDED"].contains word then .cancelled
  else .pending

/-- The mock provider and the mock terminal speak the local statuses. An
unknown word is none of the targets of a transition, as `pending` is not. -/
def mockStatus (raw : Option String) : PaymentStatus :=
  match raw with
  | some "requires_action" => .requiresAction
  | some "authorized" => .authorized
  | some "paid" => .paid
  | some "failed" => .failed
  | some "cancelled" => .cancelled
  | _ => .pending

/-- The status of a `retrieve` snapshot. -/
def Provider.snapshotStatus (provider : Provider) (report : SessionReport) : PaymentStatus :=
  match provider.name with
  | .stripe => mapCheckoutSessionStatus report.status report.paymentStatus
  | .safepay => mapSafepayStatus report.status
  | .mock => mockStatus report.status

def mapStripeRefundStatus (status : Option String) : RefundStatus :=
  if status = some "succeeded" then .succeeded
  else if status = some "failed" ∨ status = some "canceled" then .failed
  else .pending

/-- `data.object` of a Stripe event: a checkout session, a refund or an
account. -/
structure StripeObject extends SessionReport where
  id : Option String := none
  object : Option String := none
  refundKey : Option ProviderRefundKey := none
  chargesEnabled : Option Bool := none
  payoutsEnabled : Option Bool := none
  currentlyDue : Option (List String) := none
  disabledReason : Option String := none
  deriving DecidableEq

structure StripeEventPayload where
  id : Option String := none
  type : Option String := none
  account : Option String := none
  object : Option StripeObject := none
  deriving DecidableEq

def stripeRefundEventTypes : List String :=
  ["refund.created", "refund.updated", "refund.failed", "charge.refund.updated"]

def parseStripeRefundEvent (parsed : StripeEventPayload) : Option ProviderRefundUpdate := do
  let type ← parsed.type
  let obj ← parsed.object
  let id ← truthy obj.id
  if stripeRefundEventTypes.contains type ∧ obj.object = some "refund" then
    some { refundRef := id, status := mapStripeRefundStatus obj.status, providerStatus := obj.status
           refundKey := obj.refundKey }
  else none

def sessionEventStatus (eventType : String) (session : SessionReport) : PaymentStatus :=
  mapCheckoutSessionStatus (if eventType = "checkout.session.expired" then some "expired" else session.status)
    session.paymentStatus

/-- `verifyStripeSignature` on a body whose signature checks out. -/
def verifyStripeSignature (parsed : StripeEventPayload) : Option ProviderWebhookEvent := do
  let eventId ← truthy parsed.id
  let eventType ← truthy parsed.type
  let session ← parsed.object
  let id ← truthy session.id
  match parseStripeRefundEvent parsed with
  | some refund =>
    some { eventId, eventType, providerRef := refund.refundRef, status := .pending, refund := some refund }
  | none =>
    some { eventId, eventType, providerRef := id
           status := sessionEventStatus eventType session.toSessionReport }

/-- The body of a webhook request whose signature checks out: a Stripe event,
or the flat body that Safepay and the mock provider send. -/
structure WebhookBody where
  stripe : StripeEventPayload := {}
  providerRef : Option String := none
  status : Option String := none
  deriving DecidableEq

def Provider.verifyWebhookSignature (provider : Provider) (body : WebhookBody) : Option ProviderWebhookEvent :=
  match provider.name with
  | .stripe => verifyStripeSignature body.stripe
  | .safepay => do
    let eventId ← truthy body.stripe.id
    let eventType ← truthy body.stripe.type
    let providerRef ← truthy body.providerRef
    let status ← truthy body.status
    some { eventId, eventType, providerRef, status := mapSafepayStatus (some status) }
  | .mock => do
    let eventId ← truthy body.stripe.id
    let eventType ← truthy body.stripe.type
    let providerRef ← truthy body.providerRef
    let status ← truthy body.status
    some { eventId, eventType, providerRef, status := mockStatus (some status) }

structure ConnectedAccountStatus where
  chargesEnabled : Bool
  payoutsEnabled : Bool
  requirementsDue : List String
  disabledReason : Option String
  deriving DecidableEq

def parseAccountEventObject (raw : Option StripeObject) : ConnectedAccountStatus :=
  let account := raw.getD {}
  { chargesEnabled := account.chargesEnabled = some true
    payoutsEnabled := account.payoutsEnabled = some true
    requirementsDue := account.currentlyDue.getD []
    disabledReason := account.disabledReason }

def resolveConnectAccountStatus (status : ConnectedAccountStatus) : AccountStatus :=
  if status.chargesEnabled then .active
  else if (status.disabledReason.map (·.startsWith "rejected")).getD false then .invalid
  else .actionRequired

theorem resolveConnectAccountStatus_ne_disconnected (status : ConnectedAccountStatus) :
    resolveConnectAccountStatus status ≠ .disconnected := by
  unfold resolveConnectAccountStatus
  split
  · simp
  · split <;> simp

end RestaurantOs.Payments
