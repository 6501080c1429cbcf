import RestaurantOs.Billing.Types
import RestaurantOs.Payments.Rules

/-!
# Subscription rules

The subscription state machine, what a provider's report means for a status,
and when one reported state is newer than another.
-/

namespace RestaurantOs.Billing

export Payments (truthy)

def TRANSITIONS : SubscriptionStatus → List SubscriptionStatus
  | .trialing => [.active, .cancelled, .expired]
  | .active => [.cancelling, .pastDue, .cancelled]
  | .pastDue => [.active, .cancelled]
  | .cancelling => [.cancelled, .active]
  | .cancelled => []
  | .expired => []

def isValidSubscriptionTransition (src dst : SubscriptionStatus) : Bool := (TRANSITIONS src).contains dst

/-- `LIVE_STATUSES.includes(status)` -/
def SubscriptionStatus.live : SubscriptionStatus → Bool
  | trialing | active | pastDue | cancelling => true
  | cancelled | expired => false

theorem isValidSubscriptionTransition_live {src dst : SubscriptionStatus}
    (h : isValidSubscriptionTransition src dst = true) : src.live = true := by
  cases src <;> first | rfl | cases h

def DAY_MS : Time := 24 * 60 * 60 * 1000

def UNKNOWN_REFERENCE_RETRY_WINDOW_MS : Time := 15 * 60 * 1000

def SIMULATED_EVENT_IGNORED : String := "Ignored: provider simulator event — not applied"

/-- `EXPECTED_PLAN_TYPE` -/
def OwnerType.planType : OwnerType → PlanType
  | business => .owner
  | agency => .agency

/-- `OWNER_LABEL` -/
def OwnerType.label : OwnerType → String
  | business => "business"
  | agency => "agency"

def OwnerType.name : OwnerType → String
  | business => "Business"
  | agency => "Agency"

def resolveTrialDays (trialPeriodDays : Nat) (plan : Plan) : Option Nat :=
  let days := plan.trialDays.getD trialPeriodDays
  if days > 0 then some days else none

def resolvePricing (plan : Plan) (billingInterval : BillingInterval) : Option PlanPricing :=
  plan.pricing.find? (·.interval = billingInterval)

/-- `!assertSelfServePlan(plan, current)`: a private plan is picked only for the
subscription that is on it. -/
def selfServeRefused (plan : Plan) (current : Option Subscription) : Bool :=
  !plan.isPubliclyListed && !current.any (·.planId = plan.id)

def Subscription.backed (subscription : Subscription) : Bool := (truthy subscription.providerSubscriptionId).isSome

def isExtendableTrial (sub : Subscription) : Bool := sub.status = .trialing && !sub.backed && sub.provider ≠ .internal

def ProviderSubscriptionStatus.toStatus : ProviderSubscriptionStatus → SubscriptionStatus
  | trialing => .trialing
  | active => .active
  | pastDue => .pastDue
  | cancelled => .cancelled

/-- A cancellation reported of a trial is the trial ending unpaid, and one
scheduled for the end of the period is `cancelling`. -/
def resolveTransitionTarget (currentStatus : SubscriptionStatus) (providerStatus : ProviderSubscriptionStatus)
    (scheduledCancelAt : Option Time) : SubscriptionStatus :=
  if providerStatus = .cancelled ∧ currentStatus = .trialing then .expired
  else if providerStatus = .active ∧ scheduledCancelAt.isSome then .cancelling
  else providerStatus.toStatus

/-- `{ $or: [{ lastProviderEventAt: { $exists: false } }, { lastProviderEventAt: { $lte: occurredAt } }] }` -/
def notOlderThanApplied (occurredAt : Option Time) (subscription : Subscription) : Bool :=
  occurredAt.all fun time => subscription.lastProviderEventAt.all (· ≤ time)

def isRetryableUnknownReference (event : ProviderBillingWebhookEvent) (now : Time) : Bool :=
  match event.occurredAt with
  | none => false
  | some occurredAt =>
    if event.providerSubscriptionId = "" then false
    else if event.status.isNone && event.billingNotice.isNone then false
    else now < occurredAt + UNKNOWN_REFERENCE_RETRY_WINDOW_MS

/-- `HISTORY_TYPE_BY_NOTICE` -/
def NoticeType.historyType : NoticeType → BillingHistoryEventType
  | paymentSucceeded => .paymentSucceeded
  | refunded => .refunded
  | chargeback => .chargeback
  | chargebackReversed => .chargebackReversed

/-- `HISTORY_TYPE_BY_TARGET_STATUS` -/
def SubscriptionStatus.historyType : SubscriptionStatus → Option BillingHistoryEventType
  | active => some .paymentSucceeded
  | pastDue => some .paymentFailed
  | cancelled => some .cancelled
  | expired => some .expired
  | trialing | cancelling => none

end RestaurantOs.Billing
