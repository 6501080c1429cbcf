import RestaurantOs.Payments.Types

/-!
# The billing data model

A subscription belongs to a business or an agency. A provider subscription
stands behind it once a checkout has completed; until then it is a local trial.
-/

namespace RestaurantOs.Billing

export Payments (Id Time ApiError Err errorMessage)

inductive OwnerType
  | business | agency
  deriving DecidableEq

inductive SubscriptionStatus
  | trialing | active | pastDue | cancelling | cancelled | expired
  deriving DecidableEq

def SubscriptionStatus.text : SubscriptionStatus → String
  | trialing => "trialing"
  | active => "active"
  | pastDue => "past_due"
  | cancelling => "cancelling"
  | cancelled => "cancelled"
  | expired => "expired"

inductive BillingInterval
  | monthly | yearly
  deriving DecidableEq

def BillingInterval.text : BillingInterval → String
  | monthly => "monthly"
  | yearly => "yearly"

inductive SubscriptionProvider
  | mock | internal | paddle
  deriving DecidableEq

inductive PlanType
  | owner | agency
  deriving DecidableEq

structure PlanPricing where
  interval : BillingInterval
  amountCents : Option Nat := none
  currency : Option String := none
  providerPriceId : Option String := none
  deriving DecidableEq

structure Plan where
  id : Id
  code : String
  name : String
  type : PlanType := .owner
  pricing : List PlanPricing := []
  trialDays : Option Nat := none
  isActive : Bool := true
  isPubliclyListed : Bool := true
  deriving DecidableEq

/-- Set when a trial without a card was held past its end because nobody could
pay; `endedAt` when checkout opened. -/
structure TrialExtension where
  extendedAt : Option Time := none
  originalTrialEnd : Option Time := none
  endedAt : Option Time := none
  deriving DecidableEq

/-- `lastProviderEventAt` is the time of the newest subscription state that the
record reflects. -/
structure Subscription where
  id : Id
  ownerType : OwnerType
  ownerId : Id
  planId : Id
  status : SubscriptionStatus := .trialing
  billingInterval : BillingInterval
  currentPeriodStart : Time
  currentPeriodEnd : Time
  trialStart : Option Time := none
  trialEnd : Option Time := none
  cancelAt : Option Time := none
  cancelledAt : Option Time := none
  provider : SubscriptionProvider
  providerCustomerId : Option String := none
  providerSubscriptionId : Option String := none
  trialEndingReminderSentAt : Option Time := none
  trialExtension : Option TrialExtension := none
  lastProviderEventAt : Option Time := none
  createdAt : Time
  deriving DecidableEq

structure BillingWebhookEvent where
  provider : SubscriptionProvider
  eventId : String
  eventType : String
  processedAt : Option Time := none
  processingError : Option String := none
  processingStartedAt : Option Time := none
  deriving DecidableEq

inductive BillingHistoryEventType
  | subscriptionCreated | trialStarted | paymentSucceeded | paymentFailed | planChanged | cancellationRequested
  | cancelled | reactivated | expired | refunded | chargeback | chargebackReversed
  deriving DecidableEq

def BillingHistoryEventType.text : BillingHistoryEventType → String
  | subscriptionCreated => "subscription_created"
  | trialStarted => "trial_started"
  | paymentSucceeded => "payment_succeeded"
  | paymentFailed => "payment_failed"
  | planChanged => "plan_changed"
  | cancellationRequested => "cancellation_requested"
  | cancelled => "cancelled"
  | reactivated => "reactivated"
  | expired => "expired"
  | refunded => "refunded"
  | chargeback => "chargeback"
  | chargebackReversed => "chargeback_reversed"

/-- The `metadata` of a history row: each row sets some of these. -/
structure HistoryMetadata where
  planCode : Option String := none
  newPlanCode : Option String := none
  billingInterval : Option BillingInterval := none
  trialEnd : Option Time := none
  viaCheckout : Bool := false
  viaProvider : Bool := false
  deriving DecidableEq

/-- `noticeKey` is set only on rows recorded from a provider's notice. -/
structure BillingHistoryEvent where
  ownerType : OwnerType
  ownerId : Id
  subscriptionId : Id
  type : BillingHistoryEventType
  provider : SubscriptionProvider
  amountCents : Option Nat := none
  currency : Option String := none
  providerReference : Option String := none
  occurredAt : Option Time := none
  metadata : HistoryMetadata := {}
  noticeKey : Option String := none
  deriving DecidableEq

inductive ProviderSubscriptionStatus
  | trialing | active | pastDue | cancelled
  deriving DecidableEq

structure ProviderSubscriptionSnapshot where
  status : ProviderSubscriptionStatus := .active
  currentPeriodStart : Time := 0
  currentPeriodEnd : Time := 0
  trialEnd : Option Time := none
  deriving DecidableEq

inductive NoticeType
  | paymentSucceeded | refunded | chargeback | chargebackReversed
  deriving DecidableEq

structure ProviderBillingNotice where
  type : NoticeType
  amountCents : Option Nat := none
  currency : Option String := none
  reference : Option String := none
  deriving DecidableEq

structure Period where
  start : Time
  «end» : Time
  deriving DecidableEq

structure CheckoutMetadata where
  ownerType : OwnerType
  ownerId : Id
  planCode : String
  billingInterval : BillingInterval
  providerCustomerId : String
  deriving DecidableEq

/-- A scheduled cancellation that the event reports as absent and one that it
does not mention are read alike: both are `none`. -/
structure ProviderBillingWebhookEvent where
  eventId : String
  eventType : String
  providerSubscriptionId : String
  status : Option ProviderSubscriptionStatus := none
  occurredAt : Option Time := none
  currentPeriod : Option Period := none
  scheduledCancelAt : Option Time := none
  providerPriceId : Option String := none
  billingNotice : Option ProviderBillingNotice := none
  simulated : Bool := false
  checkoutMetadata : Option CheckoutMetadata := none
  deriving DecidableEq

end RestaurantOs.Billing
