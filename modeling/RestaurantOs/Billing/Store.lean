import RestaurantOs.Async.Run
import RestaurantOs.Billing.Rules
import RestaurantOs.Data.Tables

/-!
# The billing store

One operation for each awaited call of the subscription code. A write of a
subscription is a filter and the fields it sets. Any call but a reading of the
clock or the configuration may throw; it then has had no effect.
-/

namespace RestaurantOs.Billing

open Async

structure World where
  now : Time := 0
  nextId : Id := 0
  owners : List (OwnerType × Id) := []
  plans : List Plan := []
  subscriptions : List Subscription := []
  webhookEvents : List BillingWebhookEvent := []
  history : List BillingHistoryEvent := []
  trialExtensionActive : Bool := false

/-- The filter of a write. `appliedBy` is `notOlderThanApplied`, `unended` asks
that the trial extension has no `endedAt`. -/
structure SubscriptionFilter where
  id : Id
  status : Option SubscriptionStatus := none
  appliedBy : Option Time := none
  unended : Bool := false
  deriving DecidableEq

/-- The fields a write sets. Where `none` may be stored, `some none` is
`$unset`; `maxEventAt` is `$max: { lastProviderEventAt }`. -/
structure SubscriptionUpdate where
  status : Option SubscriptionStatus := none
  planId : Option Id := none
  billingInterval : Option BillingInterval := none
  currentPeriodStart : Option Time := none
  currentPeriodEnd : Option Time := none
  trialEnd : Option (Option Time) := none
  cancelAt : Option (Option Time) := none
  cancelledAt : Option Time := none
  provider : Option SubscriptionProvider := none
  providerCustomerId : Option String := none
  providerSubscriptionId : Option String := none
  lastProviderEventAt : Option Time := none
  maxEventAt : Option Time := none
  extensionEndedAt : Option Time := none
  clearReminder : Bool := false
  deriving DecidableEq

inductive SubscriptionOp
  | findLive (ownerType : OwnerType) (ownerId : Id)
  | findByReference (provider : SubscriptionProvider) (reference : String)
  | findLocal (ownerType : OwnerType) (ownerId : Id)
  | findHeld
  | findLapsed (now : Time) (extensionActive : Bool)
  | findOneAndUpdate (filter : SubscriptionFilter) (update : SubscriptionUpdate)
  | create (draft : Subscription)
  | holdTrials (now : Time)
  deriving DecidableEq

inductive PlanOp
  | findActive (code : String)
  | findByPrice (providerPriceId : String)
  deriving DecidableEq

/-- `settle` stores the outcome of an attempt; every outcome ends it. -/
inductive EventOp
  | create (provider : SubscriptionProvider) (eventId eventType : String) (startedAt : Time)
  | reclaim (provider : SubscriptionProvider) (eventId : String) (startedAt : Time)
  | settle (provider : SubscriptionProvider) (eventId : String) (processedAt : Option Time) (processingError : Option String)
  deriving DecidableEq

inductive HistoryOp
  | create (row : BillingHistoryEvent)
  | isRecorded (subscriptionId : Id) (noticeKey : String)
  deriving DecidableEq

inductive ProviderOp
  | cancelSubscription (providerSubscriptionId : String) (atPeriodEnd : Bool)
  | reactivateSubscription (providerSubscriptionId : String)
  | changePlan (providerSubscriptionId newProviderPriceId : String)
  | retrieveSubscription (providerSubscriptionId : String)
  deriving DecidableEq

inductive Op
  | clock
  | trialExtensionActive
  | owner (ownerType : OwnerType) (ownerId : Id)
  | subscription (op : SubscriptionOp)
  | plan (op : PlanOp)
  | event (op : EventOp)
  | history (op : HistoryOp)
  | provider (op : ProviderOp)
  deriving DecidableEq

@[reducible] def SubscriptionOp.Resp : SubscriptionOp → Type
  | create _ => Subscription
  | findHeld | findLapsed _ _ => List Subscription
  | holdTrials _ => Unit
  | _ => Option Subscription

@[reducible] def EventOp.Resp : EventOp → Type
  | reclaim _ _ _ => Bool
  | _ => Unit

@[reducible] def HistoryOp.Resp : HistoryOp → Type
  | create _ => Unit
  | isRecorded _ _ => Bool

@[reducible] def ProviderOp.Resp : ProviderOp → Type
  | retrieveSubscription _ => ProviderSubscriptionSnapshot
  | _ => Unit

@[reducible] def Op.Resp : Op → Type
  | clock => Time
  | trialExtensionActive => Bool
  | owner _ _ => Bool
  | subscription op => op.Resp
  | plan _ => Option Plan
  | event op => op.Resp
  | history op => op.Resp
  | provider op => op.Resp

structure Answer where
  fault : Option String := none
  snapshot : ProviderSubscriptionSnapshot := {}

inductive Event
  | tick (elapsed : Time)
  | switch (active : Bool)
  | edit (plans : List Plan)
  deriving DecidableEq

/-! ## Subscriptions -/

def SubscriptionFilter.selects (filter : SubscriptionFilter) (stored : Subscription) : Bool :=
  stored.id = filter.id && filter.status.all (stored.status = ·) && notOlderThanApplied filter.appliedBy stored &&
    (!filter.unended || !stored.trialExtension.any (·.endedAt.isSome))

/-- `$max`: a field that is not set takes the value. -/
def maxTime (stored : Option Time) (time : Time) : Option Time := some (stored.elim time (max · time))

def SubscriptionUpdate.apply (update : SubscriptionUpdate) (stored : Subscription) : Subscription :=
  { stored with
    status := update.status.getD stored.status
    planId := update.planId.getD stored.planId
    billingInterval := update.billingInterval.getD stored.billingInterval
    currentPeriodStart := update.currentPeriodStart.getD stored.currentPeriodStart
    currentPeriodEnd := update.currentPeriodEnd.getD stored.currentPeriodEnd
    trialEnd := update.trialEnd.getD stored.trialEnd
    cancelAt := update.cancelAt.getD stored.cancelAt
    cancelledAt := update.cancelledAt.or stored.cancelledAt
    provider := update.provider.getD stored.provider
    providerCustomerId := update.providerCustomerId.or stored.providerCustomerId
    providerSubscriptionId := update.providerSubscriptionId.or stored.providerSubscriptionId
    lastProviderEventAt :=
      match update.maxEventAt with
      | some time => maxTime stored.lastProviderEventAt time
      | none => update.lastProviderEventAt.or stored.lastProviderEventAt
    trialExtension :=
      match update.extensionEndedAt with
      | some time => some { stored.trialExtension.getD {} with endedAt := some time }
      | none => stored.trialExtension
    trialEndingReminderSentAt := if update.clearReminder then none else stored.trialEndingReminderSentAt }

/-- The unique indexes: one live subscription an owner, and one record for a
provider's subscription. -/
def subscriptionTaken (subscriptions : List Subscription) (draft : Subscription) : Bool :=
  subscriptions.any fun other =>
    other.id ≠ draft.id &&
      ((other.status.live && draft.status.live && other.ownerType = draft.ownerType && other.ownerId = draft.ownerId) ||
        (draft.providerSubscriptionId.isSome && other.provider = draft.provider &&
          other.providerSubscriptionId = draft.providerSubscriptionId))

def Subscription.hold (now : Time) (stored : Subscription) : Subscription :=
  { stored with
    trialExtension := some { stored.trialExtension.getD {} with extendedAt := some now, originalTrialEnd := stored.trialEnd } }

/-- `{ status: "trialing", trialEnd: { $lte: now }, provider: { $ne: "internal" } }` -/
def Subscription.trialOver (now : Time) (sub : Subscription) : Bool :=
  sub.status = .trialing && sub.trialEnd.any (· ≤ now) && sub.provider ≠ .internal

def Subscription.isExtended (sub : Subscription) : Bool := sub.trialExtension.any (·.extendedAt.isSome)

def Subscription.isHeld (sub : Subscription) : Bool :=
  sub.status = .trialing && sub.isExtended && !sub.trialExtension.any (·.endedAt.isSome)

def SubscriptionOp.perform : (op : SubscriptionOp) → World → Except Err op.Resp × World
  | findLive ownerType ownerId, w =>
    (.ok (w.subscriptions.find? fun s => s.ownerType = ownerType && s.ownerId = ownerId && s.status.live), w)
  | findByReference provider reference, w =>
    (.ok (w.subscriptions.find? fun s => s.provider = provider && s.providerSubscriptionId = some reference), w)
  | findLocal ownerType ownerId, w =>
    (.ok (w.subscriptions.find? fun s => s.ownerType = ownerType && s.ownerId = ownerId && s.status.live &&
      s.providerSubscriptionId.isNone), w)
  | findHeld, w => (.ok (w.subscriptions.filter Subscription.isHeld), w)
  | findLapsed now extensionActive, w =>
    (.ok (w.subscriptions.filter fun s => s.trialOver now && (!extensionActive || s.backed)), w)
  | findOneAndUpdate filter update, w =>
    match w.subscriptions.find? filter.selects with
    | none => (.ok none, w)
    | some stored =>
      if subscriptionTaken w.subscriptions (update.apply stored) then (.error .duplicateKey, w)
      else
        (.ok (some (update.apply stored)),
          { w with subscriptions := Tables.update filter.selects update.apply w.subscriptions })
  | create draft, w =>
    let subscription : Subscription := { draft with id := w.nextId, createdAt := w.now }
    if subscriptionTaken w.subscriptions subscription then (.error .duplicateKey, w)
    else (.ok subscription, { w with subscriptions := w.subscriptions ++ [subscription], nextId := w.nextId + 1 })
  | holdTrials now, w =>
    (.ok (), { w with
      subscriptions :=
        Tables.update (fun s => s.trialOver now && !s.isExtended && !s.backed) (Subscription.hold now) w.subscriptions })

/-! ## The other collections -/

def PlanOp.perform : PlanOp → World → Option Plan
  | findActive code, w => w.plans.find? fun p => p.code = code && p.isActive
  | findByPrice providerPriceId, w =>
    w.plans.find? fun p => p.pricing.any (·.providerPriceId = some providerPriceId)

def BillingWebhookEvent.isFor (provider : SubscriptionProvider) (eventId : String) (event : BillingWebhookEvent) : Bool :=
  event.provider = provider && event.eventId = eventId

def BillingWebhookEvent.idle (event : BillingWebhookEvent) : Bool :=
  event.processedAt.isNone && event.processingStartedAt.isNone

def BillingWebhookEvent.started (startedAt : Time) (event : BillingWebhookEvent) : BillingWebhookEvent :=
  { event with processingStartedAt := some startedAt }

def BillingWebhookEvent.settled (processedAt : Option Time) (processingError : Option String) (event : BillingWebhookEvent) :
    BillingWebhookEvent :=
  { event with processedAt := processedAt.or event.processedAt, processingError, processingStartedAt := none }

def EventOp.perform : (op : EventOp) → World → Except Err op.Resp × World
  | create provider eventId eventType startedAt, w =>
    if w.webhookEvents.any (·.isFor provider eventId) then (.error .duplicateKey, w)
    else
      (.ok (), { w with
        webhookEvents := w.webhookEvents ++ [{ provider, eventId, eventType, processingStartedAt := some startedAt }] })
  | reclaim provider eventId startedAt, w =>
    let sel := fun e : BillingWebhookEvent => e.isFor provider eventId && e.idle
    (.ok (w.webhookEvents.any sel),
      { w with webhookEvents := Tables.update sel (·.started startedAt) w.webhookEvents })
  | settle provider eventId processedAt processingError, w =>
    (.ok (), { w with
      webhookEvents := Tables.update (·.isFor provider eventId) (·.settled processedAt processingError) w.webhookEvents })

def HistoryOp.perform : (op : HistoryOp) → Answer → World → Except Err op.Resp × World
  | create row, a, w =>
    let duplicate := row.noticeKey.isSome &&
      w.history.any fun other => other.subscriptionId = row.subscriptionId && other.noticeKey = row.noticeKey
    if a.fault.isSome || duplicate then (.ok (), w)
    else (.ok (), { w with history := w.history ++ [{ row with occurredAt := row.occurredAt.or (some w.now) }] })
  | isRecorded subscriptionId noticeKey, a, w =>
    match a.fault with
    | some text => (.error (.other text), w)
    | none => (.ok (w.history.any fun row => row.subscriptionId = subscriptionId && row.noticeKey = some noticeKey), w)

def ProviderOp.perform : (op : ProviderOp) → Answer → Except Err op.Resp
  | cancelSubscription _ _, _ => .ok ()
  | reactivateSubscription _, _ => .ok ()
  | changePlan _ _, _ => .ok ()
  | retrieveSubscription _, a => .ok a.snapshot

def unlessFault {ρ : Type} (a : Answer) (w : World) (r : Except Err ρ × World) : Except Err ρ × World :=
  match a.fault with
  | some text => (.error (.other text), w)
  | none => r

def Op.perform : (op : Op) → Answer → World → Except Err op.Resp × World
  | clock, _, w => (.ok w.now, w)
  | trialExtensionActive, _, w => (.ok w.trialExtensionActive, w)
  | owner ownerType ownerId, a, w => unlessFault a w (.ok (w.owners.contains (ownerType, ownerId)), w)
  | subscription op, a, w => unlessFault a w (op.perform w)
  | plan op, a, w => unlessFault a w (.ok (op.perform w), w)
  | event op, a, w => unlessFault a w (op.perform w)
  | history op, a, w => op.perform a w
  | provider op, a, w => unlessFault a w (op.perform a, w)

def Event.advance : Event → World → World
  | tick elapsed, w => { w with now := w.now + elapsed }
  | switch active, w => { w with trialExtensionActive := active }
  | edit plans, w => { w with plans }

@[reducible] def store : Store Op Op.Resp Err World Answer Event where
  perform := Op.perform
  advance := Event.advance

instance : Inhabited Answer := ⟨{}⟩

instance : Inhabited World := ⟨{}⟩

end RestaurantOs.Billing
