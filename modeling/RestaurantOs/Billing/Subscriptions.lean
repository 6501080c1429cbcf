import RestaurantOs.Billing.Store

/-!
# Subscriptions

The requests of an owner, the provider's webhooks and the expiry of trials.
-/

namespace RestaurantOs.Billing

open Async

/-- The deployment's configuration: its billing provider, `TRIAL_PERIOD_DAYS`
and `TRIAL_GRACE_AFTER_CHECKOUT_OPENS_DAYS`. -/
structure Env where
  billingProvider : SubscriptionProvider := .mock
  trialPeriodDays : Nat := 14
  trialGraceDays : Nat := 14

abbrev Promise (α : Type) := Prog Op Op.Resp Err α

def subscriptionOp (op : SubscriptionOp) : Promise op.Resp := .call (Op.subscription op)

def planOp (op : PlanOp) : Promise (Option Plan) := .call (Op.plan op)

def eventOp (op : EventOp) : Promise op.Resp := .call (Op.event op)

def providerOp (op : ProviderOp) : Promise op.Resp := .call (Op.provider op)

def dateNow : Promise Time := .call Op.clock

def trialExtensionActive : Promise Bool := .call Op.trialExtensionActive

def throwApi {α : Type} (error : ApiError) : Promise α := .raise (.api error)

def recordBillingHistoryEvent (row : BillingHistoryEvent) : Promise Unit := .call (Op.history (.create row))

def findOneAndUpdate (filter : SubscriptionFilter) (update : SubscriptionUpdate) : Promise (Option Subscription) :=
  subscriptionOp (.findOneAndUpdate filter update)

/-- `copy.save()`: writes the fields that were changed on the copy, whatever
is stored by then. -/
def saveSubscription (copy : Subscription) (update : SubscriptionUpdate) : Promise Subscription := do
  let stored ← findOneAndUpdate { id := copy.id } update
  match stored with
  | none => .raise (.other "No document found")
  | some _ => pure (update.apply copy)

def changed {α : Type} [DecidableEq α] (loaded value : α) : Option α := if value = loaded then none else some value

/-! ## Trials -/

def createSubscriptionCore (env : Env) (ownerType : OwnerType) (ownerId : Id) (planCode : String)
    (billingInterval : BillingInterval) (assignedByPlatform : Bool) : Promise Subscription := do
  let identity : Bool ← .call (Op.owner ownerType ownerId)
  if !identity then throwApi (.notFound s!"{ownerType.name} not found")
  else do
    let current : Option Subscription ← subscriptionOp (.findLive ownerType ownerId)
    if current.isSome then throwApi (.conflict s!"This {ownerType.label} already has an active subscription")
    else do
      let plan ← planOp (.findActive planCode)
      match plan with
      | none => throwApi (.badRequest "Unknown or inactive plan")
      | some plan =>
        if plan.type ≠ ownerType.planType then
          throwApi (.badRequest s!"This plan is not available for {ownerType.label} accounts")
        else if !assignedByPlatform && selfServeRefused plan none then throwApi (.badRequest "Unknown or inactive plan")
        else
          match resolveTrialDays env.trialPeriodDays plan with
          | none => throwApi (.badRequest "This plan requires a payment method up front — start checkout to subscribe")
          | some trialDays => do
            let now ← dateNow
            let trialEnd := now + trialDays * DAY_MS
            let created ← (subscriptionOp (.create {
              id := 0, ownerType, ownerId, planId := plan.id, status := .trialing, billingInterval
              currentPeriodStart := now, currentPeriodEnd := trialEnd, trialStart := some now, trialEnd := some trialEnd
              provider := env.billingProvider, createdAt := now })).attempt
            match created with
            | .error err =>
              if err.isDuplicateKey then throwApi (.conflict s!"This {ownerType.label} already has an active subscription")
              else .raise err
            | .ok subscription => do
              recordBillingHistoryEvent {
                ownerType, ownerId, subscriptionId := subscription.id, type := .trialStarted, provider := subscription.provider
                metadata := { planCode := some plan.code, billingInterval := some billingInterval, trialEnd := subscription.trialEnd } }
              pure subscription

/-! ## Owner actions -/

def getLiveSubscriptionOrThrow (ownerType : OwnerType) (ownerId : Id) : Promise Subscription := do
  let subscription : Option Subscription ← subscriptionOp (.findLive ownerType ownerId)
  match subscription with
  | none => throwApi (.notFound s!"This {ownerType.label} has no active subscription")
  | some subscription => pure subscription

def providerActionMarker (subscription : Subscription) (actedAt : Time) : Option Time :=
  if subscription.backed then some actedAt else none

def cancelTarget (subscription : Subscription) (atPeriodEnd : Bool) : SubscriptionStatus :=
  if subscription.status = .active ∧ atPeriodEnd then .cancelling else .cancelled

def cancelUpdate (subscription : Subscription) (targetStatus : SubscriptionStatus) (actedAt now : Time) : SubscriptionUpdate where
  status := some targetStatus
  cancelAt := if targetStatus = .cancelling then some (some subscription.currentPeriodEnd) else none
  cancelledAt := if targetStatus = .cancelling then none else some now
  maxEventAt := providerActionMarker subscription actedAt

def cancelSubscriptionCore (ownerType : OwnerType) (ownerId : Id) (atPeriodEnd : Bool) : Promise Subscription := do
  let subscription ← getLiveSubscriptionOrThrow ownerType ownerId
  if subscription.status = .cancelling then throwApi (.badRequest "This subscription is already scheduled to cancel")
  else
    let targetStatus := cancelTarget subscription atPeriodEnd
    if !isValidSubscriptionTransition subscription.status targetStatus then
      throwApi (.badRequest s!"Cannot cancel a subscription with status \"{subscription.status.text}\"")
    else do
      let actedAt ← dateNow
      .onlyIf subscription.backed
        (providerOp (.cancelSubscription (subscription.providerSubscriptionId.getD "") (targetStatus = .cancelling)))
      let now ← dateNow
      let updated ← findOneAndUpdate { id := subscription.id, status := some subscription.status }
        (cancelUpdate subscription targetStatus actedAt now)
      match updated with
      | none => throwApi (.conflict "This subscription was just modified — please retry")
      | some updated => do
        recordBillingHistoryEvent {
          ownerType, ownerId, subscriptionId := updated.id
          type := if targetStatus = .cancelling then .cancellationRequested else .cancelled, provider := updated.provider }
        pure updated

def reactivateUpdate (subscription : Subscription) (actedAt : Time) : SubscriptionUpdate where
  status := some .active
  cancelAt := some none
  maxEventAt := providerActionMarker subscription actedAt

def reactivateSubscriptionCore (ownerType : OwnerType) (ownerId : Id) : Promise Subscription := do
  let subscription ← getLiveSubscriptionOrThrow ownerType ownerId
  if !isValidSubscriptionTransition subscription.status .active then
    throwApi (.badRequest s!"Cannot reactivate a subscription with status \"{subscription.status.text}\"")
  else do
    let actedAt ← dateNow
    .onlyIf subscription.backed (providerOp (.reactivateSubscription (subscription.providerSubscriptionId.getD "")))
    let updated ← findOneAndUpdate { id := subscription.id, status := some subscription.status }
      (reactivateUpdate subscription actedAt)
    match updated with
    | none => throwApi (.conflict "This subscription was just modified — please retry")
    | some updated => do
      recordBillingHistoryEvent {
        ownerType, ownerId, subscriptionId := updated.id, type := .reactivated, provider := updated.provider }
      pure updated

/-- `subscription.planId = plan._id` and the marker, if this action is newer
than what the copy reflects. -/
def planUpdate (subscription : Subscription) (plan : Plan) (actedAt : Time) : SubscriptionUpdate where
  planId := changed subscription.planId plan.id
  lastProviderEventAt :=
    if subscription.backed ∧ subscription.lastProviderEventAt.all (· < actedAt) then some actedAt else none

def changeSubscriptionPlanCore (ownerType : OwnerType) (ownerId : Id) (newPlanCode : String) : Promise Subscription := do
  let subscription ← getLiveSubscriptionOrThrow ownerType ownerId
  if subscription.status ≠ .trialing ∧ subscription.status ≠ .active ∧ subscription.status ≠ .pastDue then
    throwApi (.badRequest s!"Cannot change plan on a subscription with status \"{subscription.status.text}\"")
  else do
    let plan ← planOp (.findActive newPlanCode)
    match plan with
    | none => throwApi (.badRequest "Unknown or inactive plan")
    | some plan =>
      if plan.type ≠ ownerType.planType then
        throwApi (.badRequest s!"This plan is not available for {ownerType.label} accounts")
      else if selfServeRefused plan (some subscription) then throwApi (.badRequest "Unknown or inactive plan")
      else do
        let actedAt ← dateNow
        .onlyIf subscription.backed
          (match (resolvePricing plan subscription.billingInterval).bind fun p => truthy p.providerPriceId with
          | none => throwApi (.badRequest
            s!"The {plan.name} plan has no {subscription.billingInterval.text} price configured with the billing provider yet")
          | some newProviderPriceId =>
            providerOp (.changePlan (subscription.providerSubscriptionId.getD "") newProviderPriceId))
        let saved ← saveSubscription subscription (planUpdate subscription plan actedAt)
        let pricing := resolvePricing plan subscription.billingInterval
        recordBillingHistoryEvent {
          ownerType, ownerId, subscriptionId := saved.id, type := .planChanged, provider := saved.provider
          amountCents := pricing.bind (·.amountCents), currency := pricing.bind (·.currency)
          metadata := { newPlanCode := some newPlanCode } }
        pure saved

/-! ## Provider events -/

def settleEvent (providerName : SubscriptionProvider) (event : ProviderBillingWebhookEvent) (processedAt : Option Time)
    (processingError : Option String) : Promise Unit :=
  eventOp (.settle providerName event.eventId processedAt processingError)

def markProcessed (providerName : SubscriptionProvider) (event : ProviderBillingWebhookEvent) : Promise Unit := do
  let now ← dateNow
  settleEvent providerName event (some now) none

def markIgnored (providerName : SubscriptionProvider) (event : ProviderBillingWebhookEvent) (processingError : String) :
    Promise Unit := do
  let now ← dateNow
  settleEvent providerName event (some now) (some processingError)

def reportedPlan (current : Subscription) (providerPriceId : String) (plan : Option Plan) : Option (Plan × PlanPricing) := do
  let plan ← plan
  let pricing ← plan.pricing.find? (·.providerPriceId = some providerPriceId)
  if plan.id ≠ current.planId ∨ pricing.interval ≠ current.billingInterval then some (plan, pricing) else none

def detailsUpdate (event : ProviderBillingWebhookEvent) (planChange : Option (Plan × PlanPricing)) : SubscriptionUpdate where
  currentPeriodStart := event.currentPeriod.map (·.start)
  currentPeriodEnd := event.currentPeriod.map (·.end)
  cancelAt := event.scheduledCancelAt.map some
  planId := planChange.map (·.1.id)
  billingInterval := planChange.map (·.2.interval)

def claimOrder (subscription : Subscription) (event : ProviderBillingWebhookEvent) : Promise (Option Subscription) :=
  match event.occurredAt with
  | none => pure (some subscription)
  | some occurredAt =>
    findOneAndUpdate { id := subscription.id, appliedBy := some occurredAt } { lastProviderEventAt := some occurredAt }

def findReportedPlan (current : Subscription) (event : ProviderBillingWebhookEvent) : Promise (Option (Plan × PlanPricing)) :=
  match truthy event.providerPriceId with
  | none => pure none
  | some providerPriceId => do
    let plan ← planOp (.findByPrice providerPriceId)
    pure (reportedPlan current providerPriceId plan)

/-- The subscription once the event has taken its place and its details are
applied; `none` when a newer state is recorded. -/
def applyProviderSubscriptionDetails (subscription : Subscription) (event : ProviderBillingWebhookEvent) :
    Promise (Option Subscription) := do
  let claimed ← claimOrder subscription event
  match claimed with
  | none => pure none
  | some current => do
    let planChange ← findReportedPlan current event
    let set := detailsUpdate event planChange
    if set = {} then pure (some current)
    else do
      let updated ← findOneAndUpdate { id := current.id, appliedBy := event.occurredAt } set
      match updated, planChange with
      | some updated, some (plan, pricing) => do
        recordBillingHistoryEvent {
          ownerType := updated.ownerType, ownerId := updated.ownerId, subscriptionId := updated.id, type := .planChanged
          provider := updated.provider, amountCents := pricing.amountCents, currency := pricing.currency
          providerReference := some event.eventId, metadata := { newPlanCode := some plan.code, viaProvider := true } }
        pure (some updated)
      | updated, _ => pure updated

def recordProviderBillingNotice (subscription : Subscription) (event : ProviderBillingWebhookEvent)
    (notice : ProviderBillingNotice) : Promise Unit := do
  let type := notice.type.historyType
  let reference := notice.reference.getD event.eventId
  let noticeKey := s!"{type.text}:{reference}"
  let recorded : Bool ← .call (Op.history (.isRecorded subscription.id noticeKey))
  .onlyIf (recorded = false) (recordBillingHistoryEvent {
    ownerType := subscription.ownerType, ownerId := subscription.ownerId, subscriptionId := subscription.id, type
    provider := subscription.provider, amountCents := notice.amountCents, currency := notice.currency
    providerReference := some reference, occurredAt := event.occurredAt, noticeKey := some noticeKey })

def checkoutUpdate (trial : Subscription) (plan : Plan) (status : SubscriptionStatus) (providerName : SubscriptionProvider)
    (event : ProviderBillingWebhookEvent) (checkout : CheckoutMetadata) (snapshot : ProviderSubscriptionSnapshot) :
    SubscriptionUpdate where
  planId := changed trial.planId plan.id
  status := changed trial.status status
  billingInterval := changed trial.billingInterval checkout.billingInterval
  currentPeriodStart := changed trial.currentPeriodStart snapshot.currentPeriodStart
  currentPeriodEnd := changed trial.currentPeriodEnd snapshot.currentPeriodEnd
  trialEnd := changed trial.trialEnd (if status = .trialing then snapshot.trialEnd.or trial.trialEnd else none)
  provider := changed trial.provider providerName
  providerCustomerId := if trial.providerCustomerId = some checkout.providerCustomerId then none else some checkout.providerCustomerId
  providerSubscriptionId := some event.providerSubscriptionId
  lastProviderEventAt := if event.occurredAt = trial.lastProviderEventAt then none else event.occurredAt

/-- The subscription that a completed checkout converts or creates; `none` when
the owner has a live one by then. -/
def recordCheckout (providerName : SubscriptionProvider) (event : ProviderBillingWebhookEvent) (checkout : CheckoutMetadata)
    (plan : Plan) (snapshot : ProviderSubscriptionSnapshot) (status : SubscriptionStatus) : Promise (Option Subscription) := do
  let existingLocalTrial : Option Subscription ← subscriptionOp (.findLocal checkout.ownerType checkout.ownerId)
  match existingLocalTrial with
  | some trial => do
    let saved ← saveSubscription trial (checkoutUpdate trial plan status providerName event checkout snapshot)
    pure (some saved)
  | none => do
    let now ← dateNow
    let created ← (subscriptionOp (.create {
      id := 0, ownerType := checkout.ownerType, ownerId := checkout.ownerId, planId := plan.id, status
      billingInterval := checkout.billingInterval, currentPeriodStart := snapshot.currentPeriodStart
      currentPeriodEnd := snapshot.currentPeriodEnd, trialStart := if status = .trialing then some now else none
      trialEnd := snapshot.trialEnd, provider := providerName, providerCustomerId := some checkout.providerCustomerId
      providerSubscriptionId := some event.providerSubscriptionId, lastProviderEventAt := event.occurredAt
      createdAt := now })).attempt
    match created with
    | .error err => if err.isDuplicateKey then pure none else .raise err
    | .ok subscription => pure (some subscription)

def handleCheckoutCompletionEvent (providerName : SubscriptionProvider) (event : ProviderBillingWebhookEvent)
    (checkout : CheckoutMetadata) : Promise Unit := do
  let plan ← planOp (.findActive checkout.planCode)
  match plan with
  | none => settleEvent providerName event none (some s!"Unknown plan code: {checkout.planCode}")
  | some plan => do
    let snapshot : ProviderSubscriptionSnapshot ← providerOp (.retrieveSubscription event.providerSubscriptionId)
    let status : SubscriptionStatus := if snapshot.status = .trialing then .trialing else .active
    let recorded ← recordCheckout providerName event checkout plan snapshot status
    match recorded with
    | none => markIgnored providerName event "Duplicate: owner already has a live subscription"
    | some subscription => do
      let pricing := resolvePricing plan checkout.billingInterval
      let row : BillingHistoryEvent := {
        ownerType := checkout.ownerType, ownerId := checkout.ownerId, subscriptionId := subscription.id
        type := .subscriptionCreated, provider := providerName, amountCents := pricing.bind (·.amountCents)
        currency := pricing.bind (·.currency), providerReference := some event.eventId }
      recordBillingHistoryEvent { row with metadata := { planCode := some plan.code, viaCheckout := true } }
      .onlyIf (status = .active) (recordBillingHistoryEvent { row with type := .paymentSucceeded })
      markProcessed providerName event

/-- Whether this attempt may process the event: it recorded it first, or took
it over from an attempt that gave up. -/
def claimWebhookEventForProcessing (providerName : SubscriptionProvider) (event : ProviderBillingWebhookEvent) : Promise Bool := do
  let now ← dateNow
  let created ← (eventOp (.create providerName event.eventId event.eventType now)).attempt
  match created with
  | .ok _ => pure true
  | .error err =>
    if err.isDuplicateKey then do
      let now ← dateNow
      eventOp (.reclaim providerName event.eventId now)
    else .raise err

def statusUpdate (current : Subscription) (targetStatus : SubscriptionStatus) (now : Time) : SubscriptionUpdate where
  status := some targetStatus
  cancelledAt := if targetStatus = .cancelled then some now else none
  trialEnd := if targetStatus = .active then some none else none
  cancelAt := if targetStatus = .active ∧ current.status = .cancelling then some none else none

def transitionHistoryType (currentStatus targetStatus : SubscriptionStatus) : Option BillingHistoryEventType :=
  if currentStatus = .cancelling ∧ targetStatus = .active then some .reactivated
  else if targetStatus = .cancelling then some .cancellationRequested
  else targetStatus.historyType

def applySubscriptionEvent (providerName : SubscriptionProvider) (event : ProviderBillingWebhookEvent)
    (status : ProviderSubscriptionStatus) (subscription : Subscription) : Promise Unit := do
  let current ← applyProviderSubscriptionDetails subscription event
  match current with
  | none => markIgnored providerName event "Ignored: older than the subscription state already applied"
  | some current =>
    let targetStatus := resolveTransitionTarget current.status status event.scheduledCancelAt
    if targetStatus = current.status then markProcessed providerName event
    else if !isValidSubscriptionTransition current.status targetStatus then
      markIgnored providerName event s!"Ignored: {current.status.text} -> {targetStatus.text}"
    else do
      let now ← dateNow
      let applied ← findOneAndUpdate { id := current.id, status := some current.status, appliedBy := event.occurredAt }
        (statusUpdate current targetStatus now)
      match applied, transitionHistoryType current.status targetStatus with
      | some _, some historyType => recordBillingHistoryEvent {
          ownerType := subscription.ownerType, ownerId := subscription.ownerId, subscriptionId := subscription.id
          type := historyType, provider := providerName, providerReference := some event.eventId }
      | _, _ => pure ()
      markProcessed providerName event

/-- The processing section, inside `try`. -/
def processClaimedEvent (providerName : SubscriptionProvider) (event : ProviderBillingWebhookEvent) : Promise Unit :=
  if event.simulated then markIgnored providerName event SIMULATED_EVENT_IGNORED
  else
    match event.checkoutMetadata with
    | some checkout => handleCheckoutCompletionEvent providerName event checkout
    | none => do
      let subscription ← (if event.providerSubscriptionId = "" then pure none
        else subscriptionOp (.findByReference providerName event.providerSubscriptionId) : Promise (Option Subscription))
      match subscription with
      | none => do
        let now ← dateNow
        if isRetryableUnknownReference event now then
          throwApi (.serviceUnavailable "Subscription not recorded yet — retry later.")
        else markProcessed providerName event
      | some subscription =>
        match event.status with
        | none => do
          match event.billingNotice with
          | none => pure ()
          | some notice => recordProviderBillingNotice subscription event notice
          markProcessed providerName event
        | some status => applySubscriptionEvent providerName event status subscription

def processBillingProviderEvent (providerName : SubscriptionProvider) (event : ProviderBillingWebhookEvent) : Promise Unit := do
  let claimed ← claimWebhookEventForProcessing providerName event
  if !claimed then pure ()
  else do
    let outcome ← (processClaimedEvent providerName event).attempt
    match outcome with
    | .ok _ => pure ()
    | .error err => do
      settleEvent providerName event none (some (errorMessage err))
      .raise err

/-! ## The expiry of trials -/

def graceUpdate (now graceEnd : Time) (sub : Subscription) : SubscriptionUpdate where
  trialEnd := some (some (sub.trialEnd.elim graceEnd (max · graceEnd)))
  extensionEndedAt := some now
  clearReminder := true

def endHold (now graceEnd : Time) (sub : Subscription) : Promise Unit := do
  let _ ← findOneAndUpdate { id := sub.id, status := some .trialing, unended := true } (graceUpdate now graceEnd sub)
  pure ()

def expireTrial (candidate : Subscription) : Promise Unit := do
  let updated ← findOneAndUpdate { id := candidate.id, status := some .trialing } { status := some .expired }
  match updated with
  | none => pure ()
  | some updated => recordBillingHistoryEvent {
      ownerType := updated.ownerType, ownerId := updated.ownerId, subscriptionId := updated.id, type := .expired
      provider := updated.provider }

def expireLapsed (now : Time) : Promise Unit := do
  let holding ← trialExtensionActive
  let candidates : List Subscription ← subscriptionOp (.findLapsed now holding)
  .forEach expireTrial candidates

def runTrialExpirationSweep (env : Env) : Promise Unit := do
  let now ← dateNow
  let holding ← trialExtensionActive
  if holding then subscriptionOp (.holdTrials now)
  else do
    let held : List Subscription ← subscriptionOp .findHeld
    .forEach (endHold now (now + env.trialGraceDays * DAY_MS)) held
  expireLapsed now

/-! ## Requests -/

inductive Request
  | createSubscription (ownerType : OwnerType) (ownerId : Id) (planCode : String) (billingInterval : BillingInterval)
      (assignedByPlatform : Bool)
  | cancelSubscription (ownerType : OwnerType) (ownerId : Id) (atPeriodEnd : Bool)
  | reactivateSubscription (ownerType : OwnerType) (ownerId : Id)
  | changeSubscriptionPlan (ownerType : OwnerType) (ownerId : Id) (newPlanCode : String)
  | billingEvent (providerName : SubscriptionProvider) (event : ProviderBillingWebhookEvent)
  | trialExpirationSweep
  deriving DecidableEq

def answered {α : Type} (p : Promise α) : Promise Unit := p.bind fun _ => .ret ()

def Request.program (env : Env) : Request → Promise Unit
  | createSubscription ownerType ownerId planCode billingInterval assignedByPlatform =>
    answered (createSubscriptionCore env ownerType ownerId planCode billingInterval assignedByPlatform)
  | cancelSubscription ownerType ownerId atPeriodEnd => answered (cancelSubscriptionCore ownerType ownerId atPeriodEnd)
  | reactivateSubscription ownerType ownerId => answered (reactivateSubscriptionCore ownerType ownerId)
  | changeSubscriptionPlan ownerType ownerId newPlanCode =>
    answered (changeSubscriptionPlanCore ownerType ownerId newPlanCode)
  | billingEvent providerName event => processBillingProviderEvent providerName event
  | trialExpirationSweep => runTrialExpirationSweep env

abbrev State := Config Op Op.Resp Err World Unit

/-- `requests` have been sent to the API, whose database is `w`. -/
def State.start (env : Env) (w : World) (requests : List Request) : State :=
  Config.initial w (requests.map (Request.program env))

end RestaurantOs.Billing
