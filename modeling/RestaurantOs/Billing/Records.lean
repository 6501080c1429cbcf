import RestaurantOs.Billing.Subscriptions

/-!
# What the requests write

How an operation changes a stored subscription, and which writes each request
can come to make.
-/

namespace RestaurantOs.Billing

open Async Prog

def World.subscription? (w : World) (id : Id) : Option Subscription := w.subscriptions.find? (·.id = id)

def Op.plain : Op → Bool
  | .subscription (.findOneAndUpdate _ _) => false
  | .subscription (.holdTrials _) => false
  | _ => true

inductive Op.Turns (o : Op) (stored : Subscription) : Subscription → Prop
  | same : Turns o stored stored
  | updated {filter update} (hOp : o = .subscription (.findOneAndUpdate filter update)) (hSelects : filter.selects stored = true) :
      Turns o stored (update.apply stored)
  | held {now} (hOp : o = .subscription (.holdTrials now)) : Turns o stored (stored.hold now)

section Turns

variable {o : Op} {a : Answer} {w : World} {id : Id} {stored : Subscription}

theorem SubscriptionFilter.selects_iff {filter : SubscriptionFilter} : filter.selects stored = true ↔
    stored.id = filter.id ∧ (∀ status, filter.status = some status → stored.status = status) ∧
      notOlderThanApplied filter.appliedBy stored = true ∧
        (filter.unended = true → stored.trialExtension.any (·.endedAt.isSome) = false) := by
  simp only [selects, Bool.and_eq_true, decide_eq_true_eq, Option.all_eq_true, Bool.or_eq_true, Bool.not_eq_eq_eq_not,
    Bool.not_true, and_assoc]
  cases filter.unended <;> simp

theorem World.id_of_subscription (h : w.subscription? id = some stored) : stored.id = id := by
  simpa using List.find?_some h

theorem World.find_update {sel : Subscription → Bool} {f : Subscription → Subscription} (hId : ∀ s, (f s).id = s.id)
    (h : w.subscription? id = some stored) :
    (Tables.update sel f w.subscriptions).find? (·.id = id) = some (if sel stored then f stored else stored) := by
  rw [Tables.find?_update]
  · rw [subscription?] at h
    rw [h]
    rfl
  · intro d _
    split
    · simp only [hId]
    · rfl

theorem SubscriptionOp.turns (op : SubscriptionOp) (h : w.subscription? id = some stored) :
    ∃ next, (op.perform w).2.subscription? id = some next ∧ (Op.subscription op).Turns stored next := by
  cases op with
  | findOneAndUpdate filter update =>
    simp only [perform]
    split
    · exact ⟨stored, h, .same⟩
    · split
      · exact ⟨stored, h, .same⟩
      · refine ⟨_, World.find_update (fun _ => rfl) h, ?_⟩
        split
        · exact .updated rfl ‹_›
        · exact .same
  | create draft =>
    simp only [perform]
    split
    · exact ⟨stored, h, .same⟩
    · refine ⟨stored, ?_, .same⟩
      rw [World.subscription?] at h
      simp only [World.subscription?, List.find?_append, h, Option.some_or]
  | holdTrials now =>
    refine ⟨_, World.find_update (fun _ => rfl) h, ?_⟩
    split
    · exact .held rfl
    · exact .same
  | _ => exact ⟨stored, h, .same⟩

theorem unlessFault_state {ρ : Type} {r : Except Err ρ × World} : (unlessFault a w r).2 = w ∨ unlessFault a w r = r := by
  unfold unlessFault
  split
  · exact .inl rfl
  · exact .inr rfl

theorem EventOp.subscriptions_perform (op : EventOp) (w : World) : (op.perform w).2.subscriptions = w.subscriptions := by
  cases op with
  | create provider eventId eventType startedAt =>
    simp only [perform]
    split <;> rfl
  | _ => rfl

theorem HistoryOp.subscriptions_perform (op : HistoryOp) (a : Answer) (w : World) :
    (op.perform a w).2.subscriptions = w.subscriptions := by
  cases op with
  | create row =>
    simp only [perform]
    split <;> rfl
  | isRecorded subscriptionId noticeKey =>
    simp only [perform]
    split <;> rfl

theorem Op.turns (o : Op) (a : Answer) (h : w.subscription? id = some stored) :
    ∃ next, (o.perform a w).2.subscription? id = some next ∧ o.Turns stored next := by
  have hSame : ∀ w' : World, w'.subscriptions = w.subscriptions → ∃ next, w'.subscription? id = some next ∧ o.Turns stored next :=
    fun w' hEq => ⟨stored, by rw [World.subscription?, hEq]; exact h, .same⟩
  cases o with
  | subscription op =>
    rcases unlessFault_state (a := a) (w := w) (r := op.perform w) with hEq | hEq
    · exact hSame _ (congrArg World.subscriptions hEq)
    · simp only [perform, hEq]
      exact op.turns h
  | event op =>
    rcases unlessFault_state (a := a) (w := w) (r := op.perform w) with hEq | hEq
    · exact hSame _ (congrArg World.subscriptions hEq)
    · exact hSame _ ((congrArg (·.2.subscriptions) hEq).trans (op.subscriptions_perform w))
  | history op => exact hSame _ (op.subscriptions_perform a w)
  | clock | trialExtensionActive => exact hSame _ rfl
  | owner | plan | provider =>
    rcases unlessFault_state (a := a) (w := w) with hEq | hEq
    · exact hSame _ (congrArg World.subscriptions hEq)
    · exact hSame _ (congrArg (·.2.subscriptions) hEq)

theorem Event.subscriptions_advance (e : Event) (w : World) : (e.advance w).subscriptions = w.subscriptions := by
  cases e <;> rfl

end Turns

/-! ## Which writes a request makes -/

abbrev writes (filter : SubscriptionFilter) (update : SubscriptionUpdate) : Op := .subscription (.findOneAndUpdate filter update)

inductive Request.Writes : Request → Op → Prop
  | plain {r : Request} {o : Op} (h : o.plain = true) : Writes r o
  | cancels {ownerType : OwnerType} {ownerId : Id} {atPeriodEnd : Bool} (copy : Subscription) (actedAt now : Time)
      (hValid : isValidSubscriptionTransition copy.status (cancelTarget copy atPeriodEnd) = true) :
      Writes (.cancelSubscription ownerType ownerId atPeriodEnd)
        (writes { id := copy.id, status := some copy.status } (cancelUpdate copy (cancelTarget copy atPeriodEnd) actedAt now))
  | reactivates {ownerType : OwnerType} {ownerId : Id} (copy : Subscription) (actedAt : Time)
      (hValid : isValidSubscriptionTransition copy.status .active = true) :
      Writes (.reactivateSubscription ownerType ownerId)
        (writes { id := copy.id, status := some copy.status } (reactivateUpdate copy actedAt))
  | changesPlan {ownerType : OwnerType} {ownerId : Id} {newPlanCode : String} (copy : Subscription) (plan : Plan) (actedAt : Time) :
      Writes (.changeSubscriptionPlan ownerType ownerId newPlanCode) (writes { id := copy.id } (planUpdate copy plan actedAt))
  | claimsOrder {providerName : SubscriptionProvider} {event : ProviderBillingWebhookEvent} {occurredAt : Time} (id : Id)
      (hTime : event.occurredAt = some occurredAt) :
      Writes (.billingEvent providerName event)
        (writes { id, appliedBy := some occurredAt } { lastProviderEventAt := some occurredAt })
  | details {providerName : SubscriptionProvider} {event : ProviderBillingWebhookEvent} (id : Id)
      (planChange : Option (Plan × PlanPricing)) :
      Writes (.billingEvent providerName event) (writes { id, appliedBy := event.occurredAt } (detailsUpdate event planChange))
  | moves {providerName : SubscriptionProvider} {event : ProviderBillingWebhookEvent} (current : Subscription)
      (targetStatus : SubscriptionStatus) (now : Time)
      (hValid : isValidSubscriptionTransition current.status targetStatus = true) :
      Writes (.billingEvent providerName event)
        (writes { id := current.id, status := some current.status, appliedBy := event.occurredAt }
          (statusUpdate current targetStatus now))
  | converts {providerName : SubscriptionProvider} {event : ProviderBillingWebhookEvent} {checkout : CheckoutMetadata}
      (trial : Subscription) (plan : Plan) (status : SubscriptionStatus) (snapshot : ProviderSubscriptionSnapshot)
      (hCheckout : event.checkoutMetadata = some checkout) (hStatus : status = .active ∨ status = .trialing) :
      Writes (.billingEvent providerName event)
        (writes { id := trial.id } (checkoutUpdate trial plan status providerName event checkout snapshot))
  | holds (now : Time) : Writes .trialExpirationSweep (.subscription (.holdTrials now))
  | graces (sub : Subscription) (now graceEnd : Time) :
      Writes .trialExpirationSweep
        (writes { id := sub.id, status := some .trialing, unended := true } (graceUpdate now graceEnd sub))
  | expires (id : Id) :
      Writes .trialExpirationSweep (writes { id, status := some .trialing } { status := some .expired })

section Walk

variable {r : Request} {α : Type}

theorem performs_plain {o : Op} (h : o.plain = true) : (Prog.call o : Promise o.Resp).Performs r.Writes :=
  performs_call (.plain h)

theorem performs_write {filter : SubscriptionFilter} {update : SubscriptionUpdate} (h : r.Writes (writes filter update)) :
    (findOneAndUpdate filter update).Performs r.Writes :=
  performs_call h

theorem performs_save {copy : Subscription} {update : SubscriptionUpdate} (h : r.Writes (writes { id := copy.id } update)) :
    (saveSubscription copy update).Performs r.Writes := by
  refine (performs_write h).bind fun stored => ?_
  cases stored <;> trivial

theorem getLiveSubscriptionOrThrow_writes (ownerType : OwnerType) (ownerId : Id) :
    (getLiveSubscriptionOrThrow ownerType ownerId).Performs r.Writes := by
  refine (performs_plain rfl).bind fun subscription => ?_
  cases subscription <;> trivial

theorem createSubscription_writes (env : Env) (ownerType : OwnerType) (ownerId : Id) (planCode : String)
    (billingInterval : BillingInterval) (assignedByPlatform : Bool) :
    (createSubscriptionCore env ownerType ownerId planCode billingInterval assignedByPlatform).Performs r.Writes := by
  unfold createSubscriptionCore
  repeat' first
    | exact performs_plain rfl
    | trivial
    | apply Performs.attempt
    | refine Performs.bind ?_ fun _ => ?_
    | split

theorem cancelSubscription_writes (ownerType : OwnerType) (ownerId : Id) (atPeriodEnd : Bool) :
    (cancelSubscriptionCore ownerType ownerId atPeriodEnd).Performs (Request.cancelSubscription ownerType ownerId atPeriodEnd).Writes := by
  refine (getLiveSubscriptionOrThrow_writes ownerType ownerId).bind fun copy => ?_
  split
  · trivial
  · dsimp only
    split
    · trivial
    · rename_i hValid
      rw [Bool.not_eq_true, Bool.not_eq_eq_eq_not, Bool.not_false] at hValid
      refine (performs_plain rfl).bind fun actedAt => ?_
      refine (performs_onlyIf (performs_plain rfl)).bind fun _ => ?_
      refine (performs_plain rfl).bind fun now => ?_
      refine (performs_write (.cancels copy actedAt now hValid)).bind fun updated => ?_
      cases updated with
      | none => trivial
      | some updated => exact (performs_plain rfl).bind fun _ => trivial

theorem reactivateSubscription_writes (ownerType : OwnerType) (ownerId : Id) :
    (reactivateSubscriptionCore ownerType ownerId).Performs (Request.reactivateSubscription ownerType ownerId).Writes := by
  refine (getLiveSubscriptionOrThrow_writes ownerType ownerId).bind fun copy => ?_
  split
  · trivial
  · rename_i hValid
    rw [Bool.not_eq_true, Bool.not_eq_eq_eq_not, Bool.not_false] at hValid
    refine (performs_plain rfl).bind fun actedAt => ?_
    refine (performs_onlyIf (performs_plain rfl)).bind fun _ => ?_
    refine (performs_write (.reactivates copy actedAt hValid)).bind fun updated => ?_
    cases updated with
    | none => trivial
    | some updated => exact (performs_plain rfl).bind fun _ => trivial

theorem changeSubscriptionPlan_writes (ownerType : OwnerType) (ownerId : Id) (newPlanCode : String) :
    (changeSubscriptionPlanCore ownerType ownerId newPlanCode).Performs
      (Request.changeSubscriptionPlan ownerType ownerId newPlanCode).Writes := by
  refine (getLiveSubscriptionOrThrow_writes ownerType ownerId).bind fun copy => ?_
  split
  · trivial
  · refine (performs_plain rfl).bind fun plan => ?_
    cases plan with
    | none => trivial
    | some plan =>
      dsimp only
      split
      · trivial
      · split
        · trivial
        · refine (performs_plain rfl).bind fun actedAt => ?_
          refine (performs_onlyIf ?_).bind fun _ => ?_
          · split
            · trivial
            · exact performs_plain rfl
          · refine (performs_save (.changesPlan copy plan actedAt)).bind fun _ => ?_
            exact (performs_plain rfl).bind fun _ => trivial

section Events

variable {providerName : SubscriptionProvider} {event : ProviderBillingWebhookEvent}

theorem markProcessed_writes : (markProcessed providerName event).Performs r.Writes :=
  (performs_plain rfl).bind fun _ => performs_plain rfl

theorem markIgnored_writes (processingError : String) : (markIgnored providerName event processingError).Performs r.Writes :=
  (performs_plain rfl).bind fun _ => performs_plain rfl

theorem claimWebhookEvent_writes : (claimWebhookEventForProcessing providerName event).Performs r.Writes := by
  unfold claimWebhookEventForProcessing
  repeat' first
    | exact performs_plain rfl
    | trivial
    | apply Performs.attempt
    | refine Performs.bind ?_ fun _ => ?_
    | split

theorem applyProviderSubscriptionDetails_writes (subscription : Subscription) :
    (applyProviderSubscriptionDetails subscription event).Performs (Request.billingEvent providerName event).Writes := by
  refine Performs.bind ?_ fun claimed => ?_
  · unfold claimOrder
    split
    · trivial
    · exact performs_write (.claimsOrder subscription.id ‹_›)
  · cases claimed with
    | none => trivial
    | some current =>
      refine Performs.bind ?_ fun planChange => ?_
      · unfold findReportedPlan
        split
        · trivial
        · exact (performs_plain rfl).bind fun _ => trivial
      · dsimp only
        split
        · trivial
        · refine (performs_write (.details current.id planChange)).bind fun updated => ?_
          split
          · exact (performs_plain rfl).bind fun _ => trivial
          · trivial

theorem applySubscriptionEvent_writes (status : ProviderSubscriptionStatus) (subscription : Subscription) :
    (applySubscriptionEvent providerName event status subscription).Performs (Request.billingEvent providerName event).Writes := by
  refine (applyProviderSubscriptionDetails_writes subscription).bind fun current => ?_
  cases current with
  | none => exact markIgnored_writes _
  | some current =>
    dsimp only
    split
    · exact markProcessed_writes
    · split
      · exact markIgnored_writes _
      · rename_i hValid
        rw [Bool.not_eq_true, Bool.not_eq_eq_eq_not, Bool.not_false] at hValid
        refine (performs_plain rfl).bind fun now => ?_
        refine (performs_write (.moves current _ now hValid)).bind fun applied => ?_
        split
        · exact (performs_plain rfl).bind fun _ => markProcessed_writes
        · exact markProcessed_writes

theorem handleCheckoutCompletionEvent_writes {checkout : CheckoutMetadata} (hCheckout : event.checkoutMetadata = some checkout) :
    (handleCheckoutCompletionEvent providerName event checkout).Performs (Request.billingEvent providerName event).Writes := by
  refine (performs_plain rfl).bind fun plan => ?_
  cases plan with
  | none => exact performs_plain rfl
  | some plan =>
    refine (performs_plain rfl).bind fun snapshot => Performs.bind ?_ fun recorded => ?_
    · refine (performs_plain rfl).bind fun trial => ?_
      cases trial with
      | some trial =>
        refine (performs_save (.converts trial plan _ snapshot hCheckout ?_)).bind fun _ => trivial
        split
        · exact .inr rfl
        · exact .inl rfl
      | none =>
        refine (performs_plain rfl).bind fun now => (Performs.attempt (performs_plain rfl)).bind fun created => ?_
        cases created with
        | ok subscription => trivial
        | error err =>
          dsimp only
          split <;> trivial
    · cases recorded with
      | none => exact markIgnored_writes _
      | some subscription =>
        refine (performs_plain rfl).bind fun _ => ?_
        exact (performs_onlyIf (performs_plain rfl)).bind fun _ => markProcessed_writes

theorem processBillingProviderEvent_writes :
    (processBillingProviderEvent providerName event).Performs (Request.billingEvent providerName event).Writes := by
  refine (claimWebhookEvent_writes).bind fun claimed => ?_
  split
  · trivial
  · refine (Performs.attempt ?_).bind fun outcome => ?_
    · unfold processClaimedEvent
      split
      · exact markIgnored_writes _
      · split
        · exact handleCheckoutCompletionEvent_writes ‹_›
        · refine Performs.bind ?_ fun subscription => ?_
          · split
            · trivial
            · exact performs_plain rfl
          · cases subscription with
            | none =>
              refine (performs_plain rfl).bind fun now => ?_
              split
              · trivial
              · exact markProcessed_writes
            | some subscription =>
              dsimp only
              split
              · split
                · exact markProcessed_writes
                · refine Performs.bind ?_ fun _ => markProcessed_writes
                  exact (performs_plain rfl).bind fun _ => performs_onlyIf (performs_plain rfl)
              · exact applySubscriptionEvent_writes _ subscription
    · cases outcome with
      | ok _ => trivial
      | error err => exact (performs_plain rfl).bind fun _ => trivial

end Events

theorem runTrialExpirationSweep_writes (env : Env) : (runTrialExpirationSweep env).Performs Request.trialExpirationSweep.Writes := by
  have hLapsed : ∀ now : Time, (expireLapsed now).Performs Request.trialExpirationSweep.Writes := by
    intro now
    refine (performs_plain rfl).bind fun holding => (performs_plain rfl).bind fun candidates => performs_forEach fun candidate => ?_
    refine (performs_write (.expires candidate.id)).bind fun updated => ?_
    cases updated with
    | none => trivial
    | some updated => exact performs_plain rfl
  refine (performs_plain rfl).bind fun now => (performs_plain rfl).bind fun holding => ?_
  split
  · exact (performs_call (.holds now)).bind fun _ => hLapsed now
  · refine (performs_plain rfl).bind fun held => Performs.bind ?_ fun _ => hLapsed now
    exact performs_forEach fun sub => (performs_write (.graces sub now _)).bind fun _ => trivial

theorem Request.program_writes (env : Env) (r : Request) : (r.program env).Performs r.Writes := by
  cases r with
  | createSubscription ownerType ownerId planCode billingInterval assignedByPlatform =>
    exact (createSubscription_writes _ _ _ _ _ _).bind fun _ => trivial
  | cancelSubscription ownerType ownerId atPeriodEnd => exact (cancelSubscription_writes _ _ _).bind fun _ => trivial
  | reactivateSubscription ownerType ownerId => exact (reactivateSubscription_writes _ _).bind fun _ => trivial
  | changeSubscriptionPlan ownerType ownerId newPlanCode => exact (changeSubscriptionPlan_writes _ _ _).bind fun _ => trivial
  | billingEvent providerName event => exact processBillingProviderEvent_writes
  | trialExpirationSweep => exact runTrialExpirationSweep_writes env

theorem State.start_writes {env : Env} {w : World} {requests : List Request} :
    (State.start env w requests).PerformsEach fun t o => ∃ r, requests[t]? = some r ∧ r.Writes o := by
  intro t th hThread
  simp only [State.start, Config.initial, List.map_map, List.getElem?_map, Option.map_eq_some_iff] at hThread
  obtain ⟨r, hRequest, rfl⟩ := hThread
  exact (r.program_writes env).mono fun o hWrites => ⟨r, hRequest, hWrites⟩

end Walk

end RestaurantOs.Billing
