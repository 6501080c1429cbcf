import RestaurantOs.Async.Sequential
import RestaurantOs.Billing.EventOrder
import RestaurantOs.Data.NewestWins

/-!
# Delivery orders

Subscription events delivered one after another: what each of them does to a
linked subscription, and which sets of events leave the same state whatever
the order.
-/

namespace RestaurantOs.Billing

open Async Prog

/-- What a provider reports of a subscription, with the time of the newest
report. -/
structure Standing where
  status : SubscriptionStatus
  period : Period
  cancelAt : Option Time
  plan : Id × BillingInterval
  reportedAt : Option Time
  deriving DecidableEq

def Subscription.standing (s : Subscription) : Standing where
  status := s.status
  period := ⟨s.currentPeriodStart, s.currentPeriodEnd⟩
  cancelAt := s.cancelAt
  plan := (s.planId, s.billingInterval)
  reportedAt := s.lastProviderEventAt

structure ProviderBillingWebhookEvent.IsReport (event : ProviderBillingWebhookEvent) (reference : String) : Prop where
  simulated : event.simulated = false
  checkout : event.checkoutMetadata = none
  subject : event.providerSubscriptionId = reference
  status : event.status.isSome
  occurredAt : event.occurredAt.isSome

namespace ProviderBillingWebhookEvent

variable (event : ProviderBillingWebhookEvent)

def time : Time := event.occurredAt.getD 0

def reported : ProviderSubscriptionStatus := event.status.getD .active

def nextStatus (current : SubscriptionStatus) : SubscriptionStatus :=
  let targetStatus := resolveTransitionTarget current event.reported event.scheduledCancelAt
  if isValidSubscriptionTransition current targetStatus then targetStatus else current

def nextCancelAt (current : SubscriptionStatus) (cancelAt : Option Time) : Option Time :=
  if current = .cancelling ∧ event.nextStatus current = .active then none else event.scheduledCancelAt.or cancelAt

def pricedPlan (plans : List Plan) : Option (Id × BillingInterval) := do
  let providerPriceId ← truthy event.providerPriceId
  let plan ← plans.find? fun p => p.pricing.any (·.providerPriceId = some providerPriceId)
  let pricing ← plan.pricing.find? (·.providerPriceId = some providerPriceId)
  pure (plan.id, pricing.interval)

end ProviderBillingWebhookEvent

def Standing.advance (plans : List Plan) (s : Standing) (event : ProviderBillingWebhookEvent) : Standing where
  status := event.nextStatus s.status
  period := event.currentPeriod.getD s.period
  cancelAt := event.nextCancelAt s.status s.cancelAt
  plan := (event.pricedPlan plans).getD s.plan
  reportedAt := some event.time

structure World.Linked (w : World) (name : SubscriptionProvider) (reference : String) (stored : Subscription) : Prop where
  ids : (w.subscriptions.map Subscription.id).Nodup
  indexed : ∀ s ∈ w.subscriptions, subscriptionTaken w.subscriptions s = false
  mem : stored ∈ w.subscriptions
  provider : stored.provider = name
  linked : stored.providerSubscriptionId = some reference
  named : reference ≠ ""

def deliverEvent (name : SubscriptionProvider) (w : World) (event : ProviderBillingWebhookEvent) : World :=
  ((processBillingProviderEvent name event).eval store {} w).2

/-! ## One write -/

section Writes

variable {w : World} {name : SubscriptionProvider} {reference : String} {stored : Subscription}
  {filter : SubscriptionFilter} {update : SubscriptionUpdate}

/-- The write keeps what the indexes are on, and does not revive. -/
structure SubscriptionUpdate.Keeps (update : SubscriptionUpdate) (stored : Subscription) : Prop where
  provider : update.provider = none
  reference : update.providerSubscriptionId = none
  live : (update.apply stored).status.live = true → stored.status.live = true

theorem subscriptionTaken_map {f : Subscription → Subscription} {l : List Subscription} {s : Subscription}
    (hKeep : ∀ d ∈ l, (f d).id = d.id ∧ (f d).ownerType = d.ownerType ∧ (f d).ownerId = d.ownerId ∧
      (f d).provider = d.provider ∧ (f d).providerSubscriptionId = d.providerSubscriptionId ∧
        ((f d).status.live = true → d.status.live = true)) (hs : s ∈ l) (h : subscriptionTaken l s = false) :
    subscriptionTaken (l.map f) (f s) = false := by
  obtain ⟨hId, hType, hOwner, hProvider, hReference, hLive⟩ := hKeep s hs
  simp only [subscriptionTaken, List.any_eq_false, List.mem_map] at h ⊢
  rintro _ ⟨d, hd, rfl⟩ hTaken
  obtain ⟨hId', hType', hOwner', hProvider', hReference', hLive'⟩ := hKeep d hd
  simp only [hId, hId', hType, hType', hOwner, hOwner', hProvider, hProvider', hReference, hReference', Bool.and_eq_true,
    Bool.or_eq_true, decide_eq_true_eq] at hTaken
  refine h d hd ?_
  simp only [Bool.and_eq_true, Bool.or_eq_true, decide_eq_true_eq]
  refine ⟨hTaken.1, hTaken.2.imp ?_ id⟩
  rintro ⟨⟨⟨hd, hs⟩, hOwners⟩, hIds⟩
  exact ⟨⟨⟨hLive' hd, hLive hs⟩, hOwners⟩, hIds⟩

theorem World.Linked.find (h : w.Linked name reference stored) :
    w.subscriptions.find? (fun s => s.provider = name && s.providerSubscriptionId = some reference) = some stored := by
  cases hFind : w.subscriptions.find? (fun s => s.provider = name && s.providerSubscriptionId = some reference) with
  | none =>
    have hNot := List.find?_eq_none.mp hFind stored h.mem
    simp [h.provider, h.linked] at hNot
  | some found =>
    have hMem := List.mem_of_find?_eq_some hFind
    have hSel := List.find?_some hFind
    simp only [Bool.and_eq_true, decide_eq_true_eq] at hSel
    by_cases hId : found.id = stored.id
    · rw [Tables.eq_of_id h.ids hMem h.mem hId]
    · have hTaken : subscriptionTaken w.subscriptions stored = true :=
        List.any_eq_true.mpr ⟨found, hMem, by simp [hId, hSel.1, hSel.2, h.provider, h.linked]⟩
      rw [h.indexed stored h.mem] at hTaken
      cases hTaken

theorem World.Linked.eq_of_selects (h : w.Linked name reference stored) (hId : filter.id = stored.id) {s : Subscription}
    (hs : s ∈ w.subscriptions) (hSelects : filter.selects s = true) : s = stored :=
  Tables.eq_of_id h.ids hs h.mem ((SubscriptionFilter.selects_iff.mp hSelects).1.trans hId)

theorem findOneAndUpdate_miss (h : w.Linked name reference stored) (hId : filter.id = stored.id)
    (hSelects : filter.selects stored = false) : (findOneAndUpdate filter update).eval store {} w = (.ok none, w) := by
  have hNone : w.subscriptions.find? filter.selects = none := by
    refine List.find?_eq_none.mpr fun s hs hSel => ?_
    rw [h.eq_of_selects hId hs hSel, hSelects] at hSel
    cases hSel
  rw [findOneAndUpdate, subscriptionOp, eval_call]
  simp only [Op.perform, unlessFault, SubscriptionOp.perform, hNone]

theorem findOneAndUpdate_hit (h : w.Linked name reference stored) (hId : filter.id = stored.id)
    (hSelects : filter.selects stored = true) (hKeeps : update.Keeps stored) :
    ∃ subscriptions, (findOneAndUpdate filter update).eval store {} w = (.ok (some (update.apply stored)), { w with subscriptions }) ∧
      World.Linked { w with subscriptions } name reference (update.apply stored) := by
  have hFind : w.subscriptions.find? filter.selects = some stored := by
    cases hFind : w.subscriptions.find? filter.selects with
    | none =>
      have hNot := List.find?_eq_none.mp hFind stored h.mem
      exact absurd hSelects hNot
    | some found => rw [h.eq_of_selects hId (List.mem_of_find?_eq_some hFind) (List.find?_some hFind)]
  have hKeep : ∀ d ∈ w.subscriptions, (if filter.selects d then update.apply d else d).id = d.id ∧
      (if filter.selects d then update.apply d else d).ownerType = d.ownerType ∧
      (if filter.selects d then update.apply d else d).ownerId = d.ownerId ∧
      (if filter.selects d then update.apply d else d).provider = d.provider ∧
      (if filter.selects d then update.apply d else d).providerSubscriptionId = d.providerSubscriptionId ∧
      ((if filter.selects d then update.apply d else d).status.live = true → d.status.live = true) := by
    intro d hd
    split
    · rename_i hSel
      rw [h.eq_of_selects hId hd hSel]
      refine ⟨rfl, rfl, rfl, ?_, ?_, hKeeps.live⟩
      · simp only [SubscriptionUpdate.apply, hKeeps.provider, Option.getD_none]
      · simp only [SubscriptionUpdate.apply, hKeeps.reference, Option.none_or]
    · exact ⟨rfl, rfl, rfl, rfl, rfl, id⟩
  have hStored : (if filter.selects stored then update.apply stored else stored) = update.apply stored := if_pos hSelects
  have hIndexed : ∀ s ∈ Tables.update filter.selects update.apply w.subscriptions,
      subscriptionTaken (Tables.update filter.selects update.apply w.subscriptions) s = false := by
    intro s hs
    obtain ⟨d, hd, rfl⟩ := Tables.mem_update.mp hs
    exact subscriptionTaken_map hKeep hd (h.indexed d hd)
  have hFree : subscriptionTaken w.subscriptions (update.apply stored) = false := by
    obtain ⟨hKeepId, hType, hOwner, hProvider, hReference, hLive⟩ := hStored ▸ hKeep stored h.mem
    have hOld := h.indexed stored h.mem
    simp only [subscriptionTaken, List.any_eq_false, hKeepId, hType, hOwner, hProvider, hReference] at hOld ⊢
    intro other hOther hTaken
    refine hOld other hOther ?_
    simp only [Bool.and_eq_true, Bool.or_eq_true, decide_eq_true_eq] at hTaken ⊢
    obtain ⟨hOther, ⟨⟨⟨hd, hs⟩, hOwners⟩, hIds⟩ | hReferences⟩ := hTaken
    · exact ⟨hOther, .inl ⟨⟨⟨hd, hLive hs⟩, hOwners⟩, hIds⟩⟩
    · exact ⟨hOther, .inr hReferences⟩
  refine ⟨Tables.update filter.selects update.apply w.subscriptions, ?_, ?_⟩
  · rw [findOneAndUpdate, subscriptionOp, eval_call]
    simp only [Op.perform, unlessFault, SubscriptionOp.perform, hFind, hFree, Bool.false_eq_true, if_false]
  · obtain ⟨-, -, -, hProvider, hReference, -⟩ := hKeep stored h.mem
    rw [hStored] at hProvider hReference
    refine ⟨?_, hIndexed, Tables.mem_update.mpr ⟨stored, h.mem, hStored.symm⟩, hProvider.trans h.provider,
      hReference.trans h.linked, h.named⟩
    rw [Tables.map_update_eq Subscription.id fun s => show (update.apply s).id = s.id from rfl]
    exact h.ids

end Writes

/-! ## One delivery -/

/-- `w'` has the same plans and the same event records, and its record for the
provider's subscription is `next`. -/
structure World.Moved (w w' : World) (name : SubscriptionProvider) (reference : String) (next : Subscription) : Prop where
  linked : w'.Linked name reference next
  plans : w'.plans = w.plans
  recorded : ∀ provider eventId, w'.webhookEvents.any (·.isFor provider eventId) = w.webhookEvents.any (·.isFor provider eventId)

section Delivery

variable {w w' w'' : World} {name : SubscriptionProvider} {reference : String} {stored next : Subscription}
  {event : ProviderBillingWebhookEvent}

theorem World.Linked.moved (h : w.Linked name reference stored) : w.Moved w name reference stored := ⟨h, rfl, fun _ _ => rfl⟩

theorem World.Moved.trans {s : Subscription} (h : w.Moved w' name reference s) (h' : w'.Moved w'' name reference next) :
    w.Moved w'' name reference next :=
  ⟨h'.linked, h'.plans.trans h.plans, fun provider eventId => (h'.recorded provider eventId).trans (h.recorded provider eventId)⟩

theorem settleEvent_eval (h : w.Linked name reference stored) (processedAt : Option Time) (processingError : Option String) :
    ∃ w', (settleEvent name event processedAt processingError).eval store {} w = (.ok (), w') ∧ w.Moved w' name reference stored := by
  refine ⟨_, eval_call _, ⟨⟨h.ids, h.indexed, h.mem, h.provider, h.linked, h.named⟩, rfl, fun provider eventId => ?_⟩⟩
  simp only [Tables.update, List.any_map]
  congr 1
  funext stored
  simp only [Function.comp_apply]
  split <;> rfl

theorem markProcessed_eval (event : ProviderBillingWebhookEvent) (h : w.Linked name reference stored) :
    ∃ w', (markProcessed name event).eval store {} w = (.ok (), w') ∧ w.Moved w' name reference stored := by
  rw [markProcessed, bind_eq, eval_bind_ok (eval_call _)]
  exact settleEvent_eval h _ _

theorem markIgnored_eval (event : ProviderBillingWebhookEvent) (h : w.Linked name reference stored) (processingError : String) :
    ∃ w', (markIgnored name event processingError).eval store {} w = (.ok (), w') ∧ w.Moved w' name reference stored := by
  rw [markIgnored, bind_eq, eval_bind_ok (eval_call _)]
  exact settleEvent_eval h _ _

theorem recordBillingHistoryEvent_eval (h : w.Linked name reference stored) (row : BillingHistoryEvent) :
    ∃ w', (recordBillingHistoryEvent row).eval store {} w = (.ok (), w') ∧ w.Moved w' name reference stored := by
  rw [recordBillingHistoryEvent, eval_call]
  simp only [Op.perform, HistoryOp.perform]
  split
  · exact ⟨w, rfl, h.moved⟩
  · exact ⟨_, rfl, ⟨h.ids, h.indexed, h.mem, h.provider, h.linked, h.named⟩, rfl, fun _ _ => rfl⟩

theorem record_then_eval (h : w.Linked name reference stored) (row : BillingHistoryEvent) {p : Promise Unit}
    (hp : ∀ {w : World}, w.Linked name reference stored → ∃ w', p.eval store {} w = (.ok (), w') ∧ w.Moved w' name reference stored) :
    ∃ w', ((recordBillingHistoryEvent row).bind fun _ => p).eval store {} w = (.ok (), w') ∧ w.Moved w' name reference stored := by
  obtain ⟨w₁, hRow, hMoved⟩ := recordBillingHistoryEvent_eval h row
  obtain ⟨w₂, hEval, hMoved₂⟩ := hp hMoved.linked
  exact ⟨w₂, by rw [eval_bind_ok hRow, hEval], hMoved.trans hMoved₂⟩

theorem SubscriptionUpdate.apply_empty (s : Subscription) : ({} : SubscriptionUpdate).apply s = s := rfl

def Subscription.detailed (stored : Subscription) (event : ProviderBillingWebhookEvent)
    (planChange : Option (Plan × PlanPricing)) : Subscription :=
  (detailsUpdate event planChange).apply { stored with lastProviderEventAt := some event.time }

def reportedChange (plans : List Plan) (stored : Subscription) (event : ProviderBillingWebhookEvent) : Option (Plan × PlanPricing) :=
  (truthy event.providerPriceId).bind fun providerPriceId =>
    reportedPlan stored providerPriceId (plans.find? fun p => p.pricing.any (·.providerPriceId = some providerPriceId))

theorem findReportedPlan_eval : (findReportedPlan stored event).eval store {} w = (.ok (reportedChange w.plans stored event), w) := by
  unfold findReportedPlan reportedChange
  cases truthy event.providerPriceId <;> rfl

theorem claimOrder_stale (h : w.Linked name reference stored) (hTime : event.occurredAt = some event.time)
    (hStale : notOlderThanApplied event.occurredAt stored = false) : (claimOrder stored event).eval store {} w = (.ok none, w) := by
  rw [claimOrder, hTime]
  refine findOneAndUpdate_miss h rfl ?_
  rw [hTime] at hStale
  simp only [SubscriptionFilter.selects, hStale, Bool.and_false, Bool.false_and]

theorem claimOrder_fresh (h : w.Linked name reference stored) (hTime : event.occurredAt = some event.time)
    (hFresh : notOlderThanApplied event.occurredAt stored = true) :
    ∃ w', (claimOrder stored event).eval store {} w = (.ok (some { stored with lastProviderEventAt := some event.time }), w') ∧
      w.Moved w' name reference { stored with lastProviderEventAt := some event.time } := by
  rw [hTime] at hFresh
  have hSelects : ({ id := stored.id, appliedBy := some event.time } : SubscriptionFilter).selects stored = true := by
    simp only [SubscriptionFilter.selects, hFresh, decide_true, Option.all_none, Bool.not_false, Bool.true_or, Bool.and_self]
  obtain ⟨subscriptions, hEval, hLinked⟩ := findOneAndUpdate_hit h rfl hSelects
    (show ({ lastProviderEventAt := some event.time } : SubscriptionUpdate).Keeps stored from ⟨rfl, rfl, id⟩)
  refine ⟨_, ?_, hLinked, rfl, fun _ _ => rfl⟩
  rw [claimOrder, hTime]
  exact hEval

theorem applyDetails_stale (h : w.Linked name reference stored) (hTime : event.occurredAt = some event.time)
    (hStale : notOlderThanApplied event.occurredAt stored = false) :
    (applyProviderSubscriptionDetails stored event).eval store {} w = (.ok none, w) := by
  rw [applyProviderSubscriptionDetails, bind_eq, eval_bind_ok (claimOrder_stale h hTime hStale)]
  rfl

theorem applyDetails_fresh (h : w.Linked name reference stored) (hTime : event.occurredAt = some event.time)
    (hFresh : notOlderThanApplied event.occurredAt stored = true) :
    ∃ w', (applyProviderSubscriptionDetails stored event).eval store {} w =
        (.ok (some (stored.detailed event (reportedChange w.plans stored event))), w') ∧
      w.Moved w' name reference (stored.detailed event (reportedChange w.plans stored event)) := by
  obtain ⟨w₁, hClaimed, hMoved₁⟩ := claimOrder_fresh h hTime hFresh
  have hChange : reportedChange w₁.plans { stored with lastProviderEventAt := some event.time } event =
      reportedChange w.plans stored event := by rw [hMoved₁.plans]; rfl
  rw [applyProviderSubscriptionDetails, bind_eq, eval_bind_ok hClaimed]
  dsimp only
  rw [bind_eq, eval_bind_ok findReportedPlan_eval, hChange]
  generalize reportedChange w.plans stored event = change
  split
  · rename_i hEmpty
    have hSame : stored.detailed event change = { stored with lastProviderEventAt := some event.time } := by
      rw [Subscription.detailed, hEmpty, SubscriptionUpdate.apply_empty]
    rw [hSame]
    exact ⟨w₁, rfl, hMoved₁⟩
  · have hSelects : ({ id := stored.id, appliedBy := event.occurredAt } : SubscriptionFilter).selects
        { stored with lastProviderEventAt := some event.time } = true := by
      rw [hTime]
      simp [SubscriptionFilter.selects, notOlderThanApplied]
    obtain ⟨subscriptions, hEval, hLinked⟩ := findOneAndUpdate_hit hMoved₁.linked rfl hSelects
      (show (detailsUpdate event change).Keeps _ from ⟨rfl, rfl, id⟩)
    have hMoved₂ : w₁.Moved { w₁ with subscriptions } name reference (stored.detailed event change) := ⟨hLinked, rfl, fun _ _ => rfl⟩
    rw [bind_eq, eval_bind_ok hEval]
    cases change with
    | none => exact ⟨_, rfl, hMoved₁.trans hMoved₂⟩
    | some planChange =>
      obtain ⟨plan, pricing⟩ := planChange
      obtain ⟨w₃, hRow, hMoved₃⟩ := recordBillingHistoryEvent_eval hMoved₂.linked _
      exact ⟨w₃, by dsimp only; rw [bind_eq, eval_bind_ok hRow]; rfl, hMoved₁.trans (hMoved₂.trans hMoved₃)⟩

theorem standing_detailed (stored : Subscription) (event : ProviderBillingWebhookEvent) (plans : List Plan) :
    (stored.detailed event (reportedChange plans stored event)).standing =
      { stored.standing.advance plans event with
        status := stored.status, cancelAt := event.scheduledCancelAt.or stored.cancelAt } := by
  have hPlan : ((reportedChange plans stored event).map fun change => (change.1.id, change.2.interval)).getD
      (stored.planId, stored.billingInterval) = (event.pricedPlan plans).getD (stored.planId, stored.billingInterval) := by
    simp only [reportedChange, ProviderBillingWebhookEvent.pricedPlan, reportedPlan, Option.bind_eq_bind]
    cases truthy event.providerPriceId with
    | none => rfl
    | some providerPriceId =>
      simp only [Option.bind_some]
      cases plans.find? fun p => p.pricing.any (·.providerPriceId = some providerPriceId) with
      | none => rfl
      | some plan =>
        simp only [Option.bind_some]
        cases plan.pricing.find? (·.providerPriceId = some providerPriceId) with
        | none => rfl
        | some pricing =>
          simp only [Option.bind_some]
          split
          · rfl
          · rename_i hSame
            simp only [ne_eq, not_or, not_not] at hSame
            rw [← hSame.1, ← hSame.2]
            rfl
  generalize reportedChange plans stored event = change at hPlan ⊢
  simp only [Subscription.standing, Subscription.detailed, SubscriptionUpdate.apply, detailsUpdate, Standing.advance,
    Option.none_or, Option.getD_none]
  rw [Standing.mk.injEq]
  refine ⟨rfl, ?_, ?_, ?_, rfl⟩
  · cases event.currentPeriod <;> rfl
  · cases event.scheduledCancelAt <;> rfl
  · refine Eq.trans ?_ hPlan
    cases change <;> rfl

theorem nextStatus_of_invalid {current : SubscriptionStatus}
    (h : isValidSubscriptionTransition current (resolveTransitionTarget current event.reported event.scheduledCancelAt) = false) :
    event.nextStatus current = current := by
  rw [ProviderBillingWebhookEvent.nextStatus, h, if_neg Bool.false_ne_true]

theorem not_valid_self (s : SubscriptionStatus) : isValidSubscriptionTransition s s = false := by cases s <;> rfl

theorem nextCancelAt_of_same {current : SubscriptionStatus} {cancelAt : Option Time} (h : event.nextStatus current = current) :
    event.nextCancelAt current cancelAt = event.scheduledCancelAt.or cancelAt := by
  rw [ProviderBillingWebhookEvent.nextCancelAt, h, if_neg]
  rintro ⟨rfl, hActive⟩
  cases hActive

theorem standing_statusUpdate (current : Subscription) (target : SubscriptionStatus) (now : Time) :
    ((statusUpdate current target now).apply current).standing =
      { current.standing with
        status := target
        cancelAt := if current.status = .cancelling ∧ target = .active then none else current.standing.cancelAt } := by
  simp only [Subscription.standing, SubscriptionUpdate.apply, statusUpdate, Standing.mk.injEq, Option.getD_some, Option.getD_none,
    Option.none_or, and_true, true_and]
  by_cases h : target = .active ∧ current.status = .cancelling
  · rw [if_pos h, if_pos h.symm]
    rfl
  · rw [if_neg h, if_neg fun h' => h h'.symm]
    rfl

theorem applySubscriptionEvent_eval (h : w.Linked name reference stored) (hTime : event.occurredAt = some event.time)
    (hFresh : notOlderThanApplied event.occurredAt stored = true) :
    ∃ w' next, (applySubscriptionEvent name event event.reported stored).eval store {} w = (.ok (), w') ∧
      w.Moved w' name reference next ∧ next.id = stored.id ∧ next.standing = stored.standing.advance w.plans event := by
  obtain ⟨w₁, hDetails, hMoved₁⟩ := applyDetails_fresh h hTime hFresh
  have hStanding := standing_detailed stored event w.plans
  have hStatus : (stored.detailed event (reportedChange w.plans stored event)).status = stored.status := rfl
  have hId : (stored.detailed event (reportedChange w.plans stored event)).id = stored.id := rfl
  have hMarker : (stored.detailed event (reportedChange w.plans stored event)).lastProviderEventAt = some event.time := rfl
  generalize stored.detailed event (reportedChange w.plans stored event) = current at *
  -- Where the status does not change, the details are all the event does.
  have hSame : event.nextStatus stored.status = stored.status → current.standing = stored.standing.advance w.plans event := by
    intro hNext
    rw [hStanding, Standing.advance, Standing.mk.injEq]
    exact ⟨hNext.symm, rfl, (nextCancelAt_of_same hNext).symm, rfl, rfl⟩
  rw [applySubscriptionEvent, bind_eq, eval_bind_ok hDetails]
  dsimp only
  rw [hStatus]
  split
  · rename_i hTarget
    obtain ⟨w₂, hEval, hMoved₂⟩ := markProcessed_eval event hMoved₁.linked
    refine ⟨w₂, current, hEval, hMoved₁.trans hMoved₂, hId, hSame (nextStatus_of_invalid ?_)⟩
    rw [hTarget]
    exact not_valid_self _
  · split
    · rename_i hInvalid
      obtain ⟨w₂, hEval, hMoved₂⟩ := markIgnored_eval event hMoved₁.linked _
      refine ⟨w₂, current, hEval, hMoved₁.trans hMoved₂, hId, hSame (nextStatus_of_invalid ?_)⟩
      simpa using hInvalid
    · rename_i hValid
      rw [Bool.not_eq_true, Bool.not_eq_eq_eq_not, Bool.not_false] at hValid
      have hNext : event.nextStatus stored.status = resolveTransitionTarget stored.status event.reported event.scheduledCancelAt := by
        rw [ProviderBillingWebhookEvent.nextStatus, hValid, if_pos rfl]
      generalize resolveTransitionTarget stored.status event.reported event.scheduledCancelAt = target at hValid hNext ⊢
      rw [bind_eq, eval_bind_ok (eval_call _)]
      have hSelects : ({ id := current.id, status := some stored.status, appliedBy := event.occurredAt } : SubscriptionFilter).selects
          current = true := by
        rw [hTime]
        simp [SubscriptionFilter.selects, notOlderThanApplied, hMarker, hStatus]
      obtain ⟨subscriptions, hUpdate, hLinked⟩ := findOneAndUpdate_hit hMoved₁.linked rfl hSelects
        (show (statusUpdate current target w₁.now).Keeps current from
          ⟨rfl, rfl, fun _ => hStatus ▸ isValidSubscriptionTransition_live hValid⟩)
      have hMoved₂ : w₁.Moved { w₁ with subscriptions } name reference _ := ⟨hLinked, rfl, fun _ _ => rfl⟩
      have hAdvance : ((statusUpdate current target w₁.now).apply current).standing = stored.standing.advance w.plans event := by
        have hNext' : event.nextStatus stored.standing.status = target := hNext
        rw [standing_statusUpdate, hStanding, hStatus, Standing.advance, ProviderBillingWebhookEvent.nextCancelAt, hNext']
        rfl
      have hTail : ∀ {p : Promise Unit}, (p = markProcessed name event ∨ ∃ row, p = (recordBillingHistoryEvent row).bind fun _ =>
          markProcessed name event) → ∃ w', p.eval store {} { w₁ with subscriptions } = (.ok (), w') ∧
            World.Moved { w₁ with subscriptions } w' name reference ((statusUpdate current target w₁.now).apply current) := by
        rintro p (rfl | ⟨row, rfl⟩)
        · exact markProcessed_eval event hMoved₂.linked
        · exact record_then_eval hMoved₂.linked row (markProcessed_eval event)
      rw [bind_eq, eval_bind_ok hUpdate]
      split
      · obtain ⟨w₂, hEval, hMoved₃⟩ := hTail (.inr ⟨_, rfl⟩)
        exact ⟨w₂, _, hEval, hMoved₁.trans (hMoved₂.trans hMoved₃), hId, hAdvance⟩
      · obtain ⟨w₂, hEval, hMoved₃⟩ := hTail (.inl rfl)
        exact ⟨w₂, _, hEval, hMoved₁.trans (hMoved₂.trans hMoved₃), hId, hAdvance⟩

def Standing.deliver (plans : List Plan) : Standing → ProviderBillingWebhookEvent → Standing :=
  NewestWins.deliver ProviderBillingWebhookEvent.time Standing.reportedAt (Standing.advance plans)

theorem fresh_eq (hTime : event.occurredAt = some event.time) :
    NewestWins.fresh ProviderBillingWebhookEvent.time Standing.reportedAt stored.standing event =
      notOlderThanApplied event.occurredAt stored := by
  rw [hTime]
  rfl

theorem ProviderBillingWebhookEvent.IsReport.time_eq (h : event.IsReport reference) : event.occurredAt = some event.time := by
  obtain ⟨time, hTime⟩ := Option.isSome_iff_exists.mp h.occurredAt
  rw [ProviderBillingWebhookEvent.time, hTime]
  rfl

theorem processClaimedEvent_eval (h : w.Linked name reference stored) (hReport : event.IsReport reference) :
    ∃ w' next, (processClaimedEvent name event).eval store {} w = (.ok (), w') ∧
      w.Moved w' name reference next ∧ next.id = stored.id ∧ next.standing = stored.standing.deliver w.plans event := by
  have hTime := hReport.time_eq
  have hFound : (subscriptionOp (.findByReference name reference)).eval store {} w = (.ok (some stored), w) := by
    rw [subscriptionOp, eval_call]
    simp only [Op.perform, unlessFault, SubscriptionOp.perform, h.find]
  have hStatus : event.status = some event.reported := by
    obtain ⟨status, hStatus⟩ := Option.isSome_iff_exists.mp hReport.status
    rw [ProviderBillingWebhookEvent.reported, hStatus]
    rfl
  rw [processClaimedEvent, hReport.simulated, if_neg Bool.false_ne_true, hReport.checkout]
  dsimp only
  rw [hReport.subject, if_neg h.named, bind_eq, eval_bind_ok hFound]
  dsimp only
  rw [hStatus]
  dsimp only
  cases hFresh : notOlderThanApplied event.occurredAt stored with
  | true =>
    obtain ⟨w', next, hEval, hMoved, hId, hStanding⟩ := applySubscriptionEvent_eval h hTime hFresh
    refine ⟨w', next, hEval, hMoved, hId, ?_⟩
    rw [Standing.deliver, NewestWins.deliver_of_fresh ((fresh_eq hTime).trans hFresh), hStanding]
  | false =>
    obtain ⟨w', hEval, hMoved⟩ := markIgnored_eval event h "Ignored: older than the subscription state already applied"
    refine ⟨w', stored, ?_, hMoved, rfl, ?_⟩
    · rw [applySubscriptionEvent, bind_eq, eval_bind_ok (applyDetails_stale h hTime hFresh)]
      exact hEval
    · rw [Standing.deliver, NewestWins.deliver_of_stale ((fresh_eq hTime).trans hFresh)]

theorem deliverEvent_eval (h : w.Linked name reference stored) (hReport : event.IsReport reference)
    (hNew : w.webhookEvents.any (·.isFor name event.eventId) = false) :
    ∃ next, (deliverEvent name w event).Linked name reference next ∧ next.id = stored.id ∧
      next.standing = stored.standing.deliver w.plans event ∧ (deliverEvent name w event).plans = w.plans ∧
      ∀ eventId, eventId ≠ event.eventId →
        (deliverEvent name w event).webhookEvents.any (·.isFor name eventId) = w.webhookEvents.any (·.isFor name eventId) := by
  have hClaimed : (claimWebhookEventForProcessing name event).eval store {} w = (.ok true, { w with
      webhookEvents := w.webhookEvents ++
        [{ provider := name, eventId := event.eventId, eventType := event.eventType, processingStartedAt := some w.now }] }) := by
    have hCreated : (eventOp (.create name event.eventId event.eventType w.now)).attempt.eval store {} w = (.ok (.ok ()), { w with
        webhookEvents := w.webhookEvents ++
          [{ provider := name, eventId := event.eventId, eventType := event.eventType, processingStartedAt := some w.now }] }) :=
      eval_attempt_of (by
        rw [eventOp, eval_call]
        simp only [Op.perform, unlessFault, EventOp.perform, hNew, Bool.false_eq_true, if_false])
    rw [claimWebhookEventForProcessing, bind_eq, eval_bind_ok (eval_call _), bind_eq, eval_bind_ok hCreated]
    rfl
  have hLinked : World.Linked { w with
      webhookEvents := w.webhookEvents ++
        [{ provider := name, eventId := event.eventId, eventType := event.eventType, processingStartedAt := some w.now }] }
      name reference stored := ⟨h.ids, h.indexed, h.mem, h.provider, h.linked, h.named⟩
  obtain ⟨w', next, hEval, hMoved, hId, hStanding⟩ := processClaimedEvent_eval hLinked hReport
  have hDelivered : deliverEvent name w event = w' := by
    rw [deliverEvent, processBillingProviderEvent, bind_eq, eval_bind_ok hClaimed]
    simp only [Bool.not_true, Bool.false_eq_true, if_false]
    rw [bind_eq, eval_bind_ok (eval_attempt_of hEval)]
    rfl
  rw [hDelivered]
  refine ⟨next, hMoved.linked, hId, hStanding, hMoved.plans, fun eventId hNe => ?_⟩
  rw [hMoved.recorded, List.any_append]
  have hOther : ({ provider := name, eventId := event.eventId, eventType := event.eventType, processingStartedAt := some w.now } :
      BillingWebhookEvent).isFor name eventId = false := by
    simp [BillingWebhookEvent.isFor, Ne.symm hNe]
  rw [List.any_cons, hOther, List.any_nil, Bool.or_false, Bool.or_false]

theorem foldl_deliverEvent {events : List ProviderBillingWebhookEvent} (h : w.Linked name reference stored)
    (hReports : ∀ event ∈ events, event.IsReport reference) (hNodup : (events.map (·.eventId)).Nodup)
    (hNew : ∀ event ∈ events, w.webhookEvents.any (·.isFor name event.eventId) = false) :
    ∃ next, (events.foldl (deliverEvent name) w).subscription? stored.id = some next ∧
      next.standing = events.foldl (Standing.deliver w.plans) stored.standing := by
  induction events generalizing w stored with
  | nil =>
    refine ⟨stored, ?_, rfl⟩
    have hFound := Tables.find?_id h.ids h.mem
    simp only [beq_eq_decide] at hFound
    exact hFound
  | cons event events ih =>
    rw [List.map_cons, List.nodup_cons] at hNodup
    obtain ⟨next, hLinked, hId, hStanding, hPlans, hRecorded⟩ :=
      deliverEvent_eval h (hReports event List.mem_cons_self) (hNew event List.mem_cons_self)
    obtain ⟨last, hFound, hLast⟩ := ih hLinked (fun e he => hReports e (List.mem_cons_of_mem event he)) hNodup.2 fun e he => by
      have hNe : e.eventId ≠ event.eventId := fun hEq => hNodup.1 (hEq ▸ List.mem_map_of_mem he)
      rw [hRecorded _ hNe]
      exact hNew e (List.mem_cons_of_mem event he)
    refine ⟨last, ?_, ?_⟩
    · rw [List.foldl_cons, ← hId]
      exact hFound
    · rw [hLast, hStanding, hPlans]
      rfl

end Delivery

/-! ## Which orders agree -/

def ProviderBillingWebhookEvent.step (p : SubscriptionStatus × Option Time) (event : ProviderBillingWebhookEvent) :
    SubscriptionStatus × Option Time :=
  (event.nextStatus p.1, event.nextCancelAt p.1 p.2)

def possible (p : SubscriptionStatus × Option Time) :
    List ProviderBillingWebhookEvent → List (SubscriptionStatus × Option Time)
  | [] => [p]
  | event :: events => possible p events ++ possible (event.step p) events

/-- The newest event leads to the same from everything the record can have when
it arrives, and it carries whatever an older event changes. -/
structure Standing.Settles (s : Standing) (plans : List Plan) (older : List ProviderBillingWebhookEvent)
    (newest : ProviderBillingWebhookEvent) : Prop where
  status : ∀ p ∈ possible (s.status, s.cancelAt) older, newest.step p = newest.step (s.status, s.cancelAt)
  period : newest.currentPeriod.isSome ∨ ∀ event ∈ older, event.currentPeriod.getD s.period = s.period
  plan : (newest.pricedPlan plans).isSome ∨ ∀ event ∈ older, ((event.pricedPlan plans).map (·.1)).getD s.plan.1 = s.plan.1

def Standing.outcome (s : Standing) : (SubscriptionStatus × Option Time) × Period × Id := ((s.status, s.cancelAt), s.period, s.plan.1)

def World.outcome? (w : World) (id : Id) : Option ((SubscriptionStatus × Option Time) × Period × Id) :=
  (w.subscription? id).map fun s => s.standing.outcome

section Orders

variable {plans : List Plan} {s : Standing} {older : List ProviderBillingWebhookEvent} {newest : ProviderBillingWebhookEvent}

theorem mem_possible {p q : SubscriptionStatus × Option Time} {events : List ProviderBillingWebhookEvent} :
    q ∈ possible p events ↔ ∃ S : List ProviderBillingWebhookEvent, S.Sublist events ∧ q = S.foldl (fun p e => e.step p) p := by
  induction events generalizing p with
  | nil =>
    rw [possible, List.mem_singleton]
    constructor
    · rintro rfl
      exact ⟨[], .slnil, rfl⟩
    · rintro ⟨S, hS, rfl⟩
      rw [List.sublist_nil.mp hS]
      rfl
  | cons event events ih =>
    rw [possible, List.mem_append, ih, ih]
    constructor
    · rintro (⟨S, hS, rfl⟩ | ⟨S, hS, rfl⟩)
      · exact ⟨S, hS.cons event, rfl⟩
      · exact ⟨event :: S, hS.cons_cons event, rfl⟩
    · rintro ⟨S, hS, rfl⟩
      cases hS with
      | cons _ hS => exact .inl ⟨S, hS, rfl⟩
      | cons_cons _ hS => exact .inr ⟨_, hS, rfl⟩

theorem carried_iff {α ε : Type} {carry : ε → Option α} {v : α} {l : List ε} {n : ε} :
    (∀ S, S.Sublist l → (S ++ [n]).foldl (fun v e => (carry e).getD v) v = (l ++ [n]).foldl (fun v e => (carry e).getD v) v) ↔
      ((carry n).isSome ∨ ∀ e ∈ l, (carry e).getD v = v) := by
  simp only [List.foldl_append, List.foldl_cons, List.foldl_nil]
  cases hCarry : carry n with
  | some a => simp
  | none =>
    simp only [Option.getD_none, Option.isSome_none, Bool.false_eq_true, false_or]
    constructor
    · intro h e he
      have hNone := h [] (List.nil_sublist l)
      have hOne := h [e] (List.singleton_sublist.mpr he)
      exact hOne.trans hNone.symm
    · intro h
      have hKeep : ∀ S : List ε, (∀ e ∈ S, (carry e).getD v = v) → S.foldl (fun v e => (carry e).getD v) v = v := by
        intro S hS
        induction S with
        | nil => rfl
        | cons e S ih =>
          rw [List.foldl_cons, hS e List.mem_cons_self]
          exact ih fun e' he' => hS e' (List.mem_cons_of_mem e he')
      intro S hS
      rw [hKeep S fun e he => h e (hS.subset he), hKeep l h]

theorem foldl_advance (events : List ProviderBillingWebhookEvent) :
    (events.foldl (Standing.advance plans) s).outcome =
      (events.foldl (fun p e => e.step p) (s.status, s.cancelAt), events.foldl (fun v e => e.currentPeriod.getD v) s.period,
        events.foldl (fun v e => ((e.pricedPlan plans).map (·.1)).getD v) s.plan.1) := by
  induction events generalizing s with
  | nil => rfl
  | cons event events ih =>
    rw [List.foldl_cons, ih]
    have hPlan : (s.advance plans event).plan.1 = ((event.pricedPlan plans).map (·.1)).getD s.plan.1 := by
      rw [Standing.advance]
      cases event.pricedPlan plans <;> rfl
    rw [hPlan]
    rfl

theorem settles_iff : (∀ S, S.Sublist older → ((S ++ [newest]).foldl (Standing.advance plans) s).outcome =
      ((older ++ [newest]).foldl (Standing.advance plans) s).outcome) ↔ s.Settles plans older newest := by
  simp only [foldl_advance, Prod.mk.injEq]
  constructor
  · intro h
    refine ⟨?_, (carried_iff).mp fun S hS => (h S hS).2.1, ?_⟩
    · intro p hp
      obtain ⟨S, hS, rfl⟩ := (mem_possible).mp hp
      have hNone := (h [] (List.nil_sublist older)).1
      have hSome := (h S hS).1
      rw [List.foldl_append] at hSome
      exact hSome.trans hNone.symm
    · have hPlan := (carried_iff).mp fun S hS => (h S hS).2.2
      rwa [Option.isSome_map] at hPlan
  · rintro ⟨hStatus, hPeriod, hPlan⟩ S hS
    refine ⟨?_, (carried_iff).mpr hPeriod S hS, (carried_iff).mpr ?_ S hS⟩
    · rw [List.foldl_append, List.foldl_append]
      exact (hStatus _ ((mem_possible).mpr ⟨S, hS, rfl⟩)).trans (hStatus _ ((mem_possible).mpr ⟨older, .refl _, rfl⟩)).symm
    · rwa [Option.isSome_map]

end Orders

/-- Reports on a linked subscription, delivered in any two orders, leave the same
status, period, cancellation date and plan exactly if, of those that are not
older than the record, the newest settles everything. -/
theorem deliveries_converge_iff {w : World} {name : SubscriptionProvider} {reference : String} {stored : Subscription}
    {events : List ProviderBillingWebhookEvent} (hLinked : w.Linked name reference stored)
    (hReports : ∀ event ∈ events, event.IsReport reference) (hIds : (events.map (·.eventId)).Nodup)
    (hNew : ∀ event ∈ events, w.webhookEvents.any (·.isFor name event.eventId) = false)
    (hSorted : events.Pairwise fun a b => a.time < b.time) :
    (∀ l₁ l₂ : List ProviderBillingWebhookEvent, l₁.Perm events → l₂.Perm events →
      (l₁.foldl (deliverEvent name) w).outcome? stored.id = (l₂.foldl (deliverEvent name) w).outcome? stored.id) ↔
    ∀ older newest, events.filter (fun event => notOlderThanApplied event.occurredAt stored) = older ++ [newest] →
      stored.standing.Settles w.plans older newest := by
  have hOutcome : ∀ l : List ProviderBillingWebhookEvent, l.Perm events →
      (l.foldl (deliverEvent name) w).outcome? stored.id =
        some (l.foldl (Standing.deliver w.plans) stored.standing).outcome := by
    intro l hPerm
    obtain ⟨next, hFound, hStanding⟩ := foldl_deliverEvent hLinked (fun e he => hReports e (hPerm.mem_iff.mp he))
      ((hPerm.map _).nodup_iff.mpr hIds) fun e he => hNew e (hPerm.mem_iff.mp he)
    rw [World.outcome?, hFound, Option.map_some, hStanding]
  have hFilter : events.filter (NewestWins.fresh ProviderBillingWebhookEvent.time Standing.reportedAt stored.standing) =
      events.filter fun event => notOlderThanApplied event.occurredAt stored :=
    List.filter_congr fun e he => fresh_eq (hReports e he).time_eq
  have hAgree := @NewestWins.all_orders_agree_iff _ _ _ ProviderBillingWebhookEvent.time Standing.reportedAt
    (Standing.advance w.plans) stored.standing events (fun _ _ => rfl) Standing.outcome hSorted
  rw [hFilter] at hAgree
  constructor
  · intro hOrders older newest hSplit
    refine (settles_iff).mp (hAgree.mp (fun l₁ l₂ h₁ h₂ => ?_) older newest hSplit)
    have hSame := hOrders l₁ l₂ h₁ h₂
    rw [hOutcome l₁ h₁, hOutcome l₂ h₂, Option.some.injEq] at hSame
    exact hSame
  · intro hSettles l₁ l₂ h₁ h₂
    rw [hOutcome l₁ h₁, hOutcome l₂ h₂, Option.some.injEq]
    exact hAgree.mpr (fun older newest hSplit => (settles_iff).mpr (hSettles older newest hSplit)) l₁ l₂ h₁ h₂

def ValidPath : SubscriptionStatus → List ProviderBillingWebhookEvent → Prop
  | _, [] => True
  | current, event :: events =>
    let targetStatus := resolveTransitionTarget current event.reported event.scheduledCancelAt
    isValidSubscriptionTransition current targetStatus = true ∧ ValidPath targetStatus events

theorem paidWorld_linked : paidWorld.Linked .paddle "sub_1" paidSubscription where
  ids := by decide
  indexed := by decide
  mem := by decide
  provider := rfl
  linked := rfl
  named := by decide

/-- Two renewals, the newer one first. -/
theorem deliveries_converge_renewed :
    ([renewed "evt_3" 20, renewed "evt_2" 10].foldl (deliverEvent .paddle) paidWorld).outcome? 0 =
      ([renewed "evt_2" 10, renewed "evt_3" 20].foldl (deliverEvent .paddle) paidWorld).outcome? 0 := by
  have hReports : ∀ event ∈ [renewed "evt_2" 10, renewed "evt_3" 20], event.IsReport "sub_1" := by
    intro event hEvent
    simp only [List.mem_cons, List.not_mem_nil, or_false] at hEvent
    rcases hEvent with rfl | rfl <;> exact ⟨rfl, rfl, rfl, rfl, rfl⟩
  refine (deliveries_converge_iff paidWorld_linked hReports (by decide) (by decide) (by decide)).mpr ?_ _ _ (.swap _ _ _) (.refl _)
  intro older newest hSplit
  have hAll : [renewed "evt_2" 10, renewed "evt_3" 20].filter (fun event => notOlderThanApplied event.occurredAt paidSubscription) =
      [renewed "evt_2" 10] ++ [renewed "evt_3" 20] := by decide
  rw [hAll] at hSplit
  obtain ⟨rfl, hNewest⟩ := List.append_inj' hSplit rfl
  cases hNewest
  exact ⟨by decide, .inl rfl, .inr (by decide)⟩

def linkedTrial : Subscription := { paidSubscription with status := .trialing, lastProviderEventAt := none }

def statusReported (eventId : String) (occurredAt : Time) (status : ProviderSubscriptionStatus) : ProviderBillingWebhookEvent where
  eventId := eventId
  eventType := "subscription.updated"
  providerSubscriptionId := "sub_1"
  status := some status
  occurredAt := some occurredAt

/-- A trial becomes active at 10 and its payment fails at 20. The failure is
delivered first: it takes its place in the order, is refused as a change of the
trial, and the activation is then the older event. -/
theorem deliveries_diverge : ¬ ∀ (w : World) (name : SubscriptionProvider) (reference : String) (stored : Subscription)
    (events : List ProviderBillingWebhookEvent), w.Linked name reference stored →
    (∀ event ∈ events, event.IsReport reference) → (events.map (·.eventId)).Nodup →
    (∀ event ∈ events, w.webhookEvents.any (·.isFor name event.eventId) = false) →
    events.Pairwise (fun a b => a.time < b.time) → ValidPath stored.status events →
    ∀ l₁ l₂ : List ProviderBillingWebhookEvent, l₁.Perm events → l₂.Perm events →
      (l₁.foldl (deliverEvent name) w).outcome? stored.id = (l₂.foldl (deliverEvent name) w).outcome? stored.id := by
  intro hClaim
  have hReports : ∀ event ∈ [statusReported "evt_2" 10 .active, statusReported "evt_3" 20 .pastDue], event.IsReport "sub_1" := by
    intro event hEvent
    simp only [List.mem_cons, List.not_mem_nil, or_false] at hEvent
    rcases hEvent with rfl | rfl <;> exact ⟨rfl, rfl, rfl, rfl, rfl⟩
  have hSame := hClaim { paidWorld with subscriptions := [linkedTrial] } .paddle "sub_1" linkedTrial _
    ⟨by decide, by decide, by decide, rfl, rfl, by decide⟩ hReports (by decide) (by decide) (by decide) ⟨rfl, rfl, trivial⟩
    [statusReported "evt_3" 20 .pastDue, statusReported "evt_2" 10 .active] _ (.swap _ _ _) (.refl _)
  exact absurd hSame (by decide)

end RestaurantOs.Billing
