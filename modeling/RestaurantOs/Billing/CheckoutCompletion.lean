import RestaurantOs.Async.Translate
import RestaurantOs.Billing.TrialExtension

/-!
# A completed checkout

What the provider reports of the subscription is to be what is on record once the
event is processed. The status is recorded as a trial or as active, and a key that
is taken is read as a second subscription of the owner.
-/

namespace RestaurantOs.Billing

open Async Prog

namespace World

structure Indexed (w : World) : Prop where
  ids : (w.subscriptions.map Subscription.id).Nodup
  fresh : ∀ s ∈ w.subscriptions, s.id < w.nextId
  free : ∀ s ∈ w.subscriptions, subscriptionTaken w.subscriptions s = false

end World

def Subscription.isOf (ownerType : OwnerType) (ownerId : Id) (s : Subscription) : Bool :=
  s.ownerType = ownerType && s.ownerId = ownerId

def Subscription.refers (providerName : SubscriptionProvider) (reference : String) (s : Subscription) : Bool :=
  s.provider = providerName && s.providerSubscriptionId = some reference

def World.ownerLive (w : World) (ownerType : OwnerType) (ownerId : Id) : Bool :=
  w.subscriptions.any fun s => s.isOf ownerType ownerId && isSubscriptionLive w.trialExtensionActive s w.now

def Subscription.asReported (snapshot : ProviderSubscriptionSnapshot) (s : Subscription) : Subscription :=
  { s with status := snapshot.status.toStatus, trialEnd := snapshot.trialEnd }

section Completion

variable (providerName : SubscriptionProvider) (event : ProviderBillingWebhookEvent) (checkout : CheckoutMetadata) (plan : Plan)
  (snapshot : ProviderSubscriptionSnapshot)

/-- `s` is the one record of the provider's subscription, as the snapshot and the
event report it, and its owner is live just when the provider has it live. The
end of a trial is a date of a trial only. -/
structure World.Reports (w : World) (s : Subscription) : Prop where
  only : w.subscriptions.filter (·.refers providerName event.providerSubscriptionId) = [s]
  owner : s.isOf checkout.ownerType checkout.ownerId = true
  planId : s.planId = plan.id
  billingInterval : s.billingInterval = checkout.billingInterval
  status : s.status = snapshot.status.toStatus
  currentPeriodStart : s.currentPeriodStart = snapshot.currentPeriodStart
  currentPeriodEnd : s.currentPeriodEnd = snapshot.currentPeriodEnd
  trialEnd : snapshot.status = .trialing → ∀ time, snapshot.trialEnd = some time → s.trialEnd = some time
  live : w.ownerLive checkout.ownerType checkout.ownerId = isSubscriptionLive w.trialExtensionActive (s.asReported snapshot) w.now

def Subscription.isOtherLive (s : Subscription) : Bool :=
  s.isOf checkout.ownerType checkout.ownerId && s.status.live && s.providerSubscriptionId.isSome &&
    !s.refers providerName event.providerSubscriptionId

def World.Completed (w w' : World) : Prop :=
  (∃ s, w'.Reports providerName event checkout plan snapshot s) ∨
    w'.subscriptions = w.subscriptions ∧ w.subscriptions.any (·.isOtherLive providerName event checkout) = true

def World.localTrial? (w : World) (ownerType : OwnerType) (ownerId : Id) : Option Subscription :=
  w.subscriptions.find? fun s => s.ownerType = ownerType && s.ownerId = ownerId && s.status.live && s.providerSubscriptionId.isNone

def ProviderSubscriptionSnapshot.recordable (snapshot : ProviderSubscriptionSnapshot) : Bool :=
  snapshot.status = .trialing || snapshot.status = .active

def World.keepsLive (w : World) (trial : Subscription) : Bool :=
  snapshot.status ≠ .trialing || snapshot.trialEnd.isSome || !trial.trialEnd.any (· ≤ w.now) ||
    w.trialExtensionActive && event.providerSubscriptionId = "" && providerName ≠ .internal

def World.Fits (w : World) : Prop :=
  match w.localTrial? checkout.ownerType checkout.ownerId with
  | some trial => snapshot.recordable = true ∧ w.keepsLive providerName event snapshot trial = true
  | none =>
    w.subscriptions.any (·.isOtherLive providerName event checkout) = true ∨
      if w.subscriptions.any (·.refers providerName event.providerSubscriptionId) then
        ∃ s, w.Reports providerName event checkout plan snapshot s
      else snapshot.recordable = true

end Completion

section Eval

variable {providerName : SubscriptionProvider} {event : ProviderBillingWebhookEvent} {checkout : CheckoutMetadata} {plan : Plan}
  {w w' : World} {a : Answer}

def recordedStatus (snapshot : ProviderSubscriptionSnapshot) : SubscriptionStatus :=
  if snapshot.status = .trialing then .trialing else .active

def Op.sparesSubscriptions : Op → Prop
  | .history _ | .event _ | .clock => True
  | _ => False

/-- The subscriptions are those of `w`, at the time and with the extension of `w`. -/
structure World.SameSubscriptions (w w' : World) : Prop where
  subscriptions : w'.subscriptions = w.subscriptions
  now : w'.now = w.now
  trialExtensionActive : w'.trialExtensionActive = w.trialExtensionActive

theorem Op.sparesSubscriptions.perform {o : Op} {w₀ : World} (h : o.sparesSubscriptions) (hSame : w₀.SameSubscriptions w) :
    w₀.SameSubscriptions (o.perform a w).2 := by
  have hEq : (o.perform a w).2.subscriptions = w.subscriptions ∧ (o.perform a w).2.now = w.now ∧
      (o.perform a w).2.trialExtensionActive = w.trialExtensionActive := by
    cases o with
    | history op =>
      cases op with
      | create row =>
        simp only [Op.perform, HistoryOp.perform]
        split <;> exact ⟨rfl, rfl, rfl⟩
      | isRecorded subscriptionId noticeKey =>
        simp only [Op.perform, HistoryOp.perform]
        split <;> exact ⟨rfl, rfl, rfl⟩
    | event op =>
      simp only [Op.perform, unlessFault]
      split
      · exact ⟨rfl, rfl, rfl⟩
      · cases op with
        | create provider eventId eventType startedAt =>
          simp only [EventOp.perform]
          split <;> exact ⟨rfl, rfl, rfl⟩
        | _ => exact ⟨rfl, rfl, rfl⟩
    | clock => exact ⟨rfl, rfl, rfl⟩
    | _ => exact h.elim
  exact ⟨hEq.1.trans hSame.subscriptions, hEq.2.1.trans hSame.now, hEq.2.2.trans hSame.trialExtensionActive⟩

theorem sameSubscriptions_of_eval {α : Type} {p : Promise α} {r : Except Err α} (hPerforms : p.Performs Op.sparesSubscriptions)
    (h : p.eval store a w = (r, w')) : w.SameSubscriptions w' := by
  have hKept : w.SameSubscriptions (p.eval store a w).2 :=
    Performs.eval (I := fun s : World => w.SameSubscriptions s) hPerforms (fun _ _ hOp hSame => hOp.perform hSame) ⟨rfl, rfl, rfl⟩
  rw [h] at hKept
  exact hKept

theorem handleCheckoutCompletionEvent_eval
    (hPlan : w.plans.find? (fun p => p.code = checkout.planCode && p.isActive) = some plan)
    (h : (handleCheckoutCompletionEvent providerName event checkout).eval store a w = (.ok (), w')) :
    a.fault = none ∧ ∃ recorded w₁, (recordCheckout providerName event checkout plan a.snapshot (recordedStatus a.snapshot)).eval store a w =
      (.ok recorded, w₁) ∧ w₁.SameSubscriptions w' := by
  obtain ⟨found, w₁, hFound, h⟩ := bind_eval_ok h
  have hFind := (eval_call (S := store) (a := a) (s := w) (Op.plan (.findActive checkout.planCode))).symm.trans hFound
  simp only [Op.perform, unlessFault] at hFind
  cases hFault : a.fault with
  | some text =>
    rw [hFault] at hFind
    cases hFind
  | none =>
    rw [hFault] at hFind
    cases hFind
    simp only [PlanOp.perform, hPlan] at h
    obtain ⟨snapshot, w₂, hSnapshot, h⟩ := bind_eval_ok h
    have hRetrieve := (eval_call (S := store) (a := a) (s := w) (Op.provider (.retrieveSubscription event.providerSubscriptionId))).symm.trans hSnapshot
    simp only [Op.perform, unlessFault, hFault] at hRetrieve
    cases hRetrieve
    obtain ⟨recorded, w₃, hRecorded, h⟩ := bind_eval_ok h
    refine ⟨rfl, recorded, w₃, hRecorded, ?_⟩
    refine sameSubscriptions_of_eval ?_ h
    cases recorded with
    | none => exact (performs_call trivial).bind fun _ => performs_call trivial
    | some subscription =>
      refine (performs_call trivial).bind fun _ => ?_
      refine Performs.bind (performs_onlyIf (performs_call trivial)) fun _ => ?_
      exact (performs_call trivial).bind fun _ => performs_call trivial

end Eval

/-! ## A local trial is converted -/

theorem filter_update {id : Subscription → Id} {p : Subscription → Bool} {f : Subscription → Subscription} {l : List Subscription}
    {d : Subscription} (hNodup : (l.map id).Nodup) (hMem : d ∈ l) (hPicked : p (f d) = true)
    (hOthers : ∀ e ∈ l, id e ≠ id d → p e = false) : (Tables.update (fun e => id e = id d) f l).filter p = [f d] := by
  induction l with
  | nil => cases hMem
  | cons e l ih =>
    simp only [List.map_cons, List.nodup_cons, List.mem_map, not_exists, not_and] at hNodup
    have hUpdate : Tables.update (fun e => id e = id d) f (e :: l) =
        (if id e = id d then f e else e) :: Tables.update (fun e => id e = id d) f l := by
      simp only [Tables.update, List.map_cons, decide_eq_true_eq]
    rw [hUpdate, List.filter_cons]
    rcases List.mem_cons.mp hMem with rfl | hTail
    · rw [if_pos rfl, if_pos hPicked]
      refine congrArg (f d :: ·) (List.filter_eq_nil_iff.mpr fun e hUpdated => ?_)
      obtain ⟨stored, hStored, rfl⟩ := List.mem_map.mp hUpdated
      have hNe : id stored ≠ id d := fun hEq => hNodup.1 stored hStored hEq
      simp only [hNe, decide_false, Bool.false_eq_true, if_false]
      rw [hOthers stored (List.mem_cons_of_mem _ hStored) hNe]
      exact Bool.false_ne_true
    · have hNe : id e ≠ id d := fun hEq => hNodup.1 d hTail hEq.symm
      rw [if_neg hNe, hOthers e List.mem_cons_self hNe]
      exact ih hNodup.2 hTail fun e' hMem' => hOthers e' (List.mem_cons_of_mem _ hMem')

@[simp] theorem changed_getD {α : Type} [DecidableEq α] (loaded value : α) : (changed loaded value).getD loaded = value := by
  unfold changed
  split
  · rename_i hSame
    exact hSame.symm
  · rfl

section Converted

variable {providerName : SubscriptionProvider} {event : ProviderBillingWebhookEvent} {checkout : CheckoutMetadata} {plan : Plan}
  {w w' : World} {a : Answer} {trial : Subscription}

theorem localTrial_spec (h : w.localTrial? checkout.ownerType checkout.ownerId = some trial) :
    trial ∈ w.subscriptions ∧ trial.isOf checkout.ownerType checkout.ownerId = true ∧ trial.status.live = true ∧
      trial.providerSubscriptionId = none := by
  have hSel := List.find?_some h
  simp only [Bool.and_eq_true, Option.isNone_iff_eq_none] at hSel
  exact ⟨List.mem_of_find?_eq_some h, by rw [Subscription.isOf, Bool.and_eq_true]; exact hSel.1.1, hSel.1.2, hSel.2⟩

theorem World.Indexed.not_live (hIndexed : w.Indexed) {s other : Subscription} (hMem : s ∈ w.subscriptions) (hOther : other ∈ w.subscriptions)
    {ownerType : OwnerType} {ownerId : Id} (hOwner : s.isOf ownerType ownerId = true) (hOtherOwner : other.isOf ownerType ownerId = true)
    (hLive : s.status.live = true) (hNe : other.id ≠ s.id) : other.status.live = false := by
  have hFree := List.any_eq_false.mp (hIndexed.free s hMem) other hOther
  simp only [Subscription.isOf, Bool.and_eq_true, decide_eq_true_eq] at hOwner hOtherOwner
  cases hOtherLive : other.status.live with
  | false => rfl
  | true => simp [hNe, hLive, hOtherLive, hOwner, hOtherOwner] at hFree

def saved (providerName : SubscriptionProvider) (event : ProviderBillingWebhookEvent) (checkout : CheckoutMetadata) (plan : Plan)
    (snapshot : ProviderSubscriptionSnapshot) (trial : Subscription) : Subscription :=
  (checkoutUpdate trial plan (recordedStatus snapshot) providerName event checkout snapshot).apply trial

theorem saved_fields {snapshot : ProviderSubscriptionSnapshot} :
    (saved providerName event checkout plan snapshot trial).id = trial.id ∧
    (saved providerName event checkout plan snapshot trial).isOf checkout.ownerType checkout.ownerId =
      trial.isOf checkout.ownerType checkout.ownerId ∧
    (saved providerName event checkout plan snapshot trial).refers providerName event.providerSubscriptionId = true ∧
    (saved providerName event checkout plan snapshot trial).planId = plan.id ∧
    (saved providerName event checkout plan snapshot trial).billingInterval = checkout.billingInterval ∧
    (saved providerName event checkout plan snapshot trial).status = recordedStatus snapshot ∧
    (saved providerName event checkout plan snapshot trial).currentPeriodStart = snapshot.currentPeriodStart ∧
    (saved providerName event checkout plan snapshot trial).currentPeriodEnd = snapshot.currentPeriodEnd ∧
    (saved providerName event checkout plan snapshot trial).trialEnd =
      (if recordedStatus snapshot = .trialing then snapshot.trialEnd.or trial.trialEnd else none) ∧
    (saved providerName event checkout plan snapshot trial).provider = providerName ∧
    (saved providerName event checkout plan snapshot trial).providerSubscriptionId = some event.providerSubscriptionId := by
  simp [saved, SubscriptionUpdate.apply, checkoutUpdate, Subscription.isOf, Subscription.refers]

theorem recordCheckout_converts (hIndexed : w.Indexed) (hFault : a.fault = none)
    (hTrial : w.localTrial? checkout.ownerType checkout.ownerId = some trial) {recorded : Option Subscription}
    (h : (recordCheckout providerName event checkout plan a.snapshot (recordedStatus a.snapshot)).eval store a w = (.ok recorded, w')) :
    subscriptionTaken w.subscriptions (saved providerName event checkout plan a.snapshot trial) = false ∧
      w'.subscriptions = Tables.update (fun e => e.id = trial.id)
        (checkoutUpdate trial plan (recordedStatus a.snapshot) providerName event checkout a.snapshot).apply w.subscriptions ∧
      w'.now = w.now ∧ w'.trialExtensionActive = w.trialExtensionActive := by
  obtain ⟨found, w₁, hFound, h⟩ := bind_eval_ok h
  have hFind := (eval_call (S := store) (a := a) (s := w)
    (Op.subscription (.findLocal checkout.ownerType checkout.ownerId))).symm.trans hFound
  simp only [Op.perform, unlessFault, hFault, SubscriptionOp.perform] at hFind
  cases hFind
  have hLocal : (w.subscriptions.find? fun s => s.ownerType = checkout.ownerType && s.ownerId = checkout.ownerId && s.status.live &&
      s.providerSubscriptionId.isNone) = some trial := hTrial
  rw [hLocal] at h
  obtain ⟨updated, w₂, hSaved, h⟩ := bind_eval_ok h
  cases h
  obtain ⟨stored, w₃, hStored, h⟩ := bind_eval_ok hSaved
  have hWrite := (eval_call (S := store) (a := a) (s := w) (writes { id := trial.id }
    (checkoutUpdate trial plan (recordedStatus a.snapshot) providerName event checkout a.snapshot))).symm.trans hStored
  have hSelects : SubscriptionFilter.selects { id := trial.id } = fun e => decide (e.id = trial.id) := by
    funext e
    simp [SubscriptionFilter.selects, notOlderThanApplied]
  have hById : w.subscriptions.find? (fun e => decide (e.id = trial.id)) = some trial :=
    Tables.find?_id hIndexed.ids (localTrial_spec hTrial).1
  simp only [Op.perform, unlessFault, hFault, SubscriptionOp.perform, hSelects, hById] at hWrite
  split at hWrite
  · cases hWrite
  · rename_i hFree
    cases hWrite
    cases h
    exact ⟨Bool.eq_false_iff.mpr hFree, rfl, rfl, rfl⟩

theorem converted_live {snapshot : ProviderSubscriptionSnapshot} (hRecordable : snapshot.recordable = true) :
    (isSubscriptionLive w.trialExtensionActive (saved providerName event checkout plan snapshot trial) w.now =
      isSubscriptionLive w.trialExtensionActive ((saved providerName event checkout plan snapshot trial).asReported snapshot) w.now) ↔
      w.keepsLive providerName event snapshot trial = true := by
  obtain ⟨-, -, -, -, -, hStatus, -, -, hTrialEnd, hProvider, hReference⟩ :=
    @saved_fields providerName event checkout plan trial snapshot
  generalize saved providerName event checkout plan snapshot trial = s at *
  cases hReported : snapshot.status with
  | pastDue => simp [ProviderSubscriptionSnapshot.recordable, hReported] at hRecordable
  | cancelled => simp [ProviderSubscriptionSnapshot.recordable, hReported] at hRecordable
  | active =>
    have hActive : s.status = .active := by simp [hStatus, recordedStatus, hReported]
    simp [isSubscriptionLive, Subscription.asReported, World.keepsLive, hActive, hReported, ProviderSubscriptionStatus.toStatus,
      SubscriptionStatus.live]
  | trialing =>
    have hTrialing : s.status = .trialing := by simp [hStatus, recordedStatus, hReported]
    have hEnd : s.trialEnd = snapshot.trialEnd.or trial.trialEnd := by simp [hTrialEnd, recordedStatus, hReported]
    have hReport : s.asReported snapshot = { s with status := .trialing, trialEnd := snapshot.trialEnd } := by
      rw [Subscription.asReported, hReported]
      rfl
    rw [hReport]
    cases hSnapshotEnd : snapshot.trialEnd with
    | some time =>
      have hSame : ({ s with status := .trialing, trialEnd := some time } : Subscription) = s := by
        rw [hSnapshotEnd, Option.some_or] at hEnd
        rw [← hTrialing, ← hEnd]
      rw [hSame]
      simp [World.keepsLive, hSnapshotEnd]
    | none =>
      rw [hSnapshotEnd, Option.none_or] at hEnd
      have hBacked : s.backed = decide (event.providerSubscriptionId ≠ "") := by
        rw [Subscription.backed, hReference, truthy, Option.filter_some]
        split <;> simp_all
      have hExtendable : isExtendableTrial s = (decide (event.providerSubscriptionId = "") && decide (providerName ≠ .internal)) := by
        rw [isExtendableTrial, hTrialing, hBacked, hProvider]
        simp
      simp only [isSubscriptionLive, hTrialing, SubscriptionStatus.live, hEnd, hExtendable, World.keepsLive, hReported, hSnapshotEnd,
        Option.any_none, Option.isSome_none, Bool.not_true, Bool.false_eq_true, if_false, decide_true, Bool.true_and, ne_eq, not_true_eq_false,
        decide_false, Bool.false_or, Bool.and_false]
      cases trial.trialEnd.any (· ≤ w.now) <;> simp [and_assoc]

theorem recordedStatus_eq {snapshot : ProviderSubscriptionSnapshot} :
    recordedStatus snapshot = snapshot.status.toStatus ↔ snapshot.recordable = true := by
  unfold recordedStatus ProviderSubscriptionSnapshot.recordable
  cases snapshot.status <;> simp [ProviderSubscriptionStatus.toStatus]

theorem ownerLive_converted (hIndexed : w.Indexed) (hTrial : w.localTrial? checkout.ownerType checkout.ownerId = some trial)
    {f : Subscription → Subscription} (hOwner : (f trial).isOf checkout.ownerType checkout.ownerId = true)
    (hSubs : w'.subscriptions = Tables.update (fun e => e.id = trial.id) f w.subscriptions) :
    w'.ownerLive checkout.ownerType checkout.ownerId = isSubscriptionLive w'.trialExtensionActive (f trial) w'.now := by
  obtain ⟨hMem, hIsOf, hLive, -⟩ := localTrial_spec hTrial
  rw [Bool.eq_iff_iff, World.ownerLive, List.any_eq_true, hSubs]
  constructor
  · rintro ⟨s, hUpdated, hSel⟩
    rw [Bool.and_eq_true] at hSel
    obtain ⟨stored, hStored, rfl⟩ := List.mem_map.mp hUpdated
    by_cases hId : stored.id = trial.id
    · cases Tables.eq_of_id hIndexed.ids hStored hMem hId
      simpa using hSel.2
    · simp only [hId, decide_false, Bool.false_eq_true, if_false] at hSel
      have hEnded := hIndexed.not_live hMem hStored hIsOf hSel.1 hLive hId
      unfold isSubscriptionLive at hSel
      simp [hEnded] at hSel
  · intro hSaved
    refine ⟨f trial, List.mem_map.mpr ⟨trial, hMem, by simp⟩, ?_⟩
    rw [Bool.and_eq_true]
    exact ⟨hOwner, hSaved⟩

theorem refers_of_free {s other : Subscription} {reference : String} (hFree : subscriptionTaken w.subscriptions s = false)
    (hOther : other ∈ w.subscriptions) (hNe : other.id ≠ s.id) (hProvider : s.provider = providerName)
    (hReference : s.providerSubscriptionId = some reference) : other.refers providerName reference = false := by
  have hNone := List.any_eq_false.mp hFree other hOther
  cases hRefers : other.refers providerName reference with
  | false => rfl
  | true =>
    simp only [Subscription.refers, Bool.and_eq_true, decide_eq_true_eq] at hRefers
    simp [hNe, hProvider, hReference, hRefers] at hNone

theorem completed_converted (hIndexed : w.Indexed) (hTrial : w.localTrial? checkout.ownerType checkout.ownerId = some trial)
    {snapshot : ProviderSubscriptionSnapshot}
    (hTaken : subscriptionTaken w.subscriptions (saved providerName event checkout plan snapshot trial) = false)
    (hSubs : w'.subscriptions = Tables.update (fun e => e.id = trial.id)
      (checkoutUpdate trial plan (recordedStatus snapshot) providerName event checkout snapshot).apply w.subscriptions)
    (hNow : w'.now = w.now) (hExtension : w'.trialExtensionActive = w.trialExtensionActive) :
    w.Completed providerName event checkout plan snapshot w' ↔
      snapshot.recordable = true ∧ w.keepsLive providerName event snapshot trial = true := by
  obtain ⟨hMem, hIsOf, hLive, hLocal⟩ := localTrial_spec hTrial
  obtain ⟨hId, hOwner, hRefers, hPlanId, hInterval, hStatus, hPeriodStart, hPeriodEnd, hTrialEnd, hProvider, hReference⟩ :=
    @saved_fields providerName event checkout plan trial snapshot
  have hOnly : w'.subscriptions.filter (·.refers providerName event.providerSubscriptionId) =
      [saved providerName event checkout plan snapshot trial] := by
    rw [hSubs]
    refine filter_update hIndexed.ids hMem hRefers fun e hStored hNe => ?_
    exact refers_of_free hTaken hStored (by rw [hId]; exact hNe) hProvider hReference
  have hOwnerLive := ownerLive_converted (f := (checkoutUpdate trial plan (recordedStatus snapshot) providerName event checkout snapshot).apply)
    hIndexed hTrial (hOwner.trans hIsOf) hSubs
  rw [hNow, hExtension] at hOwnerLive
  constructor
  · rintro (⟨s, hReports⟩ | ⟨-, hOther⟩)
    · have hSame : s = saved providerName event checkout plan snapshot trial := by
        have hBoth := hReports.only.symm.trans hOnly
        simpa using hBoth
      subst hSame
      have hRecordable := (recordedStatus_eq).mp (hStatus.symm.trans hReports.status)
      refine ⟨hRecordable, (@converted_live providerName event checkout plan w trial snapshot hRecordable).mp ?_⟩
      have hReported := hReports.live
      rw [hNow, hExtension] at hReported
      exact hOwnerLive.symm.trans hReported
    · obtain ⟨other, hStored, hSel⟩ := List.any_eq_true.mp hOther
      simp only [Subscription.isOtherLive, Bool.and_eq_true] at hSel
      have hNe : other.id ≠ trial.id := by
        intro hEq
        cases Tables.eq_of_id hIndexed.ids hStored hMem hEq
        rw [hLocal] at hSel
        cases hSel.1.2
      rw [hIndexed.not_live hMem hStored hIsOf hSel.1.1.1 hLive hNe] at hSel
      cases hSel.1.1.2
  · rintro ⟨hRecordable, hKeeps⟩
    refine .inl ⟨_, hOnly, hOwner.trans hIsOf, hPlanId, hInterval, hStatus.trans ((recordedStatus_eq).mpr hRecordable), hPeriodStart,
      hPeriodEnd, fun hReported time hEnd => ?_, ?_⟩
    · rw [hTrialEnd, recordedStatus, if_pos hReported, if_pos rfl, hEnd, Option.some_or]
    · rw [hNow, hExtension]
      exact hOwnerLive.trans ((converted_live hRecordable).mpr hKeeps)

end Converted

/-! ## A new subscription is created -/

section Created

variable {providerName : SubscriptionProvider} {event : ProviderBillingWebhookEvent} {checkout : CheckoutMetadata} {plan : Plan}
  {w w' : World} {a : Answer}

def created (providerName : SubscriptionProvider) (event : ProviderBillingWebhookEvent) (checkout : CheckoutMetadata) (plan : Plan)
    (snapshot : ProviderSubscriptionSnapshot) (id : Id) (now : Time) : Subscription where
  id := id
  ownerType := checkout.ownerType
  ownerId := checkout.ownerId
  planId := plan.id
  status := recordedStatus snapshot
  billingInterval := checkout.billingInterval
  currentPeriodStart := snapshot.currentPeriodStart
  currentPeriodEnd := snapshot.currentPeriodEnd
  trialStart := if recordedStatus snapshot = .trialing then some now else none
  trialEnd := snapshot.trialEnd
  provider := providerName
  providerCustomerId := some checkout.providerCustomerId
  providerSubscriptionId := some event.providerSubscriptionId
  lastProviderEventAt := event.occurredAt
  createdAt := now

theorem recordCheckout_creates (hFault : a.fault = none) (hTrial : w.localTrial? checkout.ownerType checkout.ownerId = none)
    {recorded : Option Subscription}
    (h : (recordCheckout providerName event checkout plan a.snapshot (recordedStatus a.snapshot)).eval store a w = (.ok recorded, w')) :
    (subscriptionTaken w.subscriptions (created providerName event checkout plan a.snapshot w.nextId w.now) = true ∧
        w'.subscriptions = w.subscriptions ∨
      subscriptionTaken w.subscriptions (created providerName event checkout plan a.snapshot w.nextId w.now) = false ∧
        w'.subscriptions = w.subscriptions ++ [created providerName event checkout plan a.snapshot w.nextId w.now]) ∧
      w'.now = w.now ∧ w'.trialExtensionActive = w.trialExtensionActive := by
  obtain ⟨found, w₁, hFound, h⟩ := bind_eval_ok h
  have hFind := (eval_call (S := store) (a := a) (s := w)
    (Op.subscription (.findLocal checkout.ownerType checkout.ownerId))).symm.trans hFound
  simp only [Op.perform, unlessFault, hFault, SubscriptionOp.perform] at hFind
  cases hFind
  have hLocal : (w.subscriptions.find? fun s => s.ownerType = checkout.ownerType && s.ownerId = checkout.ownerId && s.status.live &&
      s.providerSubscriptionId.isNone) = none := hTrial
  rw [hLocal] at h
  obtain ⟨now, w₂, hNow, h⟩ := bind_eval_ok h
  cases (eval_call (S := store) (a := a) (s := w) Op.clock).symm.trans hNow
  obtain ⟨outcome, w₃, hOutcome, h⟩ := bind_eval_ok h
  have hCreate : (Op.subscription (.create (created providerName event checkout plan a.snapshot 0 w.now))).perform a w =
      if subscriptionTaken w.subscriptions (created providerName event checkout plan a.snapshot w.nextId w.now) then (.error .duplicateKey, w)
      else (.ok (created providerName event checkout plan a.snapshot w.nextId w.now), { w with
        subscriptions := w.subscriptions ++ [created providerName event checkout plan a.snapshot w.nextId w.now], nextId := w.nextId + 1 }) := by
    simp only [Op.perform, unlessFault, hFault, SubscriptionOp.perform]
    rfl
  by_cases hTaken : subscriptionTaken w.subscriptions (created providerName event checkout plan a.snapshot w.nextId w.now) = true
  · rw [if_pos hTaken] at hCreate
    cases (eval_attempt_of ((eval_call (S := store) _).trans hCreate)).symm.trans hOutcome
    cases h
    exact ⟨.inl ⟨hTaken, rfl⟩, rfl, rfl⟩
  · rw [if_neg hTaken] at hCreate
    cases (eval_attempt_of ((eval_call (S := store) _).trans hCreate)).symm.trans hOutcome
    cases h
    exact ⟨.inr ⟨Bool.eq_false_iff.mpr hTaken, rfl⟩, rfl, rfl⟩

theorem recordedStatus_live {snapshot : ProviderSubscriptionSnapshot} : (recordedStatus snapshot).live = true := by
  unfold recordedStatus
  split <;> rfl

theorem taken_created {snapshot : ProviderSubscriptionSnapshot} {other : Subscription} (hIndexed : w.Indexed) (hMem : other ∈ w.subscriptions)
    (hTaken : subscriptionTaken w.subscriptions (created providerName event checkout plan snapshot w.nextId w.now) = false) :
    (other.isOf checkout.ownerType checkout.ownerId = true → other.status.live = false) ∧
      other.refers providerName event.providerSubscriptionId = false := by
  have hNe : other.id ≠ w.nextId := Nat.ne_of_lt (hIndexed.fresh other hMem)
  have hFree := List.any_eq_false.mp hTaken other hMem
  constructor
  · intro hOwner
    simp only [Subscription.isOf, Bool.and_eq_true, decide_eq_true_eq] at hOwner
    cases hLive : other.status.live with
    | false => rfl
    | true => simp [created, hNe, hOwner, hLive, recordedStatus_live] at hFree
  · exact refers_of_free (s := created providerName event checkout plan snapshot w.nextId w.now) hTaken hMem hNe rfl rfl

theorem completed_created (hIndexed : w.Indexed) {snapshot : ProviderSubscriptionSnapshot}
    (hTaken : subscriptionTaken w.subscriptions (created providerName event checkout plan snapshot w.nextId w.now) = false)
    (hSubs : w'.subscriptions = w.subscriptions ++ [created providerName event checkout plan snapshot w.nextId w.now]) :
    w.Completed providerName event checkout plan snapshot w' ↔ snapshot.recordable = true := by
  have hRefers : (created providerName event checkout plan snapshot w.nextId w.now).refers providerName event.providerSubscriptionId = true := by
    simp [Subscription.refers, created]
  have hOnly : w'.subscriptions.filter (·.refers providerName event.providerSubscriptionId) =
      [created providerName event checkout plan snapshot w.nextId w.now] := by
    have hNone : w.subscriptions.filter (·.refers providerName event.providerSubscriptionId) = [] :=
      List.filter_eq_nil_iff.mpr fun other hMem => by simp [(taken_created hIndexed hMem hTaken).2]
    rw [hSubs, List.filter_append, hNone, List.nil_append, List.filter_cons, if_pos hRefers, List.filter_nil]
  constructor
  · rintro (⟨s, hReports⟩ | ⟨hSame, -⟩)
    · have hSame : s = created providerName event checkout plan snapshot w.nextId w.now := by
        have hBoth := hReports.only.symm.trans hOnly
        simpa using hBoth
      exact (recordedStatus_eq).mp ((congrArg Subscription.status hSame).symm.trans hReports.status)
    · exact absurd (hSubs.symm.trans hSame) (by simp)
  · intro hRecordable
    have hStatus := (recordedStatus_eq).mpr hRecordable
    have hOwner : (created providerName event checkout plan snapshot w.nextId w.now).isOf checkout.ownerType checkout.ownerId = true := by
      simp [Subscription.isOf, created]
    refine .inl ⟨_, hOnly, hOwner, rfl, rfl, hStatus, rfl, rfl, fun _ _ hEnd => hEnd, ?_⟩
    have hReported : (created providerName event checkout plan snapshot w.nextId w.now).asReported snapshot =
        created providerName event checkout plan snapshot w.nextId w.now := by
      rw [Subscription.asReported, ← hStatus]
      rfl
    have hOthers : (w.subscriptions.any fun s =>
        s.isOf checkout.ownerType checkout.ownerId && isSubscriptionLive w'.trialExtensionActive s w'.now) = false := by
      rw [List.any_eq_false]
      intro other hMem
      cases hOf : other.isOf checkout.ownerType checkout.ownerId with
      | false => simp
      | true => simp [isSubscriptionLive, (taken_created hIndexed hMem hTaken).1 hOf]
    rw [World.ownerLive, hSubs, List.any_append, hOthers, hReported]
    simp [hOwner]

theorem otherLive_or_refers {snapshot : ProviderSubscriptionSnapshot} (hTrial : w.localTrial? checkout.ownerType checkout.ownerId = none)
    (hTaken : subscriptionTaken w.subscriptions (created providerName event checkout plan snapshot w.nextId w.now) = true) :
    w.subscriptions.any (·.isOtherLive providerName event checkout) = true ∨
      w.subscriptions.any (·.refers providerName event.providerSubscriptionId) = true := by
  obtain ⟨other, hMem, hSel⟩ := List.any_eq_true.mp hTaken
  by_cases hRefers : other.refers providerName event.providerSubscriptionId = true
  · exact .inr (List.any_eq_true.mpr ⟨other, hMem, hRefers⟩)
  · refine .inl (List.any_eq_true.mpr ⟨other, hMem, ?_⟩)
    have hNoRef : ¬(other.provider = providerName ∧ other.providerSubscriptionId = some event.providerSubscriptionId) := by
      simpa [Subscription.refers] using hRefers
    simp only [created, Bool.and_eq_true, Bool.or_eq_true] at hSel
    obtain ⟨-, ⟨⟨⟨hLive, -⟩, hType⟩, hOwnerId⟩ | ⟨⟨-, hProvider⟩, hReference⟩⟩ := hSel
    · have hOf : other.isOf checkout.ownerType checkout.ownerId = true := by
        rw [Subscription.isOf, decide_eq_true (of_decide_eq_true hType), decide_eq_true (of_decide_eq_true hOwnerId), Bool.and_self]
      have hBacked : ¬(other.isOf checkout.ownerType checkout.ownerId && other.status.live && other.providerSubscriptionId.isNone) = true :=
        List.find?_eq_none.mp hTrial other hMem
      rw [hOf, hLive, Bool.and_self, Bool.true_and, Bool.not_eq_true, Option.isNone_eq_false_iff] at hBacked
      rw [Subscription.isOtherLive, hOf, hLive, hBacked, Bool.eq_false_iff.mpr hRefers]
      rfl
    · exact absurd ⟨of_decide_eq_true hProvider, of_decide_eq_true hReference⟩ hNoRef

end Created

/-! ## The completion -/

section Completion

variable {providerName : SubscriptionProvider} {event : ProviderBillingWebhookEvent} {checkout : CheckoutMetadata} {plan : Plan}
  {snapshot : ProviderSubscriptionSnapshot} {w w₁ w' : World} {a : Answer}

theorem World.SameSubscriptions.reports (h : w.SameSubscriptions w') {s : Subscription}
    (hReports : w.Reports providerName event checkout plan snapshot s) : w'.Reports providerName event checkout plan snapshot s where
  only := by rw [h.subscriptions]; exact hReports.only
  owner := hReports.owner
  planId := hReports.planId
  billingInterval := hReports.billingInterval
  status := hReports.status
  currentPeriodStart := hReports.currentPeriodStart
  currentPeriodEnd := hReports.currentPeriodEnd
  trialEnd := hReports.trialEnd
  live := by rw [World.ownerLive, h.subscriptions, h.now, h.trialExtensionActive]; exact hReports.live

theorem World.SameSubscriptions.symm (h : w.SameSubscriptions w') : w'.SameSubscriptions w :=
  ⟨h.subscriptions.symm, h.now.symm, h.trialExtensionActive.symm⟩

theorem World.SameSubscriptions.completed (h : w₁.SameSubscriptions w') :
    w.Completed providerName event checkout plan snapshot w' ↔ w.Completed providerName event checkout plan snapshot w₁ := by
  constructor
  · rintro (⟨s, hReports⟩ | ⟨hSame, hOther⟩)
    · exact .inl ⟨s, h.symm.reports hReports⟩
    · exact .inr ⟨h.subscriptions.symm.trans hSame, hOther⟩
  · rintro (⟨s, hReports⟩ | ⟨hSame, hOther⟩)
    · exact .inl ⟨s, h.reports hReports⟩
    · exact .inr ⟨h.subscriptions.trans hSame, hOther⟩

theorem completed_dropped (hTrial : w.localTrial? checkout.ownerType checkout.ownerId = none)
    (hTaken : subscriptionTaken w.subscriptions (created providerName event checkout plan snapshot w.nextId w.now) = true)
    (hSame : w.SameSubscriptions w') :
    w.Completed providerName event checkout plan snapshot w' ↔ w.Fits providerName event checkout plan snapshot := by
  rw [World.Fits, hTrial]
  constructor
  · rintro (⟨s, hReports⟩ | ⟨-, hOther⟩)
    · have hBefore := hSame.symm.reports hReports
      have hRefers : w.subscriptions.any (·.refers providerName event.providerSubscriptionId) = true := by
        have hMem : s ∈ w.subscriptions.filter (·.refers providerName event.providerSubscriptionId) := by
          rw [hBefore.only]
          exact List.mem_singleton_self s
        exact List.any_eq_true.mpr ⟨s, List.mem_filter.mp hMem⟩
      refine .inr ?_
      rw [if_pos hRefers]
      exact ⟨s, hBefore⟩
    · exact .inl hOther
  · rintro (hOther | hRecord)
    · exact .inr ⟨hSame.subscriptions, hOther⟩
    · rcases otherLive_or_refers hTrial hTaken with hOther | hRefers
      · exact .inr ⟨hSame.subscriptions, hOther⟩
      · rw [if_pos hRefers] at hRecord
        obtain ⟨s, hBefore⟩ := hRecord
        exact .inl ⟨s, hSame.reports hBefore⟩

theorem fits_created (hIndexed : w.Indexed) (hTrial : w.localTrial? checkout.ownerType checkout.ownerId = none)
    (hTaken : subscriptionTaken w.subscriptions (created providerName event checkout plan snapshot w.nextId w.now) = false) :
    w.Fits providerName event checkout plan snapshot ↔ snapshot.recordable = true := by
  have hNoRef : w.subscriptions.any (·.refers providerName event.providerSubscriptionId) = false := by
    rw [List.any_eq_false]
    intro other hMem
    simp [(taken_created hIndexed hMem hTaken).2]
  have hNoOther : w.subscriptions.any (·.isOtherLive providerName event checkout) = false := by
    rw [List.any_eq_false]
    intro other hMem
    cases hOf : other.isOf checkout.ownerType checkout.ownerId with
    | false => simp [Subscription.isOtherLive, hOf]
    | true => simp [Subscription.isOtherLive, (taken_created hIndexed hMem hTaken).1 hOf]
  simp [World.Fits, hTrial, hNoRef, hNoOther]

/-- A processed completion is recorded as the provider has it just when the
snapshot's status is one that is recorded, no past end of a local trial is kept,
and a reference on record already says what is reported. -/
theorem handleCheckoutCompletionEvent_completed (hIndexed : w.Indexed)
    (hPlan : w.plans.find? (fun p => p.code = checkout.planCode && p.isActive) = some plan)
    (h : (handleCheckoutCompletionEvent providerName event checkout).eval store a w = (.ok (), w')) :
    w.Completed providerName event checkout plan a.snapshot w' ↔ w.Fits providerName event checkout plan a.snapshot := by
  obtain ⟨hFault, recorded, w₁, hRecorded, hSame⟩ := handleCheckoutCompletionEvent_eval hPlan h
  rw [hSame.completed]
  cases hTrial : w.localTrial? checkout.ownerType checkout.ownerId with
  | some trial =>
    obtain ⟨hTaken, hSubs, hNow, hExtension⟩ := recordCheckout_converts hIndexed hFault hTrial hRecorded
    rw [completed_converted hIndexed hTrial hTaken hSubs hNow hExtension, World.Fits, hTrial]
  | none =>
    obtain ⟨⟨hTaken, hSubs⟩ | ⟨hTaken, hSubs⟩, hNow, hExtension⟩ := recordCheckout_creates hFault hTrial hRecorded
    · exact completed_dropped hTrial hTaken ⟨hSubs, hNow, hExtension⟩
    · exact (completed_created hIndexed hTaken hSubs).trans (fits_created hIndexed hTrial hTaken).symm

end Completion

/-! ### A subscription that is past due -/

def proPlan : Plan := { id := 9, code := "pro", name := "Pro" }

def proCheckout : CheckoutMetadata :=
  { ownerType := .business, ownerId := 1, planCode := "pro", billingInterval := .monthly, providerCustomerId := "cus_1" }

def completedEvent : ProviderBillingWebhookEvent :=
  { eventId := "evt_1", eventType := "transaction.completed", providerSubscriptionId := "sub_1" }

def checkoutWorld : World := { now := 100, nextId := 1, owners := [(.business, 1)], plans := [proPlan] }

theorem checkoutWorld_indexed : checkoutWorld.Indexed :=
  ⟨List.nodup_nil, fun _ hMem => absurd hMem List.not_mem_nil, fun _ hMem => absurd hMem List.not_mem_nil⟩

theorem active_checkout_completed :
    checkoutWorld.Completed .paddle completedEvent proCheckout proPlan {}
        ((handleCheckoutCompletionEvent .paddle completedEvent proCheckout).eval store {} checkoutWorld).2 ↔
      checkoutWorld.Fits .paddle completedEvent proCheckout proPlan {} :=
  handleCheckoutCompletionEvent_completed (a := {}) checkoutWorld_indexed (by decide) (Prod.ext (by decide) rfl)

/-- The provider reports a subscription whose payment failed: an active one is
recorded. -/
theorem past_due_checkout_not_completed : ¬ ∀ (providerName : SubscriptionProvider) (event : ProviderBillingWebhookEvent)
    (checkout : CheckoutMetadata) (plan : Plan) (a : Answer) (w w' : World), w.Indexed →
    w.plans.find? (fun p => p.code = checkout.planCode && p.isActive) = some plan →
    (handleCheckoutCompletionEvent providerName event checkout).eval store a w = (.ok (), w') →
    w.Completed providerName event checkout plan a.snapshot w' := by
  intro hClaim
  rcases hClaim .paddle completedEvent proCheckout proPlan { snapshot := { status := .pastDue } } checkoutWorld _ checkoutWorld_indexed
    (by decide) (Prod.ext (by decide) rfl) with ⟨s, hReports⟩ | ⟨-, hOther⟩
  · have hActive : (((handleCheckoutCompletionEvent .paddle completedEvent proCheckout).eval store
        { snapshot := { status := .pastDue } } checkoutWorld).2.subscriptions.filter (·.refers .paddle "sub_1")).map
        Subscription.status = [.active] := by decide
    have hStatus := (congrArg (List.map Subscription.status) hReports.only).symm.trans hActive
    rw [List.map_singleton, List.singleton_inj, hReports.status] at hStatus
    cases hStatus
  · exact absurd hOther (by decide)

end RestaurantOs.Billing
