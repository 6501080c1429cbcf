import RestaurantOs.Async.Rely
import RestaurantOs.Billing.TrialExtension

/-!
# The newest subscription

Of the subscriptions of an owner only the one created last can be live: a new
one is not created while another is live, and what has ended stays so.
-/

namespace RestaurantOs.Billing

open Async Prog

/-! ## What is created, and with which plans -/

/-- A plan that is found is one of `K`. -/
def Op.tells (K : Id → Prop) : (o : Op) → Except Err o.Resp → Prop
  | .plan _, .ok (some found) => K found.id
  | _, _ => True

/-- What is created is live, and a plan that is set is one of `K`. -/
def Op.planned (K : Id → Prop) : Op → Prop
  | .subscription (.create draft) => draft.status.live = true ∧ K draft.planId
  | .subscription (.findOneAndUpdate _ update) => ∀ planId, update.planId = some planId → K planId
  | _ => True

def Op.keepsPlan : Op → Prop
  | .subscription (.create _) => False
  | .subscription (.findOneAndUpdate _ update) => update.planId = none
  | _ => True

theorem Op.keepsPlan.planned {K : Id → Prop} {o : Op} (h : o.keepsPlan) : o.planned K := by
  cases o with
  | subscription op =>
    cases op with
    | create draft => exact h.elim
    | findOneAndUpdate filter update =>
      intro planId hSet
      rw [show update.planId = none from h] at hSet
      cases hSet
    | _ => trivial
  | _ => trivial

section Walk

variable {K : Id → Prop} {α : Type}

abbrev Planned (K : Id → Prop) (p : Promise α) : Prop := p.Keeps (Op.tells K) (Op.planned K) (fun _ => True) fun _ => True

theorem planned_of_performs {p : Promise α} (h : p.Performs Op.keepsPlan) : Planned K p :=
  h.keeps (fun _ => Op.keepsPlan.planned) (fun _ => trivial) fun _ => trivial

theorem getLiveSubscriptionOrThrow_keepsPlan (ownerType : OwnerType) (ownerId : Id) :
    (getLiveSubscriptionOrThrow ownerType ownerId).Performs Op.keepsPlan := by
  refine (performs_call trivial).bind fun subscription => ?_
  cases subscription <;> trivial

theorem cancelSubscription_keepsPlan (ownerType : OwnerType) (ownerId : Id) (atPeriodEnd : Bool) :
    (cancelSubscriptionCore ownerType ownerId atPeriodEnd).Performs Op.keepsPlan := by
  refine (getLiveSubscriptionOrThrow_keepsPlan ownerType ownerId).bind fun copy => ?_
  split
  · trivial
  · dsimp only
    split
    · trivial
    · refine (performs_call trivial).bind fun actedAt => ?_
      refine (performs_onlyIf (performs_call trivial)).bind fun _ => ?_
      refine (performs_call trivial).bind fun now => ?_
      refine Performs.bind (performs_call rfl) fun updated => ?_
      cases updated with
      | none => trivial
      | some updated => exact (performs_call trivial).bind fun _ => trivial

theorem reactivateSubscription_keepsPlan (ownerType : OwnerType) (ownerId : Id) :
    (reactivateSubscriptionCore ownerType ownerId).Performs Op.keepsPlan := by
  refine (getLiveSubscriptionOrThrow_keepsPlan ownerType ownerId).bind fun copy => ?_
  split
  · trivial
  · refine (performs_call trivial).bind fun actedAt => ?_
    refine (performs_onlyIf (performs_call trivial)).bind fun _ => ?_
    refine Performs.bind (performs_call rfl) fun updated => ?_
    cases updated with
    | none => trivial
    | some updated => exact (performs_call trivial).bind fun _ => trivial

theorem runTrialExpirationSweep_keepsPlan (env : Env) : (runTrialExpirationSweep env).Performs Op.keepsPlan := by
  have hLapsed : ∀ now : Time, (expireLapsed now).Performs Op.keepsPlan := by
    intro now
    refine (performs_call trivial).bind fun holding => (performs_call trivial).bind fun candidates => performs_forEach fun candidate => ?_
    refine Performs.bind (performs_call rfl) fun updated => ?_
    cases updated with
    | none => trivial
    | some updated => exact performs_call trivial
  refine (performs_call trivial).bind fun now => (performs_call trivial).bind fun holding => ?_
  split
  · exact (performs_call trivial).bind fun _ => hLapsed now
  · refine (performs_call trivial).bind fun held => Performs.bind ?_ fun _ => hLapsed now
    exact performs_forEach fun sub => Performs.bind (performs_call rfl) fun _ => trivial

theorem keeps_planOp {op : PlanOp} {Q : Option Plan → Prop} (hQ : ∀ found : Option Plan, (∀ plan, found = some plan → K plan.id) → Q found) :
    (planOp op).Keeps (Op.tells K) (Op.planned K) Q fun _ => True := by
  refine keeps_call trivial (fun found hTold => hQ found fun plan hFound => ?_) fun _ => trivial
  subst hFound
  exact hTold

theorem keeps_other {o : Op} {Q : o.Resp → Prop} (hOp : o.keepsPlan) (hQ : ∀ v, Q v) :
    (Prog.call o : Promise o.Resp).Keeps (Op.tells K) (Op.planned K) Q fun _ => True :=
  keeps_call hOp.planned (fun v _ => hQ v) fun _ => trivial

theorem createSubscription_planned (env : Env) (ownerType : OwnerType) (ownerId : Id) (planCode : String)
    (billingInterval : BillingInterval) (assignedByPlatform : Bool) :
    Planned K (createSubscriptionCore env ownerType ownerId planCode billingInterval assignedByPlatform) := by
  unfold createSubscriptionCore
  refine keeps_bind.mpr (keeps_other trivial fun identity => ?_)
  split
  · trivial
  · refine keeps_bind.mpr (keeps_other trivial fun current => ?_)
    split
    · trivial
    · refine keeps_bind.mpr (keeps_planOp fun found hFound => ?_)
      cases found with
      | none => trivial
      | some plan =>
        dsimp only
        split
        · trivial
        · split
          · trivial
          · split
            · trivial
            · refine keeps_bind.mpr (keeps_other trivial fun now => ?_)
              refine keeps_bind.mpr (keeps_attempt.mpr (keeps_call ⟨rfl, hFound plan rfl⟩ (fun subscription _ => ?_) fun err => ?_))
              · exact keeps_bind.mpr (keeps_other trivial fun _ => trivial)
              · dsimp only
                split <;> trivial

theorem saveSubscription_planned {copy : Subscription} {update : SubscriptionUpdate} (h : ∀ planId, update.planId = some planId → K planId) :
    Planned K (saveSubscription copy update) := by
  refine keeps_bind.mpr (keeps_call h (fun stored _ => ?_) fun _ => trivial)
  cases stored <;> trivial

theorem changed_planned {loaded value planId : Id} (hValue : K value) (h : changed loaded value = some planId) : K planId := by
  unfold changed at h
  split at h
  · cases h
  · cases h
    exact hValue

theorem changeSubscriptionPlan_planned (ownerType : OwnerType) (ownerId : Id) (newPlanCode : String) :
    Planned K (changeSubscriptionPlanCore ownerType ownerId newPlanCode) := by
  unfold changeSubscriptionPlanCore
  refine keeps_bind.mpr ((planned_of_performs (getLiveSubscriptionOrThrow_keepsPlan _ _)).mono (fun copy _ => ?_) fun _ _ => trivial)
  split
  · trivial
  · refine keeps_bind.mpr (keeps_planOp fun found hFound => ?_)
    cases found with
    | none => trivial
    | some plan =>
      dsimp only
      split
      · trivial
      · split
        · trivial
        · refine keeps_bind.mpr (keeps_other trivial fun actedAt => keeps_bind.mpr ?_)
          refine (planned_of_performs (performs_onlyIf ?_)).mono (fun _ _ => ?_) fun _ _ => trivial
          · split
            · trivial
            · exact performs_call trivial
          · refine keeps_bind.mpr ((saveSubscription_planned fun planId hSet => ?_).mono (fun saved _ => ?_) fun _ _ => trivial)
            · exact changed_planned (hFound plan rfl) hSet
            · exact keeps_bind.mpr (keeps_other trivial fun _ => trivial)

section Events

variable {providerName : SubscriptionProvider} {event : ProviderBillingWebhookEvent}

theorem markProcessed_keepsPlan : (markProcessed providerName event).Performs Op.keepsPlan :=
  (performs_call trivial).bind fun _ => performs_call trivial

theorem markIgnored_keepsPlan (processingError : String) : (markIgnored providerName event processingError).Performs Op.keepsPlan :=
  (performs_call trivial).bind fun _ => performs_call trivial

theorem claimWebhookEvent_keepsPlan : (claimWebhookEventForProcessing providerName event).Performs Op.keepsPlan := by
  refine (performs_call trivial).bind fun now => (Performs.attempt (performs_call trivial)).bind fun created => ?_
  cases created with
  | ok _ => trivial
  | error err =>
    dsimp only
    split
    · exact (performs_call trivial).bind fun _ => performs_call trivial
    · trivial

theorem reportedPlan_eq {current : Subscription} {providerPriceId : String} {found : Option Plan} {planChange : Plan × PlanPricing}
    (h : reportedPlan current providerPriceId found = some planChange) : found = some planChange.1 := by
  unfold reportedPlan at h
  obtain ⟨plan, hFound, h⟩ := Option.bind_eq_some_iff.mp h
  obtain ⟨pricing, -, h⟩ := Option.bind_eq_some_iff.mp h
  split at h
  · cases h
    exact hFound
  · cases h

theorem applyProviderSubscriptionDetails_planned (subscription : Subscription) :
    Planned K (applyProviderSubscriptionDetails subscription event) := by
  unfold applyProviderSubscriptionDetails
  refine keeps_bind.mpr ((planned_of_performs ?_).mono (fun claimed _ => ?_) fun _ _ => trivial)
  · unfold claimOrder
    split
    · trivial
    · exact performs_call rfl
  · cases claimed with
    | none => trivial
    | some current =>
      have hReported : (findReportedPlan current event).Keeps (Op.tells K) (Op.planned K)
          (fun planChange => ∀ change, planChange = some change → K change.1.id) fun _ => True := by
        unfold findReportedPlan
        split
        · exact fun change hNone => by cases hNone
        · refine keeps_bind.mpr (keeps_planOp fun found hFound => ?_)
          exact fun change hChange => hFound _ (reportedPlan_eq hChange)
      refine keeps_bind.mpr (hReported.mono (fun planChange hChange => ?_) fun _ _ => trivial)
      dsimp only
      split
      · trivial
      · refine keeps_bind.mpr (keeps_call (fun planId hSet => ?_) (fun updated _ => ?_) fun _ => trivial)
        · obtain ⟨change, hEq, rfl⟩ := Option.map_eq_some_iff.mp hSet
          exact hChange change hEq
        · split
          · exact keeps_bind.mpr (keeps_other trivial fun _ => trivial)
          · trivial

theorem applySubscriptionEvent_planned (status : ProviderSubscriptionStatus) (subscription : Subscription) :
    Planned K (applySubscriptionEvent providerName event status subscription) := by
  refine keeps_bind.mpr ((applyProviderSubscriptionDetails_planned subscription).mono (fun current _ => ?_) fun _ _ => trivial)
  cases current with
  | none => exact planned_of_performs (markIgnored_keepsPlan _)
  | some current =>
    refine planned_of_performs ?_
    dsimp only
    split
    · exact markProcessed_keepsPlan
    · split
      · exact markIgnored_keepsPlan _
      · refine (performs_call trivial).bind fun now => ?_
        refine Performs.bind (performs_call rfl) fun applied => ?_
        split
        · exact (performs_call trivial).bind fun _ => markProcessed_keepsPlan
        · exact markProcessed_keepsPlan

theorem recordCheckout_planned {checkout : CheckoutMetadata} {plan : Plan} {snapshot : ProviderSubscriptionSnapshot}
    {status : SubscriptionStatus} (hPlan : K plan.id) (hLive : status.live = true) :
    Planned K (recordCheckout providerName event checkout plan snapshot status) := by
  refine keeps_bind.mpr (keeps_other trivial fun trial => ?_)
  cases trial with
  | some trial =>
    refine keeps_bind.mpr ((saveSubscription_planned fun planId hSet => ?_).mono (fun saved _ => trivial) fun _ _ => trivial)
    exact changed_planned hPlan hSet
  | none =>
    refine keeps_bind.mpr (keeps_other trivial fun now => ?_)
    refine keeps_bind.mpr (keeps_attempt.mpr (keeps_call ⟨hLive, hPlan⟩ (fun subscription _ => trivial) fun err => ?_))
    dsimp only
    split <;> trivial

theorem handleCheckoutCompletionEvent_planned {checkout : CheckoutMetadata} :
    Planned K (handleCheckoutCompletionEvent providerName event checkout) := by
  refine keeps_bind.mpr (keeps_planOp fun found hFound => ?_)
  cases found with
  | none => exact planned_of_performs (performs_call trivial)
  | some plan =>
    refine keeps_bind.mpr (keeps_other trivial fun snapshot => ?_)
    refine keeps_bind.mpr ((recordCheckout_planned (hFound plan rfl) ?_).mono (fun recorded _ => ?_) fun _ _ => trivial)
    · split <;> rfl
    · refine planned_of_performs ?_
      cases recorded with
      | none => exact markIgnored_keepsPlan _
      | some subscription =>
        refine (performs_call trivial).bind fun _ => ?_
        exact (performs_onlyIf (performs_call trivial)).bind fun _ => markProcessed_keepsPlan

theorem processClaimedEvent_planned : Planned K (processClaimedEvent providerName event) := by
  unfold processClaimedEvent
  split
  · exact planned_of_performs (markIgnored_keepsPlan _)
  · split
    · exact handleCheckoutCompletionEvent_planned
    · refine keeps_bind.mpr ((planned_of_performs ?_).mono (fun subscription _ => ?_) fun _ _ => trivial)
      · split
        · trivial
        · exact performs_call trivial
      · cases subscription with
        | none =>
          refine planned_of_performs ((performs_call trivial).bind fun now => ?_)
          split
          · trivial
          · exact markProcessed_keepsPlan
        | some subscription =>
          dsimp only
          split
          · refine planned_of_performs ?_
            split
            · exact markProcessed_keepsPlan
            · refine Performs.bind ?_ fun _ => markProcessed_keepsPlan
              exact (performs_call trivial).bind fun _ => performs_onlyIf (performs_call trivial)
          · exact applySubscriptionEvent_planned _ subscription

theorem processBillingProviderEvent_planned : Planned K (processBillingProviderEvent providerName event) := by
  refine keeps_bind.mpr ((planned_of_performs claimWebhookEvent_keepsPlan).mono (fun claimed _ => ?_) fun _ _ => trivial)
  split
  · trivial
  · refine keeps_bind.mpr (keeps_attempt.mpr ((processClaimedEvent_planned).mono (fun _ _ => trivial) fun err _ => ?_))
    exact keeps_bind.mpr (keeps_other trivial fun _ => trivial)

end Events

theorem Request.program_planned (env : Env) (r : Request) : Planned K (r.program env) := by
  cases r with
  | createSubscription ownerType ownerId planCode billingInterval assignedByPlatform =>
    exact keeps_bind.mpr ((createSubscription_planned _ _ _ _ _ _).mono (fun _ _ => trivial) fun _ _ => trivial)
  | cancelSubscription ownerType ownerId atPeriodEnd =>
    exact planned_of_performs ((cancelSubscription_keepsPlan _ _ _).bind fun _ => trivial)
  | reactivateSubscription ownerType ownerId =>
    exact planned_of_performs ((reactivateSubscription_keepsPlan _ _).bind fun _ => trivial)
  | changeSubscriptionPlan ownerType ownerId newPlanCode =>
    exact keeps_bind.mpr ((changeSubscriptionPlan_planned _ _ _).mono (fun _ _ => trivial) fun _ _ => trivial)
  | billingEvent providerName event => exact processBillingProviderEvent_planned
  | trialExpirationSweep => exact planned_of_performs (runTrialExpirationSweep_keepsPlan env)

end Walk

/-! ## What an operation does to the collection -/

inductive Op.Changes (o : Op) (w w' : World) : Prop
  | same (hSubs : w'.subscriptions = w.subscriptions) (hNext : w'.nextId = w.nextId)
  | updated {filter : SubscriptionFilter} {update : SubscriptionUpdate} (hOp : o = writes filter update)
      (hSubs : w'.subscriptions = Tables.update filter.selects update.apply w.subscriptions) (hNext : w'.nextId = w.nextId)
  | held {sel : Subscription → Bool} {now : Time} (hSubs : w'.subscriptions = Tables.update sel (Subscription.hold now) w.subscriptions)
      (hNext : w'.nextId = w.nextId)
  | created {draft : Subscription} (hOp : o = .subscription (.create draft))
      (hTaken : subscriptionTaken w.subscriptions { draft with id := w.nextId, createdAt := w.now } = false)
      (hSubs : w'.subscriptions = w.subscriptions ++ [{ draft with id := w.nextId, createdAt := w.now }])
      (hNext : w'.nextId = w.nextId + 1)

theorem SubscriptionOp.changes (op : SubscriptionOp) (w : World) : (Op.subscription op).Changes w (op.perform w).2 := by
  cases op with
  | findOneAndUpdate filter update =>
    simp only [perform]
    split
    · exact .same rfl rfl
    · split
      · exact .same rfl rfl
      · exact .updated rfl rfl rfl
  | create draft =>
    simp only [perform]
    split
    · exact .same rfl rfl
    · rename_i hTaken
      exact .created rfl (Bool.eq_false_iff.mpr hTaken) rfl rfl
  | holdTrials now => exact .held rfl rfl
  | _ => exact .same rfl rfl

theorem EventOp.nextId_perform (op : EventOp) (w : World) : (op.perform w).2.nextId = w.nextId := by
  cases op with
  | create provider eventId eventType startedAt =>
    simp only [perform]
    split <;> rfl
  | _ => rfl

theorem HistoryOp.nextId_perform (op : HistoryOp) (a : Answer) (w : World) : (op.perform a w).2.nextId = w.nextId := by
  cases op with
  | create row =>
    simp only [perform]
    split <;> rfl
  | isRecorded subscriptionId noticeKey =>
    simp only [perform]
    split <;> rfl

theorem Op.changes (o : Op) (a : Answer) (w : World) : o.Changes w (o.perform a w).2 := by
  have hUnless : ∀ {ρ : Type} {r : Except Err ρ × World}, o.Changes w r.2 → o.Changes w (unlessFault a w r).2 := by
    intro ρ r h
    rcases unlessFault_state (a := a) (w := w) (r := r) with hEq | hEq
    · rw [hEq]
      exact .same rfl rfl
    · rw [hEq]
      exact h
  cases o with
  | subscription op => exact hUnless (op.changes w)
  | event op => exact hUnless (.same (op.subscriptions_perform w) (op.nextId_perform w))
  | history op => exact .same (op.subscriptions_perform a w) (op.nextId_perform a w)
  | clock | trialExtensionActive => exact .same rfl rfl
  | owner | plan | provider => exact hUnless (.same rfl rfl)

/-! ## Only the newest is live -/

def Subscription.SameOwner (s s' : Subscription) : Prop := s.ownerType = s'.ownerType ∧ s.ownerId = s'.ownerId

instance (s s' : Subscription) : Decidable (s.SameOwner s') :=
  inferInstanceAs (Decidable (s.ownerType = s'.ownerType ∧ s.ownerId = s'.ownerId))

structure World.NewestLive (w : World) : Prop where
  ids : (w.subscriptions.map Subscription.id).Nodup
  fresh : ∀ s ∈ w.subscriptions, s.id < w.nextId
  newest : ∀ s ∈ w.subscriptions, s.status.live = true → ∀ other ∈ w.subscriptions, other.SameOwner s → other.id ≠ s.id →
    other.createdAt < s.createdAt

section Invariant

variable {w w' : World} {f : Subscription → Subscription}

theorem World.NewestLive.same (h : w.NewestLive) (hSubs : w'.subscriptions = w.subscriptions) (hNext : w'.nextId = w.nextId) :
    w'.NewestLive := by
  refine ⟨?_, ?_, ?_⟩ <;> simp only [hSubs, hNext]
  · exact h.ids
  · exact h.fresh
  · exact h.newest

theorem World.NewestLive.update {sel : Subscription → Bool} (h : w.NewestLive)
    (hSubs : w'.subscriptions = Tables.update sel f w.subscriptions) (hNext : w'.nextId = w.nextId)
    (hKeeps : ∀ s, (f s).id = s.id ∧ (f s).SameOwner s ∧ (f s).createdAt = s.createdAt)
    (hLive : ∀ s ∈ w.subscriptions, sel s = true → (f s).status.live = true → s.status.live = true) : w'.NewestLive := by
  have hOf : ∀ s' ∈ w'.subscriptions, ∃ s ∈ w.subscriptions, s'.id = s.id ∧ s'.SameOwner s ∧ s'.createdAt = s.createdAt ∧
      (s'.status.live = true → s.status.live = true) := by
    intro s' hMem
    rw [hSubs, Tables.update, List.mem_map] at hMem
    obtain ⟨s, hStored, hEq⟩ := hMem
    refine ⟨s, hStored, ?_⟩
    split at hEq
    · rename_i hSel
      subst hEq
      obtain ⟨hId, hOwner, hCreated⟩ := hKeeps s
      exact ⟨hId, hOwner, hCreated, hLive s hStored hSel⟩
    · subst hEq
      exact ⟨rfl, ⟨rfl, rfl⟩, rfl, fun hLive => hLive⟩
  refine ⟨?_, ?_, ?_⟩
  · rw [hSubs, ids_update fun s => (hKeeps s).1]
    exact h.ids
  · intro s' hMem
    obtain ⟨s, hStored, hId, -⟩ := hOf s' hMem
    rw [hId, hNext]
    exact h.fresh s hStored
  · intro s' hMem hLive other' hOther hOwner hNe
    obtain ⟨s, hStored, hId, hSame, hCreated, hWas⟩ := hOf s' hMem
    obtain ⟨other, hStoredOther, hIdOther, hSameOther, hCreatedOther, -⟩ := hOf other' hOther
    rw [hCreated, hCreatedOther]
    refine h.newest s hStored (hWas hLive) other hStoredOther ?_ ?_
    · exact ⟨hSameOther.1.symm.trans (hOwner.1.trans hSame.1), hSameOther.2.symm.trans (hOwner.2.trans hSame.2)⟩
    · rw [← hId, ← hIdOther]
      exact hNe

theorem World.NewestLive.create {created : Subscription} (h : w.NewestLive) (hSubs : w'.subscriptions = w.subscriptions ++ [created])
    (hNext : w'.nextId = w.nextId + 1) (hId : created.id = w.nextId) (hLive : created.status.live = true)
    (hTaken : subscriptionTaken w.subscriptions created = false)
    (hLater : ∀ s ∈ w.subscriptions, s.SameOwner created → s.createdAt < created.createdAt) : w'.NewestLive := by
  have hNone : ∀ s ∈ w.subscriptions, s.status.live = true → ¬ s.SameOwner created := by
    intro s hMem hStoredLive hOwner
    have hFree := List.any_eq_false.mp hTaken s hMem
    have hNe : s.id ≠ created.id := by
      rw [hId]
      exact Nat.ne_of_lt (h.fresh s hMem)
    simp [hNe, hStoredLive, hLive, hOwner.1, hOwner.2] at hFree
  refine ⟨?_, ?_, ?_⟩ <;> rw [hSubs]
  · rw [List.map_append, List.map_cons, List.map_nil]
    refine List.nodup_append'.mpr ⟨h.ids, List.nodup_singleton _, ?_⟩
    refine List.disjoint_singleton.mpr fun hMem => ?_
    obtain ⟨s, hStored, hSame⟩ := List.mem_map.mp hMem
    exact Nat.lt_irrefl _ (hId ▸ hSame ▸ h.fresh s hStored)
  · intro s hMem
    rw [hNext]
    rcases List.mem_append.mp hMem with hOld | hNew
    · exact Nat.lt_succ_of_lt (h.fresh s hOld)
    · rw [List.mem_singleton.mp hNew, hId]
      exact Nat.lt_succ_self _
  · intro s hMem hStoredLive other hOther hOwner hNe
    rcases List.mem_append.mp hMem with hOld | hNew
    · rcases List.mem_append.mp hOther with hOldOther | hNewOther
      · exact h.newest s hOld hStoredLive other hOldOther hOwner hNe
      · rw [List.mem_singleton.mp hNewOther] at hOwner
        exact absurd ⟨hOwner.1.symm, hOwner.2.symm⟩ (hNone s hOld hStoredLive)
    · rw [List.mem_singleton.mp hNew] at hOwner hNe ⊢
      rcases List.mem_append.mp hOther with hOldOther | hNewOther
      · exact hLater other hOldOther hOwner
      · exact absurd (congrArg Subscription.id (List.mem_singleton.mp hNewOther)) hNe

end Invariant

/-! ## Over a run -/

/-- A save of a status, which only a completed checkout makes, lands on a record
that is live. -/
def revivesNone (c : State) : Label Answer Event → Bool
  | .run t _ =>
    match c.waiting? t with
    | some (.subscription (.findOneAndUpdate filter update)) =>
      filter.status.isSome || update.status.isNone || (c.state.subscription? filter.id).all (·.status.live)
    | _ => true
  | _ => true

def createsLater (c : State) : Label Answer Event → Bool
  | .run t _ =>
    match c.waiting? t with
    | some (.subscription (.create draft)) =>
      c.state.subscriptions.all fun stored => !decide (stored.SameOwner draft) || stored.createdAt < c.state.now
    | _ => true
  | _ => true

def keepsPlans (c : State) : Label Answer Event → Bool
  | .event (.edit plans) => c.state.plans.all fun plan => plans.any (·.id = plan.id)
  | _ => true

def World.hasPlan (w : World) (planId : Id) : Prop := ∃ plan ∈ w.plans, plan.id = planId

section Runs

variable {env : Env} {w : World} {c c' : State} {requests : List Request} {t : Nat} {a : Answer} {o : Op}
  {th : Thread Op Op.Resp Err World Unit} {k : Except Err o.Resp → Promise Unit} {K : Id → Prop}

theorem live_of_update {filter : SubscriptionFilter} {update : SubscriptionUpdate} {s : Subscription}
    (hNodup : (c.state.subscriptions.map Subscription.id).Nodup) (hMem : s ∈ c.state.subscriptions)
    (hSel : filter.selects s = true) (hWaiting : c.waiting? t = some (writes filter update)) {r : Request}
    (hWrites : r.Writes (writes filter update)) (hRevives : revivesNone c (.run t a) = true)
    (hLive : (update.apply s).status.live = true) : s.status.live = true := by
  obtain ⟨hId, hFilter, -⟩ := SubscriptionFilter.selects_iff.mp hSel
  cases hStatus : update.status with
  | none => simpa only [SubscriptionUpdate.apply, hStatus, Option.getD_none] using hLive
  | some dst =>
    rcases hWrites.status hStatus with ⟨hNone, -⟩ | ⟨src, hSrc, hValid⟩
    · have hFound : c.state.subscription? filter.id = some s := hId ▸ Tables.find?_id hNodup hMem
      simpa only [revivesNone, hWaiting, hNone, hStatus, hFound, Option.isSome_none, Option.isNone_some, Bool.false_or,
        Option.all_some] using hRevives
    · rw [hFilter src hSrc]
      exact isValidSubscriptionTransition_live hValid

theorem NewestLive.ran (h : c.state.NewestLive) (hEach : c.PerformsEach fun t o => ∃ r, requests[t]? = some r ∧ r.Writes o)
    (hRevives : revivesNone c (.run t a) = true) (hLater : createsLater c (.run t a) = true) (hRan : store.Ran c t a o th k c')
    (hPlanned : o.planned K) : c'.state.NewestLive := by
  have hChanges := o.changes a c.state
  rw [← hRan.state] at hChanges
  cases hChanges with
  | same hSubs hNext => exact h.same hSubs hNext
  | held hSubs hNext => exact h.update hSubs hNext (fun s => ⟨rfl, ⟨rfl, rfl⟩, rfl⟩) fun s _ _ hLive => hLive
  | @updated filter update hOp hSubs hNext =>
    subst hOp
    obtain ⟨r, -, hWrites⟩ := (hRan.performs_each hEach).1
    exact h.update hSubs hNext (fun s => ⟨rfl, ⟨rfl, rfl⟩, rfl⟩) fun s hMem hSel hLive =>
      live_of_update h.ids hMem hSel hRan.waiting? hWrites hRevives hLive
  | @created draft hOp hTaken hSubs hNext =>
    subst hOp
    refine h.create hSubs hNext rfl hPlanned.1 hTaken fun s hMem hOwner => ?_
    simp only [createsLater, hRan.waiting?, List.all_eq_true, Bool.or_eq_true, Bool.not_eq_true', decide_eq_false_iff_not,
      decide_eq_true_eq] at hLater
    exact (hLater s hMem).resolve_left (not_not_intro hOwner)

theorem plans_perform (h : ∀ s ∈ w.subscriptions, K s.planId) (hPlanned : o.planned K) :
    ∀ s ∈ (o.perform a w).2.subscriptions, K s.planId := by
  cases o.changes a w with
  | same hSubs _ =>
    rw [hSubs]
    exact h
  | held hSubs _ =>
    rw [hSubs]
    intro s hMem
    obtain ⟨stored, hStored, hEq⟩ := List.mem_map.mp hMem
    split at hEq <;> exact hEq ▸ h stored hStored
  | @updated filter update hOp hSubs _ =>
    subst hOp
    rw [hSubs]
    intro s hMem
    obtain ⟨stored, hStored, hEq⟩ := List.mem_map.mp hMem
    split at hEq
    · subst hEq
      change K (update.planId.getD stored.planId)
      cases hSet : update.planId with
      | none => exact h stored hStored
      | some planId => exact hPlanned planId hSet
    · exact hEq ▸ h stored hStored
  | @created draft hOp _ hSubs _ =>
    subst hOp
    rw [hSubs]
    intro s hMem
    rcases List.mem_append.mp hMem with hOld | hNew
    · exact h s hOld
    · rw [List.mem_singleton.mp hNew]
      exact hPlanned.2

theorem SubscriptionOp.plans_perform (op : SubscriptionOp) (w : World) : (op.perform w).2.plans = w.plans := by
  cases op with
  | findOneAndUpdate filter update =>
    simp only [perform]
    split
    · rfl
    · split <;> rfl
  | create draft =>
    simp only [perform]
    split <;> rfl
  | _ => rfl

theorem Op.plans_perform (o : Op) (a : Answer) (w : World) : (o.perform a w).2.plans = w.plans := by
  have hUnless : ∀ {ρ : Type} {r : Except Err ρ × World}, r.2.plans = w.plans → (unlessFault a w r).2.plans = w.plans := by
    intro ρ r h
    rcases unlessFault_state (a := a) (w := w) (r := r) with hEq | hEq
    · rw [hEq]
    · rw [hEq, h]
  cases o with
  | subscription op => exact hUnless (op.plans_perform w)
  | event op =>
    refine hUnless ?_
    cases op with
    | create provider eventId eventType startedAt =>
      simp only [EventOp.perform]
      split <;> rfl
    | _ => rfl
  | history op =>
    cases op with
    | create row =>
      simp only [perform, HistoryOp.perform]
      split <;> rfl
    | isRecorded subscriptionId noticeKey =>
      simp only [perform, HistoryOp.perform]
      split <;> rfl
  | clock | trialExtensionActive => rfl
  | owner | plan | provider => exact hUnless rfl

theorem hasPlan_of_step {l : Label Answer Event} (hKeeps : keepsPlans c l = true) (hStep : store.step l c = some c') {planId : Id}
    (h : c.state.hasPlan planId) : c'.state.hasPlan planId := by
  cases l with
  | run t a =>
    obtain ⟨o, th, k, hRan⟩ := Store.run_cases hStep
    rw [World.hasPlan, hRan.state, o.plans_perform a c.state]
    exact h
  | stop t =>
    obtain ⟨th, -, rfl⟩ := Store.stop_cases hStep
    exact h
  | event e =>
    cases hStep
    cases e with
    | edit plans =>
      obtain ⟨plan, hMem, rfl⟩ := h
      obtain ⟨kept, hKept, hId⟩ := List.any_eq_true.mp (List.all_eq_true.mp hKeeps plan hMem)
      exact ⟨kept, hKept, of_decide_eq_true hId⟩
    | _ => exact h

theorem reach_backward {ok : State → Label Answer Event → Prop} {P : State → Prop} {c₀ : State} (h : store.Reach ok c₀ c)
    (hBack : ∀ c l c', ok c l → store.step l c = some c' → P c' → P c) (hEnd : P c) : store.Reach (fun c l => ok c l ∧ P c) c₀ c := by
  induction h with
  | start => exact .start
  | step _ hok hStep ih =>
    have hBefore := hBack _ _ _ hok hStep hEnd
    exact (ih hBefore).step ⟨hok, hBefore⟩ hStep

theorem tells_perform (hPlans : ∀ planId, w.hasPlan planId → K planId) : o.tells K (o.perform a w).1 := by
  cases o with
  | plan op =>
    simp only [Op.perform, unlessFault]
    cases a.fault with
    | some text => trivial
    | none =>
      cases hFound : op.perform w with
      | none => trivial
      | some found =>
        refine hPlans _ ⟨found, ?_, rfl⟩
        cases op <;> exact List.mem_of_find?_eq_some hFound
  | _ => trivial

/-- No ended subscription is saved over, no two of an owner are created at one
time, and no plan is deleted. -/
def keepsOrder (c : State) (l : Label Answer Event) : Bool := revivesNone c l && createsLater c l && keepsPlans c l

theorem hasPlan_of_reach {c₀ : State} (h : store.Reach (fun c l => keepsOrder c l) c₀ c) {planId : Id} (hPlan : c₀.state.hasPlan planId) :
    c.state.hasPlan planId := by
  induction h with
  | start => exact hPlan
  | step _ hGuard hStep ih =>
    simp only [keepsOrder, Bool.and_eq_true] at hGuard
    exact hasPlan_of_step hGuard.2 hStep ih

theorem newestLive_within (hStart : w.NewestLive) (hPlans : ∀ s ∈ w.subscriptions, K s.planId)
    (h : store.Reach (fun c l => keepsOrder c l = true ∧ ∀ planId, c.state.hasPlan planId → K planId) (State.start env w requests) c) :
    c.Keeps (Op.tells K) (Op.planned K) ∧ c.state.NewestLive ∧ ∀ s ∈ c.state.subscriptions, K s.planId := by
  induction h with
  | start =>
    refine ⟨fun th hThread => ?_, hStart, hPlans⟩
    simp only [State.start, Config.initial, List.map_map, List.mem_map] at hThread
    obtain ⟨r, -, rfl⟩ := hThread
    exact r.program_planned env
  | @step c c' l hReach hGuard hStep ih =>
    obtain ⟨hKeeps, hNewest, hOfK⟩ := ih
    obtain ⟨hOrder, hWithin⟩ := hGuard
    simp only [keepsOrder, Bool.and_eq_true] at hOrder
    obtain ⟨⟨hRevives, hLater⟩, -⟩ := hOrder
    cases l with
    | run t a =>
      obtain ⟨o, th, k, hRan⟩ := Store.run_cases hStep
      obtain ⟨hPlanned, hKeeps'⟩ := hRan.keeps (tells_perform hWithin) hKeeps
      refine ⟨hKeeps', NewestLive.ran hNewest (hReach.performsEach State.start_writes) hRevives hLater hRan hPlanned, ?_⟩
      rw [hRan.state]
      exact plans_perform hOfK hPlanned
    | stop t =>
      obtain ⟨th, hThread, rfl⟩ := Store.stop_cases hStep
      refine ⟨fun thU hU => ?_, hNewest, hOfK⟩
      rcases List.mem_or_eq_of_mem_set hU with hOld | rfl
      · exact hKeeps thU hOld
      · exact hKeeps th (List.mem_of_getElem? hThread)
    | event e =>
      cases hStep
      have hSubs := e.subscriptions_advance c.state
      have hNext : (e.advance c.state).nextId = c.state.nextId := by cases e <;> rfl
      refine ⟨hKeeps, hNewest.same hSubs hNext, ?_⟩
      rw [hSubs]
      exact hOfK

theorem newestLive_of_reach (hStart : w.NewestLive) (hPlans : ∀ s ∈ w.subscriptions, w.hasPlan s.planId)
    (h : store.Reach (fun c l => keepsOrder c l) (State.start env w requests) c) :
    c.state.NewestLive ∧ ∀ s ∈ c.state.subscriptions, c.state.hasPlan s.planId := by
  have hWithin := reach_backward (P := fun d => ∀ planId, d.state.hasPlan planId → c.state.hasPlan planId) h
    (fun d l d' hGuard hStep hEnd planId hPlan => by
      simp only [keepsOrder, Bool.and_eq_true] at hGuard
      exact hEnd planId (hasPlan_of_step hGuard.2 hStep hPlan)) fun planId hPlan => hPlan
  exact (newestLive_within hStart (fun s hMem => hasPlan_of_reach h (hPlans s hMem)) hWithin).2

end Runs

end RestaurantOs.Billing
