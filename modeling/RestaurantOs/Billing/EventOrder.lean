import RestaurantOs.Billing.Lifecycle

/-!
# The order of provider events

The marker of the newest state a record reflects never goes back, and an event
changes nothing while a newer state is recorded, as long as no plan change
saves its marker over a newer one.
-/

namespace RestaurantOs.Billing

open Async

/-- A marker that is saved without asking for the stored one, which only a plan
change and a completed checkout do, is not older than it. -/
def sparesNewer (c : State) : Label Answer Event → Bool
  | .run t _ =>
    match c.waiting? t with
    | some (.subscription (.findOneAndUpdate filter update)) =>
      filter.appliedBy.isSome || (c.state.subscription? filter.id).all fun stored =>
        update.lastProviderEventAt.isNone || notOlderThanApplied update.lastProviderEventAt stored
    | _ => true
  | _ => true

def NoOlder (stored next : Subscription) : Prop :=
  ∀ m, stored.lastProviderEventAt = some m → ∃ m', next.lastProviderEventAt = some m' ∧ m ≤ m'

theorem NoOlder.refl (s : Subscription) : NoOlder s s := fun m h => ⟨m, h, le_refl m⟩

theorem NoOlder.trans {s₁ s₂ s₃ : Subscription} (h : NoOlder s₁ s₂) (h' : NoOlder s₂ s₃) : NoOlder s₁ s₃ := by
  intro m hm
  obtain ⟨m₂, h₂, hLe₂⟩ := h m hm
  obtain ⟨m₃, h₃, hLe₃⟩ := h' m₂ h₂
  exact ⟨m₃, h₃, hLe₂.trans hLe₃⟩

/-- What an event may not touch while a newer state is recorded. -/
structure SameDetails (stored next : Subscription) : Prop where
  status : next.status = stored.status
  currentPeriodStart : next.currentPeriodStart = stored.currentPeriodStart
  currentPeriodEnd : next.currentPeriodEnd = stored.currentPeriodEnd
  cancelAt : next.cancelAt = stored.cancelAt
  planId : next.planId = stored.planId
  billingInterval : next.billingInterval = stored.billingInterval

theorem SameDetails.refl (s : Subscription) : SameDetails s s := ⟨rfl, rfl, rfl, rfl, rfl, rfl⟩

theorem notOlderThanApplied_some {time : Time} {s : Subscription} :
    notOlderThanApplied (some time) s = true ↔ ∀ m, s.lastProviderEventAt = some m → m ≤ time := by
  simp [notOlderThanApplied, Option.all_eq_true]

section Steps

variable {c c' : State} {requests : List Request} {t : Nat} {a : Answer} {o : Op} {th : Thread Op Op.Resp Err World Unit}
  {k : Except Err o.Resp → Promise Unit} {id : Id} {stored : Subscription}

theorem NoOlder.update {update : SubscriptionUpdate}
    (h : update.lastProviderEventAt.isNone = true ∨ notOlderThanApplied update.lastProviderEventAt stored = true) :
    NoOlder stored (update.apply stored) := by
  intro m hm
  simp only [SubscriptionUpdate.apply]
  split
  · rename_i time _
    refine ⟨max m time, ?_, le_max_left m time⟩
    simp only [maxTime, hm, Option.elim_some]
  · cases hSet : update.lastProviderEventAt with
    | none => exact ⟨m, by rw [Option.none_or, hm], le_refl m⟩
    | some time =>
      rw [hSet] at h
      rcases h with hNone | hNewer
      · cases hNone
      · exact ⟨time, rfl, (notOlderThanApplied_some).mp hNewer m hm⟩

theorem Request.Writes.applied {r : Request} {filter : SubscriptionFilter} {update : SubscriptionUpdate}
    (h : r.Writes (writes filter update)) (hFilter : filter.appliedBy.isSome = true) :
    update.lastProviderEventAt.isNone = true ∨ update.lastProviderEventAt = filter.appliedBy := by
  cases h with
  | plain hPlain => cases hPlain
  | claimsOrder id hTime => exact .inr rfl
  | details id planChange => exact .inl rfl
  | moves current targetStatus now hValid => exact .inl rfl
  | _ => cases hFilter

theorem Request.Writes.appliedBy {providerName : SubscriptionProvider} {event : ProviderBillingWebhookEvent}
    {filter : SubscriptionFilter} {update : SubscriptionUpdate}
    (h : (Request.billingEvent providerName event).Writes (writes filter update)) (hOrdinary : event.checkoutMetadata = none) :
    filter.appliedBy = event.occurredAt := by
  cases h with
  | plain hPlain => cases hPlain
  | claimsOrder id hTime => exact hTime.symm
  | details id planChange => rfl
  | moves current targetStatus now hValid => rfl
  | converts trial plan status snapshot hCheckout hStatus =>
    rw [hOrdinary] at hCheckout
    cases hCheckout

theorem noOlder_of_ran (hEach : c.PerformsEach fun t o => ∃ r, requests[t]? = some r ∧ r.Writes o)
    (hSpares : sparesNewer c (.run t a) = true) (hRan : store.Ran c t a o th k c')
    (hFound : c.state.subscription? id = some stored) :
    ∃ next, c'.state.subscription? id = some next ∧ NoOlder stored next ∧ o.Turns stored next := by
  obtain ⟨next, hNext, hTurns⟩ := o.turns a hFound
  rw [hRan.state]
  refine ⟨next, hNext, ?_, hTurns⟩
  cases hTurns with
  | same | held => exact .refl stored
  | @updated filter update hOp hSelects =>
    subst hOp
    obtain ⟨r, -, hWrites⟩ := (hRan.performs_each hEach).1
    obtain ⟨hId, -, hApplied, -⟩ := SubscriptionFilter.selects_iff.mp hSelects
    apply NoOlder.update
    cases hFilter : filter.appliedBy.isSome with
    | true =>
      rcases hWrites.applied hFilter with hNone | hSame
      · exact .inl hNone
      · exact .inr (hSame ▸ hApplied)
    | false =>
      have hSame : c.state.subscription? filter.id = some stored := by
        rw [← hId, World.id_of_subscription hFound]
        exact hFound
      simpa only [sparesNewer, hRan.waiting?, hFilter, hSame, Bool.false_or, Option.all_some, Bool.or_eq_true] using hSpares

theorem noOlder_of_step {l : Label Answer Event} (hEach : c.PerformsEach fun t o => ∃ r, requests[t]? = some r ∧ r.Writes o)
    (hSpares : sparesNewer c l = true) (hStep : store.step l c = some c') (hFound : c.state.subscription? id = some stored) :
    ∃ next, c'.state.subscription? id = some next ∧ NoOlder stored next := by
  cases l with
  | run t a =>
    obtain ⟨o, th, k, hRan⟩ := Store.run_cases hStep
    obtain ⟨next, hNext, hNoOlder, -⟩ := noOlder_of_ran hEach hSpares hRan hFound
    exact ⟨next, hNext, hNoOlder⟩
  | stop t =>
    obtain ⟨th, hThread, rfl⟩ := Store.stop_cases hStep
    exact ⟨stored, hFound, .refl stored⟩
  | event e =>
    cases hStep
    exact ⟨stored, by rw [World.subscription?, e.subscriptions_advance]; exact hFound, .refl stored⟩

theorem noOlder_of_reach {c₁ c₂ : State} (hEach : c₁.PerformsEach fun t o => ∃ r, requests[t]? = some r ∧ r.Writes o)
    (hFound : c₁.state.subscription? id = some stored) (hReach : store.Reach (fun c l => sparesNewer c l) c₁ c₂) :
    ∃ next, c₂.state.subscription? id = some next ∧ NoOlder stored next := by
  induction hReach with
  | start => exact ⟨stored, hFound, .refl stored⟩
  | step hReach hSpares hStep ih =>
    obtain ⟨middle, hMiddle, hOld⟩ := ih
    obtain ⟨next, hNext, hNew⟩ := noOlder_of_step (hReach.performsEach hEach) hSpares hStep hMiddle
    exact ⟨next, hNext, hOld.trans hNew⟩

theorem sameDetails_of_step {providerName : SubscriptionProvider} {event : ProviderBillingWebhookEvent} {occurredAt m : Time}
    (hEach : c.PerformsEach fun t o => ∃ r, requests[t]? = some r ∧ r.Writes o) (hStep : store.step (.run t a) c = some c')
    (hFound : c.state.subscription? id = some stored) (hRequest : requests[t]? = some (.billingEvent providerName event))
    (hOrdinary : event.checkoutMetadata = none) (hTime : event.occurredAt = some occurredAt)
    (hMarker : stored.lastProviderEventAt = some m) (hNewer : occurredAt < m) :
    ∃ next, c'.state.subscription? id = some next ∧ SameDetails stored next := by
  obtain ⟨o, th, k, hRan⟩ := Store.run_cases hStep
  obtain ⟨next, hNext, hTurns⟩ := o.turns a hFound
  rw [hRan.state]
  refine ⟨next, hNext, ?_⟩
  obtain ⟨r, hr, hWrites⟩ := (hRan.performs_each hEach).1
  rw [hRequest] at hr
  cases hr
  cases hTurns with
  | same => exact .refl stored
  | held => exact ⟨rfl, rfl, rfl, rfl, rfl, rfl⟩
  | @updated filter update hOp hSelects =>
    subst hOp
    obtain ⟨-, -, hApplied, -⟩ := SubscriptionFilter.selects_iff.mp hSelects
    rw [hWrites.appliedBy hOrdinary, hTime] at hApplied
    exact absurd ((notOlderThanApplied_some).mp hApplied m hMarker) (Nat.not_le.mpr hNewer)

end Steps

/-- From one reachable state to a later one the marker of a subscription never
goes back, and a step of an event changes neither its status nor its details
while the marker is later than the event. -/
theorem newer_state_stays {env : Env} {w : World} {requests : List Request} {c₁ c₂ : State} {id : Id} {stored : Subscription}
    (h₁ : store.Reach (fun c l => sparesNewer c l) (State.start env w requests) c₁)
    (hFound : c₁.state.subscription? id = some stored) (h₂ : store.Reach (fun c l => sparesNewer c l) c₁ c₂) :
    ∃ later, c₂.state.subscription? id = some later ∧ NoOlder stored later ∧
      ∀ (t : Nat) (a : Answer) (c₃ : State) (providerName : SubscriptionProvider) (event : ProviderBillingWebhookEvent)
        (occurredAt m : Time), store.step (.run t a) c₂ = some c₃ → requests[t]? = some (.billingEvent providerName event) →
        event.checkoutMetadata = none → event.occurredAt = some occurredAt → later.lastProviderEventAt = some m →
        occurredAt < m → ∃ next, c₃.state.subscription? id = some next ∧ SameDetails later next := by
  have hEach := h₁.performsEach (@State.start_writes env w requests)
  obtain ⟨later, hLater, hNoOlder⟩ := noOlder_of_reach hEach hFound h₂
  refine ⟨later, hLater, hNoOlder, ?_⟩
  intro t a c₃ providerName event occurredAt m hStep hRequest hOrdinary hTime hMarker hNewer
  exact sameDetails_of_step (h₂.performsEach hEach) hStep hLater hRequest hOrdinary hTime hMarker hNewer

def scalePlan : Plan where
  id := 2
  code := "scale"
  name := "Scale"
  pricing := [{ interval := .monthly, providerPriceId := some "pri_scale" }]

def paidSubscription : Subscription where
  id := 0
  ownerType := .business
  ownerId := 7
  planId := 1
  status := .active
  billingInterval := .monthly
  currentPeriodStart := 0
  currentPeriodEnd := 100
  provider := .paddle
  providerCustomerId := some "ctm_1"
  providerSubscriptionId := some "sub_1"
  lastProviderEventAt := some 1
  createdAt := 0

def paidWorld : World := { now := 5, nextId := 1, plans := [growthPlan, scalePlan], subscriptions := [paidSubscription] }

def renewed (eventId : String) (occurredAt : Time) : ProviderBillingWebhookEvent where
  eventId := eventId
  eventType := "subscription.updated"
  providerSubscriptionId := "sub_1"
  status := some .active
  occurredAt := some occurredAt
  currentPeriod := some ⟨100, 200⟩

theorem newer_state_stays_delivered : ∃ (c₂ c₃ : State) (later : Subscription), c₂.state.subscription? 0 = some later ∧
    later.lastProviderEventAt = some 10 ∧ store.step (.run 1 {}) c₂ = some c₃ ∧
    ∃ next, c₃.state.subscription? 0 = some next ∧ SameDetails later next := by
  obtain ⟨c₂, hReach, hEnd⟩ := store.exists_of_exec sparesNewer
    (State.start {} paidWorld [.billingEvent .paddle (renewed "evt_2" 10), .billingEvent .paddle (renewed "evt_3" 7)])
    (List.flatten [List.replicate 7 (.run 0 {}), List.replicate 3 (.run 1 {})])
    (fun c => (c.state.subscription? 0).all (·.lastProviderEventAt = some 10) && (store.step (.run 1 {}) c).isSome)
    (by decide +kernel)
  rw [Bool.and_eq_true] at hEnd
  obtain ⟨c₃, hStep⟩ := Option.isSome_iff_exists.mp hEnd.2
  have hFound : paidWorld.subscription? 0 = some paidSubscription := by decide +kernel
  obtain ⟨later, hLater, -, hKeeps⟩ := newer_state_stays .start hFound hReach
  rw [hLater, Option.all_some, decide_eq_true_eq] at hEnd
  exact ⟨c₂, c₃, later, hLater, hEnd.1, hStep, hKeeps 1 {} c₃ .paddle _ 7 10 hStep rfl rfl rfl hEnd.1 (by decide)⟩

/-- The owner changes the plan and a renewal arrives before the change is
saved: the save puts the marker back from 10 to 5. -/
theorem newer_state_overwritten : ¬ ∀ (env : Env) (w : World) (requests : List Request) (c₁ c₂ : State) (id : Id)
    (stored : Subscription), store.Reach (fun _ _ => True) (State.start env w requests) c₁ →
    c₁.state.subscription? id = some stored → stored.backed = true → store.Reach (fun _ _ => True) c₁ c₂ →
    ∃ later, c₂.state.subscription? id = some later ∧ NoOlder stored later := by
  intro hClaim
  obtain ⟨c₁, hReach, hEnd⟩ := store.exists_of_exec (fun _ _ => true)
    (State.start {} paidWorld [.changeSubscriptionPlan .business 7 "scale", .billingEvent .paddle (renewed "evt_2" 10)])
    (List.flatten [List.replicate 4 (.run 0 {}), [.event (.tick 10)], List.replicate 7 (.run 1 {})])
    (fun c => c.state.subscription? 0 = some { paidSubscription with
        currentPeriodStart := 100, currentPeriodEnd := 200, lastProviderEventAt := some 10 } &&
      (store.exec (fun _ _ => true) [.run 0 {}] c).any fun c => (c.state.subscription? 0).all (·.lastProviderEventAt = some 5))
    (by decide +kernel)
  rw [Bool.and_eq_true, decide_eq_true_eq] at hEnd
  obtain ⟨c₂, hExec, hMarker⟩ := (Option.any_eq_true _ _).mp hEnd.2
  obtain ⟨later, hLater, hNoOlder⟩ := hClaim {} _ _ c₁ c₂ 0 _ (hReach.mono fun _ _ _ => trivial) hEnd.1 (by decide +kernel)
    ((Store.Reach.of_exec _ hExec).mono fun _ _ _ => trivial)
  rw [hLater, Option.all_some, decide_eq_true_eq] at hMarker
  obtain ⟨m, hM, hLe⟩ := hNoOlder 10 rfl
  rw [hMarker] at hM
  cases hM
  exact absurd hLe (by decide)

end RestaurantOs.Billing
