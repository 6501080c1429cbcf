import RestaurantOs.Billing.NewestLive
import RestaurantOs.Entitlements.Resolution

/-!
# The subscription that is live

Only the newest subscription of an owner is examined. That is the live one, if
there is one, as long as nothing older is made live again.
-/

namespace RestaurantOs.Entitlements

open Async

open Billing (OwnerType Subscription isSubscriptionLive keepsOrder keepsPlans)

def World.own (w : World) (ownerType : OwnerType) (ownerId : Id) : List Subscription :=
  w.billing.subscriptions.filter (isOwn ownerType ownerId)

/-- Live at `now`, and the owner's. -/
def World.OwnLive (w : World) (ownerType : OwnerType) (ownerId : Id) (now : Time) (sub : Subscription) : Prop :=
  sub ∈ w.own ownerType ownerId ∧ isSubscriptionLive w.billing.trialExtensionActive sub now = true

section Resolved

variable {w : World} {ownerType : OwnerType} {ownerId : Id} {now : Time} {sub : Subscription}

theorem newest?_eq_none : w.newest? ownerType ownerId = none ↔ w.own ownerType ownerId = [] := by
  rw [World.newest?, World.own]
  cases w.billing.subscriptions.filter (isOwn ownerType ownerId) with
  | nil => exact ⟨fun _ => rfl, fun _ => rfl⟩
  | cons d l =>
    refine ⟨fun hNone => ?_, fun hNil => by cases hNil⟩
    unfold Tables.newest at hNone
    split at hNone
    · cases hNone
    · split at hNone <;> cases hNone

theorem live_of_isSubscriptionLive {extensionActive : Bool} (h : isSubscriptionLive extensionActive sub now = true) :
    sub.status.live = true := by
  unfold isSubscriptionLive at h
  split at h
  · cases h
  · rename_i hLive
    simpa using hLive

theorem newest?_of_live (hNewest : w.billing.NewestLive) (hMem : sub ∈ w.own ownerType ownerId) (hLive : sub.status.live = true) :
    w.newest? ownerType ownerId = some sub := by
  cases hFound : w.newest? ownerType ownerId with
  | none =>
    rw [(newest?_eq_none).mp hFound] at hMem
    cases hMem
  | some newest =>
    obtain ⟨hStored, hOwn⟩ := List.mem_filter.mp hMem
    obtain ⟨hNewestStored, hNewestOwn⟩ := List.mem_filter.mp (Tables.mem_of_newest hFound)
    simp only [isOwn, Bool.and_eq_true, decide_eq_true_eq] at hOwn hNewestOwn
    have hOwner : newest.SameOwner sub :=
      ⟨hNewestOwn.1.1.trans hOwn.1.1.symm, hNewestOwn.1.2.trans hOwn.1.2.symm⟩
    by_cases hId : newest.id = sub.id
    · exact congrArg some (Tables.eq_of_id hNewest.ids hNewestStored hStored hId)
    · have hLt := hNewest.newest sub hStored hLive newest hNewestStored hOwner hId
      exact absurd (Tables.newest_le hFound sub hMem) (Nat.not_le_of_lt hLt)

theorem plan?_of_hasPlan {planId : Id} (h : w.billing.hasPlan planId) : ∃ plan, w.plan? planId = some plan := by
  obtain ⟨plan, hMem, hId⟩ := h
  have hFound : (w.billing.plans.find? (·.id = planId)).isSome :=
    List.find?_isSome.mpr ⟨plan, hMem, decide_eq_true hId⟩
  obtain ⟨found, hFound⟩ := Option.isSome_iff_exists.mp hFound
  exact ⟨_, by rw [World.plan?, hFound, Option.map_some]⟩

variable (hNewest : w.billing.NewestLive) (hPlans : ∀ s ∈ w.billing.subscriptions, w.billing.hasPlan s.planId)

include hNewest hPlans in
theorem subscriptionState_live : (∃ plan, w.subscriptionState ownerType ownerId now = .live plan sub) ↔ w.OwnLive ownerType ownerId now sub := by
  constructor
  · rintro ⟨plan, hState⟩
    unfold World.subscriptionState at hState
    split at hState
    · cases hState
    · rename_i newest hFound
      split at hState
      · rename_i hLive
        split at hState
        · cases hState
        · cases hState
          exact ⟨Tables.mem_of_newest hFound, hLive⟩
      · cases hState
  · rintro ⟨hMem, hLive⟩
    obtain ⟨plan, hPlan⟩ := plan?_of_hasPlan (hPlans sub (List.mem_of_mem_filter hMem))
    refine ⟨plan, ?_⟩
    simp only [World.subscriptionState, newest?_of_live hNewest hMem (live_of_isSubscriptionLive hLive), hLive, if_true, hPlan]

include hPlans in
theorem subscriptionState_never : w.subscriptionState ownerType ownerId now = .never ↔ w.own ownerType ownerId = [] := by
  rw [← newest?_eq_none]
  unfold World.subscriptionState
  cases hFound : w.newest? ownerType ownerId with
  | none => exact ⟨fun _ => rfl, fun _ => rfl⟩
  | some newest =>
    refine ⟨fun hState => ?_, fun hNone => by cases hNone⟩
    obtain ⟨plan, hPlan⟩ := plan?_of_hasPlan (hPlans newest (List.mem_of_mem_filter (Tables.mem_of_newest hFound)))
    simp only [hPlan] at hState
    split at hState <;> cases hState

include hNewest hPlans in
theorem subscriptionState_lapsed : w.subscriptionState ownerType ownerId now = .lapsed ↔
    w.own ownerType ownerId ≠ [] ∧ ∀ sub, ¬ w.OwnLive ownerType ownerId now sub := by
  constructor
  · intro hState
    refine ⟨fun hNil => ?_, fun sub hOwnLive => ?_⟩
    · rw [(subscriptionState_never hPlans).mpr hNil] at hState
      cases hState
    · obtain ⟨plan, hLive⟩ := (subscriptionState_live hNewest hPlans).mpr hOwnLive
      rw [hState] at hLive
      cases hLive
  · rintro ⟨hSome, hNone⟩
    cases hState : w.subscriptionState ownerType ownerId now with
    | live plan sub => exact absurd ((subscriptionState_live hNewest hPlans).mp ⟨plan, hState⟩) (hNone sub)
    | lapsed => rfl
    | never => exact absurd ((subscriptionState_never hPlans).mp hState) hSome

end Resolved

/-! ## What a business is granted -/

def World.OwnPlan (w : World) (businessId : Id) (plan : PlanDoc) : Prop :=
  ∃ sub, w.OwnLive .business businessId w.billing.now sub ∧ w.plan? sub.planId = some plan

section Granted

variable {w : World} {businessId : Id} (hPlans : ∀ s ∈ w.billing.subscriptions, w.billing.hasPlan s.planId)
  (hOwn : w.own .business businessId ≠ [])

include hPlans hOwn in
theorem businessPlan_own :
    w.businessPlan businessId = .lapsed ∨ ∃ plan, w.businessPlan businessId = .plan plan .business ∧ w.OwnPlan businessId plan := by
  cases hState : w.subscriptionState .business businessId w.billing.now with
  | never => exact absurd ((subscriptionState_never hPlans).mp hState) hOwn
  | lapsed => exact .inl (by rw [World.businessPlan, hState])
  | live plan sub =>
    refine .inr ⟨plan, by rw [World.businessPlan, hState], sub, ?_⟩
    unfold World.subscriptionState at hState
    split at hState
    · cases hState
    · rename_i newest hFound
      split at hState
      · rename_i hLive
        split at hState
        · cases hState
        · rename_i hPlan
          cases hState
          exact ⟨⟨Tables.mem_of_newest hFound, hLive⟩, hPlan⟩
      · cases hState

include hPlans hOwn in
theorem hasFeature_own {key : String} (h : w.hasFeature businessId key = true) :
    ∃ plan, w.OwnPlan businessId plan ∧ hasEntitlement plan key = true := by
  unfold World.hasFeature at h
  rcases businessPlan_own hPlans hOwn with hLapsed | ⟨plan, hPlan, hOwnPlan⟩
  · rw [hLapsed] at h
    cases h
  · rw [hPlan] at h
    exact ⟨plan, hOwnPlan, h⟩

include hPlans hOwn in
theorem maxLocations_own : w.maxLocations businessId = (w.business? businessId).elim 0 (·.locationCount) ∨
    ∃ plan, w.OwnPlan businessId plan ∧ w.maxLocations businessId = planMaxLocations plan .business := by
  unfold World.maxLocations
  rcases businessPlan_own hPlans hOwn with hLapsed | ⟨plan, hPlan, hOwnPlan⟩
  · exact .inl (by rw [hLapsed])
  · exact .inr ⟨plan, hOwnPlan, by rw [hPlan]⟩

end Granted

/-- The state of every owner is that of its live subscription, and a business
with a history of its own has only what its own plan or its own count gives. -/
structure World.FollowsLive (w : World) : Prop where
  live : ∀ ownerType ownerId now sub, (∃ plan, (resolveSubscriptionState ownerType ownerId now).at w = .ok (.live plan sub)) ↔
    w.OwnLive ownerType ownerId now sub
  lapsed : ∀ ownerType ownerId now, (resolveSubscriptionState ownerType ownerId now).at w = .ok .lapsed ↔
    w.own ownerType ownerId ≠ [] ∧ ∀ sub, ¬ w.OwnLive ownerType ownerId now sub
  never : ∀ ownerType ownerId now, (resolveSubscriptionState ownerType ownerId now).at w = .ok .never ↔ w.own ownerType ownerId = []
  feature : ∀ businessId key, w.own .business businessId ≠ [] → (hasFeatureEntitlement .business businessId key).at w = .ok true →
    ∃ plan, w.OwnPlan businessId plan ∧ hasEntitlement plan key = true
  limit : ∀ businessId maxLocations, w.own .business businessId ≠ [] → (getMaxLocations businessId).at w = .ok maxLocations →
    maxLocations = (w.business? businessId).elim 0 (·.locationCount) ∨
      ∃ plan, w.OwnPlan businessId plan ∧ maxLocations = planMaxLocations plan .business

/-- Whatever happens to the subscriptions, their owners are resolved by the one
that is live, as long as no ended one is saved over, no two of an owner are
created at one time, and no plan is deleted. -/
theorem entitlements_follow_live {env : Billing.Env} {w₀ : Billing.World} {requests : List Billing.Request} {c : Billing.State}
    (hStart : w₀.NewestLive) (hPlans : ∀ s ∈ w₀.subscriptions, w₀.hasPlan s.planId)
    (h : Billing.store.Reach (fun c l => keepsOrder c l) (Billing.State.start env w₀ requests) c) {w : World}
    (hBilling : w.billing = c.state) : w.FollowsLive := by
  obtain ⟨hNewest, hKnown⟩ := Billing.newestLive_of_reach hStart hPlans h
  rw [← hBilling] at hNewest hKnown
  constructor
  · intro ownerType ownerId now sub
    rw [← subscriptionState_live hNewest hKnown]
    simp only [resolveSubscriptionState_at, Except.ok.injEq]
  · intro ownerType ownerId now
    rw [← subscriptionState_lapsed hNewest hKnown, resolveSubscriptionState_at, Except.ok.injEq]
  · intro ownerType ownerId now
    rw [← subscriptionState_never hKnown, resolveSubscriptionState_at, Except.ok.injEq]
  · intro businessId key hOwn hGranted
    rw [hasFeatureEntitlement_at] at hGranted
    exact hasFeature_own hKnown hOwn (Except.ok.inj hGranted)
  · intro businessId maxLocations hOwn hLimit
    rw [getMaxLocations_at] at hLimit
    cases Except.ok.inj hLimit
    exact maxLocations_own hKnown hOwn

def trialOwner : Billing.World := { Billing.trialWorld with owners := [(.business, 7)] }

theorem trialOwner_newestLive : trialOwner.NewestLive where
  ids := by decide
  fresh := by decide
  newest := by decide

theorem trialOwner_hasPlan : ∀ s ∈ trialOwner.subscriptions, trialOwner.hasPlan s.planId := by
  intro s hMem
  rw [List.mem_singleton.mp hMem]
  exact ⟨Billing.growthPlan, by decide, rfl⟩

def subscribesAgain : List Billing.Request :=
  [.cancelSubscription .business 7 true, .createSubscription .business 7 "growth" .monthly false,
    .billingEvent .paddle Billing.checkoutCompleted, .cancelSubscription .business 7 true]

theorem entitlements_follow_live_again : ∃ c : Billing.State, c.state.subscriptions.map (·.status) = [.cancelled, .trialing] ∧
    ({ billing := c.state } : World).FollowsLive := by
  obtain ⟨c, hReach, hEnd⟩ := Billing.store.exists_of_exec keepsOrder (Billing.State.start {} trialOwner subscribesAgain)
    (List.flatten [List.replicate 4 (.run 0 {}), [.event (.tick 10)], List.replicate 6 (.run 1 {})])
    (fun c : Billing.State => c.state.subscriptions.map (·.status) = [.cancelled, .trialing]) (by decide +kernel)
  exact ⟨c, of_decide_eq_true hEnd, entitlements_follow_live trialOwner_newestLive trialOwner_hasPlan hReach rfl⟩

/-- The owner cancels the trial and a second one while the checkout completed for
the first is being recorded: the save makes the first live, and the owner is
resolved as lapsed by the second. -/
theorem live_subscription_overlooked : ¬ ∀ (env : Billing.Env) (w₀ : Billing.World) (requests : List Billing.Request)
    (c : Billing.State) (w : World), w₀.NewestLive → (∀ s ∈ w₀.subscriptions, w₀.hasPlan s.planId) →
    Billing.store.Reach (fun c l => keepsPlans c l) (Billing.State.start env w₀ requests) c → w.billing = c.state → w.FollowsLive := by
  intro hClaim
  obtain ⟨c, hReach, hEnd⟩ := Billing.store.exists_of_exec keepsPlans (Billing.State.start {} trialOwner subscribesAgain)
    (List.flatten [List.replicate 5 (.run 2 {}), List.replicate 4 (.run 0 {}), [.event (.tick 10)], List.replicate 6 (.run 1 {}),
      List.replicate 4 (.run 3 {}), [.run 2 {}]])
    (fun c : Billing.State => ({ billing := c.state } : World).subscriptionState .business 7 10 = .lapsed &&
      (({ billing := c.state } : World).own .business 7).any fun sub => isSubscriptionLive c.state.trialExtensionActive sub 10)
    (by decide +kernel)
  rw [Bool.and_eq_true, decide_eq_true_eq] at hEnd
  obtain ⟨hLapsed, hAny⟩ := hEnd
  obtain ⟨sub, hMem, hLive⟩ := List.any_eq_true.mp hAny
  have hFollows := hClaim {} _ _ c { billing := c.state } trialOwner_newestLive trialOwner_hasPlan hReach rfl
  refine ((hFollows.lapsed .business 7 10).mp ?_).2 sub ⟨hMem, hLive⟩
  rw [resolveSubscriptionState_at, hLapsed]

end RestaurantOs.Entitlements
