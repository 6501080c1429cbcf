import RestaurantOs.Billing.Records

/-!
# Ended subscriptions

Every change of a stored status is a transition of the state machine, and so a
cancelled or expired subscription stays so, as long as no completed checkout
saves its copy over a record that has ended.
-/

namespace RestaurantOs.Billing

open Async

/-- A save of a status, which only a completed checkout makes, lands on a record
that is live, and one of `trialing` on a trial. -/
def sparesEnded (c : State) : Label Answer Event → Bool
  | .run t _ =>
    match c.waiting? t with
    | some (.subscription (.findOneAndUpdate filter update)) =>
      filter.status.isSome || update.status.all fun status =>
        (c.state.subscription? filter.id).all fun stored =>
          stored.status.live && (status = .active || stored.status = .trialing)
    | _ => true
  | _ => true

def Follows (src dst : SubscriptionStatus) : Prop := dst = src ∨ isValidSubscriptionTransition src dst = true

theorem Follows.ended {src dst : SubscriptionStatus} (h : Follows src dst) (hEnded : src.live = false) : dst = src := by
  rcases h with rfl | hValid
  · rfl
  · rw [isValidSubscriptionTransition_live hValid] at hEnded
    cases hEnded

theorem Follows.of_live {src dst : SubscriptionStatus} (hLive : src.live = true) (h : dst = .active ∨ dst = .trialing ∧ src = .trialing) :
    Follows src dst := by
  rcases h with rfl | ⟨rfl, rfl⟩
  · cases src <;> first | exact .inr rfl | exact .inl rfl | cases hLive
  · exact .inl rfl

theorem Request.Writes.status {r : Request} {filter : SubscriptionFilter} {update : SubscriptionUpdate} {dst : SubscriptionStatus}
    (h : r.Writes (writes filter update)) (hStatus : update.status = some dst) :
    (filter.status = none ∧ (dst = .active ∨ dst = .trialing)) ∨
      ∃ src, filter.status = some src ∧ isValidSubscriptionTransition src dst = true := by
  cases h with
  | plain hPlain => cases hPlain
  | cancels copy actedAt now hValid => cases hStatus; exact .inr ⟨_, rfl, hValid⟩
  | reactivates copy actedAt hValid => cases hStatus; exact .inr ⟨_, rfl, hValid⟩
  | moves current targetStatus now hValid => cases hStatus; exact .inr ⟨_, rfl, hValid⟩
  | expires id => cases hStatus; exact .inr ⟨_, rfl, rfl⟩
  | converts trial plan status snapshot hCheckout hSaved =>
    simp only [checkoutUpdate, changed] at hStatus
    split at hStatus
    · cases hStatus
    · cases hStatus
      exact .inl ⟨rfl, hSaved⟩
  | _ => cases hStatus

section Steps

variable {c c' : State} {requests : List Request} {t : Nat} {a : Answer} {o : Op} {th : Thread Op Op.Resp Err World Unit}
  {k : Except Err o.Resp → Promise Unit} {id : Id} {stored : Subscription}

theorem status_of_ran (hEach : c.PerformsEach fun t o => ∃ r, requests[t]? = some r ∧ r.Writes o)
    (hSpares : sparesEnded c (.run t a) = true) (hRan : store.Ran c t a o th k c')
    (hFound : c.state.subscription? id = some stored) :
    ∃ next, c'.state.subscription? id = some next ∧ Follows stored.status next.status := by
  obtain ⟨next, hNext, hTurns⟩ := o.turns a hFound
  rw [hRan.state]
  refine ⟨next, hNext, ?_⟩
  cases hTurns with
  | same | held => exact .inl rfl
  | @updated filter update hOp hSelects =>
    subst hOp
    obtain ⟨r, -, hWrites⟩ := (hRan.performs_each hEach).1
    obtain ⟨hId, hFilter, -⟩ := SubscriptionFilter.selects_iff.mp hSelects
    cases hStatus : update.status with
    | none => exact .inl (by simp only [SubscriptionUpdate.apply, hStatus, Option.getD_none])
    | some dst =>
      have hSet : (update.apply stored).status = dst := by simp only [SubscriptionUpdate.apply, hStatus, Option.getD_some]
      rw [hSet]
      rcases hWrites.status hStatus with ⟨hNone, hDst⟩ | ⟨src, hSrc, hValid⟩
      · have hSame : c.state.subscription? filter.id = some stored := by
          rw [← hId, World.id_of_subscription hFound]
          exact hFound
        simp only [sparesEnded, hRan.waiting?, hNone, hStatus, hSame, Option.isSome_none, Bool.false_or, Option.all_some,
          Bool.and_eq_true, Bool.or_eq_true, decide_eq_true_eq] at hSpares
        obtain ⟨hLive, hCase⟩ := hSpares
        rcases hDst with rfl | rfl
        · exact .of_live hLive (.inl rfl)
        · rcases hCase with hActive | hTrialing
          · cases hActive
          · exact .of_live hLive (.inr ⟨rfl, hTrialing⟩)
      · rw [hFilter src hSrc]
        exact .inr hValid

theorem status_of_step {l : Label Answer Event} (hEach : c.PerformsEach fun t o => ∃ r, requests[t]? = some r ∧ r.Writes o)
    (hSpares : sparesEnded c l = true) (hStep : store.step l c = some c') (hFound : c.state.subscription? id = some stored) :
    ∃ next, c'.state.subscription? id = some next ∧ Follows stored.status next.status := by
  cases l with
  | run t a =>
    obtain ⟨o, th, k, hRan⟩ := Store.run_cases hStep
    exact status_of_ran hEach hSpares hRan hFound
  | stop t =>
    obtain ⟨th, hThread, rfl⟩ := Store.stop_cases hStep
    exact ⟨stored, hFound, .inl rfl⟩
  | event e =>
    cases hStep
    exact ⟨stored, by rw [World.subscription?, e.subscriptions_advance]; exact hFound, .inl rfl⟩

theorem ended_of_reach {c₁ c₂ : State} (hEach : c₁.PerformsEach fun t o => ∃ r, requests[t]? = some r ∧ r.Writes o)
    (hFound : c₁.state.subscription? id = some stored)
    (hReach : store.Reach (fun c l => sparesEnded c l) c₁ c₂) :
    ∃ next, c₂.state.subscription? id = some next ∧ (stored.status.live = false → next.status = stored.status) := by
  induction hReach with
  | start => exact ⟨stored, hFound, fun _ => rfl⟩
  | step hReach hSpares hStep ih =>
    obtain ⟨middle, hMiddle, hKept⟩ := ih
    obtain ⟨next, hNext, hFollows⟩ := status_of_step (hReach.performsEach hEach) hSpares hStep hMiddle
    refine ⟨next, hNext, fun hEnded => ?_⟩
    have hSame := hKept hEnded
    rw [← hSame] at hEnded ⊢
    exact hFollows.ended hEnded

end Steps

/-- A subscription that has ended in a reachable state is found ended the same
way in every later one, and each step changes a stored status only by a
transition of the state machine. -/
theorem ended_subscription_stays {env : Env} {w : World} {requests : List Request} {c₁ c₂ : State} {id : Id} {stored : Subscription}
    (h₁ : store.Reach (fun c l => sparesEnded c l) (State.start env w requests) c₁)
    (hFound : c₁.state.subscription? id = some stored) (h₂ : store.Reach (fun c l => sparesEnded c l) c₁ c₂) :
    ∃ later, c₂.state.subscription? id = some later ∧ (stored.status.live = false → later.status = stored.status) ∧
      ∀ l c₃, sparesEnded c₂ l = true → store.step l c₂ = some c₃ →
        ∃ next, c₃.state.subscription? id = some next ∧
          (next.status = later.status ∨ isValidSubscriptionTransition later.status next.status = true) := by
  have hEach := h₁.performsEach (@State.start_writes env w requests)
  obtain ⟨later, hLater, hKept⟩ := ended_of_reach hEach hFound h₂
  refine ⟨later, hLater, hKept, fun l c₃ hSpares hStep => ?_⟩
  exact status_of_step (h₂.performsEach hEach) hSpares hStep hLater

def growthPlan : Plan where
  id := 1
  code := "growth"
  name := "Growth"
  pricing := [{ interval := .monthly, amountCents := some 4900, currency := some "usd", providerPriceId := some "pri_growth" }]

def localTrial : Subscription where
  id := 0
  ownerType := .business
  ownerId := 7
  planId := 1
  billingInterval := .monthly
  currentPeriodStart := 0
  currentPeriodEnd := 100
  trialStart := some 0
  trialEnd := some 100
  provider := .paddle
  createdAt := 0

def checkoutCompleted : ProviderBillingWebhookEvent where
  eventId := "evt_1"
  eventType := "subscription.created"
  providerSubscriptionId := "sub_1"
  status := some .active
  occurredAt := some 40
  checkoutMetadata := some ⟨.business, 7, "growth", .monthly, "ctm_1"⟩

def trialWorld : World := { nextId := 1, plans := [growthPlan], subscriptions := [localTrial] }

theorem ended_subscription_stays_cancelled : ∃ c₁ c₂ : State, c₁.state.subscription? 0 = some { localTrial with status := .cancelled, cancelledAt := some 0 } ∧
    ∃ later, c₂.state.subscription? 0 = some later ∧ later.status = .cancelled := by
  obtain ⟨c₁, hReach, hEnd⟩ := store.exists_of_exec sparesEnded
    (State.start {} trialWorld [.cancelSubscription .business 7 true, .billingEvent .paddle checkoutCompleted])
    (List.replicate 4 (.run 0 {}))
    (fun c => c.state.subscription? 0 = some { localTrial with status := .cancelled, cancelledAt := some 0 } &&
      (store.exec sparesEnded (List.replicate 9 (.run 1 {})) c).isSome) (by decide +kernel)
  rw [Bool.and_eq_true, decide_eq_true_eq] at hEnd
  obtain ⟨c₂, hExec⟩ := Option.isSome_iff_exists.mp hEnd.2
  obtain ⟨later, hLater, hKept, -⟩ := ended_subscription_stays hReach hEnd.1 (Store.Reach.of_exec _ hExec)
  exact ⟨c₁, c₂, hEnd.1, later, hLater, hKept rfl⟩

/-- The owner cancels the trial while the checkout that was completed for it is
being recorded: the save makes the cancelled subscription active. -/
theorem ended_subscription_returns : ¬ ∀ (env : Env) (w : World) (requests : List Request) (c₁ c₂ : State) (id : Id)
    (stored : Subscription), store.Reach (fun _ _ => True) (State.start env w requests) c₁ →
    c₁.state.subscription? id = some stored → store.Reach (fun _ _ => True) c₁ c₂ → stored.status.live = false →
    ∃ later, c₂.state.subscription? id = some later ∧ later.status = stored.status := by
  intro hClaim
  obtain ⟨c₁, hReach, hEnd⟩ := store.exists_of_exec (fun _ _ => true)
    (State.start {} trialWorld [.cancelSubscription .business 7 true, .billingEvent .paddle checkoutCompleted])
    (List.flatten [List.replicate 5 (.run 1 {}), List.replicate 4 (.run 0 {})])
    (fun c => c.state.subscription? 0 = some { localTrial with status := .cancelled, cancelledAt := some 0 } &&
      (store.exec (fun _ _ => true) [.run 1 {}] c).any fun c => (c.state.subscription? 0).all (·.status = .active))
    (by decide +kernel)
  rw [Bool.and_eq_true, decide_eq_true_eq] at hEnd
  obtain ⟨c₂, hExec, hActive⟩ := (Option.any_eq_true _ _).mp hEnd.2
  obtain ⟨later, hLater, hSame⟩ := hClaim {} _ _ c₁ c₂ 0 _ (hReach.mono fun _ _ _ => trivial) hEnd.1
    ((Store.Reach.of_exec _ hExec).mono fun _ _ _ => trivial) rfl
  rw [hLater, Option.all_some, hSame] at hActive
  cases hActive

end RestaurantOs.Billing
