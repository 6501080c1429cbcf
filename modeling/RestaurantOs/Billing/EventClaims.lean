import RestaurantOs.Async.Protocol
import RestaurantOs.Async.Sequential
import RestaurantOs.Billing.Lifecycle

/-!
# Claims of billing events

An attempt claims its event by inserting the record or by taking an idle one over.
One attempt at a time holds it, and an event that is neither processed nor held can
be claimed.
-/

namespace RestaurantOs.Billing

open Async Prog

abbrev EventKey := SubscriptionProvider × String

def BillingWebhookEvent.key (event : BillingWebhookEvent) : EventKey := (event.provider, event.eventId)

def Request.eventKey? : Request → Option EventKey
  | .billingEvent providerName event => some (providerName, event.eventId)
  | _ => none

def Op.claim? : (o : Op) → Except Err o.Resp → Option (Option EventKey)
  | .event (.create name eventId _ _), .ok _ => some (some (name, eventId))
  | .event (.reclaim name eventId _), .ok true => some (some (name, eventId))
  | .event (.settle _ _ _ _), .ok _ => some none
  | _, _ => none

def claimed? (t : Nat) : List (Entry Op Op.Resp Err) → Option EventKey
  | [] => none
  | e :: earlier => if e.thread = t then (e.op.claim? e.result).getD (claimed? t earlier) else claimed? t earlier

/-- The event that attempt `t` has claimed and not given up: it is inside the
processing section. -/
def State.processing? (c : State) (t : Nat) : Option EventKey := claimed? t c.history

def World.isProcessed (w : World) (key : EventKey) : Prop := ∃ event ∈ w.webhookEvents, event.key = key ∧ event.processedAt.isSome

/-- No attempt stops inside the processing section, and a write that should
give the claim up fails only where the error handler is still to come. -/
def givesUpClaims (c : State) : Label Answer Event → Bool
  | .stop t => (State.processing? c t).isNone
  | .run t a =>
    match c.threads[t]? with
    | some { prog := .await (.event (.settle _ _ _ _)) next, .. } =>
      match a.fault with
      | some text => (next (.error (.other text))).next?.isSome
      | none => true
    | _ => true
  | .event _ => true

/-! ## The protocol of an attempt -/

/-- Where an attempt stands: `failed` if even its error handler failed. -/
inductive Attempt
  | idle
  | fresh (key : EventKey)
  | holding (key : EventKey)
  | failed (key : EventKey)

namespace Attempt

def key? : Attempt → Option EventKey
  | idle => none
  | fresh key | holding key | failed key => some key

def held? : Attempt → Option EventKey
  | holding key | failed key => some key
  | _ => none

def open? : Attempt → Bool
  | failed _ => false
  | _ => true

def afterClaim (key : EventKey) (won : Bool) : Attempt := if won then holding key else fresh key

@[simp] theorem key?_afterClaim {key : EventKey} {won : Bool} : (afterClaim key won).key? = some key := by
  cases won <;> rfl

@[simp] theorem held?_afterClaim {key : EventKey} {won : Bool} : (afterClaim key won).held? = if won then some key else none := by
  cases won <;> rfl

inductive Move (a : Answer) (w : World) : Op → Attempt → Attempt → Prop
  | other {o : Op} {pt : Attempt} (hOp : ∀ op, o ≠ .event op) (hOpen : pt.open? = true) : Move a w o pt pt
  | create (name : SubscriptionProvider) (eventId eventType : String) (startedAt : Time) :
      Move a w (.event (.create name eventId eventType startedAt)) (fresh (name, eventId))
        (afterClaim (name, eventId) (a.fault.isNone && !w.webhookEvents.any (·.isFor name eventId)))
  | reclaim (name : SubscriptionProvider) (eventId : String) (startedAt : Time) :
      Move a w (.event (.reclaim name eventId startedAt)) (fresh (name, eventId))
        (afterClaim (name, eventId) (a.fault.isNone && w.webhookEvents.any fun e => e.isFor name eventId && e.idle))
  | settle {name : SubscriptionProvider} {eventId : String} {processedAt : Option Time} {processingError : Option String}
      (hFault : a.fault = none) :
      Move a w (.event (.settle name eventId processedAt processingError)) (holding (name, eventId)) (fresh (name, eventId))
  | keep {name : SubscriptionProvider} {eventId text : String} {processedAt : Option Time} {processingError : Option String}
      (hFault : a.fault = some text) :
      Move a w (.event (.settle name eventId processedAt processingError)) (holding (name, eventId)) (holding (name, eventId))
  | fail {name : SubscriptionProvider} {eventId text : String} {processedAt : Option Time} {processingError : Option String}
      (hFault : a.fault = some text) :
      Move a w (.event (.settle name eventId processedAt processingError)) (holding (name, eventId)) (failed (name, eventId))

def Rest : Attempt → Prop
  | holding _ => False
  | _ => True

end Attempt

@[reducible] def claiming : Protocol Op World Answer where
  Point := Attempt
  Move o a w := Attempt.Move a w o
  Rest := Attempt.Rest

def Request.attempt (r : Request) : Attempt := r.eventKey?.elim .idle .fresh

section Walk

variable {α : Type} {pt : Attempt} {Q : α → Attempt → Prop} {E : Err → Attempt → Prop}

def Op.eventless : Op → Bool
  | .event _ => false
  | _ => true

theorem follows_eventless {p : Promise α} (h : p.Performs fun o => o.eventless = true) (hOpen : pt.open? = true)
    (hQ : ∀ v, Q v pt) (hE : ∀ e, E e pt) : p.Follows store claiming pt Q E := by
  induction p with
  | ret v => exact hQ v
  | raise e => exact hE e
  | await o k ih =>
    intro a w
    refine ⟨pt, .other ?_ hOpen, ih _ (h.2 _)⟩
    rintro op rfl
    cases h.1

theorem performs_eventless {o : Op} (h : o.eventless = true) :
    (Prog.call o : Promise o.Resp).Performs fun o => o.eventless = true :=
  performs_call h

theorem cancelSubscription_eventless (ownerType : OwnerType) (ownerId : Id) (atPeriodEnd : Bool) :
    (cancelSubscriptionCore ownerType ownerId atPeriodEnd).Performs fun o => o.eventless = true := by
  unfold cancelSubscriptionCore getLiveSubscriptionOrThrow
  repeat' first
    | exact performs_eventless rfl
    | trivial
    | apply performs_onlyIf
    | refine Performs.bind ?_ fun _ => ?_
    | split
    | dsimp only

theorem createSubscription_eventless (env : Env) (ownerType : OwnerType) (ownerId : Id) (planCode : String)
    (billingInterval : BillingInterval) (assignedByPlatform : Bool) :
    (createSubscriptionCore env ownerType ownerId planCode billingInterval assignedByPlatform).Performs fun o =>
      o.eventless = true := by
  unfold createSubscriptionCore
  repeat' first
    | exact performs_eventless rfl
    | trivial
    | apply Performs.attempt
    | refine Performs.bind ?_ fun _ => ?_
    | split

theorem reactivateSubscription_eventless (ownerType : OwnerType) (ownerId : Id) :
    (reactivateSubscriptionCore ownerType ownerId).Performs fun o => o.eventless = true := by
  unfold reactivateSubscriptionCore getLiveSubscriptionOrThrow
  repeat' first
    | exact performs_eventless rfl
    | trivial
    | apply performs_onlyIf
    | refine Performs.bind ?_ fun _ => ?_
    | split

theorem saveSubscription_eventless (copy : Subscription) (update : SubscriptionUpdate) :
    (saveSubscription copy update).Performs fun o => o.eventless = true := by
  refine (performs_eventless rfl).bind fun stored => ?_
  cases stored <;> trivial

theorem changeSubscriptionPlan_eventless (ownerType : OwnerType) (ownerId : Id) (newPlanCode : String) :
    (changeSubscriptionPlanCore ownerType ownerId newPlanCode).Performs fun o => o.eventless = true := by
  unfold changeSubscriptionPlanCore getLiveSubscriptionOrThrow
  repeat' first
    | exact performs_eventless rfl
    | exact saveSubscription_eventless _ _
    | trivial
    | apply performs_onlyIf
    | refine Performs.bind ?_ fun _ => ?_
    | split

theorem runTrialExpirationSweep_eventless (env : Env) : (runTrialExpirationSweep env).Performs fun o => o.eventless = true := by
  unfold runTrialExpirationSweep expireLapsed endHold expireTrial
  repeat' first
    | exact performs_eventless rfl
    | trivial
    | refine performs_forEach fun _ => ?_
    | refine Performs.bind ?_ fun _ => ?_
    | split

section Events

variable {providerName : SubscriptionProvider} {event : ProviderBillingWebhookEvent} {key : EventKey}

theorem applyProviderSubscriptionDetails_eventless (subscription : Subscription) :
    (applyProviderSubscriptionDetails subscription event).Performs fun o => o.eventless = true := by
  unfold applyProviderSubscriptionDetails claimOrder findReportedPlan
  repeat' first
    | exact performs_eventless rfl
    | trivial
    | refine Performs.bind ?_ fun _ => ?_
    | split
    | dsimp only

theorem recordProviderBillingNotice_eventless (subscription : Subscription) (notice : ProviderBillingNotice) :
    (recordProviderBillingNotice subscription event notice).Performs fun o => o.eventless = true :=
  (performs_eventless rfl).bind fun _ => performs_onlyIf (performs_eventless rfl)

theorem recordCheckout_eventless (checkout : CheckoutMetadata) (plan : Plan) (snapshot : ProviderSubscriptionSnapshot)
    (status : SubscriptionStatus) :
    (recordCheckout providerName event checkout plan snapshot status).Performs fun o => o.eventless = true := by
  unfold recordCheckout
  repeat' first
    | exact performs_eventless rfl
    | exact saveSubscription_eventless _ _
    | trivial
    | apply Performs.attempt
    | refine Performs.bind ?_ fun _ => ?_
    | split

/-- Out of the processing section: the claim is given up, or the write that
should do so threw and it is still held. -/
def Out (key : EventKey) (pt : Attempt) : Prop := pt = .fresh key

def Thrown (key : EventKey) (pt : Attempt) : Prop := pt = .holding key

/-- Inside the processing section: `p` ends by giving the claim up, or throws
with the claim held. -/
def Processes (key : EventKey) (p : Promise Unit) : Prop :=
  p.Follows store claiming (.holding key) (fun _ => Out key) fun _ => Thrown key

theorem Processes.after {β : Type} {p : Promise β} {f : β → Promise Unit} (hp : p.Performs fun o => o.eventless = true)
    (hf : ∀ v, Processes key (f v)) : Processes key (p.bind f) :=
  follows_bind.mpr (follows_eventless hp rfl hf fun _ => rfl)

theorem settleEvent_processes (processedAt : Option Time) (processingError : Option String) :
    Processes (providerName, event.eventId) (settleEvent providerName event processedAt processingError) := by
  refine follows_call.mpr fun a w => ?_
  cases hFault : a.fault with
  | none => exact ⟨_, .settle hFault, by simp only [Op.perform, unlessFault, hFault, EventOp.perform, Out]⟩
  | some text => exact ⟨_, .keep hFault, by simp only [Op.perform, unlessFault, hFault, Thrown]⟩

theorem markProcessed_processes : Processes (providerName, event.eventId) (markProcessed providerName event) :=
  .after (performs_eventless rfl) fun _ => settleEvent_processes _ _

theorem markIgnored_processes (processingError : String) :
    Processes (providerName, event.eventId) (markIgnored providerName event processingError) :=
  .after (performs_eventless rfl) fun _ => settleEvent_processes _ _

theorem handleCheckoutCompletionEvent_processes (checkout : CheckoutMetadata) :
    Processes (providerName, event.eventId) (handleCheckoutCompletionEvent providerName event checkout) := by
  refine .after (performs_eventless rfl) fun plan => ?_
  cases plan with
  | none => exact settleEvent_processes _ _
  | some plan =>
    refine .after (performs_eventless rfl) fun snapshot => .after (recordCheckout_eventless _ _ _ _) fun recorded => ?_
    cases recorded with
    | none => exact markIgnored_processes _
    | some subscription =>
      refine .after (performs_eventless rfl) fun _ => ?_
      exact .after (performs_onlyIf (performs_eventless rfl)) fun _ => markProcessed_processes

theorem applySubscriptionEvent_processes (status : ProviderSubscriptionStatus) (subscription : Subscription) :
    Processes (providerName, event.eventId) (applySubscriptionEvent providerName event status subscription) := by
  refine .after (applyProviderSubscriptionDetails_eventless subscription) fun current => ?_
  cases current with
  | none => exact markIgnored_processes _
  | some current =>
    dsimp only
    split
    · exact markProcessed_processes
    · split
      · exact markIgnored_processes _
      · refine .after (performs_eventless rfl) fun now => .after (performs_eventless rfl) fun applied => ?_
        split
        · exact .after (performs_eventless rfl) fun _ => markProcessed_processes
        · exact markProcessed_processes

theorem processClaimedEvent_processes :
    Processes (providerName, event.eventId) (processClaimedEvent providerName event) := by
  unfold processClaimedEvent
  split
  · exact markIgnored_processes _
  · split
    · exact handleCheckoutCompletionEvent_processes _
    · refine .after ?_ fun subscription => ?_
      · split
        · trivial
        · exact performs_eventless rfl
      · cases subscription with
        | none =>
          refine .after (performs_eventless rfl) fun now => ?_
          split
          · exact rfl
          · exact markProcessed_processes
        | some subscription =>
          dsimp only
          split
          · split
            · exact markProcessed_processes
            · exact .after (recordProviderBillingNotice_eventless _ _) fun _ => markProcessed_processes
          · exact applySubscriptionEvent_processes _ subscription

theorem claimWebhookEvent_follows : (claimWebhookEventForProcessing providerName event).Follows store claiming
    (.fresh (providerName, event.eventId)) (fun won pt => pt = .afterClaim (providerName, event.eventId) won)
      fun _ => Out (providerName, event.eventId) := by
  refine follows_bind.mpr (follows_eventless (performs_eventless rfl) rfl (fun startedAt => ?_) fun _ => rfl)
  refine follows_bind.mpr (follows_attempt.mpr (follows_call.mpr fun a w => ⟨_, .create _ _ _ _, ?_⟩))
  cases hFault : a.fault with
  | some text =>
    simp only [Op.perform, unlessFault, hFault, Option.isNone_some, Bool.false_and]
    exact rfl
  | none =>
    cases hTaken : w.webhookEvents.any (·.isFor providerName event.eventId) with
    | false =>
      simp only [Op.perform, unlessFault, hFault, EventOp.perform, hTaken, Bool.false_eq_true, if_false, Option.isNone_none,
        Bool.not_false, Bool.and_self]
      exact rfl
    | true =>
      simp only [Op.perform, unlessFault, hFault, EventOp.perform, hTaken, if_true, Option.isNone_none, Bool.not_true, Bool.and_false]
      refine follows_bind.mpr (follows_eventless (performs_eventless rfl) rfl (fun restartedAt => ?_) fun _ => rfl)
      refine follows_call.mpr fun a w => ⟨_, .reclaim _ _ _, ?_⟩
      cases hFault : a.fault with
      | some text => simp only [Op.perform, unlessFault, hFault, Option.isNone_some, Bool.false_and, Attempt.afterClaim,
          Bool.false_eq_true, if_false, Out]
      | none => simp only [Op.perform, unlessFault, hFault, EventOp.perform, Option.isNone_none, Bool.true_and]

theorem processBillingProviderEvent_follows : (processBillingProviderEvent providerName event).Follows store claiming
    (.fresh (providerName, event.eventId)) (fun _ => Attempt.Rest) fun _ => Attempt.Rest := by
  refine follows_bind.mpr ((claimWebhookEvent_follows).mono ?_ ?_)
  · rintro won pt rfl
    cases won with
    | false => exact trivial
    | true =>
      refine follows_bind.mpr (follows_attempt.mpr ((processClaimedEvent_processes).mono ?_ ?_))
      · rintro _ pt rfl
        exact trivial
      · rintro err pt rfl
        refine follows_bind.mpr (follows_call.mpr fun a w => ?_)
        cases hFault : a.fault with
        | none =>
          refine ⟨_, .settle hFault, ?_⟩
          simp only [Op.perform, unlessFault, hFault, EventOp.perform]
          exact trivial
        | some text =>
          refine ⟨_, .fail hFault, ?_⟩
          simp only [Op.perform, unlessFault, hFault]
          exact trivial
  · rintro err pt rfl
    exact trivial

end Events

theorem Request.program_follows (env : Env) (r : Request) :
    (r.program env).Follows store claiming r.attempt (fun _ => Attempt.Rest) fun _ => Attempt.Rest := by
  have hOther : ∀ {β : Type} {p : Promise β}, p.Performs (fun o => o.eventless = true) →
      (answered p).Follows store claiming .idle (fun _ => Attempt.Rest) fun _ => Attempt.Rest := fun h =>
    follows_eventless (h.bind fun _ => trivial) rfl (fun _ => trivial) fun _ => trivial
  cases r with
  | createSubscription ownerType ownerId planCode billingInterval assignedByPlatform =>
    exact hOther (createSubscription_eventless _ _ _ _ _ _)
  | cancelSubscription ownerType ownerId atPeriodEnd => exact hOther (cancelSubscription_eventless _ _ _)
  | reactivateSubscription ownerType ownerId => exact hOther (reactivateSubscription_eventless _ _)
  | changeSubscriptionPlan ownerType ownerId newPlanCode => exact hOther (changeSubscriptionPlan_eventless _ _ _)
  | billingEvent providerName event => exact processBillingProviderEvent_follows
  | trialExpirationSweep =>
    exact follows_eventless (runTrialExpirationSweep_eventless env) rfl (fun _ => trivial) fun _ => trivial

end Walk

/-! ## Who holds a claim -/

/-- `holder t` is the event that attempt `t` holds. An event's record is marked
as started exactly while an attempt holds it, and then only one does. -/
structure Claims (events : List BillingWebhookEvent) (holder : Nat → Option EventKey) : Prop where
  keys : (events.map BillingWebhookEvent.key).Nodup
  claimed : ∀ {t key}, holder t = some key →
    ∃ event ∈ events, event.key = key ∧ event.processingStartedAt.isSome = true ∧ event.processedAt = none
  unique : ∀ {t u key}, holder t = some key → holder u = some key → t = u
  owned : ∀ event ∈ events, event.processingStartedAt.isSome = true → ∃ t, holder t = some event.key

section Claims

variable {events : List BillingWebhookEvent} {holder : Nat → Option EventKey} {t u : Nat} {key key' : EventKey}
  {event : BillingWebhookEvent}

theorem BillingWebhookEvent.isFor_iff {name : SubscriptionProvider} {eventId : String} :
    event.isFor name eventId = true ↔ event.key = (name, eventId) := by
  simp [isFor, BillingWebhookEvent.key]

theorem Claims.eq_of_key (h : Claims events holder) {other : BillingWebhookEvent} (hMem : event ∈ events) (hOther : other ∈ events)
    (hKey : event.key = other.key) : event = other :=
  Tables.eq_of_id h.keys hMem hOther hKey

theorem Claims.free_of_idle (h : Claims events holder) (hMem : event ∈ events) (hIdle : event.idle = true) :
    ∀ u, holder u ≠ some event.key := by
  intro u hu
  obtain ⟨other, hOther, hKey, hStarted, -⟩ := h.claimed hu
  have hEq := h.eq_of_key hMem hOther hKey.symm
  subst hEq
  simp only [BillingWebhookEvent.idle, Bool.and_eq_true, Option.isNone_iff_eq_none] at hIdle
  rw [hIdle.2] at hStarted
  cases hStarted

theorem unique_take (h : ∀ {t u key}, holder t = some key → holder u = some key → t = u) (hFree : ∀ u, holder u ≠ some key)
    {u v : Nat} (hu : Function.update holder t (some key) u = some key') (hv : Function.update holder t (some key) v = some key') :
    u = v := by
  by_cases hut : u = t
  · by_cases hvt : v = t
    · exact hut.trans hvt.symm
    · rw [hut, Function.update_self] at hu
      rw [Function.update_of_ne hvt] at hv
      cases hu
      exact absurd hv (hFree v)
  · rw [Function.update_of_ne hut] at hu
    by_cases hvt : v = t
    · rw [hvt, Function.update_self] at hv
      cases hv
      exact absurd hu (hFree u)
    · rw [Function.update_of_ne hvt] at hv
      exact h hu hv

theorem Claims.insert (h : Claims events holder) (hNone : holder t = none) {name : SubscriptionProvider} {eventId eventType : String}
    {startedAt : Time} (hNew : events.any (·.isFor name eventId) = false) :
    Claims (events ++ [{ provider := name, eventId, eventType, processingStartedAt := some startedAt }])
      (Function.update holder t (some (name, eventId))) := by
  have hFresh : ∀ event ∈ events, event.key ≠ (name, eventId) := by
    intro event hMem hKey
    rw [List.any_eq_false] at hNew
    exact hNew event hMem ((BillingWebhookEvent.isFor_iff).mpr hKey)
  have hFree : ∀ u, holder u ≠ some (name, eventId) := by
    intro u hu
    obtain ⟨event, hMem, hKey, -⟩ := h.claimed hu
    exact hFresh event hMem hKey
  refine ⟨?_, ?_, unique_take h.unique hFree, ?_⟩
  · rw [List.map_append, List.nodup_append]
    refine ⟨h.keys, List.nodup_singleton _, ?_⟩
    rintro key hKey key' hKey' rfl
    obtain ⟨event, hMem, rfl⟩ := List.mem_map.mp hKey
    exact hFresh event hMem (List.mem_singleton.mp hKey')
  · intro u key hu
    by_cases hut : u = t
    · rw [hut, Function.update_self] at hu
      cases hu
      exact ⟨_, List.mem_append_right _ (List.mem_singleton_self _), rfl, rfl, rfl⟩
    · rw [Function.update_of_ne hut] at hu
      obtain ⟨event, hMem, hEvent⟩ := h.claimed hu
      exact ⟨event, List.mem_append_left _ hMem, hEvent⟩
  · intro event hMem hStarted
    rcases List.mem_append.mp hMem with hOld | hNew
    · obtain ⟨u, hu⟩ := h.owned event hOld hStarted
      have hut : u ≠ t := by
        rintro rfl
        rw [hNone] at hu
        cases hu
      exact ⟨u, by rw [Function.update_of_ne hut, hu]⟩
    · rw [List.mem_singleton.mp hNew]
      exact ⟨t, Function.update_self ..⟩

theorem Claims.takeOver (h : Claims events holder) (hNone : holder t = none) {name : SubscriptionProvider} {eventId : String}
    {startedAt : Time} (hIdle : events.any (fun e => e.isFor name eventId && e.idle) = true) :
    Claims (Tables.update (fun e => e.isFor name eventId && e.idle) (·.started startedAt) events)
      (Function.update holder t (some (name, eventId))) := by
  obtain ⟨idle, hMemIdle, hSel⟩ := List.any_eq_true.mp hIdle
  obtain ⟨hFor, hIsIdle⟩ := (Bool.and_eq_true ..).mp hSel
  have hKeyIdle := (BillingWebhookEvent.isFor_iff).mp hFor
  have hFree := h.free_of_idle hMemIdle hIsIdle
  rw [hKeyIdle] at hFree
  refine ⟨?_, ?_, unique_take h.unique hFree, ?_⟩
  · rw [Tables.map_update_eq BillingWebhookEvent.key fun event => show (event.started startedAt).key = event.key from rfl]
    exact h.keys
  · intro u key hu
    by_cases hut : u = t
    · rw [hut, Function.update_self] at hu
      cases hu
      refine ⟨_, Tables.mem_update.mpr ⟨idle, hMemIdle, rfl⟩, ?_⟩
      rw [if_pos hSel]
      simp only [BillingWebhookEvent.idle, Bool.and_eq_true, Option.isNone_iff_eq_none] at hIsIdle
      exact ⟨hKeyIdle, rfl, hIsIdle.1⟩
    · rw [Function.update_of_ne hut] at hu
      obtain ⟨event, hMem, hKey, hEvent⟩ := h.claimed hu
      refine ⟨event, Tables.mem_update.mpr ⟨event, hMem, ?_⟩, hKey, hEvent⟩
      rw [if_neg]
      intro hSel
      have hFor := (BillingWebhookEvent.isFor_iff).mp ((Bool.and_eq_true ..).mp hSel).1
      exact hFree u (by rw [hu, ← hKey, hFor])
  · intro event hMem hStarted
    obtain ⟨old, hOld, rfl⟩ := Tables.mem_update.mp hMem
    split at hStarted
    · rename_i hSel
      rw [if_pos hSel]
      refine ⟨t, ?_⟩
      rw [Function.update_self, ← (BillingWebhookEvent.isFor_iff).mp ((Bool.and_eq_true ..).mp hSel).1]
      rfl
    · rename_i hSel
      rw [if_neg hSel]
      obtain ⟨u, hu⟩ := h.owned old hOld hStarted
      have hut : u ≠ t := by
        rintro rfl
        rw [hNone] at hu
        cases hu
      exact ⟨u, by rw [Function.update_of_ne hut, hu]⟩

theorem Claims.giveUp {name : SubscriptionProvider} {eventId : String} (h : Claims events holder)
    (hHeld : holder t = some (name, eventId)) (processedAt : Option Time) (processingError : Option String) :
    Claims (Tables.update (·.isFor name eventId) (·.settled processedAt processingError) events)
      (Function.update holder t none) := by
  refine ⟨?_, ?_, ?_, ?_⟩
  · rw [Tables.map_update_eq BillingWebhookEvent.key fun event =>
      show (event.settled processedAt processingError).key = event.key from rfl]
    exact h.keys
  · intro u key hu
    have hut : u ≠ t := by
      rintro rfl
      rw [Function.update_self] at hu
      cases hu
    rw [Function.update_of_ne hut] at hu
    obtain ⟨event, hMem, hKey, hEvent⟩ := h.claimed hu
    refine ⟨event, Tables.mem_update.mpr ⟨event, hMem, ?_⟩, hKey, hEvent⟩
    rw [if_neg]
    intro hSel
    rw [← hKey, (BillingWebhookEvent.isFor_iff).mp hSel] at hu
    exact hut (h.unique hu hHeld)
  · intro u v key hu hv
    by_cases hut : u = t
    · rw [hut, Function.update_self] at hu
      cases hu
    · by_cases hvt : v = t
      · rw [hvt, Function.update_self] at hv
        cases hv
      · rw [Function.update_of_ne hut] at hu
        rw [Function.update_of_ne hvt] at hv
        exact h.unique hu hv
  · intro event hMem hStarted
    obtain ⟨old, hOld, rfl⟩ := Tables.mem_update.mp hMem
    split at hStarted
    · cases hStarted
    · rename_i hSel
      rw [if_neg hSel]
      obtain ⟨u, hu⟩ := h.owned old hOld hStarted
      have hut : u ≠ t := by
        rintro rfl
        rw [hHeld] at hu
        exact hSel ((BillingWebhookEvent.isFor_iff).mpr (Option.some.inj hu).symm)
      exact ⟨u, by rw [Function.update_of_ne hut, hu]⟩

end Claims

/-! ## The invariant of a run -/

theorem Op.webhookEvents_perform {o : Op} (a : Answer) (w : World) (hOp : ∀ op, o ≠ .event op) :
    (o.perform a w).2.webhookEvents = w.webhookEvents := by
  cases o with
  | event op => exact absurd rfl (hOp op)
  | subscription op =>
    rcases unlessFault_state (a := a) (w := w) (r := op.perform w) with hEq | hEq
    · exact congrArg World.webhookEvents hEq
    · simp only [perform, hEq]
      cases op with
      | findOneAndUpdate filter update =>
        simp only [SubscriptionOp.perform]
        split
        · rfl
        · split <;> rfl
      | create draft =>
        simp only [SubscriptionOp.perform]
        split <;> rfl
      | _ => rfl
  | history op =>
    cases op with
    | create row =>
      simp only [perform, HistoryOp.perform]
      split <;> rfl
    | isRecorded subscriptionId noticeKey =>
      simp only [perform, HistoryOp.perform]
      split <;> rfl
  | clock | trialExtensionActive => rfl
  | owner | plan | provider =>
    rcases unlessFault_state (a := a) (w := w) with hEq | hEq
    · exact congrArg World.webhookEvents hEq
    · exact congrArg (·.2.webhookEvents) hEq

/-- The attempts and the records agree on who holds what; `start` is where the
attempts started. -/
structure Attempting (start : List Attempt) (c : State) (pts : List Attempt) : Prop where
  claims : Claims c.state.webhookEvents c.processing?
  held : ∀ t : Nat, c.processing? t = pts[t]?.bind Attempt.held?
  key : ∀ t : Nat, pts[t]?.bind Attempt.key? = start[t]?.bind Attempt.key?

section Runs

variable {start pts : List Attempt} {c c' : State} {t : Nat} {a : Answer} {o : Op} {th : Thread Op Op.Resp Err World Unit}
  {k : Except Err o.Resp → Promise Unit} {pt pt' : Attempt}

theorem Attempting.held_of (h : Attempting start c pts) (hPoint : pts[t]? = some pt) : c.processing? t = pt.held? := by
  rw [h.held, hPoint, Option.bind_some]

theorem processing_of_ran (hRan : store.Ran c t a o th k c') :
    State.processing? c' = Function.update (State.processing? c) t
      ((o.claim? (store.perform o a c.state).1).getD (State.processing? c t)) := by
  funext u
  rw [State.processing?, hRan.history]
  by_cases hut : u = t
  · subst hut
    rw [Function.update_self, claimed?, if_pos rfl]
    rfl
  · rw [Function.update_of_ne hut, claimed?, if_neg (Ne.symm hut)]
    rfl

theorem Attempting.moved (h : Attempting start c pts) (hPoint : pts[t]? = some pt) (hKey : pt'.key? = pt.key?)
    (hRan : store.Ran c t a o th k c')
    (hClaim : (o.claim? (store.perform o a c.state).1).getD (State.processing? c t) = pt'.held?)
    (hClaims : Claims c'.state.webhookEvents (Function.update c.processing? t pt'.held?)) :
    Attempting start c' (pts.set t pt') := by
  have hProcessing := processing_of_ran hRan
  rw [hClaim] at hProcessing
  refine ⟨hProcessing ▸ hClaims, ?_, ?_⟩
  · intro u
    rw [hProcessing]
    by_cases hut : u = t
    · rw [hut, Function.update_self, Tables.getElem?_set_eq hPoint, Option.bind_some]
    · rw [Function.update_of_ne hut, List.getElem?_set_ne (Ne.symm hut)]
      exact h.held u
  · intro u
    rw [← h.key u]
    by_cases hut : t = u
    · subst hut
      rw [Tables.getElem?_set_eq hPoint, hPoint, Option.bind_some, Option.bind_some, hKey]
    · rw [List.getElem?_set_ne hut]

theorem Attempting.unmoved (h : Attempting start c pts) (hPoint : pts[t]? = some pt) (hKey : pt'.key? = pt.key?)
    (hHeld : pt'.held? = pt.held?) (hRan : store.Ran c t a o th k c') (hClaim : o.claim? (store.perform o a c.state).1 = none)
    (hEvents : (store.perform o a c.state).2.webhookEvents = c.state.webhookEvents) : Attempting start c' (pts.set t pt') := by
  have hSame := (h.held_of hPoint).trans hHeld.symm
  refine h.moved hPoint hKey hRan (by rw [hClaim, Option.getD_none, hSame]) ?_
  rw [hRan.state, hEvents, ← hSame, Function.update_eq_self]
  exact h.claims

theorem Attempting.run (h : Attempting start c pts) (hRan : store.Ran c t a o th k c') (hPoint : pts[t]? = some pt)
    (hMove : Attempt.Move a c.state o pt pt') : Attempting start c' (pts.set t pt') := by
  cases hMove with
  | other hOp hOpen =>
    refine h.unmoved hPoint rfl rfl hRan ?_ (Op.webhookEvents_perform a c.state hOp)
    cases o with
    | event op => exact absurd rfl (hOp op)
    | _ => rfl
  | create name eventId eventType startedAt =>
    cases hFault : a.fault with
    | some text =>
      exact h.unmoved hPoint Attempt.key?_afterClaim rfl hRan
        (by simp only [Op.perform, unlessFault, hFault, Op.claim?]) (by simp only [Op.perform, unlessFault, hFault])
    | none =>
      cases hAny : c.state.webhookEvents.any (·.isFor name eventId) with
      | true =>
        exact h.unmoved hPoint Attempt.key?_afterClaim rfl hRan
          (by simp only [Op.perform, unlessFault, hFault, EventOp.perform, hAny, if_true, Op.claim?])
          (by simp only [Op.perform, unlessFault, hFault, EventOp.perform, hAny, if_true])
      | false =>
        refine h.moved hPoint Attempt.key?_afterClaim hRan ?_ ?_
        · simp only [Op.perform, unlessFault, hFault, EventOp.perform, hAny, Bool.false_eq_true, if_false, Op.claim?, Option.getD_some]
          rfl
        · rw [hRan.state]
          simp only [Op.perform, unlessFault, hFault, EventOp.perform, hAny, Bool.false_eq_true, if_false]
          exact h.claims.insert (h.held_of hPoint) hAny
  | reclaim name eventId startedAt =>
    cases hFault : a.fault with
    | some text =>
      exact h.unmoved hPoint Attempt.key?_afterClaim rfl hRan
        (by simp only [Op.perform, unlessFault, hFault, Op.claim?]) (by simp only [Op.perform, unlessFault, hFault])
    | none =>
      cases hAny : c.state.webhookEvents.any (fun e => e.isFor name eventId && e.idle) with
      | true =>
        refine h.moved hPoint Attempt.key?_afterClaim hRan ?_ ?_
        · simp only [Op.perform, unlessFault, hFault, EventOp.perform, hAny, Op.claim?, Option.getD_some]
          rfl
        · rw [hRan.state]
          simp only [Op.perform, unlessFault, hFault, EventOp.perform]
          exact h.claims.takeOver (h.held_of hPoint) hAny
      | false =>
        refine h.unmoved hPoint Attempt.key?_afterClaim rfl hRan
          (by simp only [Op.perform, unlessFault, hFault, EventOp.perform, hAny, Op.claim?]) ?_
        simp only [Op.perform, unlessFault, hFault, EventOp.perform]
        rw [List.any_eq_false] at hAny
        exact (List.map_congr_left fun e he => if_neg (hAny e he)).trans (List.map_id' _)
  | settle hFault =>
    refine h.moved hPoint rfl hRan ?_ ?_
    · simp only [Op.perform, unlessFault, hFault, EventOp.perform, Op.claim?, Option.getD_some]
      rfl
    · rw [hRan.state]
      simp only [Op.perform, unlessFault, hFault, EventOp.perform]
      exact h.claims.giveUp (h.held_of hPoint) _ _
  | keep hFault | fail hFault =>
    exact h.unmoved hPoint rfl rfl hRan (by simp only [Op.perform, unlessFault, hFault, Op.claim?])
      (by simp only [Op.perform, unlessFault, hFault])

theorem Attempting.stop (h : Attempting start c pts) :
    Attempting start { c with threads := c.threads.set t { th with stopped := true } } pts :=
  ⟨h.claims, h.held, h.key⟩

theorem Attempting.event (h : Attempting start c pts) (e : Event) :
    Attempting start { c with state := store.advance e c.state } pts := by
  refine ⟨?_, h.held, h.key⟩
  have hEvents : (e.advance c.state).webhookEvents = c.state.webhookEvents := by cases e <;> rfl
  exact hEvents ▸ h.claims

theorem Attempting.initial {env : Env} {w : World} {requests : List Request}
    (hKeys : (w.webhookEvents.map BillingWebhookEvent.key).Nodup)
    (hIdle : ∀ event ∈ w.webhookEvents, event.processingStartedAt = none) :
    Attempting (requests.map Request.attempt) (State.start env w requests) (requests.map Request.attempt) := by
  refine ⟨⟨hKeys, ?_, ?_, ?_⟩, ?_, fun _ => rfl⟩
  · intro t key hClaimed
    cases hClaimed
  · intro t u key hClaimed
    cases hClaimed
  · intro event hMem hStarted
    have hNone : event.processingStartedAt = none := hIdle event hMem
    rw [hNone] at hStarted
    cases hStarted
  · intro t
    rw [List.getElem?_map]
    cases requests[t]? with
    | none => rfl
    | some r => cases r <;> rfl

def Going (c : State) (pts : List Attempt) : Prop :=
  ∀ {t : Nat} {pt : Attempt} {th : Thread Op Op.Resp Err World Unit} {key : EventKey}, pts[t]? = some pt →
    pt.held? = some key → c.threads[t]? = some th → pt = .holding key ∧ th.stopped = false

theorem not_failed {key : EventKey} {name : SubscriptionProvider} {eventId : String} {processedAt : Option Time}
    {processingError : Option String} {text : String}
    {k : Except Err (Op.event (.settle name eventId processedAt processingError)).Resp → Promise Unit}
    (hFault : a.fault = some text) (hGives : givesUpClaims c (.run t a) = true)
    (hRan : store.Ran c t a (.event (.settle name eventId processedAt processingError)) th k c')
    (hPoint : pts[t]? = some pt) (hT' : Tracks store claiming start c' (pts.set t (.failed key))) : False := by
  obtain ⟨prog, stopped, born⟩ := th
  have hProg := hRan.prog
  dsimp only at hProg
  subst hProg
  simp only [givesUpClaims, hRan.thread, hFault] at hGives
  have hFollows := hT'.follows (by rw [hRan.threads]; exact Tables.getElem?_set_eq hRan.thread) (Tables.getElem?_set_eq hPoint)
  simp only [Op.perform, unlessFault, hFault] at hFollows
  cases hNext : k (.error (.other text)) with
  | ret v =>
    rw [hNext] at hGives
    cases hGives
  | raise e =>
    rw [hNext] at hGives
    cases hGives
  | await o next =>
    rw [hNext] at hFollows
    obtain ⟨pt', hMove, -⟩ := hFollows {} {}
    cases hMove with
    | other hOp hOpen => cases hOpen

theorem Going.run (h : Going c pts) (hGives : givesUpClaims c (.run t a) = true) (hRan : store.Ran c t a o th k c')
    (hPoint : pts[t]? = some pt) (hMove : Attempt.Move a c.state o pt pt')
    (hT' : Tracks store claiming start c' (pts.set t pt')) : Going c' (pts.set t pt') := by
  intro u pu thU key hPointU hHeld hThreadU
  rw [hRan.threads] at hThreadU
  rcases Tables.getElem?_set_cases hPointU with ⟨rfl, rfl⟩ | ⟨hNe, hPointU⟩
  · rw [Tables.getElem?_set_eq hRan.thread] at hThreadU
    cases hThreadU
    refine ⟨?_, rfl⟩
    induction hMove with
    | other hOp hOpen => exact (h hPoint hHeld hRan.thread).1
    | create | reclaim =>
      rw [Attempt.held?_afterClaim] at hHeld
      split at hHeld
      · rename_i hWon
        cases hHeld
        rw [hWon]
        rfl
      · cases hHeld
    | settle hFault => cases hHeld
    | keep hFault =>
      cases hHeld
      rfl
    | fail hFault => exact (not_failed hFault hGives hRan hPoint hT').elim
  · rw [List.getElem?_set_ne (Ne.symm hNe)] at hThreadU
    exact h hPointU hHeld hThreadU

theorem Going.stop (h : Going c pts) (hAttempting : Attempting start c pts) (hGives : givesUpClaims c (.stop t) = true) :
    Going { c with threads := c.threads.set t { th with stopped := true } } pts := by
  intro u pu thU key hPointU hHeld hThreadU
  rcases Tables.getElem?_set_cases hThreadU with ⟨rfl, -⟩ | ⟨-, hThreadU⟩
  · have hProcessing := (hAttempting.held_of hPointU).trans hHeld
    simp only [givesUpClaims, hProcessing, Option.isNone_some] at hGives
    cases hGives
  · exact h hPointU hHeld hThreadU

end Runs

section Reached

variable {env : Env} {w : World} {requests : List Request} {c : State}

theorem attempting_of_reach (hKeys : (w.webhookEvents.map BillingWebhookEvent.key).Nodup)
    (hIdle : ∀ event ∈ w.webhookEvents, event.processingStartedAt = none)
    (h : store.Reach (fun _ _ => True) (State.start env w requests) c) :
    ∃ pts, Attempting (requests.map Request.attempt) c pts := by
  have hTracks := Tracks.initial (s := w) fun (r : Request) (_ : r ∈ requests) => Request.program_follows env r
  have hRun := hTracks.invariant (I := fun c pts => Attempting (requests.map Request.attempt) c pts)
    (Attempting.initial hKeys hIdle) (fun _ hI _ hRan hPoint hMove _ => hI.run hRan hPoint hMove)
    (fun _ hI _ _ => hI.stop) (fun _ hI _ => hI.event _) h
  obtain ⟨pts, -, hI⟩ := hRun
  exact ⟨pts, hI⟩

theorem going_of_reach (hKeys : (w.webhookEvents.map BillingWebhookEvent.key).Nodup)
    (hIdle : ∀ event ∈ w.webhookEvents, event.processingStartedAt = none)
    (h : store.Reach (fun c l => givesUpClaims c l) (State.start env w requests) c) :
    ∃ pts, Tracks store claiming (requests.map Request.attempt) c pts ∧ Attempting (requests.map Request.attempt) c pts ∧ Going c pts := by
  have hTracks := Tracks.initial (s := w) fun (r : Request) (_ : r ∈ requests) => Request.program_follows env r
  refine hTracks.invariant (I := fun c pts => Attempting (requests.map Request.attempt) c pts ∧ Going c pts)
    ⟨Attempting.initial hKeys hIdle, ?_⟩ (fun _ hI hGives hRan hPoint hMove hT' => ?_) (fun _ hI hGives _ => ?_) (fun _ hI _ => ?_) h
  · intro t pt th key hPoint hHeld
    simp only [List.getElem?_map, Option.map_eq_some_iff] at hPoint
    obtain ⟨r, -, rfl⟩ := hPoint
    cases r <;> cases hHeld
  · exact ⟨hI.1.run hRan hPoint hMove, Going.run hI.2 hGives hRan hPoint hMove hT'⟩
  · exact ⟨hI.1.stop, Going.stop hI.2 hI.1 hGives⟩
  · exact ⟨hI.1.event _, hI.2⟩

theorem running_of_processing {pts : List Attempt} {t : Nat} {key : EventKey}
    (hT : Tracks store claiming (requests.map Request.attempt) c pts) (hI : Attempting (requests.map Request.attempt) c pts)
    (hGoing : Going c pts) (hProcessing : c.processing? t = some key) :
    ∃ th, c.threads[t]? = some th ∧ th.Running ∧ requests[t]?.bind Request.eventKey? = some key := by
  rw [hI.held] at hProcessing
  obtain ⟨pt, hPoint, hHeld⟩ := Option.bind_eq_some_iff.mp hProcessing
  obtain ⟨th, hThread⟩ := hT.thread_exists hPoint
  obtain ⟨rfl, hRunning⟩ := hGoing hPoint hHeld hThread
  refine ⟨th, hThread, ⟨hRunning, ?_, ?_⟩, ?_⟩
  · cases hBorn : th.born with
    | some w₀ => rfl
    | none =>
      have hStart := hT.unborn hThread hBorn
      rw [hPoint, List.getElem?_map, eq_comm, Option.map_eq_some_iff] at hStart
      obtain ⟨r, -, hAttempt⟩ := hStart
      cases r <;> cases hAttempt
  · cases hNext : th.next?.isSome with
    | true => rfl
    | false => exact (hT.rest_of_ended hThread hPoint hNext).elim
  · have hKey := hI.key t
    rw [hPoint, List.getElem?_map] at hKey
    cases hRequest : requests[t]? with
    | none =>
      rw [hRequest] at hKey
      cases hKey
    | some r =>
      rw [hRequest] at hKey
      have hAttempt : some key = r.attempt.key? := hKey
      rw [Option.bind_some, hAttempt]
      cases r <;> rfl

theorem claim_wins {name : SubscriptionProvider} {event : ProviderBillingWebhookEvent}
    (hIdle : ∀ stored ∈ w.webhookEvents, stored.key = (name, event.eventId) → stored.idle = true) :
    ((claimWebhookEventForProcessing name event).eval store {} w).1 = .ok true := by
  cases hAny : w.webhookEvents.any (·.isFor name event.eventId) with
  | false =>
    have hCreated : (eventOp (.create name event.eventId event.eventType w.now)).attempt.eval store {} w =
        (.ok (.ok ()), _) := eval_attempt_of (by
      rw [eventOp, eval_call]
      simp only [Op.perform, unlessFault, EventOp.perform, hAny, Bool.false_eq_true, if_false]
      rfl)
    rw [claimWebhookEventForProcessing, bind_eq, eval_bind_ok (eval_call _), bind_eq, eval_bind_ok hCreated]
    rfl
  | true =>
    have hTaken : (eventOp (.create name event.eventId event.eventType w.now)).attempt.eval store {} w =
        (.ok (.error .duplicateKey), w) := eval_attempt_of (by
      rw [eventOp, eval_call]
      simp only [Op.perform, unlessFault, EventOp.perform, hAny, if_true])
    have hReclaimed : ((eventOp (.reclaim name event.eventId w.now)).eval store {} w).1 = .ok true := by
      obtain ⟨stored, hMem, hFor⟩ := List.any_eq_true.mp hAny
      have hWon : w.webhookEvents.any (fun e => e.isFor name event.eventId && e.idle) = true :=
        List.any_eq_true.mpr ⟨stored, hMem, by rw [hFor, hIdle stored hMem (BillingWebhookEvent.isFor_iff.mp hFor)]; rfl⟩
      rw [eventOp, eval_call]
      simp only [Op.perform, unlessFault, EventOp.perform, hWon]
    rw [claimWebhookEventForProcessing, bind_eq, eval_bind_ok (eval_call _), bind_eq, eval_bind_ok hTaken]
    simp only [Payments.Err.isDuplicateKey, if_true]
    rw [bind_eq, eval_bind_ok (eval_call _), hReclaimed]

theorem isProcessed_of_perform {key : EventKey} (o : Op) (a : Answer) (h : w.isProcessed key) : (o.perform a w).2.isProcessed key := by
  by_cases hOp : ∃ op, o = .event op
  · obtain ⟨op, rfl⟩ := hOp
    rcases unlessFault_state (a := a) (w := w) (r := op.perform w) with hEq | hEq
    · simp only [Op.perform]
      rw [hEq]
      exact h
    · simp only [Op.perform]
      rw [hEq]
      obtain ⟨event, hMem, hKey, hProcessed⟩ := h
      cases op with
      | create name eventId eventType startedAt =>
        simp only [EventOp.perform]
        split
        · exact ⟨event, hMem, hKey, hProcessed⟩
        · exact ⟨event, List.mem_append_left _ hMem, hKey, hProcessed⟩
      | reclaim name eventId startedAt =>
        refine ⟨_, Tables.mem_update.mpr ⟨event, hMem, rfl⟩, ?_⟩
        split <;> exact ⟨hKey, hProcessed⟩
      | settle name eventId processedAt processingError =>
        refine ⟨_, Tables.mem_update.mpr ⟨event, hMem, rfl⟩, ?_⟩
        split
        · refine ⟨hKey, ?_⟩
          cases processedAt with
          | none => exact hProcessed
          | some time => rfl
        · exact ⟨hKey, hProcessed⟩
  · obtain ⟨event, hMem, hEvent⟩ := h
    exact ⟨event, Op.webhookEvents_perform a w (fun op hEq => hOp ⟨op, hEq⟩) ▸ hMem, hEvent⟩

theorem isProcessed_of_reach {key : EventKey} {c₁ c₂ : State} {ok : State → Label Answer Event → Prop} (h : c₁.state.isProcessed key)
    (hReach : store.Reach ok c₁ c₂) : c₂.state.isProcessed key := by
  refine hReach.invariant (I := fun c => c.state.isProcessed key) h fun c l c' hC _ hStep => ?_
  cases l with
  | run t a =>
    obtain ⟨o, th, k, hRan⟩ := Store.run_cases hStep
    exact hRan.state ▸ isProcessed_of_perform o a hC
  | stop t =>
    obtain ⟨th, hThread, rfl⟩ := Store.stop_cases hStep
    exact hC
  | event e =>
    cases hStep
    obtain ⟨event, hMem, hEvent⟩ := hC
    have hEvents : (e.advance c.state).webhookEvents = c.state.webhookEvents := by cases e <;> rfl
    exact ⟨event, hEvents ▸ hMem, hEvent⟩

end Reached

/-- In every run an event has at most one attempt inside the processing
section, and none once it is processed. If claims are given up, an event that
is not processed can be claimed whenever no attempt at it is running. -/
theorem billing_event_claims {env : Env} {w : World} {requests : List Request} {c₁ c₂ : State}
    (hKeys : (w.webhookEvents.map BillingWebhookEvent.key).Nodup)
    (hIdle : ∀ event ∈ w.webhookEvents, event.processingStartedAt = none)
    (h₁ : store.Reach (fun _ _ => True) (State.start env w requests) c₁) (h₂ : store.Reach (fun _ _ => True) c₁ c₂) :
    (∀ t u key, c₂.processing? t = some key → c₂.processing? u = some key → t = u) ∧
      (∀ t key, c₁.state.isProcessed key → c₂.processing? t ≠ some key) ∧
      (store.Reach (fun c l => givesUpClaims c l) (State.start env w requests) c₂ →
        ∀ (name : SubscriptionProvider) (event : ProviderBillingWebhookEvent),
          (∀ (t : Nat) (th : Thread Op Op.Resp Err World Unit), c₂.threads[t]? = some th →
            requests[t]?.bind Request.eventKey? = some (name, event.eventId) → ¬ th.Running) →
          ¬ c₂.state.isProcessed (name, event.eventId) →
            ((claimWebhookEventForProcessing name event).eval store {} c₂.state).1 = .ok true) := by
  obtain ⟨pts, hI⟩ := attempting_of_reach hKeys hIdle (h₁.trans h₂)
  refine ⟨fun t u key ht hu => hI.claims.unique ht hu, ?_, ?_⟩
  · intro t key hProcessed hHeld
    obtain ⟨event, hMem, hKey, hSome⟩ := isProcessed_of_reach hProcessed h₂
    obtain ⟨other, hOther, hKeyOther, -, hNone⟩ := hI.claims.claimed hHeld
    have hEq := hI.claims.eq_of_key hMem hOther (hKey.trans hKeyOther.symm)
    subst hEq
    rw [hNone] at hSome
    cases hSome
  · intro hReach name event hEnded hOpen
    obtain ⟨pts', hT, hI', hGoing⟩ := going_of_reach hKeys hIdle hReach
    refine claim_wins fun stored hMem hKey => ?_
    cases hStarted : stored.processingStartedAt with
    | none =>
      cases hProcessed : stored.processedAt with
      | none => simp only [BillingWebhookEvent.idle, hStarted, hProcessed, Option.isNone_none, Bool.and_self]
      | some time => exact absurd ⟨stored, hMem, hKey, by rw [hProcessed]; rfl⟩ hOpen
    | some startedAt =>
      obtain ⟨t, ht⟩ := hI'.claims.owned stored hMem (by rw [hStarted]; rfl)
      obtain ⟨th, hThread, hRunning, hRequest⟩ := running_of_processing hT hI' hGoing ht
      exact absurd hRunning (hEnded t th hThread (by rw [hRequest, hKey]))

/-- The first delivery throws at the lookup of the plan and gives the claim up;
the event can be claimed again. -/
theorem billing_event_claims_retried : ∃ c : State, c.history.length = 4 ∧
    ((claimWebhookEventForProcessing .paddle checkoutCompleted).eval store {} c.state).1 = .ok true := by
  obtain ⟨c, hReach, hEnd⟩ := store.exists_of_exec givesUpClaims
    (State.start {} trialWorld [.billingEvent .paddle checkoutCompleted])
    [.run 0 {}, .run 0 {}, .run 0 { fault := some "connection lost" }, .run 0 {}]
    (fun c => c.history.length = 4 && c.threads.all (fun th => !th.next?.isSome) &&
      c.state.webhookEvents.all fun event => event.processedAt.isNone) (by decide +kernel)
  simp only [Bool.and_eq_true, decide_eq_true_eq, List.all_eq_true] at hEnd
  obtain ⟨⟨hLength, hEnded⟩, hOpen⟩ := hEnd
  have h₁ : store.Reach (fun _ _ => True) _ c := hReach.mono fun _ _ _ => trivial
  obtain ⟨-, -, hClaims⟩ := billing_event_claims (by decide) (by decide) h₁ .start
  refine ⟨c, hLength, hClaims hReach .paddle checkoutCompleted ?_ ?_⟩
  · intro t th hThread _ hRunning
    have hNone := hEnded th (List.mem_of_getElem? hThread)
    rw [hRunning.2.2] at hNone
    cases hNone
  · rintro ⟨event, hMem, -, hProcessed⟩
    have hNone := hOpen event hMem
    rw [Option.isNone_iff_eq_none] at hNone
    rw [hNone] at hProcessed
    cases hProcessed

/-- An attempt stops for good right after it claimed its event: nothing is
running, the event is not processed, and no delivery can claim it. -/
theorem billing_event_stranded : ¬ ∀ (env : Env) (w : World) (requests : List Request) (c : State),
    (w.webhookEvents.map BillingWebhookEvent.key).Nodup → (∀ event ∈ w.webhookEvents, event.processingStartedAt = none) →
    store.Reach (fun _ _ => True) (State.start env w requests) c → ∀ (name : SubscriptionProvider)
      (event : ProviderBillingWebhookEvent), c.Quiet → ¬ c.state.isProcessed (name, event.eventId) →
        ((claimWebhookEventForProcessing name event).eval store {} c.state).1 = .ok true := by
  intro hClaim
  obtain ⟨c, hReach, hEnd⟩ := store.exists_of_exec (fun _ _ => true)
    (State.start {} trialWorld [.billingEvent .paddle checkoutCompleted]) [.run 0 {}, .run 0 {}, .stop 0]
    (fun c => c.Quiet && c.state.webhookEvents.all (fun event => event.processedAt.isNone) &&
      ((claimWebhookEventForProcessing .paddle checkoutCompleted).eval store {} c.state).1.toOption = some false)
    (by decide +kernel)
  simp only [Bool.and_eq_true, decide_eq_true_eq, List.all_eq_true] at hEnd
  obtain ⟨⟨hQuiet, hOpen⟩, hLost⟩ := hEnd
  have hWon := hClaim {} _ _ c (by decide) (by decide) (hReach.mono fun _ _ _ => trivial) .paddle checkoutCompleted hQuiet ?_
  · rw [hWon] at hLost
    cases hLost
  · rintro ⟨event, hMem, -, hProcessed⟩
    have hNone := hOpen event hMem
    rw [Option.isNone_iff_eq_none] at hNone
    rw [hNone] at hProcessed
    cases hProcessed

end RestaurantOs.Billing
