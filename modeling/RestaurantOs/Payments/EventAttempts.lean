import RestaurantOs.Async.Attempts
import RestaurantOs.Connections.AccountEvents
import RestaurantOs.Payments.Outcomes
import RestaurantOs.Payments.StatusMoves

/-!
# Attempts at a provider's event

An attempt at an event may throw or stop anywhere. The record that the event has
been seen is inserted before the event has its effect: what an attempt leaves
undone after that insert no later delivery makes up for.
-/

namespace RestaurantOs.Payments

open Async Prog

/-- A delivery of the event: what its operations met, the world it began in, its
outcome, and the world it left. It has no outcome when the process stopped. -/
structure Attempt where
  turns : Nat → Option (Except String Answer)
  before : World
  outcome : Option (Except Err Unit)
  after : World

def World.hasSeen (w : World) (provider : ProviderName) (eventId : String) : Bool :=
  w.webhookEvents.any fun e => e.provider = provider && e.eventId = eventId

def World.unseen (w : World) (provider : ProviderName) (eventId : String) : World :=
  { w with webhookEvents := w.webhookEvents.filter fun e => !(e.provider = provider && e.eventId = eventId) }

def World.SameBooks (w w' : World) : Prop := w.payments = w'.payments ∧ w.orders = w'.orders ∧ w.refunds = w'.refunds

instance (w w' : World) : Decidable (w.SameBooks w') := inferInstanceAs (Decidable (_ ∧ _ ∧ _))

/-- The event is delivered, one attempt after another; the history has the last
one first. Anything else may happen in between, but for the event's record. -/
inductive Delivered (provider : ProviderName) (event : ProviderWebhookEvent) (account : Option Id) (w₀ : World) :
    List Attempt → World → Prop
  | start : Delivered provider event account w₀ [] w₀
  | between {history : List Attempt} {w w' : World} (h : Delivered provider event account w₀ history w)
      (hRecord : w'.hasSeen provider event.eventId = w.hasSeen provider event.eventId) :
      Delivered provider event account w₀ history w'
  | attempt {history : List Attempt} {w w' : World} {outcome : Option (Except Err Unit)}
      (turns : Nat → Option (Except String Answer)) (h : Delivered provider event account w₀ history w)
      (hReached : (processProviderEvent provider event account).reached faultyStore turns w = (outcome, w')) :
      Delivered provider event account w₀ (⟨turns, w, outcome, w'⟩ :: history) w'

def Op.ofEvent : Op → Bool
  | .event _ => true
  | _ => false

section Effects

variable (provider : ProviderName) (event : ProviderWebhookEvent) (account : Option Id)

def Attempt.completed (d : Attempt) : Bool := d.outcome.any Except.isOk

def Attempt.Applies (d : Attempt) : Prop :=
  let first := (processProviderEvent provider event account).eval store {} (d.before.unseen provider event.eventId)
  first.1.isOk = true ∧ d.after.SameBooks first.2

def Attempt.Idle (d : Attempt) : Prop := d.after.SameBooks d.before

/-- What the attempt does not get through is the insert of the event's record or
its mark as processed. -/
def Attempt.Spared (d : Attempt) : Prop :=
  ∀ o ∈ (processProviderEvent provider event account).failures faultyStore d.turns d.before, o.ofEvent = true

def AppliedOnce : List Attempt → Prop
  | [] => False
  | d :: earlier => (d.Applies provider event account ∧ ∀ e ∈ earlier, e.Idle) ∨ (d.Idle ∧ AppliedOnce earlier)

def attempts : List (Nat → Option (Except String Answer)) → List Attempt × World → List Attempt × World
  | [], c => c
  | turns :: script, c =>
    let reached := (processProviderEvent provider event account).reached faultyStore turns c.2
    attempts script (⟨turns, c.2, reached.1, reached.2⟩ :: c.1, reached.2)

instance (d : Attempt) : Decidable (d.Applies provider event account) := inferInstanceAs (Decidable (_ ∧ _))

instance (d : Attempt) : Decidable d.Idle := inferInstanceAs (Decidable (World.SameBooks _ _))

instance (d : Attempt) : Decidable (d.Spared provider event account) := inferInstanceAs (Decidable (∀ o ∈ _, _))

instance AppliedOnce.decidable : (history : List Attempt) → Decidable (AppliedOnce provider event account history)
  | [] => inferInstanceAs (Decidable False)
  | d :: earlier =>
    have := AppliedOnce.decidable earlier
    inferInstanceAs (Decidable ((d.Applies provider event account ∧ ∀ e ∈ earlier, e.Idle) ∨
      (d.Idle ∧ AppliedOnce provider event account earlier)))

end Effects

/-! ## What the processing performs -/

def Op.ofEffect : Op → Bool
  | .receive | .provider _ | .event _ => false
  | _ => true

theorem performs_effect {o : Op} (h : o.ofEffect = true) : (call o : Promise o.Resp).Performs fun o => o.ofEffect :=
  performs_call h

theorem Op.ofEffect_of_outcome {o : Op} (h : o.ofOutcome = true) : o.ofEffect = true := by
  cases o with
  | receive => cases h
  | event op => cases h
  | provider op => cases h
  | _ => rfl

theorem Op.perform_effect {o : Op} (h : o.ofEffect = true) (b : Except String Answer) (w : World)
    (hOk : (faultyStore.perform o b w).1.isOk = true) :
    faultyStore.perform o b w = faultyStore.perform o (.ok {}) w := by
  cases b with
  | error fault => cases hOk
  | ok a =>
    cases o with
    | receive => cases h
    | event op => cases h
    | provider op => cases h
    | _ => rfl

theorem applyProviderRefundUpdate_performs (provider : ProviderName) (update : ProviderRefundUpdate) (account : Option Id) :
    (applyProviderRefundUpdate provider update account).Performs fun o => o.ofEffect := by
  unfold applyProviderRefundUpdate findUpdatedRefund
  refine Performs.bind ((performs_effect rfl).bind fun byRef => ?_) fun refund => ?_
  · cases byRef with
    | some refund => trivial
    | none =>
      cases update.refundKey with
      | none => trivial
      | some key => exact performs_effect rfl
  · cases refund with
    | none => trivial
    | some refund =>
      refine (performs_effect rfl).bind fun payment => ?_
      split
      · trivial
      · exact ((applyRefundOutcome_performs _ _ _ _ none).mono fun _ => Op.ofEffect_of_outcome).bind fun _ => trivial

theorem applyPaymentStatusTransition_performs (payment : Payment) (status : PaymentStatus) :
    (applyPaymentStatusTransition payment status).Performs fun o => o.ofEffect := by
  unfold applyPaymentStatusTransition
  refine (performs_effect rfl).bind fun order => ?_
  cases order with
  | none => trivial
  | some order => exact performs_effect rfl

/-! ## What the processing raises -/

theorem endsWell_syncPaymentRefundStatus (paymentId : Id) (w : World) :
    (syncPaymentRefundStatus paymentId).EndsWell faultyStore (.ok {}) w := by
  unfold syncPaymentRefundStatus
  refine endsWell_call.bind fun payment w _ => ?_
  cases payment with
  | none => exact endsWell_ret
  | some payment =>
    dsimp only
    split
    · exact endsWell_ret
    · refine endsWell_call.bind fun total w _ => ?_
      split
      · exact endsWell_ret
      · exact endsWell_call.bind fun _ _ _ => endsWell_ret

theorem endsWell_settlementEffects (before updated : Refund) (target : RefundStatus) (method : ReportMethod)
    (ctx : ActorContext) (w : World) :
    (settlementEffects before updated target method ctx).EndsWell faultyStore (.ok {}) w := by
  unfold settlementEffects adjustTotal
  refine EndsWell.bind ?_ fun _ w _ => (endsWell_syncPaymentRefundStatus _ _).bind fun paymentStatus w _ => ?_
  · split
    · exact endsWell_call
    · split
      · exact endsWell_call
      · exact endsWell_ret
  · refine (endsWell_onlyIf endsWell_call).bind fun _ w _ => (endsWell_onlyIf ?_).bind fun _ w _ => endsWell_ret
    unfold announceRefund
    refine endsWell_call.bind fun order w _ => ?_
    cases order with
    | none => exact endsWell_ret
    | some order => exact (endsWell_onlyIf endsWell_call).bind fun _ _ _ => endsWell_call

theorem settled_found {s : Settlement} {w w' : World} {before : Refund}
    (h : (RefundOp.settle s).perform w = (.ok (some before), w')) :
    (w'.refunds.find? fun r => r.id = s.id).isSome = true := by
  simp only [RefundOp.perform] at h
  split at h
  · cases h
  · rename_i found hFound
    split at h
    · cases h
    · cases h
      rw [List.find?_isSome]
      have hSel := List.find?_some hFound
      refine ⟨before.settled s, Tables.mem_update.mpr ⟨before, List.mem_of_find?_eq_some hFound, ?_⟩, ?_⟩
      · rw [if_pos hSel]
      · simp only [Bool.and_eq_true, decide_eq_true_eq] at hSel
        exact decide_eq_true hSel.1

theorem endsWell_applyRefundOutcome (refund : Refund) (report : RefundReport) (method : ReportMethod)
    (ctx : ActorContext) (w : World) :
    (applyRefundOutcome refund report method ctx).EndsWell faultyStore (.ok {}) w := by
  unfold applyRefundOutcome
  refine endsWell_call.bind fun current w _ => ?_
  cases current with
  | none => exact endsWell_ret
  | some current =>
    dsimp only
    split
    · exact endsWell_call.bind fun _ _ _ => endsWell_call
    · split
      · exact endsWell_ret
      · refine endsWell_call.bind fun now w _ => endsWell_call.bind fun before w' hSettled => ?_
        cases before with
        | none => exact endsWell_call
        | some before =>
          refine endsWell_call.bind fun updated w'' hUpdated => ?_
          have hFound := settled_found ((eval_call _).symm.trans hSettled)
          replace hUpdated := (eval_call _).symm.trans hUpdated
          have hRead : w'.refunds.find? (fun r => r.id = current.id) = updated := by
            injection hUpdated with hResult _
            injection hResult
          rw [hRead] at hFound
          obtain ⟨found, rfl⟩ := Option.isSome_iff_exists.mp hFound
          exact endsWell_settlementEffects _ _ _ _ _ _

theorem endsWell_applyProviderRefundUpdate (provider : ProviderName) (update : ProviderRefundUpdate)
    (account : Option Id) (w : World) :
    (applyProviderRefundUpdate provider update account).EndsWell faultyStore (.ok {}) w := by
  unfold applyProviderRefundUpdate findUpdatedRefund
  refine EndsWell.bind (endsWell_call.bind fun byRef w _ => ?_) fun refund w _ => ?_
  · cases byRef with
    | some refund => exact endsWell_ret
    | none =>
      cases update.refundKey with
      | none => exact endsWell_ret
      | some key => exact endsWell_call
  · cases refund with
    | none => exact endsWell_ret
    | some refund =>
      refine endsWell_call.bind fun payment w _ => ?_
      split
      · exact endsWell_ret
      · exact (endsWell_applyRefundOutcome _ _ _ _ _).bind fun _ _ _ => endsWell_ret

theorem endsWell_applyPaymentStatusTransition (payment : Payment) (status : PaymentStatus) (w : World) :
    (applyPaymentStatusTransition payment status).EndsWell faultyStore (.ok {}) w := by
  unfold applyPaymentStatusTransition
  refine endsWell_call.bind fun order w _ => ?_
  cases order with
  | none => exact endsWell_ret
  | some order => exact endsWell_call

/-! ## One attempt -/

/-- However an attempt at `p` goes that fails only at the event's record, it
leaves what `p` leaves when nothing fails. -/
def LeavesWhole (p : Promise Unit) (w : World) : Prop :=
  ∀ turns, (∀ o ∈ p.failures faultyStore turns w, o.ofEvent = true) →
    (p.eval faultyStore (.ok {}) w).1.isOk = true ∧
      (p.reached faultyStore turns w).2.SameBooks (p.eval faultyStore (.ok {}) w).2

theorem leavesWhole_finish (provider : ProviderName) (eventId : String) (processedAt : Option Time)
    (processingError : Option String) (w : World) :
    LeavesWhole (eventOp (.finish provider eventId processedAt processingError)) w := by
  intro turns _
  rw [eventOp, call]
  simp only [eval, reached]
  cases turns 0 with
  | none => exact ⟨rfl, rfl, rfl, rfl⟩
  | some turn => cases turn <;> exact ⟨rfl, rfl, rfl, rfl⟩

theorem LeavesWhole.bind {α : Type} {p : Promise α} {f : α → Promise Unit} {w : World}
    (hPerforms : p.Performs fun o => o.ofEffect) (hEnds : p.EndsWell faultyStore (.ok {}) w)
    (hf : ∀ v w', LeavesWhole (f v) w') : LeavesWhole (p.bind f) w := by
  intro turns hOnly
  obtain ⟨used, hReached, hFailures⟩ := @reached_bind _ _ _ _ _ _ _ _ faultyStore turns w p f
  rw [hFailures] at hOnly
  have hNone : p.failures faultyStore turns w = [] := by
    apply List.eq_nil_iff_forall_not_mem.mpr
    intro o ho
    have hEffect := hPerforms.of_failures _ ho
    cases o with
    | event op => cases hEffect
    | _ => cases hOnly _ (List.mem_append_left _ ho)
  obtain ⟨hEval, hAnswered⟩ := reached_eq_eval (hPerforms.mono fun o ho => Op.perform_effect ho) hNone
  have hOk := hEnds hAnswered
  obtain ⟨v, hValue⟩ := exists_of_isOk hOk
  rw [hEval, hValue] at hReached hOnly
  rw [hReached, eval_bind_ok (Prod.ext hValue rfl)]
  exact hf v _ _ fun o ho => hOnly o (List.mem_append_right _ ho)

theorem LeavesWhole.call_bind {o : Op} {f : o.Resp → Promise Unit} {w : World} (h : o.ofEffect = true)
    (hf : ∀ v w', LeavesWhole (f v) w') : LeavesWhole ((call o).bind f) w :=
  LeavesWhole.bind (performs_effect h) endsWell_call hf

theorem leavesWhole_applyProviderEvent (provider : ProviderName) (event : ProviderWebhookEvent) (account : Option Id)
    (w : World) : LeavesWhole (applyProviderEvent provider event account) w := by
  unfold applyProviderEvent
  split
  · refine .bind (applyProviderRefundUpdate_performs _ _ _) (endsWell_applyProviderRefundUpdate _ _ _ _) fun _ w => ?_
    exact .call_bind rfl fun now w => leavesWhole_finish _ _ _ _ _
  · unfold applyPaymentEvent
    refine .call_bind rfl fun payment w => ?_
    cases payment with
    | none => exact leavesWhole_finish _ _ _ _ _
    | some payment =>
      dsimp only
      split
      · exact .call_bind rfl fun now w => leavesWhole_finish _ _ _ _ _
      · refine .bind (applyPaymentStatusTransition_performs _ _) (endsWell_applyPaymentStatusTransition _ _ _)
          fun _ w => ?_
        exact .call_bind rfl fun now w => leavesWhole_finish _ _ _ _ _

section Attempts

variable {provider : ProviderName} {event : ProviderWebhookEvent} {account : Option Id} {w w' : World}
  {turns : Nat → Option (Except String Answer)} {outcome : Option (Except Err Unit)}

theorem processProviderEvent_eq :
    processProviderEvent provider event account =
      .await (.event (.create provider event.eventId event.eventType)) fun
        | .error err => if err.isDuplicateKey then .ret () else .raise err
        | .ok _ => applyProviderEvent provider event account := by
  rw [processProviderEvent, eventOp, call]
  simp only [attempt, bind_eq, Prog.bind]
  congr 1
  funext r
  cases r <;> rfl

theorem PaymentOp.perform_fields (op : PaymentOp) (w : World) :
    (op.perform w).2 = { w with
      payments := (op.perform w).2.payments, orders := (op.perform w).2.orders, nextId := (op.perform w).2.nextId } := by
  cases op with
  | create draft =>
    simp only [perform]
    split
    · rfl
    · split <;> rfl
  | reserve payment claim =>
    simp only [perform]
    split <;> rfl
  | setStatus payment next =>
    simp only [perform]
    split
    · rfl
    · split <;> rfl
  | transition payment next =>
    simp only [perform]
    split
    · rfl
    · split
      · rfl
      · split
        · rfl
        · split <;> rfl
  | _ => rfl

theorem Op.hasSeen_perform {eventId : String} (o : Op) (a : Answer) (h : w.hasSeen provider eventId = true) :
    (o.perform a w).2.hasSeen provider eventId = true := by
  have hKept : ∀ {w'' : World}, w''.webhookEvents = w.webhookEvents → w''.hasSeen provider eventId = true := by
    intro w'' hSame
    rwa [World.hasSeen, hSame]
  cases o with
  | event op =>
    cases op with
    | create provider' eventId eventType =>
      simp only [Op.perform, EventOp.perform]
      split
      · exact h
      · unfold World.hasSeen at h ⊢
        rw [List.any_append, h, Bool.true_or]
    | finish provider' eventId processedAt processingError =>
      obtain ⟨e, he, hKey⟩ := List.any_eq_true.mp h
      refine List.any_eq_true.mpr ⟨_, Tables.mem_update.mpr ⟨e, he, rfl⟩, ?_⟩
      split <;> exact hKey
  | refund op => exact hKept ((congrArg World.webhookEvents (op.perform_fields w)).trans rfl)
  | payment op => exact hKept ((congrArg World.webhookEvents (op.perform_fields w)).trans rfl)
  | account op => exact hKept ((congrArg World.webhookEvents (op.perform_fields w)).trans rfl)
  | provider op => exact hKept ((congrArg World.webhookEvents (op.perform_fields a w)).trans rfl)
  | order op => cases op <;> exact h
  | _ => exact h

theorem hasSeen_reached {eventId : String} {p : Promise Unit} (h : w.hasSeen provider eventId = true)
    (hReached : p.reached faultyStore turns w = (outcome, w')) : w'.hasSeen provider eventId = true := by
  have hKept : (p.reached faultyStore turns w).2.hasSeen provider eventId = true := by
    apply (performs_all p).reached (I := fun w : World => w.hasSeen provider eventId = true) _ h
    intro o b w _ hw
    cases b with
    | error fault => exact hw
    | ok a => exact o.hasSeen_perform a hw
  rwa [hReached] at hKept

theorem World.SameBooks.refl (w : World) : w.SameBooks w := ⟨rfl, rfl, rfl⟩

theorem attempt_seen (hSeen : w.hasSeen provider event.eventId = true)
    (hReached : (processProviderEvent provider event account).reached faultyStore turns w = (outcome, w')) : w' = w := by
  rw [processProviderEvent_eq] at hReached
  simp only [reached] at hReached
  cases hTurn : turns 0 with
  | none =>
    simp only [hTurn] at hReached
    cases hReached
    rfl
  | some turn =>
    cases turn with
    | error fault =>
      simp only [hTurn, Err.isDuplicateKey, Bool.false_eq_true, if_false] at hReached
      cases hReached
      rfl
    | ok a =>
      have hTaken : (w.webhookEvents.any fun e => e.provider = provider && e.eventId = event.eventId) = true := hSeen
      simp only [hTurn, Op.perform, EventOp.perform, hTaken, if_true, Err.isDuplicateKey] at hReached
      cases hReached
      rfl

theorem unseen_eq (h : w.hasSeen provider event.eventId = false) : w.unseen provider event.eventId = w := by
  have hNone : ∀ e ∈ w.webhookEvents, (!(e.provider = provider && e.eventId = event.eventId)) = true := by
    intro e he
    have hNot := List.any_eq_false.mp h e he
    rw [Bool.not_eq_true] at hNot
    rw [hNot]
    rfl
  rw [World.unseen, List.filter_eq_self.mpr hNone]

theorem attempt_unseen (hUnseen : w.hasSeen provider event.eventId = false)
    (hReached : (processProviderEvent provider event account).reached faultyStore turns w = (outcome, w'))
    (hSpared : Attempt.Spared provider event account ⟨turns, w, outcome, w'⟩) :
    (w' = w ∧ outcome.any Except.isOk = false) ∨
      (w'.hasSeen provider event.eventId = true ∧ Attempt.Applies provider event account ⟨turns, w, outcome, w'⟩) := by
  rw [processProviderEvent_eq] at hReached
  rw [Attempt.Spared, processProviderEvent_eq] at hSpared
  simp only [reached] at hReached
  simp only [failures] at hSpared
  cases hTurn : turns 0 with
  | none =>
    simp only [hTurn] at hReached
    cases hReached
    exact .inl ⟨rfl, rfl⟩
  | some turn =>
    cases turn with
    | error fault =>
      simp only [hTurn, Err.isDuplicateKey, Bool.false_eq_true, if_false] at hReached
      cases hReached
      exact .inl ⟨rfl, rfl⟩
    | ok a =>
      have hFree : (w.webhookEvents.any fun e => e.provider = provider && e.eventId = event.eventId) = false := hUnseen
      simp only [hTurn, Op.perform, EventOp.perform, hFree, Bool.false_eq_true, if_false] at hReached hSpared
      obtain ⟨hOk, hBooks⟩ := leavesWhole_applyProviderEvent provider event account _ _ hSpared
      rw [hReached] at hBooks
      refine .inr ⟨?_, ?_⟩
      · refine hasSeen_reached ?_ hReached
        simp [World.hasSeen]
      · rw [Attempt.Applies, unseen_eq hUnseen, processProviderEvent_eq]
        simp only [eval, Op.perform, EventOp.perform, hFree, Bool.false_eq_true, if_false]
        rw [← eval_faulty]
        exact ⟨hOk, hBooks⟩

theorem delivered_attempts {w₀ : World} (script : List (Nat → Option (Except String Answer))) {c : List Attempt × World}
    (h : Delivered provider event account w₀ c.1 c.2) :
    Delivered provider event account w₀ (attempts provider event account script c).1
      (attempts provider event account script c).2 := by
  induction script generalizing c with
  | nil => exact h
  | cons turns script ih => exact ih (.attempt turns h rfl)

end Attempts

/-! ## All attempts -/

section Deliveries

variable {provider : ProviderName} {event : ProviderWebhookEvent} {account : Option Id} {w₀ w : World}
  {history : List Attempt}

theorem delivered_cases (hNew : w₀.hasSeen provider event.eventId = false)
    (h : Delivered provider event account w₀ history w) (hSpared : ∀ d ∈ history, d.Spared provider event account) :
    (w.hasSeen provider event.eventId = false ∧ ∀ d ∈ history, d.Idle ∧ d.completed = false) ∨
      (w.hasSeen provider event.eventId = true ∧ AppliedOnce provider event account history) := by
  induction h with
  | start => exact .inl ⟨hNew, by simp⟩
  | between _ hRecord ih =>
    rw [hRecord]
    exact ih hSpared
  | @attempt history w w' outcome turns _ hReached ih =>
    rcases ih fun d hd => hSpared d (List.mem_cons_of_mem _ hd) with ⟨hUnseen, hIdle⟩ | ⟨hSeen, hApplied⟩
    · rcases attempt_unseen hUnseen hReached (hSpared _ List.mem_cons_self) with ⟨rfl, hFailed⟩ | ⟨hSeen, hApplies⟩
      · refine .inl ⟨hUnseen, fun d hd => ?_⟩
        rcases List.mem_cons.mp hd with rfl | hd
        · exact ⟨.refl _, hFailed⟩
        · exact hIdle d hd
      · exact .inr ⟨hSeen, .inl ⟨hApplies, fun d hd => (hIdle d hd).1⟩⟩
    · obtain rfl := attempt_seen hSeen hReached
      exact .inr ⟨hSeen, .inr ⟨.refl _, hApplied⟩⟩

/-- An event of which one delivery has been completed has had its effect once,
whatever failed before. -/
theorem provider_event_applied (hNew : w₀.hasSeen provider event.eventId = false)
    (h : Delivered provider event account w₀ history w) (hSpared : ∀ d ∈ history, d.Spared provider event account)
    (hCompleted : ∃ d ∈ history, d.completed = true) : AppliedOnce provider event account history := by
  rcases delivered_cases hNew h hSpared with ⟨-, hNone⟩ | ⟨-, hApplied⟩
  · obtain ⟨d, hd, hDone⟩ := hCompleted
    rw [(hNone d hd).2] at hDone
    cases hDone
  · exact hApplied

end Deliveries

def paidEvent : ProviderWebhookEvent where
  eventId := "evt_1"
  eventType := "checkout.session.completed"
  providerRef := "cs_1"
  status := .paid

def throwsAt (n : Nat) : Nat → Option (Except String Answer) :=
  fun i => some (if i = n then .error "connection lost" else .ok {})

/-- The insert throws, the mark of the next attempt does, and the third one is
completed. -/
theorem paidEvent_applied :
    (attempts .stripe paidEvent none [throwsAt 0, throwsAt 5, throwsAt 9] ([], openCheckout)).2.payments.map Payment.status =
        [.paid] ∧
      AppliedOnce .stripe paidEvent none
        (attempts .stripe paidEvent none [throwsAt 0, throwsAt 5, throwsAt 9] ([], openCheckout)).1 :=
  ⟨by decide, provider_event_applied (by decide) (delivered_attempts _ .start) (by decide) (by decide)⟩

/-- The lookup of the payment throws after the insert: the next delivery is
completed, and the payment is not paid. -/
theorem provider_event_lost :
    ¬ ∀ (provider : ProviderName) (event : ProviderWebhookEvent) (account : Option Id) (w₀ w : World) (history : List Attempt),
      w₀.hasSeen provider event.eventId = false → Delivered provider event account w₀ history w →
        (∃ d ∈ history, d.completed = true) → AppliedOnce provider event account history := by
  intro hAll
  have hApplied := hAll .stripe paidEvent none openCheckout _ _ (by decide)
    (delivered_attempts [throwsAt 1, throwsAt 9] (c := ([], openCheckout)) .start) (by decide)
  revert hApplied
  decide

end RestaurantOs.Payments
