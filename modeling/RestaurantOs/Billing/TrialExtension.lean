import RestaurantOs.Async.Sequential
import RestaurantOs.Billing.Lifecycle

/-!
# Held trials

While nobody can pay, a trial without a card stays live past its end. Only a
sweep writes the grace that follows, so that from the moment the extension is
switched off until that sweep a held trial is not live.
-/

namespace RestaurantOs.Billing

open Async Prog

/-- `extensionActive` is `trialExtensionActive()`. -/
def isSubscriptionLive (extensionActive : Bool) (sub : Subscription) (now : Time) : Bool :=
  if !sub.status.live then false
  else if sub.status = .trialing && sub.trialEnd.any (· ≤ now) then extensionActive && isExtendableTrial sub
  else true

inductive TrialStep
  | tick (elapsed : Time)
  | switch (active : Bool)
  | sweep
  deriving DecidableEq

namespace World

def isLive (w : World) (id : Id) : Bool :=
  (w.subscription? id).any fun stored => isSubscriptionLive w.trialExtensionActive stored w.now

def isHeldLive (w : World) (id : Id) : Bool :=
  w.isLive id && !(w.subscription? id).any fun stored => isSubscriptionLive false stored w.now

def after (env : Env) (w : World) : TrialStep → World
  | .tick elapsed => (Event.tick elapsed).advance w
  | .switch active => (Event.switch active).advance w
  | .sweep => ((runTrialExpirationSweep env).eval store {} w).2

def sweptAt? (env : Env) : World → List TrialStep → Option Time
  | _, [] => none
  | w, .sweep :: _ => some w.now
  | w, step :: rest => sweptAt? env (w.after env step) rest

def StaysLive (env : Env) (id : Id) (w : World) (steps : List TrialStep) : Prop :=
  ∀ taken, taken <+: steps → (∀ time, w.sweptAt? env taken = some time →
    (taken.foldl (after env) w).now < time + env.trialGraceDays * DAY_MS) → (taken.foldl (after env) w).isLive id = true

end World

/-! ## A held trial stays as it is -/

structure World.Held (w : World) (id : Id) : Prop where
  active : w.trialExtensionActive = true
  ids : (w.subscriptions.map Subscription.id).Nodup
  stored : ∃ stored, w.subscription? id = some stored ∧ isExtendableTrial stored = true ∧ stored.trialEnd.any (· ≤ w.now) = true

section Held

variable {env : Env} {w : World} {id : Id} {stored : Subscription}

theorem isSubscriptionLive_held (h : isSubscriptionLive true stored w.now = true) (hNot : isSubscriptionLive false stored w.now = false) :
    isExtendableTrial stored = true ∧ stored.trialEnd.any (· ≤ w.now) = true := by
  unfold isSubscriptionLive at h hNot
  split at h
  · cases h
  · rename_i hStatus
    rw [if_neg hStatus] at hNot
    split at h
    · rename_i hOver
      rw [Bool.and_eq_true] at hOver
      exact ⟨by simpa using h, hOver.2⟩
    · rename_i hOver
      rw [if_neg hOver] at hNot
      cases hNot

theorem World.Held.of_live (hIds : (w.subscriptions.map Subscription.id).Nodup) (h : w.isHeldLive id = true) : w.Held id := by
  unfold isHeldLive isLive at h
  cases hStored : w.subscription? id with
  | none =>
    rw [hStored] at h
    cases h
  | some stored =>
    rw [hStored, Option.any_some, Option.any_some, Bool.and_eq_true, Bool.not_eq_true'] at h
    cases hActive : w.trialExtensionActive with
    | false =>
      rw [hActive, h.2] at h
      cases h.1
    | true =>
      rw [hActive] at h
      exact ⟨hActive, hIds, stored, hStored, isSubscriptionLive_held h.1 h.2⟩

theorem World.Held.not_live (h : w.Held id) : ((Event.switch false).advance w).isLive id = false := by
  obtain ⟨stored, hStored, hTrial, hOver⟩ := h.stored
  have hSame : ((Event.switch false).advance w).subscription? id = some stored := hStored
  have hStatus : stored.status = .trialing := by
    simp only [isExtendableTrial, Bool.and_eq_true, decide_eq_true_eq] at hTrial
    exact hTrial.1.1
  have hNow : ((Event.switch false).advance w).now = w.now := rfl
  rw [isLive, hSame, Option.any_some, hNow]
  simp only [Event.advance, isSubscriptionLive, hStatus, SubscriptionStatus.live, decide_true, Bool.true_and, hOver, if_true,
    Bool.false_and, Bool.not_true, Bool.false_eq_true, if_false]

def Op.spares (id : Id) : Op → Prop
  | .subscription (.findOneAndUpdate filter _) => filter.id ≠ id
  | .history (.create _) => True
  | _ => False

theorem ids_update {sel : Subscription → Bool} {f : Subscription → Subscription} (hId : ∀ s, (f s).id = s.id) :
    (Tables.update sel f w.subscriptions).map Subscription.id = w.subscriptions.map Subscription.id := by
  rw [Tables.update, List.map_map]
  refine List.map_congr_left fun s _ => ?_
  change Subscription.id (if sel s = true then f s else s) = s.id
  split
  · exact hId s
  · rfl

theorem World.Held.perform (h : w.Held id) {o : Op} (hSpares : o.spares id) : (o.perform {} w).2.Held id := by
  obtain ⟨hActive, hIds, stored, hStored, hTrial, hOver⟩ := h
  obtain ⟨next, hNext, hTurns⟩ := o.turns {} hStored
  have hSame : next = stored := by
    cases hTurns with
    | same => rfl
    | @updated filter update hOp hSelects =>
      subst hOp
      have hId : stored.id = filter.id := (SubscriptionFilter.selects_iff.mp hSelects).1
      exact absurd (hId.symm.trans (World.id_of_subscription hStored)) hSpares
    | held hOp =>
      subst hOp
      cases hSpares
  subst hSame
  cases o with
  | subscription op =>
    cases op with
    | findOneAndUpdate filter update =>
      have hFields : ((Op.subscription (.findOneAndUpdate filter update)).perform {} w).2.trialExtensionActive = w.trialExtensionActive ∧
          ((Op.subscription (.findOneAndUpdate filter update)).perform {} w).2.now = w.now ∧
          ((Op.subscription (.findOneAndUpdate filter update)).perform {} w).2.subscriptions.map Subscription.id =
            w.subscriptions.map Subscription.id := by
        simp only [Op.perform, unlessFault, SubscriptionOp.perform]
        split
        · exact ⟨rfl, rfl, rfl⟩
        · split
          · exact ⟨rfl, rfl, rfl⟩
          · exact ⟨rfl, rfl, ids_update fun _ => rfl⟩
      obtain ⟨hActiveSame, hNow, hIdsSame⟩ := hFields
      refine ⟨hActiveSame.trans hActive, by rw [hIdsSame]; exact hIds, next, hNext, hTrial, ?_⟩
      rw [hNow]
      exact hOver
    | _ => cases hSpares
  | history op =>
    cases op with
    | create row =>
      have hFields : ((Op.history (.create row)).perform {} w).2.trialExtensionActive = w.trialExtensionActive ∧
          ((Op.history (.create row)).perform {} w).2.now = w.now ∧
          ((Op.history (.create row)).perform {} w).2.subscriptions = w.subscriptions := by
        simp only [Op.perform, HistoryOp.perform]
        split <;> exact ⟨rfl, rfl, rfl⟩
      obtain ⟨hActiveSame, hNow, hSubscriptions⟩ := hFields
      refine ⟨hActiveSame.trans hActive, by rw [hSubscriptions]; exact hIds, next, hNext, hTrial, ?_⟩
      rw [hNow]
      exact hOver
    | _ => cases hSpares
  | _ => cases hSpares

theorem World.Held.eval {α : Type} {p : Promise α} (h : w.Held id) (hSpares : p.Performs (Op.spares id)) :
    (p.eval store {} w).2.Held id :=
  Performs.eval (I := fun s => World.Held s id) hSpares (fun _ _ hOp hHeld => hHeld.perform hOp) h

theorem performs_forEach_mem {β : Type} {ok : Op → Prop} {f : β → Promise Unit} {xs : List β}
    (h : ∀ x ∈ xs, (f x).Performs ok) : (Prog.forEach f xs).Performs ok := by
  induction xs with
  | nil => trivial
  | cons x xs ih => exact (h x List.mem_cons_self).bind fun _ => ih fun y hMem => h y (List.mem_cons_of_mem _ hMem)

theorem World.Held.hold (h : w.Held id) (now : Time) :
    ((Op.subscription (.holdTrials now)).perform {} w).2.Held id := by
  obtain ⟨hActive, hIds, stored, hStored, hTrial, hOver⟩ := h
  obtain ⟨next, hNext, hTurns⟩ := (Op.subscription (.holdTrials now)).turns {} hStored
  refine ⟨hActive, ?_, next, hNext, ?_⟩
  · have hSame : ((Op.subscription (.holdTrials now)).perform {} w).2.subscriptions.map Subscription.id =
        w.subscriptions.map Subscription.id := ids_update fun _ => rfl
    rw [hSame]
    exact hIds
  · cases hTurns with
    | same => exact ⟨hTrial, hOver⟩
    | updated hOp => cases hOp
    | held => exact ⟨hTrial, hOver⟩

theorem World.Held.expireLapsed (h : w.Held id) (now : Time) : ((expireLapsed now).eval store {} w).2.Held id := by
  have hHolding : Billing.trialExtensionActive.eval store {} w = (.ok true, w) := by
    change (Except.ok w.trialExtensionActive, w) = _
    rw [h.active]
  have hCandidates : (subscriptionOp (.findLapsed now true)).eval store {} w =
      (.ok (w.subscriptions.filter fun s => s.trialOver now && (!true || s.backed)), w) := rfl
  unfold Billing.expireLapsed
  rw [bind_eq, eval_bind_ok hHolding, bind_eq, eval_bind_ok hCandidates]
  refine h.eval (performs_forEach_mem fun candidate hMem => ?_)
  obtain ⟨hStored, hSel⟩ := List.mem_filter.mp hMem
  obtain ⟨stored, hFound, hTrial, -⟩ := h.stored
  have hNe : candidate.id ≠ id := by
    intro hEq
    have hSame : candidate = stored := List.inj_on_of_nodup_map h.ids hStored (List.mem_of_find?_eq_some hFound)
      (hEq.trans (World.id_of_subscription hFound).symm)
    subst hSame
    simp only [isExtendableTrial, Bool.and_eq_true, Bool.not_eq_true'] at hTrial
    simp only [Bool.not_true, Bool.false_or, Bool.and_eq_true, hTrial.1.2] at hSel
    exact absurd hSel.2 Bool.false_ne_true
  unfold expireTrial findOneAndUpdate
  have hSpares : Op.spares id (writes { id := candidate.id, status := some .trialing } { status := some .expired }) := hNe
  refine Performs.bind (performs_call hSpares) fun updated => ?_
  cases updated with
  | none => trivial
  | some updated => exact performs_call trivial

theorem World.Held.after (h : w.Held id) {step : TrialStep} (hOn : step ≠ .switch false) : (w.after env step).Held id := by
  cases step with
  | tick elapsed =>
    obtain ⟨hActive, hIds, stored, hStored, hTrial, hOver⟩ := h
    refine ⟨hActive, hIds, stored, hStored, hTrial, ?_⟩
    obtain ⟨trialEnd, hEnd, hLe⟩ := (Option.any_eq_true _ _).mp hOver
    exact (Option.any_eq_true _ _).mpr ⟨trialEnd, hEnd,
      decide_eq_true ((of_decide_eq_true hLe).trans (Nat.le_add_right _ _))⟩
  | switch active =>
    cases active with
    | false => exact absurd rfl hOn
    | true => exact ⟨rfl, h.ids, h.stored⟩
  | sweep =>
    have hNow : dateNow.eval store {} w = (.ok w.now, w) := rfl
    have hHolding : Billing.trialExtensionActive.eval store {} w = (.ok true, w) := by
      change (Except.ok w.trialExtensionActive, w) = _
      rw [h.active]
    have hHold : (subscriptionOp (.holdTrials w.now)).eval store {} w =
        (.ok (), ((Op.subscription (.holdTrials w.now)).perform {} w).2) := rfl
    unfold World.after runTrialExpirationSweep
    rw [bind_eq, eval_bind_ok hNow, bind_eq, eval_bind_ok hHolding, if_pos rfl, bind_eq, eval_bind_ok hHold]
    exact (h.hold w.now).expireLapsed w.now

theorem World.Held.foldl (h : w.Held id) {steps : List TrialStep} (hOn : ∀ step ∈ steps, step ≠ .switch false) :
    (steps.foldl (World.after env) w).Held id := by
  induction steps generalizing w with
  | nil => exact h
  | cons step rest ih =>
    exact ih (h.after (hOn step List.mem_cons_self)) fun later hMem => hOn later (List.mem_cons_of_mem _ hMem)

end Held

/-- A trial that was live because of the extension does not stay live when the
extension is switched off, whatever happens before and after. -/
theorem held_trial_cut_off {env : Env} {w : World} {id : Id} (before after : List TrialStep)
    (hIds : (w.subscriptions.map Subscription.id).Nodup) (hHeld : w.isHeldLive id = true)
    (hOn : ∀ step ∈ before, step ≠ .switch false) :
    ¬ ((before.foldl (World.after env) w).after env (.switch false)).StaysLive env id after := by
  intro hStays
  have hLive := hStays [] List.nil_prefix fun time hSwept => by cases hSwept
  have hHeldLater : (before.foldl (World.after env) w).Held id := (World.Held.of_live hIds hHeld).foldl hOn
  have hNot := hHeldLater.not_live
  exact absurd (hNot.symm.trans hLive) Bool.false_ne_true

def heldWorld : World := { trialWorld with now := 150, trialExtensionActive := true }

theorem held_trial_cut_off_marked : heldWorld.isHeldLive 0 = true ∧
    ¬ (([.sweep, .tick 10].foldl (World.after {}) heldWorld).after {} (.switch false)).StaysLive {} 0 [.tick 1, .sweep] := by
  have hHeld : heldWorld.isHeldLive 0 = true := by decide
  have hOn : ∀ step ∈ [TrialStep.sweep, .tick 10], step ≠ .switch false := by decide
  exact ⟨hHeld, held_trial_cut_off [.sweep, .tick 10] [.tick 1, .sweep] (by decide) hHeld hOn⟩

/-- Checkout opens before a sweep has marked the trial: it ends at once. -/
theorem held_trial_loses_grace : ¬ ∀ (env : Env) (w : World) (id : Id) (before after : List TrialStep),
    (w.subscriptions.map Subscription.id).Nodup → w.isHeldLive id = true → (∀ step ∈ before, step ≠ .switch false) →
    ((before.foldl (World.after env) w).after env (.switch false)).StaysLive env id after := by
  intro hClaim
  have hStays := hClaim {} heldWorld 0 [] [.sweep] (by decide) (by decide)
    (fun _ hMem => absurd hMem List.not_mem_nil) [.sweep] List.prefix_rfl
  have hLive := hStays fun time hSwept => by
    cases hSwept
    decide
  exact absurd hLive (by decide)

end RestaurantOs.Billing
