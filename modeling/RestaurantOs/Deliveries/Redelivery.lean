import RestaurantOs.Async.Protocol
import RestaurantOs.Deliveries.CourierWebhook

/-!
# Events that are not swallowed

As long as no attempt gives its claim of an event up, unmarked, behind a delivery
that was turned away, an acknowledged event has been applied or an attempt that
will answer for it holds it.
-/

namespace RestaurantOs.Deliveries

open Async Prog Webhooks

def Op.claim? : (o : Op) → Except Err o.Resp → Option Bool
  | .event (.create _ _ _ _), .ok _ => some true
  | .event (.reclaim _ _ _ _), .ok won => if won then some true else none
  | .event (.update _ _ _), .ok _ => some false
  | _, _ => none

def Op.turnsAway : (o : Op) → Except Err o.Resp → Bool
  | .event (.reclaim _ _ _ _), .ok won => !won
  | _, _ => false

namespace State

def claimed (c : State) (t : Nat) : Bool := (c.latest? Op.claim? t).getD false

/-- Attempt `t` is running, between its claim and its mark. -/
def holds (c : State) (t : Nat) : Bool := c.claimed t && c.threads[t]?.any fun th => decide th.Running

def held (c : State) : Bool := (List.range c.threads.length).any c.holds

def heldBeside (c : State) (t : Nat) : Bool := (List.range c.threads.length).any fun u => u ≠ t && c.holds u

def turnedAway (c : State) : Bool := c.history.any fun e => e.op.turnsAway e.result

def answered (c : State) : Bool := c.history.any fun e => e.op = .acknowledge

end State

/-! ## The condition -/

/-- The operation takes its attempt out of the section without a mark: the
lookup throws, the error is recorded, or the mark of an event with no delivery
throws. -/
def Op.lapses (a : Answer) : (o : Op) → (Except Err o.Resp → Promise Unit) → Bool
  | .delivery (.findByCourierId _ _ _), _ => a.fault.isSome
  | .event (.update _ _ changes), next =>
    changes.processedAt.isNone || a.fault.any fun text => (next (.error (.other text))).next?.isNone
  | _, _ => false

section Condition

variable (providerName : DeliveryProviderName) (event : ProviderDeliveryWebhookEvent)

def World.processed (w : World) : Bool := isProcessed w.webhookEvents providerName event.eventId

/-- Nobody depends on attempt `t`: no delivery was turned away, or the event
is processed or held by another attempt. -/
def State.spares (c : State) (t : Nat) : Bool := !c.turnedAway || c.state.processed providerName event || c.heldBeside t

/-- A claim that is refused has a running attempt behind it, and an attempt
that leaves the section without a mark has no delivery depending on it. -/
def keepsClaim (c : State) : Label Answer Event → Bool
  | .stop t => !c.holds t || c.spares providerName event t
  | .run t a =>
    match c.threads[t]? with
    | some { prog := .await o next, .. } =>
      (!(c.holds t && o.lapses a next) || c.spares providerName event t) &&
        (!(o.turnsAway (store.perform o a c.state).1) || c.state.processed providerName event || c.held)
    | _ => true
  | .event _ => true

/-- Every running attempt was started less than `CLAIM_STALE_MS` ago. -/
def isTimely (c : State) : Label Answer Event → Bool := fun _ =>
  c.threads.all fun th => !decide th.Running || th.born.all fun w => c.state.now < w.now + claimStaleMs

end Condition

/-! ## What a processed event says -/

abbrev History := List (Entry Op Op.Resp Err)

section Evidence

variable (providerName : DeliveryProviderName) (event : ProviderDeliveryWebhookEvent)

def NoDelivery (history : History) : Prop :=
  ∃ t restaurantId, ⟨t, .delivery (.findByCourierId restaurantId providerName event.providerDeliveryId), .ok none⟩ ∈ history

def Found (history : History) (t : Nat) (delivery : Delivery) : Prop :=
  ∃ restaurantId,
    ⟨t, .delivery (.findByCourierId restaurantId providerName event.providerDeliveryId), .ok (some delivery)⟩ ∈ history

def Loaded (history : History) (t : Nat) (id : Id) (delivery : Delivery) : Prop :=
  ∃ restaurantId, ⟨t, .delivery (.findOne id restaurantId), .ok (some delivery)⟩ ∈ history

def Saved (history : History) (t : Nat) (delivery : Delivery) : Prop :=
  ∃ at', ⟨t, .delivery (.save delivery.id (event.options.update delivery at')), .ok ()⟩ ∈ history

/-- `updateDeliveryStatus` was performed with the event: the delivery found by
the courier's id was read again and, unless the move is one to ignore, saved. -/
def Applied (history : History) : Prop :=
  ∃ t found delivery, Found providerName event history t found ∧ Loaded history t found.id delivery ∧
    (delivery.follows event.status = true → Saved event history t delivery)

end Evidence

/-! ## The protocol of an attempt -/

/-- Where an attempt stands. `fresh` keeps the times it has read, `failing` is
the error handler, `ended` an attempt that threw. -/
inductive Stage
  | fresh (clocks : List Time)
  | refused
  | holding
  | unknown
  | found (delivery : Delivery)
  | loaded (found delivery : Delivery)
  | saved (found delivery : Delivery)
  | failing
  | done
  | ended

def Op.quiet : Op → Bool
  | clock | audit _ _ _ _ _ | advanceOrder _ _ _ _ | emitStatusUpdated _ _ => true
  | _ => false

namespace Stage

def held : Stage → Bool
  | holding | unknown | found _ | loaded _ _ | saved _ _ | failing => true
  | _ => false

/-- The mark may follow: there is no delivery, or `updateDeliveryStatus` is
done with the one found. -/
def applied (event : ProviderDeliveryWebhookEvent) : Stage → Bool
  | unknown => true
  | loaded _ delivery => !delivery.follows event.status
  | saved _ _ => true
  | _ => false

theorem held_of_applied {event : ProviderDeliveryWebhookEvent} {pt : Stage} (h : pt.applied event = true) : pt.held = true := by
  cases pt with
  | unknown | loaded | saved => rfl
  | _ => cases h

def afterLookup : Except Err (Option Delivery) → Stage
  | .error _ => ended
  | .ok none => unknown
  | .ok (some delivery) => found delivery

theorem held_afterLookup {looked : Option Delivery} : (afterLookup (.ok looked)).held = true := by
  cases looked <;> rfl

def afterLoad (delivery : Delivery) : Except Err (Option Delivery) → Stage
  | .ok (some stored) => loaded delivery stored
  | _ => failing

def afterSave (delivery stored : Delivery) : Except Err Unit → Stage
  | .ok _ => saved delivery stored
  | .error _ => failing

def afterCreate (clocks : List Time) : Except Err Unit → Stage
  | .ok _ => holding
  | .error _ => fresh clocks

def afterReclaim (clocks : List Time) : Except Err Bool → Stage
  | .ok won => if won then holding else refused
  | .error _ => fresh clocks

def unmarked : Stage → Stage
  | unknown => ended
  | _ => failing

def afterMark (pt : Stage) : Except Err Unit → Stage
  | .ok _ => done
  | .error _ => pt.unmarked

inductive Move (providerName : DeliveryProviderName) (event : ProviderDeliveryWebhookEvent) (a : Answer) (w : World) :
    Op → Stage → Stage → Prop
  | read (clocks : List Time) : Move providerName event a w .clock (fresh clocks) (fresh (w.now :: clocks))
  | account (id : Id) (provider : DeliveryProviderName) (clocks : List Time) :
      Move providerName event a w (.findAccount id provider) (fresh clocks) (fresh clocks)
  | create {eventType : String} {startedAt : Time} {clocks : List Time} (hRead : startedAt ∈ clocks) :
      Move providerName event a w (.event (.create providerName event.eventId eventType startedAt)) (fresh clocks)
        (afterCreate clocks (store.perform (.event (.create providerName event.eventId eventType startedAt)) a w).1)
  | reclaim {now startedAt : Time} {clocks : List Time} (hNow : now ∈ clocks) (hRead : startedAt ∈ clocks) :
      Move providerName event a w (.event (.reclaim providerName event.eventId (some (now - claimStaleMs)) startedAt)) (fresh clocks)
        (afterReclaim clocks
          (store.perform (.event (.reclaim providerName event.eventId (some (now - claimStaleMs)) startedAt)) a w).1)
  | quiet {o : Op} {pt : Stage} (hQuiet : o.quiet = true) (hHeld : pt.held = true) : Move providerName event a w o pt pt
  | lookup (restaurantId : Id) :
      Move providerName event a w (.delivery (.findByCourierId restaurantId providerName event.providerDeliveryId)) holding
        (afterLookup
          (store.perform (.delivery (.findByCourierId restaurantId providerName event.providerDeliveryId)) a w).1)
  | load (restaurantId : Id) (delivery : Delivery) :
      Move providerName event a w (.delivery (.findOne delivery.id restaurantId)) (found delivery)
        (afterLoad delivery (store.perform (.delivery (.findOne delivery.id restaurantId)) a w).1)
  | save (delivery stored : Delivery) (at' : Time) :
      Move providerName event a w (.delivery (.save stored.id (event.options.update stored at'))) (loaded delivery stored)
        (afterSave delivery stored (store.perform (.delivery (.save stored.id (event.options.update stored at'))) a w).1)
  | mark {changes : WebhookEventUpdate} {pt : Stage} (hMark : changes.processedAt.isSome = true) (hApplied : pt.applied event = true) :
      Move providerName event a w (.event (.update providerName event.eventId changes)) pt
        (pt.afterMark (store.perform (.event (.update providerName event.eventId changes)) a w).1)
  | release {changes : WebhookEventUpdate} (hMark : changes.processedAt = none) :
      Move providerName event a w (.event (.update providerName event.eventId changes)) failing ended
  | acknowledge {pt : Stage} (hPoint : pt = done ∨ pt = refused) : Move providerName event a w .acknowledge pt pt

def Rest (pt : Stage) : Prop := pt.held = false

end Stage

@[reducible] def handling (providerName : DeliveryProviderName) (event : ProviderDeliveryWebhookEvent) : Protocol Op World Answer where
  Point := Stage
  Move o a w := Stage.Move providerName event a w o
  Rest := Stage.Rest

section Walk

variable {providerName : DeliveryProviderName} {event : ProviderDeliveryWebhookEvent} {pt : Stage}

theorem follows_quiet {o : Op} {Q : o.Resp → Stage → Prop} {E : Err → Stage → Prop} (hQuiet : o.quiet = true)
    (hHeld : pt.held = true) (hQ : ∀ v, Q v pt) :
    (Prog.call o : Promise o.Resp).Follows store (handling providerName event) pt Q E := by
  refine follows_call.mpr fun a w => ⟨pt, .quiet hQuiet hHeld, ?_⟩
  cases o with
  | clock | audit | advanceOrder | emitStatusUpdated => exact hQ _
  | _ => cases hQuiet

end Walk

/-! ## What is known of the attempts -/

section Records

variable {providerName : DeliveryProviderName} {event : ProviderDeliveryWebhookEvent} {o : Op} {a : Answer} {w : World}

theorem webhookEvents_perform (o : Op) (a : Answer) (w : World) :
    (∃ op, o = .event op) ∨ (store.perform o a w).2.webhookEvents = w.webhookEvents := by
  cases o with
  | event op => exact .inl ⟨op, rfl⟩
  | findAccount id provider =>
    cases hFault : a.fault <;> exact .inr (by simp only [Op.perform, hFault])
  | delivery op =>
    cases hFault : a.fault <;> exact .inr (by simp only [Op.perform, hFault])
  | _ => exact .inr rfl

theorem event_perform (op : EventOp DeliveryProviderName) (a : Answer) (w : World) :
    (∃ err, (store.perform (.event op) a w).1 = .error err ∧ (store.perform (.event op) a w).2 = w) ∨
    ((store.perform (.event op) a w).1 = (op.perform w.webhookEvents).1 ∧
      (store.perform (.event op) a w).2.webhookEvents = (op.perform w.webhookEvents).2) := by
  cases hFault : a.fault with
  | some text => exact .inl ⟨.other text, by simp only [Op.perform, hFault], by simp only [Op.perform, hFault]⟩
  | none => exact .inr ⟨by simp only [Op.perform, hFault], by simp only [Op.perform, hFault]⟩

theorem recorded_perform (h : Recorded w.webhookEvents providerName event.eventId) :
    Recorded (store.perform o a w).2.webhookEvents providerName event.eventId := by
  rcases webhookEvents_perform o a w with ⟨op, rfl⟩ | hSame
  · rcases event_perform op a w with ⟨err, -, hState⟩ | ⟨-, hEvents⟩
    · rw [hState]
      exact h
    · rw [hEvents]
      exact h.perform op
  · rw [hSame]
    exact h

theorem processed_perform (h : w.processed providerName event = true) :
    (store.perform o a w).2.processed providerName event = true := by
  rcases webhookEvents_perform o a w with ⟨op, rfl⟩ | hSame
  · rcases event_perform op a w with ⟨err, -, hState⟩ | ⟨-, hEvents⟩
    · rw [hState]
      exact h
    · rw [World.processed, hEvents]
      exact isProcessed_perform op h
  · rw [World.processed, hSame]
    exact h

theorem processed_of_perform (h : (store.perform o a w).2.processed providerName event = true) :
    w.processed providerName event = true ∨
      ∃ changes : WebhookEventUpdate, o = .event (.update providerName event.eventId changes) ∧
        changes.processedAt.isSome = true := by
  rcases webhookEvents_perform o a w with ⟨op, rfl⟩ | hSame
  · rcases event_perform op a w with ⟨err, -, hState⟩ | ⟨hResult, hEvents⟩
    · rw [hState] at h
      exact .inl h
    · rw [World.processed, hEvents] at h
      rcases isProcessed_of_perform op h with hBefore | ⟨changes, rfl, hMark⟩
      · exact .inl hBefore
      · exact .inr ⟨changes, rfl, hMark⟩
  · rw [World.processed, hSame] at h
    exact .inl h

end Records

def Stage.Known (providerName : DeliveryProviderName) (event : ProviderDeliveryWebhookEvent) (c : State) (t : Nat) : Stage → Prop
  | unknown => NoDelivery providerName event c.history
  | found delivery => Found providerName event c.history t delivery
  | loaded first delivery => Found providerName event c.history t first ∧ Loaded c.history t first.id delivery
  | saved first delivery =>
    Found providerName event c.history t first ∧ Loaded c.history t first.id delivery ∧ Saved event c.history t delivery
  | refused => c.turnedAway = true
  | done => c.state.processed providerName event = true
  | _ => True

structure Claiming (providerName : DeliveryProviderName) (event : ProviderDeliveryWebhookEvent) (c : State) (pts : List Stage) : Prop where
  claimed : ∀ {t : Nat} {pt : Stage}, pts[t]? = some pt → pt ≠ .ended → c.claimed t = pt.held
  recorded : ∀ {t : Nat} {pt : Stage}, pts[t]? = some pt → pt.held = true → Recorded c.state.webhookEvents providerName event.eventId
  known : ∀ {t : Nat} {pt : Stage}, pts[t]? = some pt → pt.Known providerName event c t
  acked : c.answered = true → c.state.processed providerName event = true ∨ c.turnedAway = true
  applied : c.state.processed providerName event = true →
    NoDelivery providerName event c.history ∨ Applied providerName event c.history

section Runs

variable {providerName : DeliveryProviderName} {event : ProviderDeliveryWebhookEvent} {start pts : List Stage} {c c' : State}
  {t : Nat} {a : Answer} {o : Op} {th : Thread Op Op.Resp Err World Unit} {k : Except Err o.Resp → Promise Unit} {pt pt' : Stage}

theorem claimed_of_ran (hRan : store.Ran c t a o th k c') (u : Nat) :
    c'.claimed u = if t = u then (o.claim? (store.perform o a c.state).1).getD (c.claimed t) else c.claimed u := by
  rw [State.claimed, hRan.latest?]
  split
  · rename_i hEq
    subst hEq
    cases o.claim? (store.perform o a c.state).1 <;> rfl
  · rfl

theorem turnedAway_of_ran (hRan : store.Ran c t a o th k c') :
    c'.turnedAway = (o.turnsAway (store.perform o a c.state).1 || c.turnedAway) := by
  rw [State.turnedAway, hRan.history, List.any_cons]
  rfl

theorem answered_of_ran (hRan : store.Ran c t a o th k c') : c'.answered = (decide (o = .acknowledge) || c.answered) := by
  rw [State.answered, hRan.history, List.any_cons]
  rfl

theorem Stage.Known.ran (h : pt.Known providerName event c t) {u : Nat} {th : Thread Op Op.Resp Err World Unit}
    (hRan : store.Ran c u a o th k c') : pt.Known providerName event c' t := by
  have hOld : ∀ {e}, e ∈ c.history → e ∈ c'.history := fun h => hRan.history ▸ List.mem_cons_of_mem _ h
  cases pt with
  | unknown =>
    obtain ⟨u, restaurantId, hMem⟩ := h
    exact ⟨u, restaurantId, hOld hMem⟩
  | found delivery =>
    obtain ⟨restaurantId, hMem⟩ := h
    exact ⟨restaurantId, hOld hMem⟩
  | loaded found delivery =>
    obtain ⟨⟨restaurantId, hMem⟩, restaurantId', hMem'⟩ := h
    exact ⟨⟨restaurantId, hOld hMem⟩, restaurantId', hOld hMem'⟩
  | saved found delivery =>
    obtain ⟨⟨restaurantId, hMem⟩, ⟨restaurantId', hMem'⟩, at', hSaved⟩ := h
    exact ⟨⟨restaurantId, hOld hMem⟩, ⟨restaurantId', hOld hMem'⟩, at', hOld hSaved⟩
  | refused =>
    have hAway : c.turnedAway = true := h
    change c'.turnedAway = true
    rw [turnedAway_of_ran hRan, hAway, Bool.or_true]
  | done =>
    change c'.state.processed providerName event = true
    rw [hRan.state]
    exact processed_perform h
  | fresh | holding | failing | ended => trivial

theorem Claiming.moved (h : Claiming providerName event c pts) (hPoint : pts[t]? = some pt) (hRan : store.Ran c t a o th k c')
    (hOpen : pt ≠ .ended)
    (hClaimed : pt' ≠ .ended → (o.claim? (store.perform o a c.state).1).getD pt.held = pt'.held)
    (hRecorded : pt'.held = true → Recorded c'.state.webhookEvents providerName event.eventId)
    (hKnown : pt'.Known providerName event c' t)
    (hAcked : o = .acknowledge → c'.state.processed providerName event = true ∨ c'.turnedAway = true)
    (hApplied : ∀ changes : WebhookEventUpdate, o = .event (.update providerName event.eventId changes) →
      changes.processedAt.isSome = true → NoDelivery providerName event c'.history ∨ Applied providerName event c'.history) :
    Claiming providerName event c' (pts.set t pt') := by
  have hOld : ∀ {e}, e ∈ c.history → e ∈ c'.history := fun h => hRan.history ▸ List.mem_cons_of_mem _ h
  have hProcessed : c.state.processed providerName event = true → c'.state.processed providerName event = true := by
    rw [hRan.state]
    exact processed_perform
  constructor
  · intro u pu hPointU hOpenU
    rw [claimed_of_ran hRan]
    rcases Tables.getElem?_set_cases hPointU with ⟨rfl, rfl⟩ | ⟨hNe, hPointU⟩
    · rw [if_pos rfl, h.claimed hPoint hOpen]
      exact hClaimed hOpenU
    · rw [if_neg (Ne.symm hNe)]
      exact h.claimed hPointU hOpenU
  · intro u pu hPointU hHeld
    rcases Tables.getElem?_set_cases hPointU with ⟨rfl, rfl⟩ | ⟨-, hPointU⟩
    · exact hRecorded hHeld
    · rw [hRan.state]
      exact recorded_perform (h.recorded hPointU hHeld)
  · intro u pu hPointU
    rcases Tables.getElem?_set_cases hPointU with ⟨rfl, rfl⟩ | ⟨-, hPointU⟩
    · exact hKnown
    · exact (h.known hPointU).ran hRan
  · intro hAnswered
    rw [answered_of_ran hRan, Bool.or_eq_true, decide_eq_true_eq] at hAnswered
    rcases hAnswered with hOp | hBefore
    · exact hAcked hOp
    · rcases h.acked hBefore with hDone | hAway
      · exact .inl (hProcessed hDone)
      · exact .inr (by rw [turnedAway_of_ran hRan, hAway, Bool.or_true])
  · intro hDone
    rw [hRan.state] at hDone
    rcases processed_of_perform hDone with hBefore | ⟨changes, hOp, hMark⟩
    · rcases h.applied hBefore with ⟨u, restaurantId, hMem⟩ | ⟨u, found, delivery, ⟨r, hFound⟩, ⟨r', hLoaded⟩, hSaved⟩
      · exact .inl ⟨u, restaurantId, hOld hMem⟩
      · refine .inr ⟨u, found, delivery, ⟨r, hOld hFound⟩, ⟨r', hOld hLoaded⟩, fun hFollows => ?_⟩
        obtain ⟨at', hMem⟩ := hSaved hFollows
        exact ⟨at', hOld hMem⟩
    · exact hApplied changes hOp hMark

theorem Claiming.run (h : Claiming providerName event c pts) (hRan : store.Ran c t a o th k c') (hPoint : pts[t]? = some pt)
    (hMove : Stage.Move providerName event a c.state o pt pt') : Claiming providerName event c' (pts.set t pt') := by
  have hNew : ⟨t, o, (store.perform o a c.state).1⟩ ∈ c'.history := hRan.history ▸ List.mem_cons_self
  cases hMove with
  | read clocks => exact h.moved hPoint hRan (by rintro ⟨⟩) (fun _ => rfl) (by rintro ⟨⟩) trivial (by rintro ⟨⟩) (by rintro _ ⟨⟩)
  | account id provider clocks =>
    refine h.moved hPoint hRan (by rintro ⟨⟩) (fun _ => rfl) (by rintro ⟨⟩) trivial (by rintro ⟨⟩) (by rintro _ ⟨⟩)
  | @create eventType startedAt clocks hRead =>
    cases hResult : (store.perform (.event (.create providerName event.eventId eventType startedAt)) a c.state).1 with
    | error err =>
      refine h.moved hPoint hRan (by rintro ⟨⟩) (fun _ => ?_) (by rintro ⟨⟩) trivial (by rintro ⟨⟩) (by rintro _ ⟨⟩)
      rw [hResult]
      rfl
    | ok v =>
      refine h.moved hPoint hRan (by rintro ⟨⟩) (fun _ => ?_) (fun _ => ?_) trivial (by rintro ⟨⟩) (by rintro _ ⟨⟩)
      · rw [hResult]
        rfl
      · rw [hRan.state]
        rcases event_perform (.create providerName event.eventId eventType startedAt) a c.state with
          ⟨err, hThrown, -⟩ | ⟨hPerformed, hEvents⟩
        · rw [hResult] at hThrown
          cases hThrown
        · rw [hEvents]
          exact recorded_create (hPerformed.symm.trans hResult)
  | @reclaim now startedAt clocks hNow hRead =>
    cases hResult : (store.perform
      (.event (.reclaim providerName event.eventId (some (now - claimStaleMs)) startedAt)) a c.state).1 with
    | error err =>
      refine h.moved hPoint hRan (by rintro ⟨⟩) (fun _ => ?_) (by rintro ⟨⟩) trivial (by rintro ⟨⟩) (by rintro _ ⟨⟩)
      rw [hResult]
      rfl
    | ok won =>
      cases won with
      | false =>
        refine h.moved hPoint hRan (by rintro ⟨⟩) (fun _ => ?_) (by rintro ⟨⟩) ?_ (by rintro ⟨⟩) (by rintro _ ⟨⟩)
        · rw [hResult]
          rfl
        · change c'.turnedAway = true
          rw [turnedAway_of_ran hRan, hResult]
          rfl
      | true =>
        refine h.moved hPoint hRan (by rintro ⟨⟩) (fun _ => ?_) (fun _ => ?_) trivial (by rintro ⟨⟩) (by rintro _ ⟨⟩)
        · rw [hResult]
          rfl
        · rw [hRan.state]
          rcases event_perform (.reclaim providerName event.eventId (some (now - claimStaleMs)) startedAt) a c.state with
            ⟨err, hThrown, -⟩ | ⟨hPerformed, -⟩
          · rw [hResult] at hThrown
            cases hThrown
          · exact recorded_perform (recorded_reclaim (hPerformed.symm.trans hResult))
  | quiet hQuiet hHeld =>
    refine h.moved hPoint hRan ?_ (fun _ => ?_) ?_ ((h.known hPoint).ran hRan) ?_ ?_
    · rintro rfl
      cases hHeld
    · cases o with
      | clock | audit | advanceOrder | emitStatusUpdated => rfl
      | _ => cases hQuiet
    · intro _
      rw [hRan.state]
      exact recorded_perform (h.recorded hPoint hHeld)
    · rintro rfl
      cases hQuiet
    · rintro changes rfl
      cases hQuiet
  | lookup restaurantId =>
    have hRecorded : Recorded c'.state.webhookEvents providerName event.eventId := by
      rw [hRan.state]
      exact recorded_perform (h.recorded hPoint rfl)
    cases hResult : (store.perform
      (.delivery (.findByCourierId restaurantId providerName event.providerDeliveryId)) a c.state).1 with
    | error err => exact h.moved hPoint hRan (by rintro ⟨⟩) (fun hOpen => absurd rfl hOpen) (by rintro ⟨⟩) trivial (by rintro ⟨⟩) (by rintro _ ⟨⟩)
    | ok found =>
      rw [hResult] at hNew
      cases found with
      | none =>
        refine h.moved hPoint hRan (by rintro ⟨⟩) (fun _ => ?_) (fun _ => hRecorded) ⟨t, restaurantId, hNew⟩ (by rintro ⟨⟩) (by rintro _ ⟨⟩)
        rw [hResult]
        rfl
      | some delivery =>
        refine h.moved hPoint hRan (by rintro ⟨⟩) (fun _ => ?_) (fun _ => hRecorded) ⟨restaurantId, hNew⟩ (by rintro ⟨⟩) (by rintro _ ⟨⟩)
        rw [hResult]
        rfl
  | load restaurantId delivery =>
    have hRecorded : Recorded c'.state.webhookEvents providerName event.eventId := by
      rw [hRan.state]
      exact recorded_perform (h.recorded hPoint rfl)
    have hFound := (h.known hPoint).ran hRan
    cases hResult : (store.perform (.delivery (.findOne delivery.id restaurantId)) a c.state).1 with
    | error err =>
      refine h.moved hPoint hRan (by rintro ⟨⟩) (fun _ => ?_) (fun _ => hRecorded) trivial (by rintro ⟨⟩) (by rintro _ ⟨⟩)
      rw [hResult]
      rfl
    | ok stored =>
      rw [hResult] at hNew
      cases stored with
      | none =>
        refine h.moved hPoint hRan (by rintro ⟨⟩) (fun _ => ?_) (fun _ => hRecorded) trivial (by rintro ⟨⟩) (by rintro _ ⟨⟩)
        rw [hResult]
        rfl
      | some stored =>
        refine h.moved hPoint hRan (by rintro ⟨⟩) (fun _ => ?_) (fun _ => hRecorded) ⟨hFound, restaurantId, hNew⟩ (by rintro ⟨⟩) (by rintro _ ⟨⟩)
        rw [hResult]
        rfl
  | save delivery stored at' =>
    have hRecorded : Recorded c'.state.webhookEvents providerName event.eventId := by
      rw [hRan.state]
      exact recorded_perform (h.recorded hPoint rfl)
    obtain ⟨hFound, hLoaded⟩ := (h.known hPoint).ran hRan
    cases hResult : (store.perform (.delivery (.save stored.id (event.options.update stored at'))) a c.state).1 with
    | error err =>
      refine h.moved hPoint hRan (by rintro ⟨⟩) (fun _ => ?_) (fun _ => hRecorded) trivial (by rintro ⟨⟩) (by rintro _ ⟨⟩)
      rw [hResult]
      rfl
    | ok v =>
      rw [hResult] at hNew
      refine h.moved hPoint hRan (by rintro ⟨⟩) (fun _ => ?_) (fun _ => hRecorded) ⟨hFound, hLoaded, at', hNew⟩ (by rintro ⟨⟩) (by rintro _ ⟨⟩)
      rw [hResult]
      rfl
  | @mark changes pt hMark hApplied =>
    have hHeld := Stage.held_of_applied hApplied
    have hOpen : pt ≠ .ended := by
      rintro rfl
      cases hHeld
    have hRecorded := h.recorded hPoint hHeld
    have hKnown := (h.known hPoint).ran hRan
    have hPassed : NoDelivery providerName event c'.history ∨ Applied providerName event c'.history := by
      cases pt with
      | unknown => exact .inl hKnown
      | loaded found delivery =>
        refine .inr ⟨t, found, delivery, hKnown.1, hKnown.2, fun hFollows => ?_⟩
        simp only [Stage.applied, hFollows, Bool.not_true, Bool.false_eq_true] at hApplied
      | saved found delivery => exact .inr ⟨t, found, delivery, hKnown.1, hKnown.2.1, fun _ => hKnown.2.2⟩
      | _ => cases hApplied
    cases hResult : (store.perform (.event (.update providerName event.eventId changes)) a c.state).1 with
    | error err =>
      refine h.moved hPoint hRan hOpen (fun hStay => ?_) (fun _ => ?_) ?_ (by rintro ⟨⟩) fun _ _ _ => hPassed
      · rw [hResult, hHeld]
        cases pt with
        | unknown => exact absurd rfl hStay
        | _ => rfl
      · rw [hRan.state]
        exact recorded_perform hRecorded
      · cases pt <;> trivial
    | ok v =>
      refine h.moved hPoint hRan hOpen (fun _ => ?_) (by rintro ⟨⟩) ?_ (by rintro ⟨⟩) fun _ _ _ => hPassed
      · rw [hResult]
        rfl
      · change c'.state.processed providerName event = true
        rw [hRan.state]
        rcases event_perform (.update providerName event.eventId changes) a c.state with ⟨err, hThrown, -⟩ | ⟨-, hEvents⟩
        · rw [hResult] at hThrown
          cases hThrown
        · rw [World.processed, hEvents]
          exact isProcessed_update hRecorded hMark
  | release hMark =>
    refine h.moved hPoint hRan (by rintro ⟨⟩) (fun hOpen => absurd rfl hOpen) (by rintro ⟨⟩) trivial (by rintro ⟨⟩) ?_
    intro changes hOp hSome
    cases hOp
    rw [hMark] at hSome
    cases hSome
  | acknowledge hPt =>
    have hKnown := (h.known hPoint).ran hRan
    rcases hPt with rfl | rfl
    · exact h.moved hPoint hRan (by rintro ⟨⟩) (fun _ => rfl) (by rintro ⟨⟩) hKnown (fun _ => .inl hKnown) (by rintro _ ⟨⟩)
    · exact h.moved hPoint hRan (by rintro ⟨⟩) (fun _ => rfl) (by rintro ⟨⟩) hKnown (fun _ => .inr hKnown) (by rintro _ ⟨⟩)

/-! ## Who depends on whom -/

def Holder (c : State) (pts : List Stage) (t : Nat) : Prop :=
  ∃ th pt, c.threads[t]? = some th ∧ pts[t]? = some pt ∧ th.stopped = false ∧ pt.held = true

theorem not_follows_ended {p : Promise Unit} {Q : Unit → Stage → Prop} {E : Err → Stage → Prop}
    (h : p.Follows store (handling providerName event) .ended Q E) : p.next? = none := by
  cases p with
  | ret v => rfl
  | raise e => rfl
  | await o next =>
    obtain ⟨pt, hMove, -⟩ := h {} {}
    cases hMove with
    | quiet hQuiet hHeld => cases hHeld
    | mark hMark hApplied => cases hApplied
    | acknowledge hPt =>
      rcases hPt with hPt | hPt <;> cases hPt

theorem holds_iff (hT : Tracks store (handling providerName event) start c pts) (hStart : ∀ pt ∈ start, pt.held = false)
    (hI : Claiming providerName event c pts) : c.holds t = true ↔ Holder c pts t := by
  rw [State.holds, Bool.and_eq_true, Option.any_eq_true]
  constructor
  · rintro ⟨hClaimed, th, hThread, hRunning⟩
    obtain ⟨hStopped, hBorn, hNext⟩ := of_decide_eq_true hRunning
    obtain ⟨pt, hPoint⟩ := hT.point_exists hThread
    refine ⟨th, pt, hThread, hPoint, hStopped, ?_⟩
    have hOpen : pt ≠ .ended := by
      rintro rfl
      have hNone := not_follows_ended (hT.follows hThread hPoint)
      rw [Thread.next?, hNone] at hNext
      cases hNext
    rw [← hI.claimed hPoint hOpen]
    exact hClaimed
  · rintro ⟨th, pt, hThread, hPoint, hStopped, hHeld⟩
    have hOpen : pt ≠ .ended := by
      rintro rfl
      cases hHeld
    refine ⟨(hI.claimed hPoint hOpen).trans hHeld, th, hThread, decide_eq_true ⟨hStopped, ?_, ?_⟩⟩
    · cases hBorn : th.born with
      | some w => rfl
      | none =>
        have hUnborn := hT.unborn hThread hBorn
        rw [hPoint] at hUnborn
        have hNot := hStart pt (List.mem_of_getElem? hUnborn.symm)
        rw [hHeld] at hNot
        cases hNot
    · cases hNext : th.next?.isSome with
      | true => rfl
      | false =>
        have hRest : pt.held = false := hT.rest_of_ended hThread hPoint hNext
        rw [hHeld] at hRest
        cases hRest

theorem lt_of_holder {u : Nat} (h : Holder c pts u) : u < c.threads.length := by
  obtain ⟨th, pt, hThread, -⟩ := h
  exact (List.getElem?_eq_some_iff.mp hThread).1

theorem Holder.ran {u : Nat} (hRan : store.Ran c t a o th k c') (hNe : u ≠ t) (h : Holder c pts u) :
    Holder c' (pts.set t pt') u := by
  obtain ⟨thU, pu, hThread, hPoint, hStopped, hHeld⟩ := h
  refine ⟨thU, pu, ?_, ?_, hStopped, hHeld⟩
  · rw [hRan.threads, List.getElem?_set_ne (Ne.symm hNe)]
    exact hThread
  · rw [List.getElem?_set_ne (Ne.symm hNe)]
    exact hPoint

theorem Holder.of_ran {u : Nat} (hRan : store.Ran c t a o th k c') (hPoint : pts[t]? = some pt)
    (h : Holder c' (pts.set t pt') u) : (u = t ∧ pt'.held = true) ∨ (u ≠ t ∧ Holder c pts u) := by
  obtain ⟨thU, pu, hThread, hPointU, hStopped, hHeld⟩ := h
  rw [hRan.threads] at hThread
  rcases Tables.getElem?_set_cases hPointU with ⟨rfl, rfl⟩ | ⟨hNe, hPointU⟩
  · exact .inl ⟨rfl, hHeld⟩
  · rw [List.getElem?_set_ne (Ne.symm hNe)] at hThread
    exact .inr ⟨hNe, thU, pu, hThread, hPointU, hStopped, hHeld⟩

theorem holder_self (hRan : store.Ran c t a o th k c') (hPoint : pts[t]? = some pt) (hHeld : pt'.held = true) :
    Holder c' (pts.set t pt') t :=
  ⟨_, pt', by rw [hRan.threads]; exact Tables.getElem?_set_eq hRan.thread, Tables.getElem?_set_eq hPoint, rfl, hHeld⟩

theorem lapses_of_leave (hT' : Tracks store (handling providerName event) start c' (pts.set t pt'))
    (hI' : Claiming providerName event c' (pts.set t pt')) (hRan : store.Ran c t a o th k c') (hPoint : pts[t]? = some pt)
    (hMove : Stage.Move providerName event a c.state o pt pt') (hHeld : pt.held = true) (hLeft : pt'.held = false) :
    c'.state.processed providerName event = true ∨ o.lapses a k = true := by
  cases hMove with
  | read | account | create | reclaim => cases hHeld
  | quiet hQuiet hStill =>
    rw [hStill] at hLeft
    cases hLeft
  | lookup restaurantId =>
    cases hFault : a.fault with
    | some text => exact .inr (by simp only [Op.lapses, hFault, Option.isSome_some])
    | none =>
      simp only [Op.perform, hFault, DeliveryOp.perform, Stage.held_afterLookup] at hLeft
      cases hLeft
  | load restaurantId delivery =>
    cases hResult : (store.perform (.delivery (.findOne delivery.id restaurantId)) a c.state).1 with
    | error err =>
      rw [hResult] at hLeft
      cases hLeft
    | ok stored =>
      rw [hResult] at hLeft
      cases stored <;> cases hLeft
  | save delivery stored at' =>
    cases hResult : (store.perform (.delivery (.save stored.id (event.options.update stored at'))) a c.state).1 with
    | error err =>
      rw [hResult] at hLeft
      cases hLeft
    | ok v =>
      rw [hResult] at hLeft
      cases hLeft
  | mark hMark hApplied =>
    cases hFault : a.fault with
    | none =>
      refine .inl ?_
      have hKnown := hI'.known (Tables.getElem?_set_eq hPoint)
      simp only [Op.perform, hFault] at hKnown
      exact hKnown
    | some text =>
      have hFollows := hT'.follows (by rw [hRan.threads]; exact Tables.getElem?_set_eq hRan.thread) (Tables.getElem?_set_eq hPoint)
      simp only [Op.perform, hFault, Stage.afterMark] at hFollows hLeft
      cases pt with
      | unknown =>
        refine .inr ?_
        have hNone := not_follows_ended hFollows
        simp only [Op.lapses, hFault, Option.any_some, hNone, Option.isNone_none, Bool.or_true]
      | _ => cases hLeft
  | release hMark => exact .inr (by simp only [Op.lapses, hMark, Option.isNone_none, Bool.true_or])
  | acknowledge hPt =>
    rcases hPt with rfl | rfl <;> cases hHeld

def Carried (providerName : DeliveryProviderName) (event : ProviderDeliveryWebhookEvent) (c : State) (pts : List Stage) : Prop :=
  c.turnedAway = true → c.state.processed providerName event = true ∨ ∃ t, Holder c pts t

theorem spares_iff (hT : Tracks store (handling providerName event) start c pts) (hStart : ∀ pt ∈ start, pt.held = false)
    (hI : Claiming providerName event c pts) :
    c.spares providerName event t = true ↔
      (c.turnedAway = true → c.state.processed providerName event = true ∨ ∃ u, u ≠ t ∧ Holder c pts u) := by
  have hBeside : c.heldBeside t = true ↔ ∃ u, u ≠ t ∧ Holder c pts u := by
    simp only [State.heldBeside, List.any_eq_true, List.mem_range, Bool.and_eq_true, decide_eq_true_eq]
    constructor
    · rintro ⟨u, -, hNe, hHolds⟩
      exact ⟨u, hNe, (holds_iff hT hStart hI).mp hHolds⟩
    · rintro ⟨u, hNe, hHolder⟩
      exact ⟨u, lt_of_holder hHolder, hNe, (holds_iff hT hStart hI).mpr hHolder⟩
  rw [State.spares, Bool.or_eq_true, Bool.or_eq_true, hBeside]
  cases c.turnedAway <;> simp

theorem held_iff (hT : Tracks store (handling providerName event) start c pts) (hStart : ∀ pt ∈ start, pt.held = false)
    (hI : Claiming providerName event c pts) : c.held = true ↔ ∃ u, Holder c pts u := by
  simp only [State.held, List.any_eq_true, List.mem_range]
  constructor
  · rintro ⟨u, -, hHolds⟩
    exact ⟨u, (holds_iff hT hStart hI).mp hHolds⟩
  · rintro ⟨u, hHolder⟩
    exact ⟨u, lt_of_holder hHolder, (holds_iff hT hStart hI).mpr hHolder⟩

theorem Carried.run (h : Carried providerName event c pts) (hT : Tracks store (handling providerName event) start c pts)
    (hStart : ∀ pt ∈ start, pt.held = false) (hI : Claiming providerName event c pts)
    (hKeeps : keepsClaim providerName event c (.run t a) = true) (hRan : store.Ran c t a o th k c') (hPoint : pts[t]? = some pt)
    (hMove : Stage.Move providerName event a c.state o pt pt')
    (hT' : Tracks store (handling providerName event) start c' (pts.set t pt'))
    (hI' : Claiming providerName event c' (pts.set t pt')) : Carried providerName event c' (pts.set t pt') := by
  intro hAway
  obtain ⟨prog, stopped, born⟩ := th
  have hProg := hRan.prog
  have hStopped := hRan.running
  dsimp only at hProg hStopped
  subst hProg hStopped
  simp only [keepsClaim, hRan.thread, Bool.and_eq_true, Bool.or_eq_true, Bool.not_eq_true', Bool.and_eq_false_iff] at hKeeps
  obtain ⟨hLapse, hRefused⟩ := hKeeps
  have hProcessed : c.state.processed providerName event = true → c'.state.processed providerName event = true := by
    rw [hRan.state]
    exact processed_perform
  cases hHeld' : pt'.held with
  | true => exact .inr ⟨t, holder_self hRan hPoint hHeld'⟩
  | false =>
    have hNotSelf : ∀ {u}, Holder c pts u → (pt.held = true ∧ u = t) ∨ u ≠ t := by
      intro u hHolder
      by_cases hut : u = t
      · subst hut
        obtain ⟨thU, pu, -, hPointU, -, hHeldU⟩ := hHolder
        rw [hPoint] at hPointU
        cases hPointU
        exact .inl ⟨hHeldU, rfl⟩
      · exact .inr hut
    cases hHeld : pt.held with
    | true =>
      rcases lapses_of_leave hT' hI' hRan hPoint hMove hHeld hHeld' with hDone | hLapses
      · exact .inl hDone
      · have hHolds : c.holds t = true := (holds_iff hT hStart hI).mpr ⟨_, pt, hRan.thread, hPoint, rfl, hHeld⟩
        rw [hHolds, hLapses] at hLapse
        have hSpares : c.spares providerName event t = true := by simpa using hLapse
        have hBefore : c.turnedAway = true := by
          rw [turnedAway_of_ran hRan] at hAway
          cases o with
          | event op =>
            cases op with
            | reclaim => cases hLapses
            | _ => exact hAway
          | _ => exact hAway
        rcases (spares_iff hT hStart hI).mp hSpares hBefore with hDone | ⟨u, hNe, hHolder⟩
        · exact .inl (hProcessed hDone)
        · exact .inr ⟨u, hHolder.ran hRan hNe⟩
    | false =>
      have hBefore : c.state.processed providerName event = true ∨ ∃ u, Holder c pts u := by
        rw [turnedAway_of_ran hRan, Bool.or_eq_true] at hAway
        rcases hAway with hNow | hEarlier
        · rw [hNow] at hRefused
          rcases hRefused with (hNot | hDone) | hOther
          · cases hNot
          · exact .inl hDone
          · exact .inr ((held_iff hT hStart hI).mp hOther)
        · exact h hEarlier
      rcases hBefore with hDone | ⟨u, hHolder⟩
      · exact .inl (hProcessed hDone)
      · rcases hNotSelf hHolder with ⟨hSelf, -⟩ | hNe
        · rw [hHeld] at hSelf
          cases hSelf
        · exact .inr ⟨u, hHolder.ran hRan hNe⟩

theorem Carried.stop (h : Carried providerName event c pts) (hT : Tracks store (handling providerName event) start c pts)
    (hStart : ∀ pt ∈ start, pt.held = false) (hI : Claiming providerName event c pts)
    (hKeeps : keepsClaim providerName event c (.stop t) = true) :
    Carried providerName event { c with threads := c.threads.set t { th with stopped := true } } pts := by
  intro hAway
  have hBefore : c.state.processed providerName event = true ∨ ∃ u, u ≠ t ∧ Holder c pts u := by
    rw [keepsClaim, Bool.or_eq_true, Bool.not_eq_true'] at hKeeps
    rcases hKeeps with hNot | hSpares
    · rcases h hAway with hDone | ⟨u, hHolder⟩
      · exact .inl hDone
      · refine .inr ⟨u, ?_, hHolder⟩
        rintro rfl
        rw [(holds_iff hT hStart hI).mpr hHolder] at hNot
        cases hNot
    · exact (spares_iff hT hStart hI).mp hSpares hAway
  rcases hBefore with hDone | ⟨u, hNe, thU, pu, hThread, hRest⟩
  · exact .inl hDone
  · exact .inr ⟨u, thU, pu, by rw [List.getElem?_set_ne (Ne.symm hNe)]; exact hThread, hRest⟩

/-! ## One attempt at a time -/

/-- At most one attempt is in the section, and the record of the event is not
older than that attempt. -/
structure Alone (providerName : DeliveryProviderName) (event : ProviderDeliveryWebhookEvent) (c : State) (pts : List Stage) : Prop where
  keys : (c.state.webhookEvents.map WebhookEvent.key).Nodup
  born : ∀ {t : Nat} {th : Thread Op Op.Resp Err World Unit} {w : World}, c.threads[t]? = some th → th.born = some w →
    w.now ≤ c.state.now
  read : ∀ {t : Nat} {th : Thread Op Op.Resp Err World Unit} {clocks : List Time} {time : Time}, c.threads[t]? = some th →
    pts[t]? = some (.fresh clocks) → time ∈ clocks → time ≤ c.state.now ∧ ∃ w, th.born = some w ∧ w.now ≤ time
  started : ∀ {t : Nat} {th : Thread Op Op.Resp Err World Unit}, Holder c pts t → c.threads[t]? = some th →
    ∃ w, th.born = some w ∧ ∀ e ∈ c.state.webhookEvents, e.key = (providerName, event.eventId) →
      ∃ startedAt, e.processingStartedAt = some startedAt ∧ w.now ≤ startedAt
  unique : ∀ {t u : Nat}, Holder c pts t → Holder c pts u → t = u

theorem now_perform (o : Op) (a : Answer) (w : World) : (store.perform o a w).2.now = w.now := by
  cases o with
  | findAccount id provider => cases hFault : a.fault <;> simp only [Op.perform, hFault]
  | event op => cases hFault : a.fault <;> simp only [Op.perform, hFault]
  | delivery op => cases hFault : a.fault <;> simp only [Op.perform, hFault]
  | _ => rfl

theorem keys_of_perform (h : (c.state.webhookEvents.map WebhookEvent.key).Nodup) :
    ((store.perform o a c.state).2.webhookEvents.map WebhookEvent.key).Nodup := by
  rcases webhookEvents_perform o a c.state with ⟨op, rfl⟩ | hSame
  · rcases event_perform op a c.state with ⟨err, -, hState⟩ | ⟨-, hEvents⟩
    · rw [hState]
      exact h
    · rw [hEvents]
      exact keys_perform op h
  · rw [hSame]
    exact h

theorem Alone.moved (h : Alone providerName event c pts) (hRan : store.Ran c t a o th k c') (hPoint : pts[t]? = some pt)
    (hRead : ∀ {clocks : List Time} {time : Time}, pt' = .fresh clocks → time ∈ clocks → time ≤ c.state.now ∧
      (th.born.getD c.state).now ≤ time)
    (hSelf : pt'.held = true → (pt.held = true ∧ (store.perform o a c.state).2.webhookEvents = c.state.webhookEvents) ∨
      ((∀ u, u ≠ t → ¬ Holder c pts u) ∧ ∀ e ∈ (store.perform o a c.state).2.webhookEvents,
        e.key = (providerName, event.eventId) →
          ∃ startedAt, e.processingStartedAt = some startedAt ∧ (th.born.getD c.state).now ≤ startedAt))
    (hOthers : pt'.held = false → (store.perform o a c.state).2.webhookEvents = c.state.webhookEvents ∨ pt.held = true) :
    Alone providerName event c' (pts.set t pt') := by
  have hNow : c'.state.now = c.state.now := by
    rw [hRan.state]
    exact now_perform o a c.state
  have hBornSelf : (th.born.getD c.state).now ≤ c.state.now := by
    cases hBorn : th.born with
    | none => exact le_refl _
    | some w => exact h.born hRan.thread hBorn
  have hSelfHolder : pt.held = true → Holder c pts t := fun hHeld => ⟨th, pt, hRan.thread, hPoint, hRan.running, hHeld⟩
  constructor
  · rw [hRan.state]
    exact keys_of_perform h.keys
  · intro u thU w hThread hBorn
    rw [hNow]
    rw [hRan.threads] at hThread
    rcases Tables.getElem?_set_cases hThread with ⟨rfl, rfl⟩ | ⟨-, hThread⟩
    · cases hBorn
      exact hBornSelf
    · exact h.born hThread hBorn
  · intro u thU clocks time hThread hPointU hMem
    rw [hNow]
    rw [hRan.threads] at hThread
    rcases Tables.getElem?_set_cases hThread with ⟨rfl, rfl⟩ | ⟨hNe, hThread⟩
    · rw [Tables.getElem?_set_eq hPoint] at hPointU
      obtain ⟨hLe, hBorn⟩ := hRead (Option.some.inj hPointU) hMem
      exact ⟨hLe, _, rfl, hBorn⟩
    · rw [List.getElem?_set_ne (Ne.symm hNe)] at hPointU
      exact h.read hThread hPointU hMem
  · intro u thU hHolder hThread
    rw [hRan.threads] at hThread
    rcases hHolder.of_ran hRan hPoint with ⟨rfl, hHeld'⟩ | ⟨hNe, hBefore⟩
    · rw [Tables.getElem?_set_eq hRan.thread] at hThread
      cases hThread
      refine ⟨_, rfl, ?_⟩
      rcases hSelf hHeld' with ⟨hHeld, hSame⟩ | ⟨-, hStarted⟩
      · obtain ⟨w, hBorn, hStarted⟩ := h.started (hSelfHolder hHeld) hRan.thread
        rw [hRan.state, hSame, hBorn]
        exact hStarted
      · rw [hRan.state]
        exact hStarted
    · rw [List.getElem?_set_ne (Ne.symm hNe)] at hThread
      have hSame : (store.perform o a c.state).2.webhookEvents = c.state.webhookEvents := by
        cases hHeld' : pt'.held with
        | true =>
          rcases hSelf hHeld' with ⟨-, hSame⟩ | ⟨hNobody, -⟩
          · exact hSame
          · exact absurd hBefore (hNobody u hNe)
        | false =>
          rcases hOthers hHeld' with hSame | hHeld
          · exact hSame
          · exact absurd (h.unique hBefore (hSelfHolder hHeld)) hNe
      rw [hRan.state, hSame]
      exact h.started hBefore hThread
  · have hNoOther : pt'.held = true → ∀ {u}, u ≠ t → ¬ Holder c pts u := by
      intro hHeld' u hNe hHolder
      rcases hSelf hHeld' with ⟨hHeld, -⟩ | ⟨hNobody, -⟩
      · exact hNe (h.unique hHolder (hSelfHolder hHeld))
      · exact hNobody u hNe hHolder
    intro u v hu hv
    rcases hu.of_ran hRan hPoint with ⟨rfl, hHeld'⟩ | ⟨hNeU, hU⟩
    · rcases hv.of_ran hRan hPoint with ⟨rfl, -⟩ | ⟨hNeV, hV⟩
      · rfl
      · exact absurd hV (hNoOther hHeld' hNeV)
    · rcases hv.of_ran hRan hPoint with ⟨rfl, hHeld'⟩ | ⟨hNeV, hV⟩
      · exact absurd hU (hNoOther hHeld' hNeU)
      · exact h.unique hU hV

theorem nobody_of_claimable (h : Alone providerName event c pts) (hT : Tracks store (handling providerName event) start c pts)
    (hStart : ∀ pt ∈ start, pt.held = false) (hI : Claiming providerName event c pts) {l : Label Answer Event}
    (hTimely : isTimely c l = true) {now : Time} (hNow : now ≤ c.state.now)
    (hClaimable : ∃ e ∈ c.state.webhookEvents, e.key = (providerName, event.eventId) ∧
      e.claimable (some (now - claimStaleMs)) = true) (u : Nat) : ¬ Holder c pts u := by
  intro hHolder
  obtain ⟨e, hMem, hKey, hOld⟩ := hClaimable
  have hHolds := (holds_iff hT hStart hI).mpr hHolder
  rw [State.holds, Bool.and_eq_true, Option.any_eq_true] at hHolds
  obtain ⟨-, th, hThread, hRunning⟩ := hHolds
  obtain ⟨w, hBorn, hStarted⟩ := h.started hHolder hThread
  obtain ⟨startedAt, hStartedAt, hLe⟩ := hStarted e hMem hKey
  rw [isTimely, List.all_eq_true] at hTimely
  have hRecent := hTimely th (List.mem_of_getElem? hThread)
  rw [hBorn, hRunning, Bool.not_true, Bool.false_or, Option.all_some, decide_eq_true_eq] at hRecent
  have hElapsed : w.now + claimStaleMs ≤ c.state.now := calc
    w.now + claimStaleMs ≤ startedAt + claimStaleMs := Nat.add_le_add_right hLe _
    _ ≤ now := (WebhookEvent.stale_of_claimable hStartedAt hOld).le
    _ ≤ c.state.now := hNow
  exact absurd hRecent (Nat.not_lt.mpr hElapsed)

theorem Alone.born_le (h : Alone providerName event c pts) (hThread : c.threads[t]? = some th) :
    (th.born.getD c.state).now ≤ c.state.now := by
  cases hBorn : th.born with
  | none => exact le_refl _
  | some w => exact h.born hThread hBorn

theorem Alone.read_fresh (h : Alone providerName event c pts) (hThread : c.threads[t]? = some th) {clocks : List Time}
    (hPoint : pts[t]? = some (.fresh clocks)) {time : Time} (hMem : time ∈ clocks) :
    time ≤ c.state.now ∧ (th.born.getD c.state).now ≤ time := by
  obtain ⟨hLe, w, hBorn, hFrom⟩ := h.read hThread hPoint hMem
  rw [hBorn]
  exact ⟨hLe, hFrom⟩

theorem Alone.run (h : Alone providerName event c pts) (hT : Tracks store (handling providerName event) start c pts)
    (hStart : ∀ pt ∈ start, pt.held = false) (hI : Claiming providerName event c pts) (hTimely : isTimely c (.run t a) = true)
    (hRan : store.Ran c t a o th k c') (hPoint : pts[t]? = some pt) (hMove : Stage.Move providerName event a c.state o pt pt') :
    Alone providerName event c' (pts.set t pt') := by
  have hSame : (∀ op, o ≠ .event op) → (store.perform o a c.state).2.webhookEvents = c.state.webhookEvents := by
    intro hOp
    rcases webhookEvents_perform o a c.state with ⟨op, hEq⟩ | hSame
    · exact absurd hEq (hOp op)
    · exact hSame
  cases hMove with
  | read clocks =>
    refine h.moved hRan hPoint ?_ (by rintro ⟨⟩) fun _ => .inl rfl
    rintro _ time ⟨⟩ hMem
    rcases List.mem_cons.mp hMem with rfl | hMem
    · exact ⟨le_refl _, h.born_le hRan.thread⟩
    · exact h.read_fresh hRan.thread hPoint hMem
  | account id provider clocks =>
    refine h.moved hRan hPoint ?_ (by rintro ⟨⟩) fun _ => .inl (hSame (by rintro _ ⟨⟩))
    rintro _ time ⟨⟩ hMem
    exact h.read_fresh hRan.thread hPoint hMem
  | @create eventType startedAt clocks hRead =>
    have hFresh := h.read_fresh hRan.thread hPoint hRead
    rcases event_perform (.create providerName event.eventId eventType startedAt) a c.state with
      ⟨err, hThrown, hState⟩ | ⟨hPerformed, hEvents⟩
    · rw [hThrown]
      refine h.moved hRan hPoint ?_ (by rintro ⟨⟩) fun _ => .inl (by rw [hState])
      rintro _ time ⟨⟩ hMem
      exact h.read_fresh hRan.thread hPoint hMem
    · rw [hPerformed]
      cases hResult : ((EventOp.create providerName event.eventId eventType startedAt).perform c.state.webhookEvents).1 with
      | error err =>
        refine h.moved hRan hPoint ?_ (by rintro ⟨⟩) fun _ => .inl (hEvents.trans (create_refused hResult))
        rintro _ time ⟨⟩ hMem
        exact h.read_fresh hRan.thread hPoint hMem
      | ok v =>
        obtain ⟨hNew, hStarted⟩ := started_of_create hResult
        refine h.moved hRan hPoint (by rintro _ _ ⟨⟩) (fun _ => .inr ⟨?_, ?_⟩) (by rintro ⟨⟩)
        · rintro u - ⟨thU, pu, -, hPointU, -, hHeldU⟩
          exact hNew (hI.recorded hPointU hHeldU)
        · rw [hEvents]
          exact fun e hMem hKey => ⟨startedAt, hStarted e hMem hKey, hFresh.2⟩
  | @reclaim now startedAt clocks hNow hRead =>
    have hFresh := h.read_fresh hRan.thread hPoint hRead
    rcases event_perform (.reclaim providerName event.eventId (some (now - claimStaleMs)) startedAt) a c.state with
      ⟨err, hThrown, hState⟩ | ⟨hPerformed, hEvents⟩
    · rw [hThrown]
      refine h.moved hRan hPoint ?_ (by rintro ⟨⟩) fun _ => .inl (by rw [hState])
      rintro _ time ⟨⟩ hMem
      exact h.read_fresh hRan.thread hPoint hMem
    · rw [hPerformed]
      cases hResult : ((EventOp.reclaim providerName event.eventId (some (now - claimStaleMs)) startedAt).perform
        c.state.webhookEvents).1 with
      | error err => cases hResult
      | ok won =>
        cases won with
        | false => exact h.moved hRan hPoint (by rintro _ _ ⟨⟩) (by rintro ⟨⟩) fun _ => .inl (hEvents.trans (reclaim_refused hResult))
        | true =>
          obtain ⟨hClaimable, hStarted⟩ := started_of_reclaim h.keys hResult
          have hNobody := nobody_of_claimable h hT hStart hI hTimely (h.read_fresh hRan.thread hPoint hNow).1 hClaimable
          refine h.moved hRan hPoint (by rintro _ _ ⟨⟩) (fun _ => .inr ⟨fun u _ => hNobody u, ?_⟩) (by rintro ⟨⟩)
          rw [hEvents]
          exact fun e hMem hKey => ⟨startedAt, hStarted e hMem hKey, hFresh.2⟩
  | quiet hQuiet hHeld =>
    have hNoEvent : ∀ op, o ≠ .event op := by
      rintro op rfl
      cases hQuiet
    refine h.moved hRan hPoint ?_ (fun _ => .inl ⟨hHeld, hSame hNoEvent⟩) fun _ => .inr hHeld
    rintro _ _ rfl
    cases hHeld
  | lookup restaurantId =>
    refine h.moved hRan hPoint ?_ (fun _ => .inl ⟨rfl, hSame (by rintro _ ⟨⟩)⟩) fun _ => .inr rfl
    intro clocks time hFresh
    cases hResult : (store.perform
      (.delivery (.findByCourierId restaurantId providerName event.providerDeliveryId)) a c.state).1 with
    | error err =>
      rw [hResult] at hFresh
      cases hFresh
    | ok found =>
      rw [hResult] at hFresh
      cases found <;> cases hFresh
  | load restaurantId delivery =>
    refine h.moved hRan hPoint ?_ (fun _ => .inl ⟨rfl, hSame (by rintro _ ⟨⟩)⟩) fun _ => .inr rfl
    intro clocks time hFresh
    cases hResult : (store.perform (.delivery (.findOne delivery.id restaurantId)) a c.state).1 with
    | error err =>
      rw [hResult] at hFresh
      cases hFresh
    | ok stored =>
      rw [hResult] at hFresh
      cases stored <;> cases hFresh
  | save delivery stored at' =>
    refine h.moved hRan hPoint ?_ (fun _ => .inl ⟨rfl, hSame (by rintro _ ⟨⟩)⟩) fun _ => .inr rfl
    intro clocks time hFresh
    cases hResult : (store.perform (.delivery (.save stored.id (event.options.update stored at'))) a c.state).1 with
    | error err =>
      rw [hResult] at hFresh
      cases hFresh
    | ok v =>
      rw [hResult] at hFresh
      cases hFresh
  | @mark changes pt hMark hApplied =>
    have hHeld := Stage.held_of_applied hApplied
    rcases event_perform (.update providerName event.eventId changes) a c.state with ⟨err, hThrown, hState⟩ | ⟨hPerformed, -⟩
    · rw [hThrown]
      refine h.moved hRan hPoint ?_ (fun _ => .inl ⟨hHeld, by rw [hState]⟩) fun _ => .inr hHeld
      intro clocks time hFresh
      cases pt <;> cases hFresh
    · rw [hPerformed]
      exact h.moved hRan hPoint (by rintro _ _ ⟨⟩) (by rintro ⟨⟩) fun _ => .inr hHeld
  | release hMark => exact h.moved hRan hPoint (by rintro _ _ ⟨⟩) (by rintro ⟨⟩) fun _ => .inr rfl
  | acknowledge hPt =>
    rcases hPt with rfl | rfl
    · exact h.moved hRan hPoint (by rintro _ _ ⟨⟩) (by rintro ⟨⟩) fun _ => .inl rfl
    · exact h.moved hRan hPoint (by rintro _ _ ⟨⟩) (by rintro ⟨⟩) fun _ => .inl rfl

end Runs

section Reached

variable {providerName : DeliveryProviderName} {event : ProviderDeliveryWebhookEvent} {env : Env} {w : World}
  {requests : List WebhookRequest} {c : State}

theorem fresh_of_start {t : Nat} {pt : Stage} (h : (requests.map fun _ => Stage.fresh [])[t]? = some pt) : pt = .fresh [] := by
  rw [List.getElem?_map, Option.map_eq_some_iff] at h
  obtain ⟨r, -, rfl⟩ := h
  rfl

theorem Claiming.initial (hNew : ¬ Recorded w.webhookEvents providerName event.eventId) :
    Claiming providerName event (State.start env w requests) (requests.map fun _ => Stage.fresh []) := by
  constructor
  · intro t pt hPoint _
    rw [fresh_of_start hPoint]
    rfl
  · intro t pt hPoint hHeld
    rw [fresh_of_start hPoint] at hHeld
    cases hHeld
  · intro t pt hPoint
    rw [fresh_of_start hPoint]
    trivial
  · intro hAnswered
    cases hAnswered
  · intro hProcessed
    obtain ⟨e, hMem, hKey, -⟩ := isProcessed_iff.mp hProcessed
    exact absurd ⟨e, hMem, hKey⟩ hNew

theorem Alone.initial (hKeys : (w.webhookEvents.map WebhookEvent.key).Nodup) :
    Alone providerName event (State.start env w requests) (requests.map fun _ => Stage.fresh []) := by
  have hNobody : ∀ t, ¬ Holder (State.start env w requests) (requests.map fun _ => Stage.fresh []) t := by
    rintro t ⟨th, pt, -, hPoint, -, hHeld⟩
    rw [fresh_of_start hPoint] at hHeld
    cases hHeld
  refine ⟨hKeys, ?_, ?_, fun hHolder _ => absurd hHolder (hNobody _), fun hHolder _ => absurd hHolder (hNobody _)⟩
  · intro t th w hThread hBorn
    simp only [State.start, Config.initial, List.map_map, List.getElem?_map, Option.map_eq_some_iff] at hThread
    obtain ⟨r, -, rfl⟩ := hThread
    cases hBorn
  · intro t th clocks time _ hPoint hMem
    cases fresh_of_start hPoint
    cases hMem

theorem Alone.stop {pts : List Stage} {t : Nat} {th : Thread Op Op.Resp Err World Unit} (h : Alone providerName event c pts)
    (hThread : c.threads[t]? = some th) :
    Alone providerName event { c with threads := c.threads.set t { th with stopped := true } } pts := by
  have hThreads : ∀ {u : Nat} {thU : Thread Op Op.Resp Err World Unit},
      (c.threads.set t { th with stopped := true })[u]? = some thU →
        ∃ thOld, c.threads[u]? = some thOld ∧ thU.born = thOld.born := by
    intro u thU hThreadU
    rcases Tables.getElem?_set_cases hThreadU with ⟨rfl, rfl⟩ | ⟨-, hThreadU⟩
    · exact ⟨th, hThread, rfl⟩
    · exact ⟨thU, hThreadU, rfl⟩
  have hHolder : ∀ {u}, Holder { c with threads := c.threads.set t { th with stopped := true } } pts u → Holder c pts u := by
    rintro u ⟨thU, pu, hThreadU, hPointU, hStopped, hHeld⟩
    rcases Tables.getElem?_set_cases hThreadU with ⟨rfl, rfl⟩ | ⟨-, hThreadU⟩
    · cases hStopped
    · exact ⟨thU, pu, hThreadU, hPointU, hStopped, hHeld⟩
  refine ⟨h.keys, ?_, ?_, ?_, fun hu hv => h.unique (hHolder hu) (hHolder hv)⟩
  · intro u thU w hThreadU hBorn
    obtain ⟨thOld, hOld, hSame⟩ := hThreads hThreadU
    exact h.born hOld (hSame ▸ hBorn)
  · intro u thU clocks time hThreadU hPointU hMem
    obtain ⟨thOld, hOld, hSame⟩ := hThreads hThreadU
    rw [hSame]
    exact h.read hOld hPointU hMem
  · intro u thU hHolderU hThreadU
    obtain ⟨thOld, hOld, hSame⟩ := hThreads hThreadU
    rw [hSame]
    exact h.started (hHolder hHolderU) hOld

theorem webhookEvents_advance (e : Event) (w : World) : (store.advance e w).webhookEvents = w.webhookEvents := by
  cases e <;> rfl

theorem Alone.advance {pts : List Stage} (h : Alone providerName event c pts) (e : Event) :
    Alone providerName event { c with state := store.advance e c.state } pts := by
  have hEvents := webhookEvents_advance e c.state
  have hLe : c.state.now ≤ (e.advance c.state).now := by
    cases e with
    | tick elapsed => exact Nat.le_add_right ..
    | _ => exact le_refl _
  refine ⟨hEvents ▸ h.keys, fun hThread hBorn => (h.born hThread hBorn).trans hLe, ?_, ?_, h.unique⟩
  · intro u thU clocks time hThreadU hPointU hMem
    obtain ⟨hRead, hBorn⟩ := h.read hThreadU hPointU hMem
    exact ⟨hRead.trans hLe, hBorn⟩
  · intro u thU hHolder hThreadU
    obtain ⟨w, hBorn, hStarted⟩ := h.started hHolder hThreadU
    exact ⟨w, hBorn, fun e hMem => hStarted e (hEvents ▸ hMem)⟩

end Reached

end RestaurantOs.Deliveries
