import Mathlib.Data.List.Chain
import RestaurantOs.Async.Translate
import RestaurantOs.Deliveries.CourierWebhook

/-!
# Moves of a delivery

A call decides on a copy of the delivery that it has read, and a save appends to
the history that is stored by then. The recorded statuses are a path of the
transition table as long as each save lands on a status that its own may follow.
-/

namespace RestaurantOs.Deliveries

open Async

/-- What a courier's API answers with instead of a result. -/
inductive CourierFault
  | deliveryProviderError (message : String)
  | unexpected (message : String)
  deriving DecidableEq

def CourierFault.text : CourierFault → String
  | deliveryProviderError message => message
  | unexpected message => s!"Unexpected error cancelling delivery: {message}"

inductive MoveOp
  | base (op : Op)
  | findActiveAccount (restaurantId : Id) (provider : DeliveryProviderName)
  | cancelAtProvider (provider : Couriers.DeliveryProvider) (providerDeliveryId : String) (reason : Option String)
  deriving DecidableEq

@[reducible] def MoveOp.Resp : MoveOp → Type
  | base op => op.Resp
  | findActiveAccount _ _ => Option RestaurantDeliveryProviderAccount
  | cancelAtProvider _ _ _ => Except CourierFault Unit

structure MoveAnswer extends Answer where
  cancelled : Except CourierFault Unit := .ok ()

def MoveOp.perform : (op : MoveOp) → MoveAnswer → World → Except Err op.Resp × World
  | base op, a, w => op.perform a.toAnswer w
  | findActiveAccount restaurantId provider, a, w =>
    match a.fault with
    | some text => (.error (.other text), w)
    | none =>
      (.ok (w.accounts.find? fun account => account.restaurantId = restaurantId && account.provider = provider && account.status = .active), w)
  | cancelAtProvider _ _ _, a, w => (.ok a.cancelled, w)

def World.elapse (elapsed : Time) (w : World) : World := { w with now := w.now + elapsed }

@[reducible] def moveStore : Store MoveOp MoveOp.Resp Err World MoveAnswer Time := ⟨MoveOp.perform, World.elapse⟩

abbrev MovePromise (α : Type) := Prog MoveOp MoveOp.Resp Err α

abbrev MoveState := Config MoveOp MoveOp.Resp Err World Delivery

def cancellableDeliveryStatuses : List DeliveryStatus := [.pending, .quoted, .requested, .accepted, .driverAssigned]

def DeliveryStatus.text : DeliveryStatus → String
  | pending => "pending"
  | quoted => "quoted"
  | requested => "requested"
  | accepted => "accepted"
  | driverAssigned => "driver_assigned"
  | pickedUp => "picked_up"
  | outForDelivery => "out_for_delivery"
  | delivered => "delivered"
  | cancelled => "cancelled"
  | failed => "failed"

def resolveProviderForDelivery (env : Env) (delivery : Delivery) : MovePromise (Option Couriers.DeliveryProvider) :=
  if delivery.provider = .manual then pure (some .manual)
  else do
    let account : Option RestaurantDeliveryProviderAccount ← .call (MoveOp.findActiveAccount delivery.restaurantId delivery.provider)
    match account with
    | none => pure none
    | some account => pure (Couriers.buildDeliveryProviderFromAccount env.toEnv account).toOption

def moveDelivery (deliveryId restaurantId : Id) (opts : UpdateDeliveryStatusOptions) : MovePromise Delivery :=
  (updateDeliveryStatus deliveryId restaurantId opts).translate fun o => .call (MoveOp.base o)

def noLongerConnected : String :=
  "This delivery's provider account is no longer connected — it cannot be cancelled through the provider API. Contact the courier directly."

/-- The courier is told before the delivery is read again and moved. -/
def cancelDelivery (env : Env) (deliveryId restaurantId : Id) (reason : Option String) (actor : OrderStatusTransitionActor) :
    MovePromise Delivery := do
  let delivery : Option Delivery ← .call (MoveOp.base (.delivery (.findOne deliveryId restaurantId)))
  match delivery with
  | none => .raise (.api (.notFound "Delivery not found"))
  | some delivery =>
    if !cancellableDeliveryStatuses.contains delivery.status then
      .raise (.api (.conflict s!"A delivery already \"{delivery.status.text}\" can no longer be cancelled from here"))
    else do
      match delivery.providerDeliveryId with
      | none => pure ()
      | some providerDeliveryId => do
        let provider ← resolveProviderForDelivery env delivery
        match provider with
        | none => .raise (.api (.serviceUnavailable noLongerConnected))
        | some provider => do
          let cancelled : Except CourierFault Unit ← .call (MoveOp.cancelAtProvider provider providerDeliveryId reason)
          match cancelled with
          | .ok _ => pure ()
          | .error fault => .raise (.api (.serviceUnavailable fault.text))
      moveDelivery deliveryId restaurantId { nextStatus := .cancelled, cancelReason := reason, actor := some actor }

inductive MoveRequest
  | updateDeliveryStatus (deliveryId restaurantId : Id) (opts : UpdateDeliveryStatusOptions)
  | cancelDelivery (deliveryId restaurantId : Id) (reason : Option String) (actor : OrderStatusTransitionActor)

def MoveRequest.program (env : Env) : MoveRequest → MovePromise Delivery
  | updateDeliveryStatus deliveryId restaurantId opts => moveDelivery deliveryId restaurantId opts
  | cancelDelivery deliveryId restaurantId reason actor => Deliveries.cancelDelivery env deliveryId restaurantId reason actor

def MoveState.start (env : Env) (w : World) (requests : List MoveRequest) : MoveState := .initial w (requests.map (MoveRequest.program env))

/-! ## Paths -/

def Delivery.MovedFrom (earlier delivery : Delivery) : Prop :=
  ∃ moves, delivery.statusHistory = earlier.statusHistory ++ moves ∧
    (earlier.status :: moves.map (·.status)).IsChain (fun previous next => isValidDeliveryTransition previous next = true) ∧
      (earlier.status :: moves.map (·.status)).getLast? = some delivery.status

def landsForward (c : MoveState) : Label MoveAnswer Time → Bool
  | .run t _ =>
    match c.waiting? t with
    | some (.base (.delivery (.save id update))) => c.state.deliveries.all fun stored =>
        stored.id != id || update.moved.all fun entry => isValidDeliveryTransition stored.status entry.status
    | _ => true
  | _ => true

def MovedOn (earlier deliveries : List Delivery) : Prop := ∀ delivery ∈ deliveries, ∃ d ∈ earlier, d.id = delivery.id ∧ d.MovedFrom delivery

section Paths

variable {earlier delivery : Delivery} {update : DeliveryUpdate} {before deliveries : List Delivery} {w : World} {c c' c₁ c₂ : MoveState}

theorem Delivery.MovedFrom.refl : delivery.MovedFrom delivery :=
  ⟨[], (List.append_nil _).symm, List.isChain_singleton _, rfl⟩

theorem Delivery.MovedFrom.apply (h : earlier.MovedFrom delivery)
    (hForward : ∀ entry, update.moved = some entry → isValidDeliveryTransition delivery.status entry.status = true) :
    earlier.MovedFrom (update.apply delivery) := by
  obtain ⟨moves, hHistory, hPath, hLast⟩ := h
  cases hMoved : update.moved with
  | none =>
    refine ⟨moves, ?_, hPath, ?_⟩
    · rw [DeliveryUpdate.apply, hMoved]
      exact (List.append_nil _).trans hHistory
    · rw [DeliveryUpdate.apply, hMoved]
      exact hLast
  | some entry =>
    refine ⟨moves ++ [entry], ?_, ?_, ?_⟩
    · rw [DeliveryUpdate.apply, hMoved, ← List.append_assoc, ← hHistory]
      rfl
    · rw [List.map_append, ← List.cons_append]
      refine hPath.append (List.isChain_singleton _) fun previous hPrevious next hNext => ?_
      rw [hLast] at hPrevious
      cases hPrevious
      cases hNext
      exact hForward entry hMoved
    · rw [DeliveryUpdate.apply, hMoved, List.map_append, ← List.cons_append]
      exact List.getLast?_concat

theorem Delivery.MovedFrom.final (h : earlier.MovedFrom delivery) (hFinal : deliveryTransitions earlier.status = []) :
    delivery.status = earlier.status ∧ delivery.statusHistory = earlier.statusHistory := by
  obtain ⟨moves, hHistory, hPath, hLast⟩ := h
  cases moves with
  | nil => exact ⟨(Option.some.inj hLast).symm, hHistory.trans (List.append_nil _)⟩
  | cons entry rest =>
    have hStep := (List.isChain_cons_cons.mp hPath).1
    unfold isValidDeliveryTransition at hStep
    rw [hFinal] at hStep
    cases hStep

theorem Op.deliveries_perform (o : Op) (a : Answer) (w : World) : (o.perform a w).2.deliveries = w.deliveries ∨
    ∃ id update, o = .delivery (.save id update) ∧ (o.perform a w).2.deliveries = Tables.update (·.id = id) update.apply w.deliveries := by
  cases o with
  | event op =>
    rw [Op.perform]
    split <;> exact .inl rfl
  | findAccount id provider =>
    rw [Op.perform]
    split <;> exact .inl rfl
  | delivery op =>
    rw [Op.perform]
    split
    · exact .inl rfl
    · cases op with
      | save id update =>
        rw [DeliveryOp.perform]
        split
        · exact .inr ⟨id, update, rfl, rfl⟩
        · exact .inl rfl
      | _ => exact .inl rfl
  | _ => exact .inl rfl

theorem MoveOp.deliveries_perform (o : MoveOp) (a : MoveAnswer) (w : World) : (o.perform a w).2.deliveries = w.deliveries ∨
    ∃ id update, o = .base (.delivery (.save id update)) ∧ (o.perform a w).2.deliveries = Tables.update (·.id = id) update.apply w.deliveries := by
  cases o with
  | base op =>
    rcases op.deliveries_perform a.toAnswer w with hSame | ⟨id, update, rfl, hSaved⟩
    · exact .inl hSame
    · exact .inr ⟨id, update, rfl, hSaved⟩
  | findActiveAccount restaurantId provider =>
    rw [MoveOp.perform]
    split <;> exact .inl rfl
  | cancelAtProvider provider providerDeliveryId reason => exact .inl rfl

theorem MovedOn.step {l : Label MoveAnswer Time} (h : MovedOn before c.state.deliveries) (hGuard : landsForward c l = true)
    (hStep : moveStore.step l c = some c') : MovedOn before c'.state.deliveries := by
  cases l with
  | run t a =>
    obtain ⟨o, th, k, hRan⟩ := Store.run_cases hStep
    rw [hRan.state]
    rcases o.deliveries_perform a c.state with hSame | ⟨id, update, rfl, hSaved⟩
    · rw [hSame]
      exact h
    · rw [hSaved]
      intro delivery hMem
      obtain ⟨stored, hStored, rfl⟩ := Tables.mem_update.mp hMem
      obtain ⟨d, hd, hId, hMoved⟩ := h stored hStored
      split
      · rename_i hSelected
        refine ⟨d, hd, hId, hMoved.apply fun entry hEntry => ?_⟩
        simp only [landsForward, hRan.waiting?] at hGuard
        have hLands := List.all_eq_true.mp hGuard stored hStored
        rw [Bool.or_eq_true, bne_iff_ne, hEntry] at hLands
        exact hLands.resolve_left fun hNe => hNe (of_decide_eq_true hSelected)
      · exact ⟨d, hd, hId, hMoved⟩
  | stop t =>
    obtain ⟨th, -, rfl⟩ := Store.stop_cases hStep
    exact h
  | event e =>
    cases hStep
    exact h

theorem MovedOn.reach (hReach : moveStore.Reach (fun c l => landsForward c l = true) c₁ c₂) : MovedOn c₁.state.deliveries c₂.state.deliveries :=
  hReach.invariant (I := fun c => MovedOn c₁.state.deliveries c.state.deliveries) (fun delivery hMem => ⟨delivery, hMem, rfl, .refl⟩)
    fun _ _ _ h hGuard hStep => h.step hGuard hStep

end Paths

end RestaurantOs.Deliveries
