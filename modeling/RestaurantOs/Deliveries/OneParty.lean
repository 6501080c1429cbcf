import RestaurantOs.Deliveries.Dispatch

/-!
# One party for an order

At most one booking is accepted for an order, and a switch to the restaurant's
staff stands, as long as nobody books or switches the delivery between a dispatch's
load of it and that dispatch's own call and saves, and an accepted booking is saved
before the delivery is loaded again.
-/

namespace RestaurantOs.Dispatch

open Async Prog

/-! ## The history -/

def Op.isLoad : Op → Bool
  | findDelivery _ _ | create _ => true
  | _ => false

def Op.loaded? : (o : Op) → Except Err o.Resp → Option Delivery
  | findDelivery _ _, .ok delivery => delivery
  | create _, .ok delivery => some delivery
  | _, _ => none

section History

variable (orderId : Id)

def booksCourier : Entry Op Op.Resp Err → Bool
  | ⟨_, .createDelivery (.uberDirect _) input, .ok (.ok _)⟩ => input.orderId = orderId
  | _ => false

def storesBooking : Entry Op Op.Resp Err → Bool
  | ⟨_, .save loaded delivery, .ok _⟩ => loaded.orderId = orderId && delivery.providerDeliveryId.isSome
  | _ => false

def savesCourier : Entry Op Op.Resp Err → Bool
  | ⟨_, .save loaded delivery, .ok _⟩ => loaded.orderId = orderId && delivery.provider ≠ .manual
  | _ => false

def switches : Entry Op Op.Resp Err → Bool
  | ⟨_, .switch _, .ok (some delivery)⟩ => delivery.orderId = orderId
  | _ => false

/-- No booking with a courier, and no write of an attempt at one, comes after a
switch. The newest entry comes first. -/
def SwitchStands : List (Entry Op Op.Resp Err) → Prop
  | [] => True
  | e :: earlier =>
    (booksCourier orderId e = true ∨ savesCourier orderId e = true → ∀ s ∈ earlier, switches orderId s = false) ∧ SwitchStands earlier

def isLoadOf (t : Nat) (e : Entry Op Op.Resp Err) : Bool := e.thread = t && e.op.isLoad

/-- What has happened since request `t` loaded the delivery. -/
def sinceLoad (t : Nat) (history : List (Entry Op Op.Resp Err)) : List (Entry Op Op.Resp Err) := history.takeWhile fun e => !isLoadOf t e

def beforeLoad (t : Nat) (history : List (Entry Op Op.Resp Err)) : List (Entry Op Op.Resp Err) := history.dropWhile fun e => !isLoadOf t e

def unswitched (t : Nat) (history : List (Entry Op Op.Resp Err)) : Bool := (sinceLoad t history).all fun e => !switches orderId e

/-- Nobody has booked since request `t` loaded the delivery, and what was booked
before was saved before. -/
def bookingsSeen (t : Nat) (history : List (Entry Op Op.Resp Err)) : Bool :=
  ((sinceLoad t history).all fun e => !booksCourier orderId e) &&
    (beforeLoad t history).all fun e => !booksCourier orderId e ||
      (beforeLoad t history).any fun s => decide (s.thread = e.thread) && storesBooking orderId s

end History

/-- A dispatch calls the courier, and writes what came of it, on a delivery that is as
it has loaded it. A courier that knows a booking again by its key may be called twice. -/
def inTurn (deduplicates : Bool) (c : State) : Label Answer Time → Bool
  | .run t _ =>
    match c.waiting? t with
    | some (.createDelivery (.uberDirect _) input) =>
      unswitched input.orderId t c.history && (deduplicates || bookingsSeen input.orderId t c.history)
    | some (.save loaded delivery) => delivery.provider = .manual || unswitched loaded.orderId t c.history
    | _ => true
  | _ => true

/-! ## What the requests do -/

inductive Stage
  | idle
  | loaded (delivery : Delivery)

def Op.isQuiet : Op → Bool
  | findDelivery _ _ | create _ | save _ _ => false
  | createDelivery (.uberDirect _) _ => false
  | _ => true

def afterLoad (delivery : Option Delivery) : Stage := delivery.elim .idle .loaded

inductive Move (a : Answer) (w : World) : Op → Stage → Stage → Prop
  | quiet {o : Op} {pt : Stage} (hQuiet : o.isQuiet = true) : Move a w o pt pt
  | load {o : Op} {pt : Stage} (hLoad : o.isLoad = true) : Move a w o pt (afterLoad (o.loaded? (o.perform a w).1))
  | call {delivery : Delivery} {accountId : Id} {input : CreateDeliveryInput} (hNone : delivery.providerDeliveryId = none)
      (hOrder : input.orderId = delivery.orderId) :
      Move a w (.createDelivery (.uberDirect accountId) input) (.loaded delivery) (.loaded delivery)
  | save {loaded delivery : Delivery} (hNone : loaded.providerDeliveryId = none) :
      Move a w (.save loaded delivery) (.loaded loaded) (.loaded loaded)

@[reducible] def protocol : Protocol Op World Answer := ⟨Stage, fun o a w pt pt' => Move a w o pt pt', fun _ => True⟩

def Goes {α : Type} (p : Promise α) (pt : Stage) : Prop := p.Follows store protocol pt (fun _ _ => True) fun _ _ => True

section Goes

variable {α β : Type} {pt : Stage} {env : Env} {loaded delivery : Delivery}

theorem goes_quiet {p : Promise α} (h : p.Performs fun o => o.isQuiet = true) : Goes p pt :=
  (h.follows fun _ hQuiet _ _ => Move.quiet hQuiet).mono (fun _ _ _ => trivial) fun _ _ _ => trivial

theorem goes_quiet_bind {p : Promise α} {f : α → Promise β} (h : p.Performs fun o => o.isQuiet = true) (hf : ∀ v, Goes (f v) pt) :
    Goes (p.bind f) pt := by
  refine follows_bind.mpr ((h.follows fun _ hQuiet _ _ => Move.quiet hQuiet).mono ?_ fun _ _ _ => trivial)
  rintro v _ rfl
  exact hf v

theorem clock_quiet : clock.Performs fun o => o.isQuiet = true := performs_call rfl

theorem failDispatch_goes (hNone : loaded.providerDeliveryId = none) {message : String} :
    Goes (failDispatch loaded delivery message) (.loaded loaded) := by
  refine goes_quiet_bind clock_quiet fun now => ?_
  refine follows_call.mpr fun a w => ⟨.loaded loaded, .save hNone, ?_⟩
  split <;> trivial

theorem book_goes (hNone : loaded.providerDeliveryId = none) {restaurantCurrency : String} {provider : DeliveryProvider} {input : CreateDeliveryInput}
    (hOrder : input.orderId = loaded.orderId) : Goes (book loaded delivery restaurantCurrency provider input) (.loaded loaded) := by
  refine follows_bind.mpr (follows_call.mpr fun a w => ⟨.loaded loaded, ?_, ?_⟩)
  · cases provider with
    | manual => exact .quiet rfl
    | uberDirect accountId => exact .call hNone hOrder
  · split
    · rename_i result _
      cases result with
      | error fault => exact failDispatch_goes hNone
      | ok result =>
        refine goes_quiet_bind clock_quiet fun now => ?_
        refine follows_bind.mpr (follows_attempt.mpr (follows_call.mpr fun a w => ⟨.loaded loaded, .save hNone, ?_⟩))
        split
        · trivial
        · exact failDispatch_goes hNone
    · trivial

theorem dispatchPendingDelivery_goes (hNone : loaded.providerDeliveryId = none) {order : Order} {restaurant : Restaurant}
    (hOrder : order.id = loaded.orderId) : Goes (dispatchPendingDelivery env loaded delivery order restaurant) (.loaded loaded) := by
  refine goes_quiet_bind ((performs_all _).translate fun o _ => performs_call rfl) fun resolution => ?_
  refine goes_quiet_bind clock_quiet fun now => ?_
  refine goes_quiet_bind (performs_call rfl) fun customer => ?_
  split
  · trivial
  · dsimp only
    split
    · exact book_goes hNone hOrder
    · split
      · exact failDispatch_goes hNone
      · refine goes_quiet_bind (performs_call rfl) fun quoted => ?_
        cases quoted with
        | error fault => exact failDispatch_goes hNone
        | ok quote => exact goes_quiet_bind clock_quiet fun now => book_goes hNone hOrder

/-! The answers of single operations. -/

section Answers

variable {a : Answer} {w : World}

theorem perform_ok {o : Op} {v : o.Resp} (h : (o.perform a w).1 = .ok v) : o.perform a w = o.answer a w := by
  unfold Op.perform at h ⊢
  split at h
  · cases h
  · rfl

theorem findOrder_id {id restaurantId : Id} {order : Order} (h : ((Op.findOrder id restaurantId).perform a w).1 = .ok (some order)) :
    order.id = id := by
  rw [perform_ok h] at h
  have hFound : w.orders.find? (fun order => order.id = id && order.restaurantId = restaurantId) = some order := Except.ok.inj h
  have hSelected := List.find?_some hFound
  rw [Bool.and_eq_true, decide_eq_true_eq] at hSelected
  exact hSelected.1

theorem create_ok {draft delivery : Delivery} (h : ((Op.create draft).perform a w).1 = .ok delivery) :
    delivery = { draft with id := w.nextId } ∧ taken w.deliveries draft = false ∧
      ((Op.create draft).perform a w).2 = { w with deliveries := w.deliveries ++ [{ draft with id := w.nextId }], nextId := w.nextId + 1 } := by
  have hAnswer : (Op.create draft).perform a w =
      if taken w.deliveries draft then (.error .duplicateKey, w)
      else (.ok { draft with id := w.nextId },
        { w with deliveries := w.deliveries ++ [{ draft with id := w.nextId }], nextId := w.nextId + 1 }) := perform_ok h
  rw [hAnswer] at h ⊢
  split at h
  · cases h
  · rename_i hFree
    cases h
    exact ⟨rfl, Bool.eq_false_iff.mpr hFree, by rw [if_neg hFree]⟩

end Answers

theorem createDeliveryForOrder_goes {orderId restaurantId : Id} : Goes (createDeliveryForOrder env orderId restaurantId) .idle := by
  refine goes_quiet_bind (performs_call rfl) fun existing => ?_
  split
  · trivial
  · refine follows_bind.mpr (follows_call.mpr fun a w => ⟨.idle, .quiet rfl, ?_⟩)
    split
    swap
    · trivial
    rename_i order hOrder
    refine goes_quiet_bind (performs_call rfl) fun restaurant => ?_
    split
    · trivial
    · trivial
    · rename_i order restaurant
      have hId : order.id = orderId := findOrder_id hOrder
      split
      · trivial
      · split
        · trivial
        · split
          · trivial
          · refine follows_bind.mpr (follows_attempt.mpr (follows_call.mpr fun a w => ⟨_, .load rfl, ?_⟩))
            split
            · rename_i delivery hCreated
              rw [hCreated]
              obtain ⟨rfl, -, -⟩ := create_ok hCreated
              exact dispatchPendingDelivery_goes rfl hId
            · rename_i err hFailed
              rw [hFailed]
              dsimp only
              split
              · trivial
              · refine goes_quiet_bind (performs_call rfl) fun raced => ?_
                split <;> trivial

theorem retryDeliveryCreation_goes {deliveryId restaurantId : Id} : Goes (retryDeliveryCreation env deliveryId restaurantId) .idle := by
  refine follows_bind.mpr (follows_call.mpr fun a w => ⟨_, .load rfl, ?_⟩)
  split
  swap
  · trivial
  rename_i found hFound
  rw [hFound]
  split
  · trivial
  · rename_i delivery
    split
    · trivial
    · rename_i hFresh
      rw [Bool.or_eq_true, not_or, Bool.not_eq_true, Option.isSome_eq_false_iff, Option.isNone_iff_eq_none] at hFresh
      refine follows_bind.mpr (follows_call.mpr fun a w => ⟨_, .quiet rfl, ?_⟩)
      split
      swap
      · trivial
      rename_i order hOrder
      refine goes_quiet_bind (performs_call rfl) fun restaurant => ?_
      split
      · rename_i order restaurant
        split
        · trivial
        · exact dispatchPendingDelivery_goes hFresh.1 (findOrder_id hOrder)
      · trivial

theorem switchDeliveryToManual_goes {deliveryId restaurantId : Id} {actor : OrderStatusTransitionActor} :
    Goes (switchDeliveryToManual deliveryId restaurantId actor) .idle := by
  refine follows_bind.mpr (follows_call.mpr fun a w => ⟨_, .load rfl, ?_⟩)
  split
  swap
  · trivial
  split
  · trivial
  · split
    · trivial
    · split
      · trivial
      · split
        · trivial
        · refine goes_quiet_bind (performs_call rfl) fun manual => ?_
          cases manual with
          | error fault => trivial
          | ok manual =>
            refine goes_quiet_bind clock_quiet fun now => goes_quiet_bind (performs_call rfl) fun switched => ?_
            cases switched with
            | none => trivial
            | some switched => exact goes_quiet_bind (performs_call rfl) fun _ => goes_quiet (performs_call rfl)

theorem Request.program_goes (request : Request) : Goes (request.program env) .idle := by
  cases request with
  | createDeliveryForOrder orderId restaurantId => exact createDeliveryForOrder_goes
  | retryDeliveryCreation deliveryId restaurantId => exact retryDeliveryCreation_goes
  | switchDeliveryToManual deliveryId restaurantId actor => exact switchDeliveryToManual_goes
  | cancelDelivery deliveryId restaurantId reason actor =>
    exact goes_quiet_bind ((performs_all _).translate fun o _ => performs_call rfl) fun _ => trivial

end Goes

/-! ## What holds in every state -/

def marks (orderId : Id) (e : Entry Op Op.Resp Err) : Bool := storesBooking orderId e || switches orderId e

def LoadsClean : List (Entry Op Op.Resp Err) → Prop
  | [] => True
  | e :: earlier =>
    (∀ d, e.op.loaded? e.result = some d → d.providerDeliveryId = none → ∀ s ∈ earlier, marks d.orderId s = false) ∧ LoadsClean earlier

structure OneParty (deduplicates : Bool) (w : World) (history : List (Entry Op Op.Resp Err)) : Prop where
  ids : (w.deliveries.map (·.id)).Nodup
  fresh : ∀ d ∈ w.deliveries, d.id < w.nextId
  orders : (w.deliveries.map (·.orderId)).Nodup
  marked : ∀ orderId, ∀ e ∈ history, marks orderId e = true →
    ∃ d ∈ w.deliveries, d.orderId = orderId ∧ d.providerDeliveryId.isSome = true
  manual : ∀ orderId, ∀ e ∈ history, switches orderId e = true → ∃ d ∈ w.deliveries, d.orderId = orderId ∧ d.provider = .manual
  clean : LoadsClean history
  once : ∀ orderId, deduplicates = true ∨ history.countP (booksCourier orderId) ≤ 1
  stands : ∀ orderId, SwitchStands orderId history

/-- Request `t` has last loaded a delivery as `d`, which is stored under its id. -/
structure Knows (c : State) (t : Nat) (d : Delivery) : Prop where
  stored : ∃ stored ∈ c.state.deliveries, stored.id = d.id ∧ stored.orderId = d.orderId
  seen : ∃ later e earlier, c.history = later ++ e :: earlier ∧ isLoadOf t e = true ∧ e.op.loaded? e.result = some d ∧
    ∀ s ∈ later, isLoadOf t s = false

section Entries

variable {orderId : Id} {t : Nat} {o : Op} {e : Entry Op Op.Resp Err} {later earlier : List (Entry Op Op.Resp Err)} {d : Delivery}

theorem plain_of_error {err : Err} :
    marks orderId ⟨t, o, .error err⟩ = false ∧ booksCourier orderId ⟨t, o, .error err⟩ = false ∧ savesCourier orderId ⟨t, o, .error err⟩ = false ∧
      o.loaded? (.error err) = none := by
  cases o with
  | createDelivery provider input => cases provider <;> exact ⟨rfl, rfl, rfl, rfl⟩
  | _ => exact ⟨rfl, rfl, rfl, rfl⟩

theorem sinceLoad_eq (hLoad : isLoadOf t e = true) (hLater : ∀ s ∈ later, isLoadOf t s = false) :
    sinceLoad t (later ++ e :: earlier) = later := by
  unfold sinceLoad
  rw [List.takeWhile_append_of_pos fun s hs => by rw [hLater s hs]; rfl]
  rw [List.takeWhile_cons_of_neg (by rw [hLoad]; exact Bool.false_ne_true), List.append_nil]

theorem beforeLoad_eq (hLoad : isLoadOf t e = true) (hLater : ∀ s ∈ later, isLoadOf t s = false) :
    beforeLoad t (later ++ e :: earlier) = e :: earlier := by
  unfold beforeLoad
  rw [List.dropWhile_append_of_pos fun s hs => by rw [hLater s hs]; rfl]
  rw [List.dropWhile_cons_of_neg (by rw [hLoad]; exact Bool.false_ne_true)]

theorem LoadsClean.before (h : LoadsClean (later ++ e :: earlier)) (hLoaded : e.op.loaded? e.result = some d) (hNone : d.providerDeliveryId = none) :
    ∀ s ∈ earlier, marks d.orderId s = false := by
  induction later with
  | nil => exact h.1 d hLoaded hNone
  | cons s later ih => exact ih h.2

theorem plain_of_load (hLoad : e.op.isLoad = true) :
    marks orderId e = false ∧ booksCourier orderId e = false ∧ savesCourier orderId e = false := by
  obtain ⟨t, o, r⟩ := e
  cases o with
  | findDelivery id restaurantId => exact ⟨rfl, rfl, rfl⟩
  | create draft => exact ⟨rfl, rfl, rfl⟩
  | createDelivery provider input => cases hLoad
  | _ => cases hLoad

end Entries

section Steps

variable {deduplicates : Bool} {w w' : World} {history : List (Entry Op Op.Resp Err)} {e : Entry Op Op.Resp Err} {c : State} {t : Nat} {d : Delivery}

theorem Knows.unswitched (h : OneParty deduplicates c.state c.history) (hKnows : Knows c t d) (hNone : d.providerDeliveryId = none)
    (hGuard : unswitched d.orderId t c.history = true) : ∀ s ∈ c.history, switches d.orderId s = false := by
  obtain ⟨later, e, earlier, hHistory, hLoad, hLoaded, hLater⟩ := hKnows.seen
  have hClean := h.clean
  rw [hHistory] at hClean hGuard ⊢
  rw [Dispatch.unswitched, sinceLoad_eq hLoad hLater, List.all_eq_true] at hGuard
  have hOp : e.op.isLoad = true := (Bool.and_eq_true_iff.mp hLoad).2
  intro s hMem
  rcases List.mem_append.mp hMem with hSince | hBefore
  · simpa using hGuard s hSince
  · rcases List.mem_cons.mp hBefore with rfl | hBefore
    · exact (Bool.or_eq_false_iff.mp (@plain_of_load d.orderId _ hOp).1).2
    · exact (Bool.or_eq_false_iff.mp (hClean.before hLoaded hNone s hBefore)).2

theorem Knows.unbooked (h : OneParty deduplicates c.state c.history) (hKnows : Knows c t d) (hNone : d.providerDeliveryId = none)
    (hGuard : bookingsSeen d.orderId t c.history = true) : ∀ s ∈ c.history, booksCourier d.orderId s = false := by
  obtain ⟨later, e, earlier, hHistory, hLoad, hLoaded, hLater⟩ := hKnows.seen
  have hClean := h.clean
  rw [hHistory] at hClean hGuard ⊢
  rw [bookingsSeen, sinceLoad_eq hLoad hLater, beforeLoad_eq hLoad hLater, Bool.and_eq_true, List.all_eq_true, List.all_eq_true] at hGuard
  have hOp : e.op.isLoad = true := (Bool.and_eq_true_iff.mp hLoad).2
  have hUnmarked : ∀ s ∈ e :: earlier, storesBooking d.orderId s = false := by
    intro s hMem
    rcases List.mem_cons.mp hMem with rfl | hBefore
    · exact (Bool.or_eq_false_iff.mp (@plain_of_load d.orderId _ hOp).1).1
    · exact (Bool.or_eq_false_iff.mp (hClean.before hLoaded hNone s hBefore)).1
  intro s hMem
  rcases List.mem_append.mp hMem with hSince | hBefore
  · simpa using hGuard.1 s hSince
  · have hStored := hGuard.2 s hBefore
    by_contra hBooks
    rw [Bool.not_eq_false] at hBooks
    rw [hBooks, Bool.not_true, Bool.false_or, List.any_eq_true] at hStored
    obtain ⟨save, hSave, hBoth⟩ := hStored
    rw [Bool.and_eq_true, hUnmarked save hSave] at hBoth
    cases hBoth.2

theorem OneParty.step (h : OneParty deduplicates w history) (hIds : (w'.deliveries.map (·.id)).Nodup)
    (hFresh : ∀ d ∈ w'.deliveries, d.id < w'.nextId) (hOrders : (w'.deliveries.map (·.orderId)).Nodup)
    (hStays : ∀ d ∈ w.deliveries, ∃ d' ∈ w'.deliveries, d'.orderId = d.orderId ∧
      (d.providerDeliveryId.isSome = true → d'.providerDeliveryId.isSome = true) ∧
      (d.provider = .manual → (∃ s ∈ history, switches d.orderId s = true) → d'.provider = .manual))
    (hMarks : ∀ orderId, marks orderId e = true → ∃ d ∈ w'.deliveries, d.orderId = orderId ∧ d.providerDeliveryId.isSome = true)
    (hSwitches : ∀ orderId, switches orderId e = true → ∃ d ∈ w'.deliveries, d.orderId = orderId ∧ d.provider = .manual)
    (hLoaded : ∀ d, e.op.loaded? e.result = some d → d.providerDeliveryId = none → ∀ s ∈ history, marks d.orderId s = false)
    (hBooks : ∀ orderId, booksCourier orderId e = true → deduplicates = true ∨ ∀ s ∈ history, booksCourier orderId s = false)
    (hStands : ∀ orderId, booksCourier orderId e = true ∨ savesCourier orderId e = true → ∀ s ∈ history, switches orderId s = false) :
    OneParty deduplicates w' (e :: history) := by
  refine ⟨hIds, hFresh, hOrders, fun orderId s hMem hMark => ?_, fun orderId s hMem hSwitch => ?_, ⟨hLoaded, h.clean⟩, fun orderId => ?_,
    fun orderId => ⟨hStands orderId, h.stands orderId⟩⟩
  · rcases List.mem_cons.mp hMem with rfl | hMem
    · exact hMarks orderId hMark
    · obtain ⟨d, hd, hOrder, hSome⟩ := h.marked orderId s hMem hMark
      obtain ⟨d', hd', hOrder', hKept, -⟩ := hStays d hd
      exact ⟨d', hd', hOrder'.trans hOrder, hKept hSome⟩
  · rcases List.mem_cons.mp hMem with rfl | hMem
    · exact hSwitches orderId hSwitch
    · obtain ⟨d, hd, hOrder, hManual⟩ := h.manual orderId s hMem hSwitch
      obtain ⟨d', hd', hOrder', -, hKept⟩ := hStays d hd
      exact ⟨d', hd', hOrder'.trans hOrder, hKept hManual ⟨s, hMem, hOrder ▸ hSwitch⟩⟩
  · rw [List.countP_cons]
    split
    · rename_i hBook
      refine (hBooks orderId hBook).imp_right fun hNone => ?_
      rw [List.countP_eq_zero.mpr fun s hs => by rw [hNone s hs]; exact Bool.false_ne_true]
    · exact h.once orderId

structure Delivery.SameParty (d d' : Delivery) : Prop where
  id : d'.id = d.id
  orderId : d'.orderId = d.orderId
  provider : d'.provider = d.provider
  providerDeliveryId : d'.providerDeliveryId = d.providerDeliveryId

theorem OneParty.kept (h : OneParty deduplicates w history) {g : Delivery → Delivery} (hDeliveries : w'.deliveries = w.deliveries.map g)
    (hSame : ∀ d : Delivery, d.SameParty (g d)) (hNext : w'.nextId = w.nextId) (hMarks : ∀ orderId, marks orderId e = false)
    (hSaves : ∀ orderId, savesCourier orderId e = false)
    (hLoaded : ∀ d, e.op.loaded? e.result = some d → d ∈ w.deliveries)
    (hBooks : ∀ orderId, booksCourier orderId e = true →
      (deduplicates = true ∨ ∀ s ∈ history, booksCourier orderId s = false) ∧ ∀ s ∈ history, switches orderId s = false) :
    OneParty deduplicates w' (e :: history) := by
  have hIds : w'.deliveries.map (·.id) = w.deliveries.map (·.id) := by
    rw [hDeliveries, List.map_map]
    exact List.map_congr_left fun d _ => (hSame d).id
  have hOrders : w'.deliveries.map (·.orderId) = w.deliveries.map (·.orderId) := by
    rw [hDeliveries, List.map_map]
    exact List.map_congr_left fun d _ => (hSame d).orderId
  refine h.step (hIds ▸ h.ids) (fun d hd => ?_) (hOrders ▸ h.orders) (fun d hd => ?_) (fun orderId hMark => ?_) (fun orderId hSwitch => ?_)
    (fun d hd hNone s hs => ?_) (fun orderId hBook => (hBooks orderId hBook).1) (fun orderId hEither => ?_)
  · rw [hDeliveries] at hd
    obtain ⟨d₀, hd₀, rfl⟩ := List.mem_map.mp hd
    rw [hNext, (hSame d₀).id]
    exact h.fresh d₀ hd₀
  · refine ⟨g d, hDeliveries ▸ List.mem_map_of_mem hd, (hSame d).orderId, fun hSome => ?_, fun hManual _ => (hSame d).provider.trans hManual⟩
    rw [(hSame d).providerDeliveryId]
    exact hSome
  · rw [hMarks orderId] at hMark
    cases hMark
  · have hMark := hMarks orderId
    rw [marks, hSwitch, Bool.or_true] at hMark
    cases hMark
  · by_contra hMark
    rw [Bool.not_eq_false] at hMark
    obtain ⟨d₀, hd₀, hOrder, hSome⟩ := h.marked d.orderId s hs hMark
    obtain rfl := Tables.eq_of_id h.orders hd₀ (hLoaded d hd) hOrder
    rw [hNone] at hSome
    cases hSome
  · refine hEither.elim (fun hBook => (hBooks orderId hBook).2) fun hSave => ?_
    rw [hSaves orderId] at hSave
    cases hSave

theorem OneParty.created (h : OneParty deduplicates w history) {draft : Delivery} (hFree : taken w.deliveries draft = false) :
    OneParty deduplicates { w with deliveries := w.deliveries ++ [{ draft with id := w.nextId }], nextId := w.nextId + 1 }
      (⟨t, .create draft, .ok { draft with id := w.nextId }⟩ :: history) := by
  have hOther : ∀ d ∈ w.deliveries, d.orderId ≠ draft.orderId := by
    intro d hd hOrder
    have hTaken := List.any_eq_false.mp hFree d hd
    rw [decide_eq_true hOrder, Bool.true_or] at hTaken
    exact hTaken rfl
  refine h.step ?_ (fun d hd => ?_) ?_ (fun d hd => ?_) (fun orderId hMark => by cases hMark) (fun orderId hSwitch => by cases hSwitch)
    (fun d hd _ s hs => ?_) (fun orderId hBook => by cases hBook) (fun orderId hEither => hEither.elim (fun h => by cases h) fun h => by cases h)
  · rw [List.map_append, List.nodup_append]
    refine ⟨h.ids, List.nodup_singleton _, fun i hi j hj => ?_⟩
    obtain ⟨d, hd, rfl⟩ := List.mem_map.mp hi
    rw [List.mem_singleton.mp hj]
    exact Nat.ne_of_lt (h.fresh d hd)
  · rcases List.mem_append.mp hd with hOld | hNew
    · exact (h.fresh d hOld).trans (Nat.lt_succ_self _)
    · rw [List.mem_singleton.mp hNew]
      exact Nat.lt_succ_self _
  · rw [List.map_append, List.nodup_append]
    refine ⟨h.orders, List.nodup_singleton _, fun i hi j hj => ?_⟩
    obtain ⟨d, hd, rfl⟩ := List.mem_map.mp hi
    rw [List.mem_singleton.mp hj]
    exact hOther d hd
  · exact ⟨d, List.mem_append_left _ hd, rfl, id, fun hManual _ => hManual⟩
  · obtain rfl := Option.some.inj hd
    by_contra hMark
    rw [Bool.not_eq_false] at hMark
    obtain ⟨d₀, hd₀, hOrder, -⟩ := h.marked _ s hs hMark
    exact hOther d₀ hd₀ hOrder

theorem newlySet_none {α : Type} [DecidableEq α] {value : Option α} : newlySet value none = value := by
  unfold newlySet
  split
  · rename_i hEq
    exact hEq.symm
  · rfl

theorem OneParty.saved (h : OneParty deduplicates c.state c.history) {loaded delivery : Delivery} (hKnows : Knows c t loaded)
    (hNone : loaded.providerDeliveryId = none)
    (hGuard : delivery.provider = .manual ∨ Dispatch.unswitched loaded.orderId t c.history = true) :
    OneParty deduplicates
      { c.state with deliveries := Tables.update (·.id = loaded.id) (delivery.changesFrom loaded).apply c.state.deliveries }
      (⟨t, .save loaded delivery, .ok ()⟩ :: c.history) := by
  obtain ⟨stored, hStored, hId, hOrder⟩ := hKnows.stored
  have hUnswitched : delivery.provider ≠ .manual → ∀ s ∈ c.history, switches loaded.orderId s = false := fun hCourier =>
    hKnows.unswitched h hNone (hGuard.resolve_left hCourier)
  have hIds : (Tables.update (fun d : Delivery => d.id = loaded.id) (delivery.changesFrom loaded).apply c.state.deliveries).map (·.id) =
      c.state.deliveries.map (·.id) := Tables.map_update_eq (fun d : Delivery => d.id) fun _ => rfl
  have hOrders : (Tables.update (fun d : Delivery => d.id = loaded.id) (delivery.changesFrom loaded).apply c.state.deliveries).map (·.orderId) =
      c.state.deliveries.map (·.orderId) := Tables.map_update_eq (fun d : Delivery => d.orderId) fun _ => rfl
  refine h.step (hIds ▸ h.ids) (fun d hd => ?_) (hOrders ▸ h.orders) (fun d hd => ?_) (fun orderId hMark => ?_)
    (fun orderId hSwitch => by cases hSwitch) (fun d hd => by cases hd) (fun orderId hBook => by cases hBook) (fun orderId hEither => ?_)
  · obtain ⟨d₀, hd₀, rfl⟩ := Tables.mem_update.mp hd
    split <;> exact h.fresh d₀ hd₀
  · refine ⟨_, Tables.mem_update.mpr ⟨d, hd, rfl⟩, ?_⟩
    split
    · rename_i hSelected
      have hSame : d = stored := Tables.eq_of_id h.ids hd hStored ((of_decide_eq_true hSelected).trans hId.symm)
      refine ⟨rfl, fun hSome => ?_, fun hManual hSwitched => ?_⟩
      · exact Option.isSome_or.trans (by rw [hSome, Bool.or_true])
      · obtain ⟨s, hs, hSwitch⟩ := hSwitched
        have hDelivery : delivery.provider = .manual := by
          by_contra hCourier
          rw [hSame, hOrder, hUnswitched hCourier s hs] at hSwitch
          cases hSwitch
        change (changed delivery.provider loaded.provider).getD d.provider = .manual
        unfold changed
        split
        · exact hManual
        · exact hDelivery
    · exact ⟨rfl, id, fun hManual _ => hManual⟩
  · have hSave : storesBooking orderId ⟨t, .save loaded delivery, .ok ()⟩ = true :=
      (Bool.or_eq_true_iff.mp hMark).resolve_right Bool.false_ne_true
    obtain ⟨hFor, hSome⟩ := Bool.and_eq_true_iff.mp hSave
    refine ⟨_, Tables.mem_update.mpr ⟨stored, hStored, rfl⟩, ?_⟩
    rw [if_pos (decide_eq_true hId)]
    refine ⟨hOrder.trans (of_decide_eq_true hFor), ?_⟩
    change ((newlySet delivery.providerDeliveryId loaded.providerDeliveryId).or stored.providerDeliveryId).isSome = true
    rw [hNone, newlySet_none, Option.isSome_or, hSome, Bool.true_or]
  · have hSave : savesCourier orderId ⟨t, .save loaded delivery, .ok ()⟩ = true := hEither.resolve_left Bool.false_ne_true
    obtain ⟨hFor, hCourier⟩ := Bool.and_eq_true_iff.mp hSave
    exact of_decide_eq_true hFor ▸ hUnswitched (of_decide_eq_true hCourier)

theorem OneParty.switched (h : OneParty deduplicates w history) {change : Switch} :
    OneParty deduplicates { w with deliveries := Tables.update change.finds change.apply w.deliveries }
      (⟨t, .switch change, .ok ((w.deliveries.find? change.finds).map change.apply)⟩ :: history) := by
  have hIds : (Tables.update change.finds change.apply w.deliveries).map (·.id) = w.deliveries.map (·.id) :=
    Tables.map_update_eq (fun d : Delivery => d.id) fun _ => rfl
  have hOrders : (Tables.update change.finds change.apply w.deliveries).map (·.orderId) = w.deliveries.map (·.orderId) :=
    Tables.map_update_eq (fun d : Delivery => d.orderId) fun _ => rfl
  have hFound : ∀ orderId, switches orderId (⟨t, .switch change, .ok ((w.deliveries.find? change.finds).map change.apply)⟩) = true →
      ∃ d ∈ Tables.update change.finds change.apply w.deliveries,
        d.orderId = orderId ∧ d.providerDeliveryId.isSome = true ∧ d.provider = .manual := by
    intro orderId hSwitch
    cases hFind : w.deliveries.find? change.finds with
    | none =>
      rw [hFind] at hSwitch
      cases hSwitch
    | some d =>
      rw [hFind] at hSwitch
      refine ⟨_, Tables.mem_update.mpr ⟨d, List.mem_of_find?_eq_some hFind, rfl⟩, ?_⟩
      rw [if_pos (List.find?_some hFind)]
      exact ⟨of_decide_eq_true hSwitch, rfl, rfl⟩
  refine h.step (hIds ▸ h.ids) (fun d hd => ?_) (hOrders ▸ h.orders) (fun d hd => ?_) (fun orderId hMark => ?_) (fun orderId hSwitch => ?_)
    (fun d hd => by cases hd) (fun orderId hBook => by cases hBook) (fun orderId hEither => hEither.elim (fun h => by cases h) fun h => by cases h)
  · obtain ⟨d₀, hd₀, rfl⟩ := Tables.mem_update.mp hd
    split <;> exact h.fresh d₀ hd₀
  · refine ⟨_, Tables.mem_update.mpr ⟨d, hd, rfl⟩, ?_⟩
    split
    · exact ⟨rfl, fun _ => rfl, fun _ _ => rfl⟩
    · exact ⟨rfl, id, fun hManual _ => hManual⟩
  · obtain ⟨d, hd, hFor, hSome, -⟩ := hFound orderId ((Bool.or_eq_true_iff.mp hMark).resolve_left Bool.false_ne_true)
    exact ⟨d, hd, hFor, hSome⟩
  · obtain ⟨d, hd, hFor, -, hManual⟩ := hFound orderId hSwitch
    exact ⟨d, hd, hFor, hManual⟩

theorem answer_move {op : Deliveries.MoveOp} {a : Answer} : ∃ g : Delivery → Delivery,
    ((Op.move op).answer a w).2.deliveries = w.deliveries.map g ∧ ∀ d : Delivery, d.SameParty (g d) := by
  have hWritten : ((Op.move op).answer a w).2.deliveries =
      w.deliveries.zipWith (fun d moved => { d with toDelivery := moved }) (op.perform a.toMoveAnswer w.moved).2.deliveries := rfl
  rcases op.deliveries_perform a.toMoveAnswer w.moved with hSame | ⟨id, update, -, hSaved⟩
  · refine ⟨fun d => d, ?_, fun d => ⟨rfl, rfl, rfl, rfl⟩⟩
    rw [hWritten, hSame, World.moved, List.zipWith_map_right, List.zipWith_self]
  · refine ⟨fun d => if d.id = id then { d with toDelivery := update.apply d.toDelivery } else d, ?_, fun d => ?_⟩
    · rw [hWritten, hSaved, World.moved, Tables.update, List.map_map, List.zipWith_map_right, List.zipWith_self]
      refine List.map_congr_left fun d _ => ?_
      simp only [Function.comp_apply, decide_eq_true_eq]
      split <;> rfl
    · dsimp only
      split <;> exact ⟨rfl, rfl, rfl, rfl⟩

theorem answer_stays {o : Op} {a : Answer} (hd : d ∈ w.deliveries) :
    ∃ d' ∈ (o.answer a w).2.deliveries, d'.id = d.id ∧ d'.orderId = d.orderId := by
  cases o with
  | move op =>
    obtain ⟨g, hDeliveries, hSame⟩ := @answer_move w op a
    exact ⟨g d, hDeliveries ▸ List.mem_map_of_mem hd, (hSame d).id, (hSame d).orderId⟩
  | create draft =>
    by_cases hTaken : taken w.deliveries draft
    · have hAnswer : ((Op.create draft).answer a w).2 = w := congrArg Prod.snd (if_pos hTaken)
      exact ⟨d, hAnswer.symm ▸ hd, rfl, rfl⟩
    · have hAnswer : ((Op.create draft).answer a w).2 =
          { w with deliveries := w.deliveries ++ [{ draft with id := w.nextId }], nextId := w.nextId + 1 } := congrArg Prod.snd (if_neg hTaken)
      rw [hAnswer]
      exact ⟨d, List.mem_append_left _ hd, rfl, rfl⟩
  | createDelivery provider input => cases provider <;> exact ⟨d, hd, rfl, rfl⟩
  | save loaded delivery =>
    refine ⟨_, Tables.mem_update.mpr ⟨d, hd, rfl⟩, ?_⟩
    split <;> exact ⟨rfl, rfl⟩
  | switch change =>
    refine ⟨_, Tables.mem_update.mpr ⟨d, hd, rfl⟩, ?_⟩
    split <;> exact ⟨rfl, rfl⟩
  | _ => exact ⟨d, hd, rfl, rfl⟩

theorem perform_stays {o : Op} {a : Answer} (hd : d ∈ w.deliveries) :
    ∃ d' ∈ (o.perform a w).2.deliveries, d'.id = d.id ∧ d'.orderId = d.orderId := by
  unfold Op.perform
  split
  · exact ⟨d, hd, rfl, rfl⟩
  · exact answer_stays hd

theorem loaded_mem {o : Op} {a : Answer} (h : o.loaded? (o.perform a w).1 = some d) : d ∈ (o.perform a w).2.deliveries := by
  cases o with
  | findDelivery id restaurantId =>
    unfold Op.perform at h ⊢
    split at h
    · cases h
    · exact List.mem_of_find?_eq_some h
  | create draft =>
    cases hResult : ((Op.create draft).perform a w).1 with
    | error err =>
      rw [hResult] at h
      cases h
    | ok delivery =>
      rw [hResult] at h
      obtain rfl := Option.some.inj h
      obtain ⟨hDelivery, -, hState⟩ := create_ok hResult
      rw [hState, hDelivery]
      exact List.mem_append_right _ (List.mem_singleton_self _)
  | createDelivery provider input => cases provider <;> cases h
  | _ => cases h

section Ran

variable {a : Answer} {o : Op} {th : Thread Op Op.Resp Err World Unit} {k : Except Err o.Resp → Promise Unit} {c' : State} {u : Nat}

theorem Knows.loaded (hRan : store.Ran c t a o th k c') (hLoad : o.isLoad = true) (hLoaded : o.loaded? (o.perform a c.state).1 = some d) :
    Knows c' t d := by
  refine ⟨⟨d, ?_, rfl, rfl⟩, [], ⟨t, o, (o.perform a c.state).1⟩, c.history, hRan.history, ?_, hLoaded, fun s hs => ?_⟩
  · rw [hRan.state]
    exact loaded_mem hLoaded
  · rw [isLoadOf, hLoad, Bool.and_true]
    exact decide_eq_true rfl
  · cases hs

theorem Knows.ran (h : Knows c u d) (hRan : store.Ran c t a o th k c') (hOther : t = u → o.isLoad = false) : Knows c' u d := by
  obtain ⟨⟨stored, hStored, hId, hOrder⟩, later, e, earlier, hHistory, hLoad, hLoaded, hLater⟩ := h
  obtain ⟨stored', hStored', hId', hOrder'⟩ := @perform_stays c.state stored o a hStored
  refine ⟨⟨stored', ?_, hId'.trans hId, hOrder'.trans hOrder⟩, ⟨t, o, (o.perform a c.state).1⟩ :: later, e, earlier, ?_, hLoad, hLoaded,
    fun s hs => ?_⟩
  · rw [hRan.state]
    exact hStored'
  · rw [hRan.history, hHistory, List.cons_append]
  · rcases List.mem_cons.mp hs with rfl | hs
    · by_cases hEq : t = u
      · rw [isLoadOf, hOther hEq, Bool.and_false]
      · rw [isLoadOf, decide_eq_false hEq, Bool.false_and]
    · exact hLater s hs

theorem OneParty.unchanged (h : OneParty deduplicates w history) (hDeliveries : w'.deliveries = w.deliveries) (hNext : w'.nextId = w.nextId)
    (hPlain : ∀ orderId, marks orderId e = false ∧ booksCourier orderId e = false ∧ savesCourier orderId e = false)
    (hLoaded : ∀ d, e.op.loaded? e.result = some d → d ∈ w.deliveries) : OneParty deduplicates w' (e :: history) := by
  refine h.kept (hDeliveries.trans (List.map_id _).symm) (fun d => ⟨rfl, rfl, rfl, rfl⟩) hNext (fun orderId => (hPlain orderId).1)
    (fun orderId => (hPlain orderId).2.2) hLoaded fun orderId hBook => ?_
  rw [(hPlain orderId).2.1] at hBook
  cases hBook

theorem OneParty.same (h : OneParty deduplicates w history) (hDeliveries : w'.deliveries = w.deliveries) (hNext : w'.nextId = w.nextId) :
    OneParty deduplicates w' history := by
  refine ⟨?_, ?_, ?_, ?_, ?_, h.clean, h.once, h.stands⟩
  · rw [hDeliveries]
    exact h.ids
  · rw [hDeliveries, hNext]
    exact h.fresh
  · rw [hDeliveries]
    exact h.orders
  · rw [hDeliveries]
    exact h.marked
  · rw [hDeliveries]
    exact h.manual

theorem OneParty.quiet (h : OneParty deduplicates w history) (hQuiet : o.isQuiet = true) :
    OneParty deduplicates (o.answer a w).2 (⟨t, o, (o.answer a w).1⟩ :: history) := by
  cases o with
  | move op =>
    obtain ⟨g, hDeliveries, hSame⟩ := @answer_move w op a
    exact h.kept hDeliveries hSame rfl (fun _ => rfl) (fun _ => rfl) (fun d hd => by cases hd) fun orderId hBook => by cases hBook
  | switch change => exact h.switched
  | createDelivery provider input =>
    cases provider with
    | manual => exact h.unchanged rfl rfl (fun _ => ⟨rfl, rfl, rfl⟩) fun d hd => by cases hd
    | uberDirect accountId => cases hQuiet
  | findDelivery id restaurantId => cases hQuiet
  | create draft => cases hQuiet
  | save loaded delivery => cases hQuiet
  | _ => exact h.unchanged rfl rfl (fun _ => ⟨rfl, rfl, rfl⟩) fun d hd => by cases hd

theorem OneParty.load (h : OneParty deduplicates w history) (hLoad : o.isLoad = true) :
    OneParty deduplicates (o.answer a w).2 (⟨t, o, (o.answer a w).1⟩ :: history) := by
  cases o with
  | findDelivery id restaurantId => exact h.unchanged rfl rfl (fun _ => ⟨rfl, rfl, rfl⟩) fun d hd => List.mem_of_find?_eq_some hd
  | create draft =>
    cases hTaken : taken w.deliveries draft with
    | false =>
      have hAnswer : (Op.create draft).answer a w =
          (.ok { draft with id := w.nextId },
            { w with deliveries := w.deliveries ++ [{ draft with id := w.nextId }], nextId := w.nextId + 1 }) :=
        if_neg (Bool.eq_false_iff.mp hTaken)
      rw [hAnswer]
      exact h.created hTaken
    | true =>
      have hAnswer : (Op.create draft).answer a w = (.error .duplicateKey, w) := if_pos hTaken
      rw [hAnswer]
      exact h.unchanged rfl rfl (fun _ => ⟨rfl, rfl, rfl⟩) fun d hd => by cases hd
  | createDelivery provider input => cases hLoad
  | _ => cases hLoad

theorem OneParty.ran (h : OneParty deduplicates c.state c.history) {pt pt' : Stage} (hKnows : ∀ d, pt = .loaded d → Knows c t d)
    (hMove : Move a c.state o pt pt') (hGuard : inTurn deduplicates c (.run t a) = true) (hRan : store.Ran c t a o th k c') :
    OneParty deduplicates c'.state c'.history := by
  rw [hRan.state, hRan.history]
  simp only [inTurn, hRan.waiting?] at hGuard
  change OneParty deduplicates (o.perform a c.state).2 (⟨t, o, (o.perform a c.state).1⟩ :: c.history)
  have hPerform : o.perform a c.state = o.answer a c.state ∨ ∃ err, o.perform a c.state = (.error err, c.state) := by
    unfold Op.perform
    split
    · exact .inr ⟨_, rfl⟩
    · exact .inl rfl
  rcases hPerform with hAnswer | ⟨err, hThrown⟩
  · rw [hAnswer]
    cases hMove with
    | quiet hQuiet => exact h.quiet hQuiet
    | load hLoad => exact h.load hLoad
    | @call delivery accountId input hNone hOrder =>
      have hDelivery : Knows c t delivery := hKnows delivery rfl
      rw [Bool.and_eq_true, hOrder] at hGuard
      refine h.kept (g := fun d => d) (List.map_id _).symm (fun d => ⟨rfl, rfl, rfl, rfl⟩) rfl (fun _ => rfl) (fun _ => rfl)
        (fun d hd => by cases hd) fun orderId hBook => ?_
      have hFor : orderId = delivery.orderId := by
        cases hBooked : a.booked with
        | error fault =>
          have hNever : booksCourier orderId ⟨t, .createDelivery (.uberDirect accountId) input, .ok a.booked⟩ = true := hBook
          rw [hBooked] at hNever
          cases hNever
        | ok result =>
          have hInput : booksCourier orderId ⟨t, .createDelivery (.uberDirect accountId) input, .ok a.booked⟩ = true := hBook
          rw [hBooked] at hInput
          exact (of_decide_eq_true hInput).symm.trans hOrder
      rw [hFor]
      refine ⟨?_, hDelivery.unswitched h hNone hGuard.1⟩
      exact (Bool.or_eq_true_iff.mp hGuard.2).imp_right fun hSeen => hDelivery.unbooked h hNone hSeen
    | @save loaded delivery hNone =>
      refine h.saved (hKnows loaded rfl) hNone ?_
      exact (Bool.or_eq_true_iff.mp hGuard).imp_left of_decide_eq_true
  · rw [hThrown]
    refine h.unchanged rfl rfl (fun orderId => ?_) fun d hd => ?_
    · obtain ⟨hMarks, hBooks, hSaves, -⟩ := @plain_of_error orderId t o err
      exact ⟨hMarks, hBooks, hSaves⟩
    · obtain ⟨-, -, -, hNone⟩ := @plain_of_error 0 t o err
      have hFound : o.loaded? (.error err) = some d := hd
      rw [hNone] at hFound
      cases hFound

theorem Move.knows {pt pt' : Stage} (hMove : Move a c.state o pt pt') (hRan : store.Ran c t a o th k c')
    (hKnows : ∀ d, pt = .loaded d → Knows c t d) (hAfter : pt' = .loaded d) : Knows c' t d := by
  cases hMove with
  | quiet hQuiet =>
    refine (hKnows d hAfter).ran hRan fun _ => ?_
    cases o <;> first | rfl | cases hQuiet
  | load hLoad =>
    cases hLoaded : o.loaded? (o.perform a c.state).1 with
    | none =>
      rw [hLoaded] at hAfter
      cases hAfter
    | some delivery =>
      rw [hLoaded] at hAfter
      cases hAfter
      exact Knows.loaded hRan hLoad hLoaded
  | call hNone hOrder => exact (hKnows d hAfter).ran hRan fun _ => rfl
  | save hNone => exact (hKnows d hAfter).ran hRan fun _ => rfl

end Ran

/-- What is invariant: the database and its history, and what the requests know of it. -/
structure Sound (deduplicates : Bool) (c : State) (pts : List Stage) : Prop where
  party : OneParty deduplicates c.state c.history
  knows : ∀ t d, pts[t]? = some (.loaded d) → Knows c t d

end Steps

/-- An order's delivery has one row and, when the bookings of a dispatch are in turn,
one party: one booking with a courier is accepted for it, and a switch to the staff
is neither followed by one nor undone. -/
theorem one_party_dispatched (env : Env) (deduplicates : Bool) (w : World) (requests : List Request) (c : State)
    (hIds : (w.deliveries.map (·.id)).Nodup) (hFresh : ∀ d ∈ w.deliveries, d.id < w.nextId) (hOrders : (w.deliveries.map (·.orderId)).Nodup)
    (hReach : store.Reach (fun c l => inTurn deduplicates c l = true) (State.start env w requests) c) (orderId : Id) :
    c.state.deliveries.countP (·.orderId = orderId) ≤ 1 ∧ (deduplicates = true ∨ c.history.countP (booksCourier orderId) ≤ 1) ∧
      SwitchStands orderId c.history ∧
      ((∃ e ∈ c.history, switches orderId e = true) → ∀ d ∈ c.state.deliveries, d.orderId = orderId → d.provider = .manual) := by
  have hTracks : Tracks store protocol (requests.map fun _ => Stage.idle) (State.start env w requests) (requests.map fun _ => Stage.idle) :=
    Tracks.initial fun r _ => r.program_goes
  have hStart : Sound deduplicates (State.start env w requests) (requests.map fun _ => Stage.idle) := by
    have hParty : OneParty deduplicates w [] :=
      ⟨hIds, hFresh, hOrders, (fun _ _ he => by cases he), (fun _ _ he => by cases he), trivial, fun _ => .inr (Nat.zero_le 1), fun _ => trivial⟩
    refine ⟨hParty, fun t d hPoint => ?_⟩
    obtain ⟨r, -, hIdle⟩ := List.mem_map.mp (List.mem_of_getElem? hPoint)
    cases hIdle
  obtain ⟨pts, -, hSound⟩ := Tracks.invariant (I := Sound deduplicates) hTracks hStart
    (fun {c c' pts t a o th k pt pt'} _ hSound hGuard hRan hPoint hMove _ => by
      refine ⟨hSound.party.ran (fun d hd => hSound.knows t d (hd ▸ hPoint)) hMove hGuard hRan, fun u d hU => ?_⟩
      rcases Tables.getElem?_set_cases hU with ⟨rfl, hNew⟩ | ⟨hNe, hOld⟩
      · exact hMove.knows hRan (fun d hd => hSound.knows u d (hd ▸ hPoint)) hNew.symm
      · exact (hSound.knows u d hOld).ran hRan fun hEq => absurd hEq.symm hNe)
    (fun _ hSound _ _ => ⟨hSound.party, fun t d hPoint => ⟨(hSound.knows t d hPoint).stored, (hSound.knows t d hPoint).seen⟩⟩)
    (fun _ hSound _ => ⟨hSound.party.same rfl rfl, fun t d hPoint => ⟨(hSound.knows t d hPoint).stored, (hSound.knows t d hPoint).seen⟩⟩) hReach
  have hParty := hSound.party
  refine ⟨?_, hParty.once orderId, hParty.stands orderId, ?_⟩
  · have hCount := List.nodup_iff_count_le_one.mp hParty.orders orderId
    rw [List.count_eq_countP, List.countP_map] at hCount
    refine (List.countP_mono_left fun d _ hFor => ?_).trans hCount
    exact beq_iff_eq.mpr (of_decide_eq_true hFor)
  · rintro ⟨e, he, hSwitch⟩ d hd hFor
    obtain ⟨d', hd', hFor', hManual⟩ := hParty.manual orderId e he hSwitch
    obtain rfl := Tables.eq_of_id hParty.orders hd hd' (hFor.trans hFor'.symm)
    exact hManual

/-! ### Whoever comes second -/

def pizzeria : Restaurant :=
  { id := 1, deliveryProvider := some .uberDirect, name := "Pizzeria", phone := some "+12125550100", country := some "US", latitude := some 40,
    longitude := some (-74) }

def supper : Order :=
  { id := 5, restaurantId := 1, orderNumber := "1001", customerId := 3, orderType := .delivery,
    deliveryAddress := some { line1 := "1 Main St", city := "New York", latitude := 41, longitude := -74, phone := some "+12125550199" } }

def evening : World :=
  { nextId := 20, orders := [supper], restaurants := [pizzeria],
    accounts := [{ id := 9, restaurantId := 1, status := .active, encryptedCredentials := "", webhookSecretConfigured := true, createdAt := 0 }] }

def failedDelivery : Delivery :=
  { id := 7, restaurantId := 1, orderId := 5, provider := .uberDirect, status := .failed, orderNumber := "1001",
    failureReason := some "Timeout", idempotencyKey := deliveryCreationIdempotencyKey 5 }

def runs (t n : Nat) : List (Label Answer Time) := List.replicate n (.run t {})

theorem supper_booked_once : ∃ c : State, c.history.countP (booksCourier 5) = 1 ∧ c.state.deliveries.countP (·.orderId = 5) ≤ 1 ∧
    (false = true ∨ c.history.countP (booksCourier 5) ≤ 1) ∧ SwitchStands 5 c.history ∧
      ((∃ e ∈ c.history, switches 5 e = true) → ∀ d ∈ c.state.deliveries, d.orderId = 5 → d.provider = .manual) := by
  obtain ⟨c, hReach, hBooked⟩ := store.exists_of_exec (inTurn false) (State.start {} evening [.createDeliveryForOrder 5 1]) (runs 0 12)
    (fun c => c.history.countP (booksCourier 5) = 1) (by decide +kernel)
  exact ⟨c, of_decide_eq_true hBooked,
    one_party_dispatched {} false evening _ c List.nodup_nil (fun d hd => absurd hd List.not_mem_nil) List.nodup_nil hReach 5⟩

def manager : OrderStatusTransitionActor := { userId := 2, role := "manager" }

def bookedAfterSwitch (c : State) : Bool :=
  match c.history with
  | ⟨0, .createDelivery (.uberDirect _) input, .ok (.ok _)⟩ :: earlier => input.orderId = 5 && earlier.any (switches 5)
  | _ => false

/-- A retry has loaded the failed delivery, and is quoted, when the delivery is
switched. -/
theorem supper_dispatched_twice : ¬ ∀ (env : Env) (deduplicates : Bool) (w : World) (requests : List Request) (c : State),
    (w.deliveries.map (·.id)).Nodup → (∀ d ∈ w.deliveries, d.id < w.nextId) → (w.deliveries.map (·.orderId)).Nodup →
    store.Reach (fun _ _ => True) (State.start env w requests) c → ∀ orderId,
      c.state.deliveries.countP (·.orderId = orderId) ≤ 1 ∧ (deduplicates = true ∨ c.history.countP (booksCourier orderId) ≤ 1) ∧
        SwitchStands orderId c.history ∧
        ((∃ e ∈ c.history, switches orderId e = true) → ∀ d ∈ c.state.deliveries, d.orderId = orderId → d.provider = .manual) := by
  intro hClaim
  obtain ⟨c, hReach, hBooked⟩ := store.exists_of_exec (fun _ _ => true)
    (State.start {} { evening with deliveries := [failedDelivery] } [.retryDeliveryCreation 7 1, .switchDeliveryToManual 7 1 manager])
    (runs 0 8 ++ runs 1 6 ++ runs 0 1) bookedAfterSwitch (by decide +kernel)
  obtain ⟨-, -, hStands, -⟩ := hClaim {} true { evening with deliveries := [failedDelivery] } _ c (List.nodup_singleton _)
    (fun d hd => by cases List.mem_singleton.mp hd; decide) (List.nodup_singleton _) (hReach.mono fun _ _ _ => trivial) 5
  unfold bookedAfterSwitch at hBooked
  split at hBooked
  · rename_i accountId input result earlier hHistory
    rw [Bool.and_eq_true, List.any_eq_true] at hBooked
    obtain ⟨hOrder, s, hs, hSwitch⟩ := hBooked
    rw [hHistory] at hStands
    rw [hStands.1 (.inl hOrder) s hs] at hSwitch
    cases hSwitch
  · cases hBooked

end RestaurantOs.Dispatch
