import RestaurantOs.Payments.OrderHistory

/-!
# Orders in the kitchen

An order that is paid online leaves `pending` for the kitchen only on a copy that
was read as paid, and a payment is confirmed only on a provider's word. Each
request carries what it has been told and what it has read.
-/

namespace RestaurantOs.Payments

open Async Prog

/-! ## A provider's word -/

def WebhookBody.paidRefs (body : WebhookBody) : List String :=
  [ProviderName.mock, .safepay, .stripe].filterMap fun name =>
    (({ name } : Provider).verifyWebhookSignature body).bind fun event =>
      if event.status = .paid then some event.providerRef else none

def Op.paidRefs : (o : Op) → Except Err o.Resp → List (Option String)
  | receive, .ok body => (Option.toList body).flatMap fun body => body.paidRefs.map some
  | Op.provider (.retrieve p ref), .ok report => if p.snapshotStatus report = .paid then [ref] else []
  | _, _ => []

def State.toldPaid (c : State) (ref : Option String) : Bool := c.history.any fun e => (e.op.paidRefs e.result).contains ref

/-! ## What a request has read -/

def Op.ordersRead : (o : Op) → Except Err o.Resp → List Order
  | Op.order (.findOne _ _), .ok copy => Option.toList copy
  | Op.order (.findById _), .ok copy => Option.toList copy
  | _, _ => []

def Op.paymentsRead : (o : Op) → Except Err o.Resp → List Payment
  | Op.payment (.findByProviderRef _ _ _), .ok copy => Option.toList copy
  | Op.payment (.findTerminal _ _ _), .ok copy => Option.toList copy
  | Op.payment (.findStale _), .ok copies => copies
  | _, _ => []

structure Reading where
  told : List (Option String) := []
  orders : List Order := []
  payments : List Payment := []

namespace Reading

def after (pt : Reading) (o : Op) (r : Except Err o.Resp) : Reading where
  told := o.paidRefs r ++ pt.told
  orders := o.ordersRead r ++ pt.orders
  payments := o.paymentsRead r ++ pt.payments

def Allows (pt : Reading) : Op → Prop
  | .order (.save copy entry) =>
    copy ∈ pt.orders ∧ (entry.status ≠ .cancelled → copy.paymentMethod = .online → copy.paid = true)
  | .order (.setPaymentStatus id _ _) => ∃ copy ∈ pt.orders, copy.id = id ∧ copy.paymentMethod ≠ .online
  | .payment (.transition payment next) => next = .paid → payment ∈ pt.payments ∧ payment.providerRef ∈ pt.told
  | _ => True

structure Within (pt pt' : Reading) : Prop where
  told : pt.told ⊆ pt'.told
  orders : pt.orders ⊆ pt'.orders
  payments : pt.payments ⊆ pt'.payments

theorem Within.refl (pt : Reading) : pt.Within pt := ⟨List.Subset.refl _, List.Subset.refl _, List.Subset.refl _⟩

theorem Within.trans {pt pt' pt'' : Reading} (h : pt.Within pt') (h' : pt'.Within pt'') : pt.Within pt'' :=
  ⟨List.Subset.trans h.told h'.told, List.Subset.trans h.orders h'.orders, List.Subset.trans h.payments h'.payments⟩

theorem within_after {pt : Reading} {o : Op} {r : Except Err o.Resp} : pt.Within (pt.after o r) :=
  ⟨List.subset_append_right _ _, List.subset_append_right _ _, List.subset_append_right _ _⟩

end Reading

@[reducible] def acting : Protocol Op World Answer where
  Point := Reading
  Move o a w pt pt' := pt.Allows o ∧ pt' = pt.after o (o.perform a w).1
  Rest _ := True

def Op.free : Op → Bool
  | .order (.save _ _) | .order (.setPaymentStatus _ _ _) | .payment (.transition _ _) => false
  | _ => true

/-- The request acts on what it was told and has read, from what `pt` has. -/
abbrev Reading.Lets {α : Type} (pt : Reading) (p : Promise α) : Prop :=
  p.Follows store acting pt (fun _ _ => True) fun _ _ => True

section Walk

variable {α : Type} {pt : Reading}

theorem Reading.allows_free {o : Op} (h : o.free = true) : pt.Allows o := by
  cases o with
  | order op =>
    cases op with
    | save | setPaymentStatus => cases h
    | _ => trivial
  | payment op =>
    cases op with
    | transition => cases h
    | _ => trivial
  | _ => trivial

theorem free_of_plain {o : Op} (h : o.plain = true) : o.free = true := by
  cases o with
  | order op =>
    cases op with
    | save | setPaymentStatus => cases h
    | _ => rfl
  | payment op =>
    cases op with
    | transition => cases h
    | _ => rfl
  | _ => rfl

theorem follows_of_free {p : Promise α} (h : p.Performs fun o => o.free = true) :
    p.Follows store acting pt (fun _ pt' => pt.Within pt') fun _ pt' => pt.Within pt' := by
  induction p generalizing pt with
  | ret v => exact .refl pt
  | raise err => exact .refl pt
  | await o k ih =>
    intro a w
    refine ⟨_, ⟨Reading.allows_free h.1, rfl⟩, ?_⟩
    exact (ih _ (h.2 _)).mono (fun _ _ => (Reading.within_after).trans) fun _ _ => (Reading.within_after).trans

theorem follows_of_plain {p : Promise α} (h : p.Performs fun o => o.plain = true) :
    p.Follows store acting pt (fun _ pt' => pt.Within pt') fun _ pt' => pt.Within pt' :=
  follows_of_free (h.mono fun _ => free_of_plain)

theorem follows_free {o : Op} (h : o.free = true) {Q : o.Resp → Reading → Prop} {E : Err → Reading → Prop}
    (hQ : ∀ v, Q v (pt.after o (.ok v))) (hE : ∀ err, E err (pt.after o (.error err))) :
    (Prog.call o : Promise o.Resp).Follows store acting pt Q E := by
  refine follows_call.mpr fun a w => ⟨_, ⟨Reading.allows_free h, rfl⟩, ?_⟩
  cases (o.perform a w).1 with
  | ok v => exact hQ v
  | error err => exact hE err

theorem lets_of_plain {p : Promise α} (h : p.Performs fun o => o.plain = true) : pt.Lets p :=
  (follows_of_plain h).mono (fun _ _ _ => trivial) fun _ _ _ => trivial

theorem lets_of_free {p : Promise α} (h : p.Performs fun o => o.free = true) : pt.Lets p :=
  (follows_of_free h).mono (fun _ _ _ => trivial) fun _ _ _ => trivial

theorem lets_call {o : Op} (h : pt.Allows o) : pt.Lets (Prog.call o : Promise o.Resp) := by
  refine follows_call.mpr fun a w => ⟨_, ⟨h, rfl⟩, ?_⟩
  cases (o.perform a w).1 <;> trivial

theorem lets_free {o : Op} (h : o.free = true) : pt.Lets (Prog.call o : Promise o.Resp) :=
  follows_free h (fun _ => trivial) fun _ => trivial

theorem now_lets : pt.Lets dateNow := lets_free (o := Op.clock) rfl

theorem lets_onlyIf {b : Prop} [Decidable b] {p : Promise Unit} (h : b → pt.Lets p) : pt.Lets (Prog.onlyIf b p) :=
  follows_onlyIf h fun _ => trivial

theorem follows_within {p : Promise α} {Q : α → Reading → Prop} {E : Err → Reading → Prop}
    (h : p.Follows store acting pt Q E) :
    p.Follows store acting pt (fun v pt' => pt.Within pt' ∧ Q v pt') fun err pt' => pt.Within pt' ∧ E err pt' := by
  induction p generalizing pt with
  | ret v => exact ⟨.refl pt, h⟩
  | raise err => exact ⟨.refl pt, h⟩
  | await o k ih =>
    intro a w
    obtain ⟨pt', ⟨hAllows, rfl⟩, hRest⟩ := h a w
    exact ⟨_, ⟨hAllows, rfl⟩, (ih _ hRest).mono (fun _ _ hEnd => ⟨(Reading.within_after).trans hEnd.1, hEnd.2⟩)
      fun _ _ hEnd => ⟨(Reading.within_after).trans hEnd.1, hEnd.2⟩⟩

theorem lets_bind {β : Type} {p : Promise α} {f : α → Promise β} (h : pt.Lets p) (hf : ∀ a (pt : Reading), pt.Lets (f a)) :
    pt.Lets (p.bind f) := by
  unfold Reading.Lets
  rw [follows_bind]
  exact h.mono (fun a pt _ => hf a pt) fun _ _ _ => trivial

end Walk

/-! ## Payments -/

section Requests

variable {pt : Reading}

def Reading.Confirms (pt : Reading) (payment : Payment) (next : PaymentStatus) : Prop :=
  next = .paid → payment ∈ pt.payments ∧ payment.providerRef ∈ pt.told

theorem applyPaymentStatusTransition_lets {payment : Payment} {newStatus : PaymentStatus} (h : pt.Confirms payment newStatus) :
    pt.Lets (applyPaymentStatusTransition payment newStatus) := by
  unfold applyPaymentStatusTransition Reading.Lets
  rw [bind_eq, follows_bind]
  refine follows_call.mpr fun a w => ⟨_, ⟨h, rfl⟩, ?_⟩
  cases ((Op.payment (.transition payment newStatus)).perform a w).1 with
  | error err => trivial
  | ok order =>
    cases order with
    | none => trivial
    | some order => exact lets_free rfl

theorem finish_lets {provider : ProviderName} {eventId : String} {processedAt : Option Time} {processingError : Option String} :
    pt.Lets (eventOp (.finish provider eventId processedAt processingError)) :=
  lets_free rfl

theorem applyPaymentEvent_lets {provider : ProviderName} {event : ProviderWebhookEvent} {account : Option Id}
    (h : event.status = .paid → some event.providerRef ∈ pt.told) : pt.Lets (applyPaymentEvent provider event account) := by
  unfold applyPaymentEvent Reading.Lets
  rw [bind_eq, follows_bind]
  refine follows_call.mpr fun a w => ⟨_, ⟨trivial, rfl⟩, ?_⟩
  cases hFind : w.payments.find? fun p => p.provider = provider && p.providerRef = some event.providerRef &&
      account.all (p.restaurantPaymentAccountId = some ·) with
  | none =>
    simp only [Op.perform, PaymentOp.perform, hFind]
    exact finish_lets
  | some payment =>
    simp only [Op.perform, PaymentOp.perform, hFind]
    have hRef : payment.providerRef = some event.providerRef := by
      have hSel := List.find?_some hFind
      simp only [Bool.and_eq_true, decide_eq_true_eq] at hSel
      exact hSel.1.2
    split
    · exact lets_bind now_lets fun _ _ => finish_lets
    · refine lets_bind (applyPaymentStatusTransition_lets fun hPaid => ⟨?_, ?_⟩) fun _ _ =>
        lets_bind now_lets fun _ _ => finish_lets
      · exact List.mem_append_left _ (List.mem_singleton_self payment)
      · rw [hRef]
        exact h hPaid

theorem processProviderEvent_lets {provider : ProviderName} {event : ProviderWebhookEvent} {account : Option Id}
    (h : event.status = .paid → some event.providerRef ∈ pt.told) : pt.Lets (processProviderEvent provider event account) := by
  unfold processProviderEvent Reading.Lets
  rw [bind_eq, follows_bind, follows_attempt]
  refine follows_free rfl (fun _ => ?_) fun err => ?_
  · dsimp only
    unfold applyProviderEvent
    split
    · exact lets_bind (lets_of_plain (applyProviderRefundUpdate_plain _ _ _)) fun _ _ =>
        lets_bind now_lets fun _ _ => finish_lets
    · exact applyPaymentEvent_lets h
  · dsimp only
    split <;> trivial

theorem Reading.confirms_of_report {payment : Payment} {provider : Provider} {report : SessionReport}
    (h : payment ∈ pt.payments) :
    (pt.after (Op.provider (.retrieve provider payment.providerRef)) (.ok report)).Confirms payment
      (provider.snapshotStatus report) := by
  intro hPaid
  refine ⟨(within_after).payments h, List.mem_append_left _ ?_⟩
  simp only [Op.paidRefs, hPaid, if_true, List.mem_singleton]

theorem reconcilePayment_lets {env : Env} {payment : Payment} (h : payment ∈ pt.payments) :
    pt.Lets (reconcilePayment env payment) := by
  unfold reconcilePayment findPaymentAccount
  have hReport : ∀ (account : Option RestaurantPaymentAccount) (pt' : Reading), payment ∈ pt'.payments →
      pt'.Lets (if payment.restaurantPaymentAccountId.isSome && account.isNone then pure () else do
        let provider ← .ofExcept (retrieveProvider env payment account)
        let report : SessionReport ← providerOp (.retrieve provider payment.providerRef)
        let status := provider.snapshotStatus report
        if status = payment.status then pure ()
        else if !isValidPaymentTransition payment.status status then pure ()
        else applyPaymentStatusTransition payment status : Promise Unit) := by
    intro account pt' hMem
    split
    · trivial
    · simp only [Reading.Lets, bind_eq, follows_bind, follows_ofExcept]
      split
      · refine follows_free rfl (fun report => ?_) fun _ => trivial
        split
        · trivial
        · split
          · trivial
          · exact applyPaymentStatusTransition_lets (Reading.confirms_of_report hMem)
      · trivial
  unfold Reading.Lets
  rw [bind_eq, follows_bind]
  split
  · exact hReport none pt h
  · exact follows_free rfl (fun account => hReport account _ ((Reading.within_after).payments h)) fun _ => trivial

theorem reconcilePayments_lets {env : Env} {payments : List Payment} (h : payments ⊆ pt.payments) :
    pt.Lets (reconcilePayments env payments) := by
  induction payments generalizing pt with
  | nil => trivial
  | cons payment rest ih =>
    unfold reconcilePayments Reading.Lets
    rw [bind_eq, follows_bind, follows_attempt]
    have hRest : ∀ pt' : Reading, pt.Within pt' → pt'.Lets (reconcilePayments env rest) := fun pt' hWithin =>
      ih fun p hp => hWithin.payments (h (List.mem_cons_of_mem _ hp))
    exact (follows_within (reconcilePayment_lets (h List.mem_cons_self))).mono (fun _ pt' hEnd => hRest pt' hEnd.1)
      fun _ pt' hEnd => hRest pt' hEnd.1

theorem reconcileStalePayments_lets {env : Env} : pt.Lets (reconcileStalePayments env) := by
  unfold reconcileStalePayments
  refine lets_bind now_lets fun now pt' => ?_
  unfold Reading.Lets
  rw [bind_eq, follows_bind]
  exact follows_free rfl (fun stale => reconcilePayments_lets (List.subset_append_left _ _)) fun _ => trivial

theorem loadTerminalPayment_reads {restaurantId orderId paymentId : Id} :
    (loadTerminalPayment restaurantId orderId paymentId).Follows store acting pt (fun payment pt' => payment ∈ pt'.payments)
      fun _ _ => True := by
  unfold loadTerminalPayment
  rw [bind_eq, follows_bind]
  refine follows_free rfl (fun payment => ?_) fun _ => trivial
  cases payment with
  | none => trivial
  | some payment => exact List.mem_append_left _ (List.mem_singleton_self payment)

theorem loadTerminalPayment_lets {restaurantId orderId paymentId : Id} :
    pt.Lets (loadTerminalPayment restaurantId orderId paymentId) :=
  (loadTerminalPayment_reads).mono (fun _ _ _ => trivial) fun _ _ _ => trivial

theorem getPosTerminalPaymentStatus_lets {env : Env} {restaurantId orderId paymentId : Id} :
    pt.Lets (getPosTerminalPaymentStatus env restaurantId orderId paymentId) := by
  unfold getPosTerminalPaymentStatus Reading.Lets
  rw [bind_eq, follows_bind]
  refine (loadTerminalPayment_reads).mono (fun payment pt' hMem => ?_) fun _ _ _ => trivial
  split
  · trivial
  · simp only [bind_eq, follows_bind, follows_attempt]
    refine (follows_of_plain (getPosTerminalProvider_plain _)).mono (fun provider pt'' hWithin => ?_) fun _ _ _ => trivial
    refine follows_free rfl (fun report => ?_) fun _ => trivial
    split
    · rw [follows_bind]
      refine (applyPaymentStatusTransition_lets (Reading.confirms_of_report (hWithin.payments hMem))).mono
        (fun _ _ _ => ?_) fun _ _ _ => trivial
      exact loadTerminalPayment_lets
    · trivial

theorem cancelPosTerminalPayment_lets {env : Env} {restaurantId orderId paymentId : Id} :
    pt.Lets (cancelPosTerminalPayment env restaurantId orderId paymentId) := by
  unfold cancelPosTerminalPayment
  refine lets_bind loadTerminalPayment_lets fun payment pt' => ?_
  split
  · trivial
  · refine lets_bind (lets_of_plain ?_) fun _ _ => ?_
    · unfold cancelAtTerminal
      split
      · trivial
      · exact (getPosTerminalProvider_plain _).bind fun _ => performs_plain rfl
    · refine lets_bind (lets_onlyIf fun _ => applyPaymentStatusTransition_lets fun hPaid => absurd hPaid (by decide)) fun _ _ => ?_
      exact loadTerminalPayment_lets

/-! ## Webhooks -/

theorem WebhookBody.mem_paidRefs {provider : Provider} {body : WebhookBody} {event : ProviderWebhookEvent}
    (hEvent : provider.verifyWebhookSignature body = some event) (hPaid : event.status = .paid) :
    event.providerRef ∈ body.paidRefs := by
  have hName : ({ name := provider.name } : Provider).verifyWebhookSignature body = some event := hEvent
  refine List.mem_filterMap.mpr ⟨provider.name, ?_, ?_⟩
  · cases provider.name <;> decide
  · rw [hName, Option.bind_some, if_pos hPaid]

theorem Reading.told_of_body {body : WebhookBody} {ref : String} (h : ref ∈ body.paidRefs) :
    some ref ∈ (pt.after .receive (.ok (some body))).told := by
  refine List.mem_append_left _ ?_
  simp only [Op.paidRefs, Option.toList_some, List.flatMap_cons, List.flatMap_nil, List.append_nil]
  exact List.mem_map_of_mem h

theorem Reading.told_of_event {provider : Provider} {body : Option WebhookBody} {event : ProviderWebhookEvent}
    (hEvent : body.bind provider.verifyWebhookSignature = some event) (hPaid : event.status = .paid) :
    some event.providerRef ∈ (pt.after .receive (.ok body)).told := by
  cases body with
  | none => cases hEvent
  | some body => exact told_of_body (WebhookBody.mem_paidRefs hEvent hPaid)

theorem handleProviderWebhook_lets {env : Env} {name : ProviderName} : pt.Lets (handleProviderWebhook env name) := by
  unfold handleProviderWebhook
  split
  · trivial
  · split
    · trivial
    · unfold Reading.Lets
      rw [bind_eq, follows_bind]
      refine follows_free rfl (fun body => ?_) fun _ => trivial
      split
      · trivial
      · exact processProviderEvent_lets (Reading.told_of_event ‹_›)

theorem handleRestaurantAccountWebhook_lets {env : Env} {name : ProviderName} {accountId : Id} :
    pt.Lets (handleRestaurantAccountWebhook env name accountId) := by
  unfold handleRestaurantAccountWebhook
  split
  · trivial
  · refine lets_bind (lets_free rfl) fun account pt' => ?_
    cases account with
    | none => trivial
    | some account =>
      dsimp only
      split
      · trivial
      · simp only [Reading.Lets, bind_eq, follows_bind, follows_ofExcept]
        split
        · refine follows_free rfl (fun body => ?_) fun _ => trivial
          split
          · trivial
          · rename_i event hEvent
            rw [follows_bind]
            refine (follows_of_plain (noteFirstWebhook_plain _)).mono (fun _ pt'' hWithin => ?_) fun _ _ _ => trivial
            exact processProviderEvent_lets fun hPaid => hWithin.told (Reading.told_of_event hEvent hPaid)
        · trivial

theorem sessionEvent_paidRefs {body : WebhookBody} {eventId eventType id : String} {session : StripeObject}
    (hId : truthy body.stripe.id = some eventId) (hType : truthy body.stripe.type = some eventType)
    (hObject : body.stripe.object = some session) (hSession : truthy session.id = some id)
    (hEvent : eventType = "checkout.session.completed" ∨ eventType = "checkout.session.expired")
    (hPaid : sessionEventStatus eventType session.toSessionReport = .paid) : id ∈ body.paidRefs := by
  have hKind : body.stripe.type = some eventType := (Option.filter_eq_some_iff.mp hType).1
  have hNot : parseStripeRefundEvent body.stripe = none := by
    simp only [parseStripeRefundEvent, hKind, hObject, hSession, Option.bind_eq_bind, Option.bind_some]
    rw [if_neg]
    rintro ⟨hRefund, -⟩
    rcases hEvent with rfl | rfl
    · exact absurd hRefund (by decide)
    · exact absurd hRefund (by decide)
  have hVerified : verifyStripeSignature body.stripe = some
      { eventId, eventType, providerRef := id, status := sessionEventStatus eventType session.toSessionReport } := by
    simp only [verifyStripeSignature, hId, hType, hObject, hSession, hNot, Option.bind_eq_bind, Option.bind_some]
  exact @WebhookBody.mem_paidRefs { name := .stripe } body _ hVerified hPaid

theorem processConnectEvent_lets {account : RestaurantPaymentAccount} {body : WebhookBody} {eventId eventType : String}
    (hBody : ∀ ref ∈ body.paidRefs, some ref ∈ pt.told) (hId : truthy body.stripe.id = some eventId)
    (hType : truthy body.stripe.type = some eventType) :
    pt.Lets (processConnectEvent account body.stripe eventId eventType) := by
  unfold processConnectEvent
  split
  · rename_i hEvent
    split
    · trivial
    · rename_i session id hSession
      obtain ⟨object, hObject, hRef⟩ := Option.bind_eq_some_iff.mp hSession
      obtain ⟨ref, hRef, hPair⟩ := Option.map_eq_some_iff.mp hRef
      cases hPair
      unfold Reading.Lets
      rw [bind_eq, follows_bind]
      refine (follows_of_plain (noteFirstWebhook_plain _)).mono (fun _ pt' hWithin => ?_) fun _ _ _ => trivial
      exact processProviderEvent_lets fun hPaid =>
        hWithin.told (hBody _ (sessionEvent_paidRefs hId hType hObject hRef hEvent hPaid))
  · split
    · exact processProviderEvent_lets fun hPaid => by cases hPaid
    · split
      · exact lets_of_plain (processAccountEvent_plain _ _ _ _)
      · trivial

theorem handleStripeConnectWebhook_lets {env : Env} : pt.Lets (handleStripeConnectWebhook env) := by
  unfold handleStripeConnectWebhook
  split
  · trivial
  · unfold Reading.Lets
    rw [bind_eq, follows_bind]
    refine follows_free rfl (fun body => ?_) fun _ => trivial
    cases body with
    | none => trivial
    | some body =>
      dsimp only
      split
      · rename_i eventId eventType connectedAccountId hId hType hAccount
        rw [bind_eq, follows_bind]
        refine follows_free rfl (fun account => ?_) fun _ => trivial
        cases account with
        | none => trivial
        | some account =>
          exact processConnectEvent_lets (fun ref hRef => (Reading.within_after).told (Reading.told_of_body hRef)) hId hType
      · trivial

/-! ## Orders -/

theorem findOrder_follows {id restaurantId : Id} {Q : Option Order → Reading → Prop} (hNone : ∀ pt', Q none pt')
    (hSome : ∀ order pt', order.id = id → order ∈ pt'.orders → Q (some order) pt') :
    (orderOp (.findOne id restaurantId)).Follows store acting pt Q fun _ _ => True := by
  refine follows_call.mpr fun a w => ⟨_, ⟨trivial, rfl⟩, ?_⟩
  cases hFind : w.findOrder id restaurantId with
  | none =>
    simp only [Op.perform, OrderOp.perform, hFind]
    exact hNone _
  | some order =>
    simp only [Op.perform, OrderOp.perform, hFind]
    have hSel := List.find?_some hFind
    simp only [Bool.and_eq_true, decide_eq_true_eq] at hSel
    exact hSome order _ hSel.1 (List.mem_append_left _ (List.mem_singleton_self order))

theorem applyOrderStatusTransition_lets {orderId restaurantId : Id} {nextStatus : OrderStatus}
    {actor : Option ActorContext} : pt.Lets (applyOrderStatusTransition orderId restaurantId nextStatus actor) := by
  unfold applyOrderStatusTransition Reading.Lets
  rw [bind_eq, follows_bind]
  refine findOrder_follows (fun _ => trivial) fun order pt' _ hRead => ?_
  dsimp only
  split
  · trivial
  · split
    · trivial
    · rename_i hPaid
      rw [bind_eq, follows_bind]
      refine follows_free rfl (fun now => ?_) fun _ => trivial
      refine lets_bind (lets_call (o := .order (.save order ⟨nextStatus, now⟩)) ⟨?_, ?_⟩) fun _ _ => ?_
      · exact Reading.within_after.orders hRead
      · intro hNext hOnline
        cases hUnpaid : order.paid with
        | true => rfl
        | false => exact absurd ⟨hOnline, by rw [hUnpaid]; exact Bool.false_ne_true, hNext⟩ hPaid
      · refine lets_bind (lets_onlyIf fun _ => lets_free rfl) fun _ _ => lets_bind ?_ fun _ _ =>
          lets_bind (lets_onlyIf fun _ => lets_free rfl) fun _ _ => trivial
        cases actor with
        | none => trivial
        | some actor => exact lets_free (o := Op.audit _ _ _) rfl

theorem updateOrderStatus_lets {restaurantId id : Id} {nextStatus : OrderStatus} {actor : ActorContext} :
    pt.Lets (updateOrderStatus restaurantId id nextStatus actor) :=
  lets_bind applyOrderStatusTransition_lets fun _ _ => lets_free rfl

theorem advanceOrderForDeliveryStatus_lets {orderId restaurantId : Id} {deliveryStatus : DeliveryStatus}
    {actor : Option ActorContext} : pt.Lets (advanceOrderForDeliveryStatus orderId restaurantId deliveryStatus actor) := by
  unfold advanceOrderForDeliveryStatus
  split
  · trivial
  · have hMove : ∀ (nextStatus : OrderStatus) (pt' : Reading), pt'.Lets (do
        let updated ← applyOrderStatusTransition orderId restaurantId nextStatus actor
        orderOp (.announce (statusToEventType nextStatus) updated nextStatus) : Promise Unit) :=
      fun _ _ => lets_bind applyOrderStatusTransition_lets fun _ _ => lets_free rfl
    refine lets_bind (follows_attempt.mpr (lets_bind (lets_free rfl) fun order _ => ?_)) fun _ _ => trivial
    cases order with
    | none => trivial
    | some order => exact lets_bind (lets_onlyIf fun _ => hMove _ _) fun _ _ => lets_onlyIf fun _ => hMove _ _

theorem cancelMyOrder_lets {id userId : Id} : pt.Lets (cancelMyOrder id userId) := by
  unfold cancelMyOrder Reading.Lets
  rw [bind_eq, follows_bind]
  refine follows_free rfl (fun order => ?_) fun _ => trivial
  cases order with
  | none => trivial
  | some order =>
    dsimp only
    split
    · trivial
    · split
      · trivial
      · rw [bind_eq, follows_bind]
        refine follows_free rfl (fun now => ?_) fun _ => trivial
        refine lets_bind (lets_call (o := .order (.save order ⟨.cancelled, now⟩)) ⟨?_, ?_⟩) fun _ _ => ?_
        · exact Reading.within_after.orders (List.mem_append_left _ (List.mem_singleton_self order))
        · exact fun hNext => absurd rfl hNext
        · exact lets_bind (lets_free rfl) fun _ _ => lets_free rfl

theorem updateOrderPaymentStatus_lets {restaurantId id : Id} {paid : Bool} :
    pt.Lets (updateOrderPaymentStatus restaurantId id paid) := by
  unfold updateOrderPaymentStatus Reading.Lets
  rw [bind_eq, follows_bind]
  refine findOrder_follows (fun _ => trivial) fun existing pt' hId hRead => ?_
  dsimp only
  split
  · trivial
  · rename_i hMethod
    split
    · trivial
    · refine lets_bind (lets_call (o := .order (.setPaymentStatus id restaurantId paid)) ⟨existing, hRead, hId, hMethod⟩)
        fun order _ => ?_
      cases order with
      | none => trivial
      | some order => exact lets_free rfl

/-! ## Every request -/

theorem createPaymentForOrder_free (env : Env) (input : CreatePaymentInput) :
    (createPaymentForOrder env input).Performs fun o => o.free = true := by
  unfold createPaymentForOrder openIntent insertPayment
  repeat' first
    | exact performs_call rfl
    | exact (chargeProviderFor_plain _ _).mono fun _ => free_of_plain
    | trivial
    | apply Performs.attempt
    | refine Performs.bind ?_ fun _ => ?_
    | split

theorem createPosTerminalPayment_free (env : Env) (input : CreatePosTerminalInput) :
    (createPosTerminalPayment env input).Performs fun o => o.free = true := by
  unfold createPosTerminalPayment openTerminalPayment insertPayment
  repeat' first
    | exact performs_call rfl
    | exact (getPosTerminalProvider_plain _).mono fun _ => free_of_plain
    | trivial
    | apply Performs.attempt
    | refine Performs.bind ?_ fun _ => ?_
    | split

theorem Request.program_lets (env : Env) (request : Request) : pt.Lets (request.program env) := by
  have hAnswered : ∀ {α : Type} {p : Promise α}, pt.Lets p → pt.Lets (answered p) := fun h => lets_bind h fun _ _ => trivial
  have hPlain : ∀ {α : Type} {p : Promise α}, (p.Performs fun o => o.plain = true) →
      (answered p).Performs fun o => o.plain = true := fun h => h.bind fun _ => trivial
  cases request with
  | refund input => exact hAnswered (lets_of_plain (refundPayment_plain _ _))
  | checkRefund =>
    exact lets_of_plain ((findPaymentRefund_plain _ _ _ _).bind fun _ => hPlain (reconcileRefund_plain _ _ _ _))
  | retryRefund =>
    exact lets_of_plain ((findPaymentRefund_plain _ _ _ _).bind fun _ => hPlain (reconcileRefund_plain _ _ _ _))
  | resolveRefund =>
    exact lets_of_plain ((findPaymentRefund_plain _ _ _ _).bind fun _ => hPlain (resolveHeldRefund_plain _ _ _ _))
  | providerWebhook name => exact handleProviderWebhook_lets
  | accountWebhook name accountId => exact handleRestaurantAccountWebhook_lets
  | connectWebhook => exact handleStripeConnectWebhook_lets
  | reconcilePayments => exact reconcileStalePayments_lets
  | createPayment input => exact hAnswered (lets_of_free (createPaymentForOrder_free _ _))
  | createTerminalPayment input => exact hAnswered (lets_of_free (createPosTerminalPayment_free _ _))
  | pollTerminalPayment => exact hAnswered getPosTerminalPaymentStatus_lets
  | cancelTerminalPayment => exact hAnswered cancelPosTerminalPayment_lets
  | connectAccount => exact lets_of_plain (connectRestaurantPaymentAccount_plain _ _ _ _)
  | connectStripe => exact lets_of_plain (connectStripeConnect_plain _)
  | syncStripe => exact lets_of_plain (syncStripeConnectStatus_plain _ _)
  | disconnectAccount => exact lets_of_plain (disconnectRestaurantPaymentAccount_plain _ _)
  | updateOrderStatus => exact updateOrderStatus_lets
  | advanceOrder => exact advanceOrderForDeliveryStatus_lets
  | cancelMyOrder => exact cancelMyOrder_lets
  | updateOrderPaymentStatus => exact updateOrderPaymentStatus_lets

end Requests

/-! ## Evidence -/

/-- On the way from `start` to `c` some payment of the order has been recorded
as paid, after a provider had reported it as paid. -/
def State.Confirmed (start c : State) (orderId : Id) : Prop :=
  ∃ (c₁ : State) (payment : Payment), store.Reach (fun _ _ => True) start c₁ ∧ store.Reach (fun _ _ => True) c₁ c ∧
    payment ∈ c₁.state.payments ∧ payment.orderId = orderId ∧ payment.status = .paid ∧
      c₁.toldPaid payment.providerRef = true

section Evidence

variable {start c c' : State} {methods : Id → OrderPaymentMethod} {pt : Reading}

theorem State.Confirmed.later {orderId : Id} (h : start.Confirmed c orderId) (hLater : store.Reach (fun _ _ => True) c c') :
    start.Confirmed c' orderId := by
  obtain ⟨c₁, payment, hStart, hReach, hPayment⟩ := h
  exact ⟨c₁, payment, hStart, hReach.trans hLater, hPayment⟩

structure Reading.Sound (start : State) (methods : Id → OrderPaymentMethod) (c : State) (pt : Reading) : Prop where
  told : ∀ ref ∈ pt.told, c.toldPaid ref = true
  payments : ∀ payment ∈ pt.payments, ∃ stored ∈ c.state.payments, stored.id = payment.id ∧
    stored.orderId = payment.orderId ∧ stored.providerRef = payment.providerRef
  orders : ∀ copy ∈ pt.orders, copy.paymentMethod = methods copy.id ∧
    (methods copy.id = .online → copy.paid = true → start.Confirmed c copy.id)

structure Gate (start : State) (methods : Id → OrderPaymentMethod) (c : State) (pts : List Reading) : Prop where
  reached : store.Reach (fun _ _ => True) start c
  readings : ∀ pt ∈ pts, pt.Sound start methods c
  orders : ∀ order ∈ c.state.orders, order.paymentMethod = methods order.id ∧ (methods order.id = .online →
    order.paid = true ∨ (order.status ≠ .pending ∧ order.status ≠ .cancelled) → start.Confirmed c order.id)

theorem Op.ordersRead_stored {o : Op} {a : Answer} {w : World} {copy : Order} (h : copy ∈ o.ordersRead (o.perform a w).1) :
    copy ∈ w.orders := by
  have hFound : ∀ {sel : Order → Bool}, copy ∈ (w.orders.find? sel).toList → copy ∈ w.orders := fun hMem =>
    List.mem_of_find?_eq_some (Option.mem_toList.mp hMem)
  cases o with
  | order op =>
    cases op with
    | findOne | findById => exact hFound h
    | _ => cases h
  | _ => cases h

theorem Op.paymentsRead_stored {o : Op} {a : Answer} {w : World} {payment : Payment}
    (h : payment ∈ o.paymentsRead (o.perform a w).1) : payment ∈ w.payments := by
  have hFound : ∀ {sel : Payment → Bool}, payment ∈ (w.payments.find? sel).toList → payment ∈ w.payments := fun hMem =>
    List.mem_of_find?_eq_some (Option.mem_toList.mp hMem)
  cases o with
  | payment op =>
    cases op with
    | findByProviderRef | findTerminal => exact hFound h
    | findStale before => exact (List.mem_filter.mp (List.mem_of_mem_take h)).1
    | _ => cases h
  | _ => cases h

theorem Op.revise_mem {o : Op} {a : Answer} {w : World} {stored : Payment} (h : stored ∈ w.payments) :
    o.revise w stored ∈ (o.perform a w).2.payments := by
  rw [o.payments_perform]
  exact List.mem_append_left _ (List.mem_map_of_mem h)

theorem Reading.Sound.later {t : Nat} {a : Answer} {o : Op} {th : Thread Op Op.Resp Err World Unit}
    {k : Except Err o.Resp → Promise Unit} (h : pt.Sound start methods c) (hRan : store.Ran c t a o th k c') :
    pt.Sound start methods c' := by
  have hLater : store.Reach (fun _ _ => True) c c' := .step .start trivial hRan.step
  refine ⟨fun ref hRef => ?_, fun payment hPayment => ?_, fun copy hCopy => ?_⟩
  · unfold State.toldPaid
    rw [hRan.history, List.any_cons, Bool.or_eq_true]
    exact .inr (h.told ref hRef)
  · obtain ⟨stored, hStored, hId, hOrder, hRef⟩ := h.payments payment hPayment
    refine ⟨o.revise c.state stored, ?_, ?_, ?_, ?_⟩
    · rw [hRan.state]
      exact Op.revise_mem hStored
    · exact (o.revise_id _ _).trans hId
    · exact (o.revise_orderId _ _).trans hOrder
    · exact (o.revise_providerRef _ _).trans hRef
  · obtain ⟨hMethod, hPaid⟩ := h.orders copy hCopy
    exact ⟨hMethod, fun hOnline hIsPaid => (hPaid hOnline hIsPaid).later hLater⟩

theorem Reading.Sound.after {pts : List Reading} {t : Nat} {a : Answer} {o : Op} {th : Thread Op Op.Resp Err World Unit}
    {k : Except Err o.Resp → Promise Unit} (hGate : Gate start methods c pts) (h : pt.Sound start methods c)
    (hRan : store.Ran c t a o th k c') : (pt.after o (o.perform a c.state).1).Sound start methods c' := by
  have hOld := h.later hRan
  have hRead : Reading.Sound start methods c
      { orders := o.ordersRead (o.perform a c.state).1, payments := o.paymentsRead (o.perform a c.state).1 } := by
    refine ⟨fun _ hRef => absurd hRef List.not_mem_nil, fun payment hPayment => ?_, fun copy hCopy => ?_⟩
    · exact ⟨payment, Op.paymentsRead_stored hPayment, rfl, rfl, rfl⟩
    · obtain ⟨hMethod, hPaid⟩ := hGate.orders copy (Op.ordersRead_stored hCopy)
      exact ⟨hMethod, fun hOnline hIsPaid => hPaid hOnline (.inl hIsPaid)⟩
  have hNew := hRead.later hRan
  refine ⟨fun ref hRef => ?_, fun payment hPayment => ?_, fun copy hCopy => ?_⟩
  · rcases List.mem_append.mp hRef with hTold | hBefore
    · unfold State.toldPaid
      rw [hRan.history, List.any_cons, Bool.or_eq_true]
      exact .inl (List.contains_iff_mem.mpr hTold)
    · exact hOld.told ref hBefore
  · rcases List.mem_append.mp hPayment with hAnswer | hBefore
    · exact hNew.payments payment hAnswer
    · exact hOld.payments payment hBefore
  · rcases List.mem_append.mp hCopy with hAnswer | hBefore
    · exact hNew.orders copy hAnswer
    · exact hOld.orders copy hBefore

/-! ## What makes an order paid -/

theorem revise_confirmed {w : World} {payment stored : Payment} (hConfirms : w.confirms payment = true)
    (hId : stored.id = payment.id) : ((Op.payment (.transition payment .paid)).revise w stored).status = .paid := by
  have hOpen : statusBlocked w (fun p => p.id = payment.id && p.status ≠ .paid) .paid = false := by
    unfold World.confirms at hConfirms
    cases hFind : w.payments.find? fun p => p.id = payment.id && p.status ≠ .paid with
    | none =>
      rw [hFind] at hConfirms
      cases hConfirms
    | some found =>
      rw [hFind, Option.any_some, Bool.not_eq_true'] at hConfirms
      simp only [statusBlocked, hFind, Option.map_some, Option.getD_some, hConfirms, Bool.and_false]
  simp only [Op.revise, PaymentOp.revise, hOpen, hId, decide_true, Bool.true_and, Bool.not_false, Bool.and_true]
  split
  · rfl
  · rename_i hPaid
    exact not_not.mp fun hNot => hPaid (decide_eq_true hNot)

theorem confirms_of_turn {w : World} {payment : Payment} {order : Order} (hUnpaid : order.paid = false)
    (hPaid : ((Op.payment (.transition payment .paid)).turn w order).paid = true) : w.confirms payment = true := by
  cases hConfirms : w.confirms payment with
  | true => rfl
  | false =>
    simp only [Op.turn, hConfirms, Bool.false_and, Bool.false_eq_true, if_false, hUnpaid] at hPaid

theorem Gate.confirmed {pts : List Reading} {t : Nat} {a : Answer} {payment : Payment}
    {th : Thread Op Op.Resp Err World Unit} {k : Except Err (Option Order) → Promise Unit} (h : Gate start methods c pts)
    (hPoint : pt ∈ pts) (hAllows : pt.Confirms payment .paid) (hConfirms : c.state.confirms payment = true)
    (hRan : store.Ran c t a (.payment (.transition payment .paid)) th k c') : start.Confirmed c' payment.orderId := by
  obtain ⟨hRead, hTold⟩ := hAllows rfl
  have hSound := h.readings pt hPoint
  obtain ⟨stored, hStored, hId, hOrder, hRef⟩ := hSound.payments payment hRead
  refine ⟨c', _, h.reached.step trivial hRan.step, .start, ?_, ?_, revise_confirmed hConfirms hId, ?_⟩
  · rw [hRan.state]
    exact Op.revise_mem hStored
  · rw [Op.revise_orderId]
    exact hOrder
  · rw [Op.revise_providerRef, hRef]
    exact (hSound.later hRan).told _ hTold

theorem Gate.ran {pts : List Reading} {t : Nat} {a : Answer} {o : Op} {th : Thread Op Op.Resp Err World Unit}
    {k : Except Err o.Resp → Promise Unit} (h : Gate start methods c pts) (hPoint : pt ∈ pts) (hAllows : pt.Allows o)
    (hRan : store.Ran c t a o th k c') : Gate start methods c' (pts.set t (pt.after o (o.perform a c.state).1)) := by
  have hLater : store.Reach (fun _ _ => True) c c' := .step .start trivial hRan.step
  refine ⟨h.reached.trans hLater, fun pt' hPoint' => ?_, fun order' hMem => ?_⟩
  · rcases List.mem_or_eq_of_mem_set hPoint' with hOther | rfl
    · exact (h.readings pt' hOther).later hRan
    · exact .after h (h.readings pt hPoint) hRan
  · rw [hRan.state, Op.orders_perform] at hMem
    obtain ⟨order, hOrder, hTurn⟩ := List.mem_map.mp hMem
    obtain ⟨hMethod, hOld⟩ := h.orders order hOrder
    have hTurns := o.turns c.state order
    rw [hTurn] at hTurns
    refine ⟨by rw [hTurns.paymentMethod_eq, hTurns.id_eq]; exact hMethod, fun hOnline hIn => ?_⟩
    rw [hTurns.id_eq] at hOnline ⊢
    by_cases hBefore : order.paid = true ∨ (order.status ≠ .pending ∧ order.status ≠ .cancelled)
    · exact (hOld hOnline hBefore).later hLater
    · have hUnpaid : order.paid = false := Bool.eq_false_iff.mpr fun hPaid => hBefore (.inl hPaid)
      cases hTurns with
      | same => exact absurd hIn hBefore
      | @recorded restaurantId paid hOp =>
        -- by hand only what is not paid online is recorded
        subst hOp
        obtain ⟨copy, hCopy, hId, hNot⟩ := hAllows
        obtain ⟨hCopyMethod, -⟩ := (h.readings pt hPoint).orders copy hCopy
        rw [hId, hOnline] at hCopyMethod
        exact absurd hCopyMethod hNot
      | @confirmed payment hOp hId =>
        subst hOp
        rw [hId]
        refine h.confirmed hPoint hAllows (confirms_of_turn hUnpaid ?_) hRan
        rw [hTurn]
        rfl
      | @moved copy entry hOp hId =>
        -- the copy passed the gate
        subst hOp
        obtain ⟨hCopy, hPass⟩ := hAllows
        obtain ⟨hCopyMethod, hPaid⟩ := (h.readings pt hPoint).orders copy hCopy
        rw [hId] at hOnline ⊢
        rcases hIn with hPaidNow | ⟨-, hOpen⟩
        · exact absurd (.inl hPaidNow) hBefore
        · exact (hPaid hOnline (hPass hOpen (hCopyMethod.trans hOnline))).later hLater

theorem Gate.kept {pts : List Reading} (h : Gate start methods c pts) (hLater : store.Reach (fun _ _ => True) c c')
    (hHistory : c'.history = c.history) (hOrders : c'.state.orders = c.state.orders)
    (hPayments : c'.state.payments = c.state.payments) : Gate start methods c' pts := by
  refine ⟨h.reached.trans hLater, fun pt hPoint => ?_, fun order hMem => ?_⟩
  · obtain ⟨hTold, hPaid, hCopies⟩ := h.readings pt hPoint
    refine ⟨fun ref hRef => ?_, fun payment hPayment => ?_, fun copy hCopy => ?_⟩
    · unfold State.toldPaid
      rw [hHistory]
      exact hTold ref hRef
    · rw [hPayments]
      exact hPaid payment hPayment
    · obtain ⟨hMethod, hConfirmed⟩ := hCopies copy hCopy
      exact ⟨hMethod, fun hOnline hIsPaid => (hConfirmed hOnline hIsPaid).later hLater⟩
  · rw [hOrders] at hMem
    obtain ⟨hMethod, hConfirmed⟩ := h.orders order hMem
    exact ⟨hMethod, fun hOnline hIn => (hConfirmed hOnline hIn).later hLater⟩

end Evidence

def World.paymentMethods (w : World) (id : Id) : OrderPaymentMethod :=
  ((w.orders.find? fun order => order.id = id).map Order.paymentMethod).getD .cash

theorem World.paymentMethods_eq {w : World} (hIds : (w.orders.map Order.id).Nodup) {order : Order} (h : order ∈ w.orders) :
    w.paymentMethods order.id = order.paymentMethod := by
  have hFind : w.orders.find? (fun e => e.id = order.id) = some order := Tables.find?_id hIds h
  rw [paymentMethods, hFind]
  rfl

def Order.Created (order : Order) : Prop :=
  order.status = .pending ∧ ∃ markPaidImmediately : Bool,
    order.paid = (markPaidImmediately && order.paymentMethod ≠ .online)

/-- Whatever the interleaving, an online order is past `pending` and not
cancelled only if a payment of it has been recorded as paid, after a provider
had reported that payment as paid. -/
theorem online_order_confirmed {env : Env} {w : World} {requests : List Request} {c : State}
    (hIds : (w.orders.map Order.id).Nodup) (hCreated : ∀ order ∈ w.orders, order.paymentMethod = .online → order.Created)
    (h : store.Reach (fun _ _ => True) (State.start env w requests) c) :
    ∀ order ∈ c.state.orders, order.paymentMethod = .online → order.status ≠ .pending → order.status ≠ .cancelled →
      (State.start env w requests).Confirmed c order.id := by
  let start := State.start env w requests
  have hTracks : Tracks store acting (requests.map fun _ => ({} : Reading)) start (requests.map fun _ => {}) :=
    Tracks.initial fun request _ => request.program_lets env
  have hStart : Gate start w.paymentMethods start (requests.map fun _ => {}) := by
    refine ⟨.start, fun pt hPoint => ?_, fun order hMem => ⟨(w.paymentMethods_eq hIds hMem).symm, fun hOnline hIn => ?_⟩⟩
    · obtain ⟨request, -, rfl⟩ := List.mem_map.mp hPoint
      exact ⟨fun _ hRef => absurd hRef List.not_mem_nil, fun _ hPayment => absurd hPayment List.not_mem_nil,
        fun _ hCopy => absurd hCopy List.not_mem_nil⟩
    · rw [w.paymentMethods_eq hIds hMem] at hOnline
      obtain ⟨hPending, markPaid, hPaid⟩ := hCreated order hMem hOnline
      rcases hIn with hIsPaid | ⟨hPast, -⟩
      · rw [hPaid, hOnline] at hIsPaid
        simp at hIsPaid
      · exact absurd hPending hPast
  obtain ⟨pts, -, hGate⟩ := hTracks.invariant hStart
    (fun hT hI _ hRan hPoint hMove _ => by
      obtain ⟨hAllows, rfl⟩ := hMove
      exact hI.ran (List.mem_of_getElem? hPoint) hAllows hRan)
    (fun _ hI _ hThread => hI.kept (.step .start trivial (Store.stop_step hThread)) rfl rfl rfl)
    (fun {c _ e} _ hI _ => hI.kept (.step (l := .event e) .start trivial rfl) rfl (e.orders_advance c.state) (e.advance_fields c.state).2.1) h
  intro order hMem hOnline hPast hOpen
  obtain ⟨hMethod, hConfirmed⟩ := hGate.orders order hMem
  exact hConfirmed (hMethod.symm.trans hOnline) (.inr ⟨hPast, hOpen⟩)

def onlineOrder : Order := { placedOrder with paymentMethod := .online }

def openPayment : Payment where
  id := 5
  restaurantId := 1
  orderId := 2
  customerId := 3
  provider := .mock
  providerRef := some "ref"
  currency := "usd"
  amount := 10
  idempotencyKey := none
  createdAt := 0

/-- The provider reports the payment, then staff confirms the order. -/
theorem online_order_confirmed_paid : ∃ c : State, (c.state.orders.map Order.status = [.confirmed]) ∧
    ∀ order ∈ c.state.orders, order.paymentMethod = .online → order.status ≠ .pending → order.status ≠ .cancelled →
      (State.start {} { orders := [onlineOrder], payments := [openPayment], nextId := 6 }
        [.providerWebhook .mock, .updateOrderStatus 1 2 .confirmed ⟨4, "staff"⟩]).Confirmed c order.id := by
  obtain ⟨c, hReach, hEnd⟩ := store.exists_of_exec (fun _ _ => true)
    (State.start {} { orders := [onlineOrder], payments := [openPayment], nextId := 6 }
      [.providerWebhook .mock, .updateOrderStatus 1 2 .confirmed ⟨4, "staff"⟩])
    (List.flatten [.run 0 { body := some { stripe := { id := some "evt", type := some "payment" }, providerRef := some "ref", status := some "paid" } } ::
      List.replicate 5 (.run 0 {}), List.replicate 5 (.run 1 {})])
    (fun c : State => c.state.orders.map Order.status = [.confirmed]) (by decide +kernel)
  refine ⟨c, of_decide_eq_true hEnd, online_order_confirmed (by decide +kernel) ?_ (hReach.mono fun _ _ _ => trivial)⟩
  intro order hMem _
  cases List.mem_singleton.mp hMem
  exact ⟨rfl, false, rfl⟩

end RestaurantOs.Payments
