import RestaurantOs.Async.Rely
import RestaurantOs.Payments.Requests

/-!
# What requests do to orders

Every status a request saves may follow the status of the copy it read. On an
order that it has found cancelled a request records no payment, and it
confirms only attempts that it has found.
-/

namespace RestaurantOs.Payments

open Async Prog

/-- What is true of the orders and payments throughout a run: which orders
are cancelled, the attempts that those orders have, and every order's type. -/
structure Facts where
  cancelled : Id → Prop
  attempt : Id → Prop
  orderType : Id → OrderType

namespace Facts

def order (f : Facts) (order : Order) : Prop :=
  (f.cancelled order.id → order.status = .cancelled) ∧ order.orderType = f.orderType order.id

def payment (f : Facts) (payment : Payment) : Prop := f.cancelled payment.orderId → f.attempt payment.id

/-- Reads answer with true orders and payments; no intent is opened for a
cancelled order. -/
def rely (f : Facts) : (o : Op) → Except Err o.Resp → Prop
  | .order (.findOne id _), r | .order (.findById id), r => ∀ order, r = .ok (some order) → order.id = id ∧ f.order order
  | .payment (.findById _), r | .payment (.findByProviderRef _ _ _), r | .payment (.findTerminal _ _ _), r =>
    ∀ payment, r = .ok (some payment) → f.payment payment
  | .payment (.findStale _), r => ∀ payments, r = .ok payments → ∀ payment ∈ payments, f.payment payment
  | .provider (.createIntent _ order _ _), _ => ¬ f.cancelled order.id
  | _, _ => True

def ok (f : Facts) : Op → Prop
  | .order (.save order entry) => isValidStatusTransition order.status entry.status (f.orderType order.id) = true
  | .order (.setPaymentStatus id _ paid) => paid = true → ¬ f.cancelled id
  | .payment (.create draft) => ¬ f.cancelled draft.orderId
  | .payment (.transition payment next) => next = .paid → f.payment payment
  | _ => True

end Facts

def Op.plain : Op → Bool
  | .order (.save _ _) | .order (.setPaymentStatus _ _ _) | .payment (.create _) | .payment (.transition _ _) => false
  | _ => true

variable {α : Type} {f : Facts}

theorem Facts.ok_plain {o : Op} (h : o.plain = true) : f.ok o := by
  cases o with
  | order op => cases op <;> trivial
  | payment op => cases op <;> trivial
  | _ => trivial

theorem performs_plain {o : Op} (h : o.plain = true) : (Prog.call o : Promise o.Resp).Performs fun o => o.plain = true :=
  performs_call h

theorem keeps_of_plain {p : Promise α} {Q : α → Prop} {E : Err → Prop} (h : p.Performs fun o => o.plain = true)
    (hQ : ∀ a, Q a) (hE : ∀ e, E e) : p.Keeps f.rely f.ok Q E :=
  h.keeps (fun _ => Facts.ok_plain) hQ hE

/-! ## Refunds -/

theorem refundProviderFor_plain (env : Env) (payment : Payment) :
    (refundProviderFor env payment).Performs fun o => o.plain = true := by
  unfold refundProviderFor
  repeat' first | exact performs_plain rfl | exact performs_ofExcept | trivial | refine Performs.bind ?_ fun _ => ?_ | split

theorem applyRefundOutcome_plain (refund : Refund) (report : RefundReport) (method : ReportMethod) (ctx : ActorContext)
    (evidence : Option String) : (applyRefundOutcome refund report method ctx evidence).Performs fun o => o.plain = true := by
  unfold applyRefundOutcome settlementEffects adjustTotal syncPaymentRefundStatus announceRefund nonNull
  repeat' first
    | exact performs_plain rfl
    | trivial
    | apply performs_onlyIf
    | refine Performs.bind ?_ fun _ => ?_
    | split
    | dsimp only

theorem callProviderAndRecord_plain (claim : Refund) (payment : Payment) (provider : Provider) (reissue : Bool)
    (ctx : ActorContext) : (callProviderAndRecord claim payment provider reissue ctx).Performs fun o => o.plain = true := by
  unfold callProviderAndRecord
  repeat' first
    | exact performs_plain rfl
    | exact applyRefundOutcome_plain _ _ _ _ _
    | trivial
    | apply Performs.attempt
    | refine Performs.bind ?_ fun _ => ?_
    | split

theorem reconcileRefund_plain (env : Env) (refund : Refund) (ctx : ActorContext) (allowReissue : Bool) :
    (reconcileRefund env refund ctx allowReissue).Performs fun o => o.plain = true := by
  unfold reconcileRefund reissueMissing reissueLeased finallyDo nonNull
  repeat' first
    | exact performs_plain rfl
    | exact refundProviderFor_plain _ _
    | exact applyRefundOutcome_plain _ _ _ _ _
    | exact callProviderAndRecord_plain _ _ _ _ _
    | exact performs_ofExcept
    | trivial
    | apply Performs.attempt
    | refine Performs.bind ?_ fun _ => ?_
    | split

theorem sameKeyRefund_plain (env : Env) (input : RefundInput) :
    (sameKeyRefund env input).Performs fun o => o.plain = true := by
  unfold sameKeyRefund
  repeat' first
    | exact performs_plain rfl
    | exact reconcileRefund_plain _ _ _ _
    | trivial
    | refine Performs.bind ?_ fun _ => ?_
    | split

theorem refundPayment_plain (env : Env) (input : RefundInput) :
    (refundPayment env input).Performs fun o => o.plain = true := by
  unfold refundPayment refundLoaded refundWaiting refuseUnlessDuplicate claimRefund refundClaimed
  repeat' first
    | exact performs_plain rfl
    | exact sameKeyRefund_plain _ _
    | exact refundProviderFor_plain _ _
    | exact callProviderAndRecord_plain _ _ _ _ _
    | trivial
    | apply Performs.attempt
    | refine Performs.bind ?_ fun _ => ?_
    | split
    | dsimp only

theorem resolveHeldRefund_plain (env : Env) (refund : Refund) (input : ResolveRefundInput) (actor : ActorContext) :
    (resolveHeldRefund env refund input actor).Performs fun o => o.plain = true := by
  unfold resolveHeldRefund confirmNotRefunded refundProviderOf
  repeat' first
    | exact performs_plain rfl
    | exact refundProviderFor_plain _ _
    | exact applyRefundOutcome_plain _ _ _ _ _
    | trivial
    | refine Performs.bind ?_ fun _ => ?_
    | split
    | dsimp only

theorem findPaymentRefund_plain (restaurantId orderId paymentId refundId : Id) :
    (findPaymentRefund restaurantId orderId paymentId refundId).Performs fun o => o.plain = true := by
  unfold findPaymentRefund
  repeat' first | exact performs_plain rfl | trivial | refine Performs.bind ?_ fun _ => ?_ | split

theorem applyProviderRefundUpdate_plain (provider : ProviderName) (update : ProviderRefundUpdate) (account : Option Id) :
    (applyProviderRefundUpdate provider update account).Performs fun o => o.plain = true := by
  unfold applyProviderRefundUpdate findUpdatedRefund
  repeat' first
    | exact performs_plain rfl
    | exact applyRefundOutcome_plain _ _ _ _ _
    | trivial
    | refine Performs.bind ?_ fun _ => ?_
    | split

/-! ## Accounts -/

theorem findConnectable_plain (restaurantId : Id) : (findConnectable restaurantId).Performs fun o => o.plain = true := by
  unfold findConnectable
  repeat' first | exact performs_plain rfl | trivial | refine Performs.bind ?_ fun _ => ?_ | split

theorem connectRestaurantPaymentAccount_plain (env : Env) (restaurantId userId : Id) (encryptedCredentials : String) :
    (connectRestaurantPaymentAccount env restaurantId userId encryptedCredentials).Performs fun o => o.plain = true := by
  unfold connectRestaurantPaymentAccount
  repeat' first
    | exact performs_plain rfl
    | exact findConnectable_plain _
    | exact performs_ofExcept
    | trivial
    | refine Performs.bind ?_ fun _ => ?_
    | split

theorem connectStripeConnect_plain (restaurantId : Id) :
    (connectStripeConnect restaurantId).Performs fun o => o.plain = true := by
  unfold connectStripeConnect resumeOrCreate
  repeat' first
    | exact performs_plain rfl
    | exact findConnectable_plain _
    | trivial
    | refine Performs.bind ?_ fun _ => ?_
    | split

theorem syncStripeConnectStatus_plain (restaurantId userId : Id) :
    (syncStripeConnectStatus restaurantId userId).Performs fun o => o.plain = true := by
  unfold syncStripeConnectStatus
  repeat' first
    | exact performs_plain rfl
    | trivial
    | apply performs_onlyIf
    | refine Performs.bind ?_ fun _ => ?_
    | split

theorem disconnectRestaurantPaymentAccount_plain (restaurantId userId : Id) :
    (disconnectRestaurantPaymentAccount restaurantId userId).Performs fun o => o.plain = true := by
  unfold disconnectRestaurantPaymentAccount
  repeat' first | exact performs_plain rfl | trivial | refine Performs.bind ?_ fun _ => ?_ | split

/-! ## Charges -/

section Keeps

variable {Q : α → Prop} {E : Err → Prop}

theorem keeps_plain {o : Op} {Q : o.Resp → Prop} (h : o.plain = true) (hQ : ∀ v, f.rely o (.ok v) → Q v) (hE : ∀ e, E e) :
    (Prog.call o : Promise o.Resp).Keeps f.rely f.ok Q E :=
  keeps_call (Facts.ok_plain h) hQ hE

theorem findOne_keeps {id restaurantId : Id} {Q : Option Order → Prop} (hNone : Q none)
    (hSome : ∀ order, order.id = id → f.order order → Q (some order)) (hE : ∀ e, E e) :
    (orderOp (.findOne id restaurantId)).Keeps f.rely f.ok Q E := by
  refine keeps_plain rfl (fun order hOrder => ?_) hE
  cases order with
  | none => exact hNone
  | some order =>
    obtain ⟨hId, hFacts⟩ := hOrder order rfl
    exact hSome order hId hFacts

theorem insertPayment_keeps {draft : Payment} {restaurantId : Id} {idempotencyKey : String}
    (h : ¬ f.cancelled draft.orderId) :
    (insertPayment draft restaurantId idempotencyKey).Keeps f.rely f.ok (fun _ => True) fun _ => True := by
  unfold insertPayment
  rw [bind_eq, keeps_bind, keeps_attempt]
  refine keeps_call h (fun payment _ => trivial) fun err => ?_
  dsimp only
  split
  · rw [bind_eq, keeps_bind]
    refine keeps_plain rfl (fun winner _ => ?_) fun _ => trivial
    cases winner <;> trivial
  · trivial

theorem chargeProviderFor_plain (env : Env) (restaurant : Restaurant) :
    (chargeProviderFor env restaurant).Performs fun o => o.plain = true := by
  unfold chargeProviderFor resolveRestaurantPaymentProvider
  repeat' first
    | exact performs_plain rfl
    | exact performs_ofExcept
    | trivial
    | refine Performs.bind ?_ fun _ => ?_
    | split

theorem openIntent_keeps {env : Env} {input : CreatePaymentInput} {order : Order} (hId : order.id = input.orderId) :
    (openIntent env input order).Keeps f.rely f.ok (fun _ => True) fun _ => True := by
  unfold openIntent
  rw [bind_eq, keeps_bind]
  refine keeps_plain rfl (fun restaurant _ => ?_) fun _ => trivial
  cases restaurant with
  | none => trivial
  | some restaurant =>
    dsimp only
    split
    · trivial
    · rw [bind_eq, keeps_bind]
      refine keeps_of_plain (chargeProviderFor_plain _ _) (fun provider => ?_) fun _ => trivial
      split
      · trivial
      · rw [bind_eq, keeps_bind]
        refine keeps_plain rfl (fun _ hOpen => ?_) fun _ => trivial
        exact insertPayment_keeps (hId ▸ hOpen)

theorem createPaymentForOrder_keeps {env : Env} {input : CreatePaymentInput} :
    (createPaymentForOrder env input).Keeps f.rely f.ok (fun _ => True) fun _ => True := by
  unfold createPaymentForOrder
  rw [bind_eq, keeps_bind]
  refine keeps_plain rfl (fun existing _ => ?_) fun _ => trivial
  cases existing with
  | some existing => trivial
  | none =>
    dsimp only
    rw [bind_eq, keeps_bind]
    refine findOne_keeps trivial (fun order hId _ => ?_) fun _ => trivial
    dsimp only
    split
    · trivial
    · split
      · trivial
      · split
        · trivial
        · rw [bind_eq, keeps_bind]
          refine keeps_plain rfl (fun reusable _ => ?_) fun _ => trivial
          cases reusable with
          | some reusable => trivial
          | none => exact openIntent_keeps hId

theorem getPosTerminalProvider_plain (env : Env) : (getPosTerminalProvider env).Performs fun o => o.plain = true := by
  unfold getPosTerminalProvider
  split <;> trivial

theorem openTerminalPayment_keeps {env : Env} {input : CreatePosTerminalInput} {order : Order}
    (h : ¬ f.cancelled input.orderId) :
    (openTerminalPayment env input order).Keeps f.rely f.ok (fun _ => True) fun _ => True := by
  unfold openTerminalPayment
  rw [bind_eq, keeps_bind]
  refine keeps_plain rfl (fun restaurant _ => ?_) fun _ => trivial
  cases restaurant with
  | none => trivial
  | some restaurant =>
    dsimp only
    split
    · trivial
    · rw [bind_eq, keeps_bind]
      refine keeps_of_plain (getPosTerminalProvider_plain _) (fun provider => ?_) fun _ => trivial
      rw [bind_eq, keeps_bind]
      exact keeps_plain rfl (fun _ _ => insertPayment_keeps h) fun _ => trivial

theorem createPosTerminalPayment_keeps {env : Env} {input : CreatePosTerminalInput} :
    (createPosTerminalPayment env input).Keeps f.rely f.ok (fun _ => True) fun _ => True := by
  unfold createPosTerminalPayment
  rw [bind_eq, keeps_bind]
  refine keeps_plain rfl (fun existing _ => ?_) fun _ => trivial
  cases existing with
  | some existing => trivial
  | none =>
    dsimp only
    rw [bind_eq, keeps_bind]
    refine findOne_keeps trivial (fun order hId hOrder => ?_) fun _ => trivial
    dsimp only
    split
    · trivial
    · split
      · trivial
      · split
        · trivial
        · rename_i hOpen
          rw [bind_eq, keeps_bind]
          refine keeps_plain rfl (fun reusable _ => ?_) fun _ => trivial
          cases reusable with
          | some reusable => trivial
          | none => exact openTerminalPayment_keeps fun hCancelled => hOpen (hOrder.1 (hId ▸ hCancelled))

theorem applyPaymentStatusTransition_keeps {payment : Payment} {newStatus : PaymentStatus} (h : f.payment payment) :
    (applyPaymentStatusTransition payment newStatus).Keeps f.rely f.ok (fun _ => True) fun _ => True := by
  unfold applyPaymentStatusTransition
  rw [bind_eq, keeps_bind]
  refine keeps_call (fun _ => h) (fun order _ => ?_) fun _ => trivial
  cases order with
  | none => trivial
  | some order => exact keeps_plain rfl (fun _ _ => trivial) fun _ => trivial

theorem applyPaymentEvent_keeps {provider : ProviderName} {event : ProviderWebhookEvent} {account : Option Id} :
    (applyPaymentEvent provider event account).Keeps f.rely f.ok (fun _ => True) fun _ => True := by
  unfold applyPaymentEvent
  rw [bind_eq, keeps_bind]
  refine keeps_plain rfl (fun payment hPayment => ?_) fun _ => trivial
  have hFinish : ∀ processedAt processingError,
      (eventOp (.finish provider event.eventId processedAt processingError)).Keeps f.rely f.ok (fun _ => True) fun _ => True :=
    fun _ _ => keeps_plain rfl (fun _ _ => trivial) fun _ => trivial
  cases payment with
  | none => exact hFinish _ _
  | some payment =>
    dsimp only
    split
    · rw [bind_eq, keeps_bind]
      exact keeps_plain rfl (fun _ _ => hFinish _ _) fun _ => trivial
    · simp only [bind_eq, keeps_bind]
      refine (applyPaymentStatusTransition_keeps (hPayment payment rfl)).mono (fun _ _ => ?_) fun _ _ => trivial
      exact keeps_plain rfl (fun _ _ => hFinish _ _) fun _ => trivial

theorem processProviderEvent_keeps {provider : ProviderName} {event : ProviderWebhookEvent} {account : Option Id} :
    (processProviderEvent provider event account).Keeps f.rely f.ok (fun _ => True) fun _ => True := by
  unfold processProviderEvent
  rw [bind_eq, keeps_bind, keeps_attempt]
  refine keeps_plain rfl (fun _ _ => ?_) fun err => ?_
  · dsimp only
    unfold applyProviderEvent
    split
    · rw [bind_eq, keeps_bind]
      refine keeps_of_plain (applyProviderRefundUpdate_plain _ _ _) (fun _ => ?_) fun _ => trivial
      rw [bind_eq, keeps_bind]
      exact keeps_plain rfl (fun _ _ => keeps_plain rfl (fun _ _ => trivial) fun _ => trivial) fun _ => trivial
    · exact applyPaymentEvent_keeps
  · dsimp only
    split <;> trivial

theorem reconcilePayment_keeps {env : Env} {payment : Payment} (h : f.payment payment) :
    (reconcilePayment env payment).Keeps f.rely f.ok (fun _ => True) fun _ => True := by
  unfold reconcilePayment findPaymentAccount
  have hReport : ∀ account : Option RestaurantPaymentAccount,
      (if payment.restaurantPaymentAccountId.isSome && account.isNone then pure () else do
        let provider ← .ofExcept (retrieveProvider env payment account)
        let report : SessionReport ← providerOp (.retrieve provider payment.providerRef)
        let status := provider.snapshotStatus report
        if status = payment.status then pure ()
        else if !isValidPaymentTransition payment.status status then pure ()
        else applyPaymentStatusTransition payment status : Promise Unit).Keeps f.rely f.ok (fun _ => True) fun _ => True := by
    intro account
    split
    · trivial
    · simp only [bind_eq, keeps_bind]
      refine keeps_ofExcept (fun provider _ => ?_) fun _ => trivial
      refine keeps_plain rfl (fun report _ => ?_) fun _ => trivial
      split
      · trivial
      · split
        · trivial
        · exact applyPaymentStatusTransition_keeps h
  rw [bind_eq, keeps_bind]
  split
  · exact hReport none
  · exact keeps_plain rfl (fun account _ => hReport account) fun _ => trivial

theorem reconcilePayments_keeps {env : Env} {payments : List Payment} (h : ∀ payment ∈ payments, f.payment payment) :
    (reconcilePayments env payments).Keeps f.rely f.ok (fun _ => True) fun _ => True := by
  induction payments with
  | nil => trivial
  | cons payment rest ih =>
    unfold reconcilePayments
    rw [bind_eq, keeps_bind, keeps_attempt]
    have hRest := ih fun p hp => h p (List.mem_cons_of_mem _ hp)
    exact (reconcilePayment_keeps (h payment List.mem_cons_self)).mono (fun _ _ => hRest) fun _ _ => hRest

theorem reconcileStalePayments_keeps {env : Env} :
    (reconcileStalePayments env).Keeps f.rely f.ok (fun _ => True) fun _ => True := by
  unfold reconcileStalePayments
  simp only [bind_eq, keeps_bind]
  refine keeps_plain rfl (fun now _ => ?_) fun _ => trivial
  exact keeps_plain rfl (fun stale hStale => reconcilePayments_keeps (hStale stale rfl)) fun _ => trivial

theorem loadTerminalPayment_keeps {restaurantId orderId paymentId : Id} {Q : Payment → Prop}
    (hQ : ∀ payment, f.payment payment → Q payment) (hE : ∀ e, E e) :
    (loadTerminalPayment restaurantId orderId paymentId).Keeps f.rely f.ok Q E := by
  unfold loadTerminalPayment
  rw [bind_eq, keeps_bind]
  refine keeps_plain rfl (fun payment hPayment => ?_) hE
  cases payment with
  | none => exact hE _
  | some payment => exact hQ payment (hPayment payment rfl)

theorem getPosTerminalPaymentStatus_keeps {env : Env} {restaurantId orderId paymentId : Id} :
    (getPosTerminalPaymentStatus env restaurantId orderId paymentId).Keeps f.rely f.ok (fun _ => True) fun _ => True := by
  unfold getPosTerminalPaymentStatus
  rw [bind_eq, keeps_bind]
  refine loadTerminalPayment_keeps (fun payment hPayment => ?_) fun _ => trivial
  split
  · trivial
  · simp only [bind_eq, keeps_bind, keeps_attempt]
    refine keeps_of_plain (getPosTerminalProvider_plain _) (fun provider => ?_) fun _ => trivial
    refine keeps_plain rfl (fun report _ => ?_) fun _ => trivial
    split
    · rw [keeps_bind]
      refine (applyPaymentStatusTransition_keeps hPayment).mono (fun _ _ => ?_) fun _ _ => trivial
      exact loadTerminalPayment_keeps (fun _ _ => trivial) fun _ => trivial
    · trivial

theorem cancelPosTerminalPayment_keeps {env : Env} {restaurantId orderId paymentId : Id} :
    (cancelPosTerminalPayment env restaurantId orderId paymentId).Keeps f.rely f.ok (fun _ => True) fun _ => True := by
  unfold cancelPosTerminalPayment
  rw [bind_eq, keeps_bind]
  refine loadTerminalPayment_keeps (fun payment hPayment => ?_) fun _ => trivial
  have hLoad : (loadTerminalPayment restaurantId orderId paymentId).Keeps f.rely f.ok (fun _ => True) fun _ => True :=
    loadTerminalPayment_keeps (fun _ _ => trivial) fun _ => trivial
  split
  · trivial
  · simp only [bind_eq, keeps_bind]
    refine keeps_of_plain ?_ (fun _ => ?_) fun _ => trivial
    · unfold cancelAtTerminal
      split
      · trivial
      · exact (getPosTerminalProvider_plain _).bind fun _ => performs_plain rfl
    · refine keeps_onlyIf (fun _ => ?_) hLoad
      exact (applyPaymentStatusTransition_keeps hPayment).mono (fun _ _ => hLoad) fun _ _ => trivial

/-! ## Webhooks -/

theorem handleProviderWebhook_keeps {env : Env} {name : ProviderName} :
    (handleProviderWebhook env name).Keeps f.rely f.ok (fun _ => True) fun _ => True := by
  unfold handleProviderWebhook
  split
  · trivial
  · split
    · trivial
    · rw [bind_eq, keeps_bind]
      refine keeps_plain rfl (fun body _ => ?_) fun _ => trivial
      split
      · trivial
      · exact processProviderEvent_keeps

theorem noteFirstWebhook_plain (account : RestaurantPaymentAccount) :
    (noteFirstWebhook account).Performs fun o => o.plain = true :=
  performs_onlyIf ((performs_plain rfl).bind fun _ => performs_plain rfl)

theorem handleRestaurantAccountWebhook_keeps {env : Env} {name : ProviderName} {accountId : Id} :
    (handleRestaurantAccountWebhook env name accountId).Keeps f.rely f.ok (fun _ => True) fun _ => True := by
  unfold handleRestaurantAccountWebhook
  split
  · trivial
  · rw [bind_eq, keeps_bind]
    refine keeps_plain rfl (fun account _ => ?_) fun _ => trivial
    cases account with
    | none => trivial
    | some account =>
      dsimp only
      split
      · trivial
      · simp only [bind_eq, keeps_bind]
        refine keeps_ofExcept (fun provider _ => ?_) fun _ => trivial
        refine keeps_plain rfl (fun body _ => ?_) fun _ => trivial
        split
        · trivial
        · rw [keeps_bind]
          exact keeps_of_plain (noteFirstWebhook_plain _) (fun _ => processProviderEvent_keeps) fun _ => trivial

theorem processAccountEvent_plain (loaded : RestaurantPaymentAccount) (eventId eventType : String)
    (object : Option StripeObject) :
    (processAccountEvent loaded eventId eventType object).Performs fun o => o.plain = true := by
  unfold processAccountEvent applyAccountEvent
  repeat' first
    | exact performs_plain rfl
    | trivial
    | apply Performs.attempt
    | refine Performs.bind ?_ fun _ => ?_
    | split

theorem processConnectEvent_keeps {account : RestaurantPaymentAccount} {parsed : StripeEventPayload}
    {eventId eventType : String} :
    (processConnectEvent account parsed eventId eventType).Keeps f.rely f.ok (fun _ => True) fun _ => True := by
  unfold processConnectEvent
  split
  · split
    · trivial
    · rw [bind_eq, keeps_bind]
      exact keeps_of_plain (noteFirstWebhook_plain _) (fun _ => processProviderEvent_keeps) fun _ => trivial
  · split
    · exact processProviderEvent_keeps
    · split
      · exact keeps_of_plain (processAccountEvent_plain _ _ _ _) (fun _ => trivial) fun _ => trivial
      · trivial

theorem handleStripeConnectWebhook_keeps {env : Env} :
    (handleStripeConnectWebhook env).Keeps f.rely f.ok (fun _ => True) fun _ => True := by
  unfold handleStripeConnectWebhook
  split
  · trivial
  · rw [bind_eq, keeps_bind]
    refine keeps_plain rfl (fun body _ => ?_) fun _ => trivial
    cases body with
    | none => trivial
    | some body =>
      dsimp only
      split
      · rw [bind_eq, keeps_bind]
        refine keeps_plain rfl (fun account _ => ?_) fun _ => trivial
        cases account with
        | none => trivial
        | some account => exact processConnectEvent_keeps
      · trivial

/-! ## Orders -/

theorem applyOrderStatusTransition_keeps {orderId restaurantId : Id} {nextStatus : OrderStatus}
    {actor : Option ActorContext} :
    (applyOrderStatusTransition orderId restaurantId nextStatus actor).Keeps f.rely f.ok (fun _ => True) fun _ => True := by
  unfold applyOrderStatusTransition
  rw [bind_eq, keeps_bind]
  refine findOne_keeps trivial (fun order hId hOrder => ?_) fun _ => trivial
  dsimp only
  split
  · trivial
  · rename_i hValid
    split
    · trivial
    · simp only [bind_eq, keeps_bind]
      refine keeps_plain rfl (fun now _ => ?_) fun _ => trivial
      have hOk : isValidStatusTransition order.status nextStatus (f.orderType order.id) = true := by
        rw [← hOrder.2]
        simpa using hValid
      refine keeps_call hOk (fun _ _ => ?_) fun _ => trivial
      refine keeps_of_plain (performs_onlyIf (performs_plain rfl)) (fun _ => ?_) fun _ => trivial
      refine keeps_of_plain ?_ (fun _ => ?_) fun _ => trivial
      · cases actor with
        | none => trivial
        | some actor => exact performs_plain rfl
      · exact keeps_of_plain (performs_onlyIf (performs_plain rfl)) (fun _ => trivial) fun _ => trivial

theorem updateOrderStatus_keeps {restaurantId id : Id} {nextStatus : OrderStatus} {actor : ActorContext} :
    (updateOrderStatus restaurantId id nextStatus actor).Keeps f.rely f.ok (fun _ => True) fun _ => True := by
  unfold updateOrderStatus
  rw [bind_eq, keeps_bind]
  refine (applyOrderStatusTransition_keeps).mono (fun _ _ => ?_) fun _ _ => trivial
  exact keeps_plain rfl (fun _ _ => trivial) fun _ => trivial

theorem advanceOrderForDeliveryStatus_keeps {orderId restaurantId : Id} {deliveryStatus : DeliveryStatus}
    {actor : Option ActorContext} :
    (advanceOrderForDeliveryStatus orderId restaurantId deliveryStatus actor).Keeps f.rely f.ok (fun _ => True) fun _ => True := by
  unfold advanceOrderForDeliveryStatus
  split
  · trivial
  · simp only [bind_eq, keeps_bind, keeps_attempt]
    refine findOne_keeps trivial (fun order _ _ => ?_) fun _ => trivial
    have hMove : ∀ (nextStatus : OrderStatus),
        (applyOrderStatusTransition orderId restaurantId nextStatus actor).Keeps f.rely f.ok
          (fun updated => (orderOp (.announce (statusToEventType nextStatus) updated nextStatus)).Keeps f.rely f.ok
            (fun _ => True) fun _ => True) fun _ => True :=
      fun _ => (applyOrderStatusTransition_keeps).mono
        (fun _ _ => keeps_plain rfl (fun _ _ => trivial) fun _ => trivial) fun _ _ => trivial
    dsimp only
    rw [keeps_bind]
    have hLast : (onlyIf (deliveryStatus = .delivered ∧ (order.status = .ready ∨ order.status = .outForDelivery)) do
        let updated ← applyOrderStatusTransition orderId restaurantId .completed actor
        orderOp (.announce (statusToEventType .completed) updated .completed) : Promise Unit).Keeps f.rely f.ok
          (fun _ => True) fun _ => True := by
      refine keeps_onlyIf (fun _ => ?_) trivial
      rw [bind_eq, keeps_bind]
      exact hMove .completed
    refine keeps_onlyIf (fun _ => ?_) hLast
    rw [keeps_bind]
    exact (hMove .outForDelivery).mono (fun _ h => h.mono (fun _ _ => hLast) fun _ _ => trivial) fun _ _ => trivial

theorem cancelMyOrder_keeps {id userId : Id} :
    (cancelMyOrder id userId).Keeps f.rely f.ok (fun _ => True) fun _ => True := by
  unfold cancelMyOrder
  rw [bind_eq, keeps_bind]
  refine keeps_plain rfl (fun order hFound => ?_) fun _ => trivial
  cases order with
  | none => trivial
  | some order =>
    dsimp only
    split
    · trivial
    · split
      · trivial
      · rename_i hPending
        have hStatus : order.status = .pending := not_not.mp hPending
        simp only [bind_eq, keeps_bind]
        refine keeps_plain rfl (fun now _ => ?_) fun _ => trivial
        refine keeps_call (by rw [Facts.ok, hStatus]; rfl) (fun _ _ => ?_) fun _ => trivial
        refine keeps_plain rfl (fun _ _ => ?_) fun _ => trivial
        exact keeps_plain rfl (fun _ _ => trivial) fun _ => trivial

theorem updateOrderPaymentStatus_keeps {restaurantId id : Id} {paid : Bool} :
    (updateOrderPaymentStatus restaurantId id paid).Keeps f.rely f.ok (fun _ => True) fun _ => True := by
  unfold updateOrderPaymentStatus
  rw [bind_eq, keeps_bind]
  refine findOne_keeps trivial (fun existing hId hOrder => ?_) fun _ => trivial
  dsimp only
  split
  · trivial
  · split
    · trivial
    · rename_i hOpen
      rw [bind_eq, keeps_bind]
      refine keeps_call (fun hPaid hCancelled => hOpen ⟨hOrder.1 (hId ▸ hCancelled), hPaid⟩) (fun order _ => ?_) fun _ => trivial
      cases order with
      | none => trivial
      | some order => exact keeps_plain rfl (fun _ _ => trivial) fun _ => trivial

end Keeps

theorem Request.program_keeps (env : Env) (f : Facts) (request : Request) :
    (request.program env).Keeps f.rely f.ok (fun _ => True) fun _ => True := by
  have hPlain : ∀ {p : Promise Unit}, (p.Performs fun o => o.plain = true) → p.Keeps f.rely f.ok (fun _ => True) fun _ => True :=
    fun h => keeps_of_plain h (fun _ => trivial) fun _ => trivial
  have hAnswered : ∀ {α : Type} {p : Promise α}, (p.Performs fun o => o.plain = true) →
      (answered p).Performs fun o => o.plain = true := fun h => h.bind fun _ => trivial
  have hKept : ∀ {α : Type} {p : Promise α}, p.Keeps f.rely f.ok (fun _ => True) (fun _ => True) →
      (answered p).Keeps f.rely f.ok (fun _ => True) fun _ => True := by
    intro α p h
    unfold answered
    rw [keeps_bind]
    exact h
  cases request with
  | refund input => exact hPlain (hAnswered (refundPayment_plain _ _))
  | checkRefund =>
    exact hPlain ((findPaymentRefund_plain _ _ _ _).bind fun _ => hAnswered (reconcileRefund_plain _ _ _ _))
  | retryRefund =>
    exact hPlain ((findPaymentRefund_plain _ _ _ _).bind fun _ => hAnswered (reconcileRefund_plain _ _ _ _))
  | resolveRefund =>
    exact hPlain ((findPaymentRefund_plain _ _ _ _).bind fun _ => hAnswered (resolveHeldRefund_plain _ _ _ _))
  | providerWebhook name => exact handleProviderWebhook_keeps
  | accountWebhook name accountId => exact handleRestaurantAccountWebhook_keeps
  | connectWebhook => exact handleStripeConnectWebhook_keeps
  | reconcilePayments => exact reconcileStalePayments_keeps
  | createPayment input => exact hKept createPaymentForOrder_keeps
  | createTerminalPayment input => exact hKept createPosTerminalPayment_keeps
  | pollTerminalPayment => exact hKept getPosTerminalPaymentStatus_keeps
  | cancelTerminalPayment => exact hKept cancelPosTerminalPayment_keeps
  | connectAccount => exact hPlain (connectRestaurantPaymentAccount_plain _ _ _ _)
  | connectStripe => exact hPlain (connectStripeConnect_plain _)
  | syncStripe => exact hPlain (syncStripeConnectStatus_plain _ _)
  | disconnectAccount => exact hPlain (disconnectRestaurantPaymentAccount_plain _ _)
  | updateOrderStatus => exact updateOrderStatus_keeps
  | advanceOrder => exact advanceOrderForDeliveryStatus_keeps
  | cancelMyOrder => exact cancelMyOrder_keeps
  | updateOrderPaymentStatus => exact updateOrderPaymentStatus_keeps

end RestaurantOs.Payments
