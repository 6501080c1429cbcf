import RestaurantOs.Async.Rely
import RestaurantOs.Payments.Walk

/-!
# What requests do to the status of a payment

A status is changed as the state machine allows on the copy that was read, and a
refund changes only that of a payment it has found collected. One payment is
watched: until a report tells that money moved, no request collects it.
-/

namespace RestaurantOs.Payments

open Async Prog

structure Session where
  ref : String
  account : Option Id
  deriving DecidableEq

structure Payment.RunsOn (payment : Payment) (session : Session) : Prop where
  provider : payment.provider = .stripe
  providerRef : payment.providerRef = some session.ref
  account : payment.restaurantPaymentAccountId = session.account
  method : payment.method = .online

/-- The payment that is watched, if one is, with its session where the reports
are watched too. -/
structure Watch where
  id : Option Id := none
  session : Option Session := none

namespace Watch

variable (f : Watch)

def payment (payment : Payment) : Prop :=
  f.id = some payment.id → payment.status.collected = false ∧ ∀ session, f.session = some session → payment.RunsOn session

def event (provider : ProviderName) (event : ProviderWebhookEvent) : Prop :=
  provider = .stripe → ∀ session, f.session = some session → event.providerRef = session.ref → event.status ≠ .paid

def body (body : WebhookBody) : Prop :=
  ∀ session, f.session = some session → ∀ object, body.stripe.object = some object → object.id = some session.ref →
    ∀ eventType, body.stripe.type = some eventType → sessionEventStatus eventType object.toSessionReport ≠ .paid

def report (provider : Provider) (providerRef : Option String) (report : SessionReport) : Prop :=
  provider.name = .stripe → ∀ session, f.session = some session → providerRef = some session.ref →
    mapCheckoutSessionStatus report.status report.paymentStatus ≠ .paid

def account (account : RestaurantPaymentAccount) : Prop :=
  ∀ session, f.session = some session → session.account = some account.id → account.provider = .stripe

def rely : (o : Op) → Except Err o.Resp → Prop
  | .payment (.findById id), r => ∀ payment, r = .ok (some payment) → payment.id = id ∧ f.payment payment
  | .payment (.findByProviderRef provider ref _), r => ∀ payment, r = .ok (some payment) →
      payment.provider = provider ∧ payment.providerRef = some ref ∧ f.payment payment
  | .payment (.findTerminal _ _ _), r => ∀ payment, r = .ok (some payment) → payment.method = .posTerminal ∧ f.payment payment
  | .payment (.findStale _), r => ∀ payments, r = .ok payments → ∀ payment ∈ payments, f.payment payment
  | .account (.findById id), r => ∀ account, r = .ok (some account) → account.id = id ∧ f.account account
  | .receive, r => ∀ body, r = .ok (some body) → f.body body
  | .provider (.retrieve provider providerRef), r => ∀ report, r = .ok report → f.report provider providerRef report
  | _, _ => True

def ok : Op → Prop
  | .payment (.create draft) => draft.status.collected = false
  | .payment (.transition payment next) => isValidPaymentTransition payment.status next = true ∧
      (next = .paid → f.session.isSome → f.id ≠ some payment.id)
  | .payment (.setStatus payment next) => payment.status.collected = true ∧ next.collected = true ∧ f.id ≠ some payment.id
  | _ => True

def Safe {α : Type} (p : Promise α) : Prop := p.Keeps f.rely f.ok (fun _ => True) fun _ => True

end Watch

def Op.keepsStatus : Op → Bool
  | .payment (.create _) | .payment (.transition _ _) | .payment (.setStatus _ _) => false
  | _ => true

section Rules

variable {α β : Type} {f : Watch}

theorem Watch.ok_keepsStatus {o : Op} (h : o.keepsStatus = true) : f.ok o := by
  cases o with
  | payment op => cases op <;> trivial
  | _ => trivial

theorem safe_ret {a : α} : f.Safe (.ret a) := trivial

theorem safe_raise {e : Err} : f.Safe (.raise e : Promise α) := trivial

theorem safe_call {o : Op} (h : o.keepsStatus = true) : f.Safe (.call o) :=
  keeps_call (Watch.ok_keepsStatus h) (fun _ _ => trivial) fun _ => trivial

theorem safe_ofExcept {r : Except Err α} : f.Safe (.ofExcept r) := keeps_ofExcept (fun _ _ => trivial) fun _ => trivial

theorem Watch.Safe.bind {p : Promise α} {g : α → Promise β} (h : f.Safe p) (hg : ∀ a, f.Safe (g a)) : f.Safe (p.bind g) :=
  keeps_bind.mpr (h.mono (fun a _ => hg a) fun _ _ => trivial)

theorem Watch.Safe.attempt {p : Promise α} (h : f.Safe p) : f.Safe p.attempt :=
  keeps_attempt.mpr (h.mono (fun _ _ => trivial) fun _ _ => trivial)

theorem safe_onlyIf {c : Prop} [Decidable c] {p : Promise Unit} (h : f.Safe p) : f.Safe (.onlyIf c p) :=
  keeps_onlyIf (fun _ => h) trivial

theorem safe_read {o : Op} {g : o.Resp → Promise β} (h : o.keepsStatus = true) (hg : ∀ v, f.rely o (.ok v) → f.Safe (g v)) :
    f.Safe ((Prog.call o).bind g) :=
  keeps_bind.mpr (keeps_call (Watch.ok_keepsStatus h) hg fun _ => trivial)

theorem safe_ofExcept_bind {r : Except Err α} {g : α → Promise β} (hg : ∀ a, r = .ok a → f.Safe (g a)) :
    f.Safe ((Prog.ofExcept r).bind g) :=
  keeps_bind.mpr (keeps_ofExcept hg fun _ => trivial)

end Rules

section Walk

variable {f : Watch}

/-! ## Refunds -/

theorem syncPaymentRefundStatus_safe (paymentId : Id) : f.Safe (syncPaymentRefundStatus paymentId) := by
  unfold syncPaymentRefundStatus
  refine safe_read rfl fun payment hPayment => ?_
  cases payment with
  | none => trivial
  | some payment =>
    dsimp only
    split
    · trivial
    · rename_i hCollected
      have hIs : payment.status.collected = true := by simpa using hCollected
      refine (safe_call rfl).bind fun total => ?_
      split
      · trivial
      · have hNot : f.id ≠ some payment.id := fun hId => by
          have hUncollected := ((hPayment payment rfl).2 hId).1
          rw [hIs] at hUncollected
          cases hUncollected
        have hSet : f.Safe (paymentOp (.setStatus payment (refundedStatus payment.amount (roundCurrency total)))) :=
          keeps_call ⟨hIs, refundedStatus_collected _ _, hNot⟩ (fun _ _ => trivial) fun _ => trivial
        exact hSet.bind fun _ => trivial

theorem applyRefundOutcome_safe (refund : Refund) (report : RefundReport) (method : ReportMethod) (ctx : ActorContext)
    (evidence : Option String) : f.Safe (applyRefundOutcome refund report method ctx evidence) := by
  unfold applyRefundOutcome settlementEffects adjustTotal announceRefund nonNull
  repeat' first
    | exact safe_call rfl
    | exact syncPaymentRefundStatus_safe _
    | trivial
    | apply safe_onlyIf
    | refine Watch.Safe.bind ?_ fun _ => ?_
    | split

theorem refundProviderFor_safe (env : Env) (payment : Payment) : f.Safe (refundProviderFor env payment) := by
  unfold refundProviderFor
  repeat' first | exact safe_call rfl | exact safe_ofExcept | trivial | refine Watch.Safe.bind ?_ fun _ => ?_ | split

theorem callProviderAndRecord_safe (claim : Refund) (payment : Payment) (provider : Provider) (reissue : Bool)
    (ctx : ActorContext) : f.Safe (callProviderAndRecord claim payment provider reissue ctx) := by
  unfold callProviderAndRecord
  repeat' first
    | exact safe_call rfl
    | exact applyRefundOutcome_safe _ _ _ _ _
    | trivial
    | apply Watch.Safe.attempt
    | refine Watch.Safe.bind ?_ fun _ => ?_
    | split

theorem reconcileRefund_safe (env : Env) (refund : Refund) (ctx : ActorContext) (allowReissue : Bool) :
    f.Safe (reconcileRefund env refund ctx allowReissue) := by
  unfold reconcileRefund reissueMissing reissueLeased finallyDo nonNull
  repeat' first
    | exact safe_call rfl
    | exact refundProviderFor_safe _ _
    | exact applyRefundOutcome_safe _ _ _ _ _
    | exact callProviderAndRecord_safe _ _ _ _ _
    | exact safe_ofExcept
    | trivial
    | apply Watch.Safe.attempt
    | refine Watch.Safe.bind ?_ fun _ => ?_
    | split

theorem sameKeyRefund_safe (env : Env) (input : RefundInput) : f.Safe (sameKeyRefund env input) := by
  unfold sameKeyRefund
  repeat' first
    | exact safe_call rfl
    | exact reconcileRefund_safe _ _ _ _
    | trivial
    | refine Watch.Safe.bind ?_ fun _ => ?_
    | split

theorem refundPayment_safe (env : Env) (input : RefundInput) : f.Safe (refundPayment env input) := by
  unfold refundPayment refundLoaded refundWaiting refuseUnlessDuplicate claimRefund refundClaimed
  repeat' first
    | exact safe_call rfl
    | exact sameKeyRefund_safe _ _
    | exact refundProviderFor_safe _ _
    | exact callProviderAndRecord_safe _ _ _ _ _
    | trivial
    | apply Watch.Safe.attempt
    | refine Watch.Safe.bind ?_ fun _ => ?_
    | split
    | dsimp only

theorem resolveHeldRefund_safe (env : Env) (refund : Refund) (input : ResolveRefundInput) (actor : ActorContext) :
    f.Safe (resolveHeldRefund env refund input actor) := by
  unfold resolveHeldRefund confirmNotRefunded refundProviderOf
  repeat' first
    | exact safe_call rfl
    | exact refundProviderFor_safe _ _
    | exact applyRefundOutcome_safe _ _ _ _ _
    | trivial
    | refine Watch.Safe.bind ?_ fun _ => ?_
    | split
    | dsimp only

theorem findPaymentRefund_safe (restaurantId orderId paymentId refundId : Id) :
    f.Safe (findPaymentRefund restaurantId orderId paymentId refundId) := by
  unfold findPaymentRefund
  repeat' first | exact safe_call rfl | trivial | refine Watch.Safe.bind ?_ fun _ => ?_ | split

theorem applyProviderRefundUpdate_safe (provider : ProviderName) (update : ProviderRefundUpdate) (account : Option Id) :
    f.Safe (applyProviderRefundUpdate provider update account) := by
  unfold applyProviderRefundUpdate findUpdatedRefund
  repeat' first
    | exact safe_call rfl
    | exact applyRefundOutcome_safe _ _ _ _ _
    | trivial
    | refine Watch.Safe.bind ?_ fun _ => ?_
    | split

/-! ## Charges -/

theorem insertPayment_safe {draft : Payment} {restaurantId : Id} {idempotencyKey : String} (h : draft.status.collected = false) :
    f.Safe (insertPayment draft restaurantId idempotencyKey) := by
  unfold insertPayment
  have hCreate : f.Safe (paymentOp (.create draft)) := keeps_call h (fun _ _ => trivial) fun _ => trivial
  refine hCreate.attempt.bind fun payment => ?_
  repeat' first | exact safe_call rfl | trivial | refine Watch.Safe.bind ?_ fun _ => ?_ | split

theorem chargeProviderFor_safe (env : Env) (restaurant : Restaurant) : f.Safe (chargeProviderFor env restaurant) := by
  unfold chargeProviderFor resolveRestaurantPaymentProvider
  repeat' first
    | exact safe_call rfl
    | exact safe_ofExcept
    | trivial
    | refine Watch.Safe.bind ?_ fun _ => ?_
    | split

theorem createPaymentForOrder_safe (env : Env) (input : CreatePaymentInput) : f.Safe (createPaymentForOrder env input) := by
  unfold createPaymentForOrder openIntent
  repeat' first
    | exact safe_call rfl
    | exact chargeProviderFor_safe _ _
    | exact insertPayment_safe rfl
    | trivial
    | refine Watch.Safe.bind ?_ fun _ => ?_
    | split

theorem getPosTerminalProvider_safe (env : Env) : f.Safe (getPosTerminalProvider env) := by
  unfold getPosTerminalProvider
  split <;> trivial

theorem createPosTerminalPayment_safe (env : Env) (input : CreatePosTerminalInput) : f.Safe (createPosTerminalPayment env input) := by
  unfold createPosTerminalPayment openTerminalPayment
  repeat' first
    | exact safe_call rfl
    | exact getPosTerminalProvider_safe _
    | exact insertPayment_safe rfl
    | trivial
    | refine Watch.Safe.bind ?_ fun _ => ?_
    | split

theorem applyPaymentStatusTransition_safe {payment : Payment} {newStatus : PaymentStatus}
    (hValid : isValidPaymentTransition payment.status newStatus = true)
    (hPaid : newStatus = .paid → f.session.isSome → f.id ≠ some payment.id) : f.Safe (applyPaymentStatusTransition payment newStatus) := by
  unfold applyPaymentStatusTransition
  have hTransition : f.Safe (paymentOp (.transition payment newStatus)) :=
    keeps_call ⟨hValid, hPaid⟩ (fun _ _ => trivial) fun _ => trivial
  refine hTransition.bind fun order => ?_
  split
  · trivial
  · exact safe_call rfl

theorem applyPaymentEvent_safe {provider : ProviderName} {event : ProviderWebhookEvent} (account : Option Id)
    (h : f.event provider event) : f.Safe (applyPaymentEvent provider event account) := by
  unfold applyPaymentEvent
  refine safe_read rfl fun payment hFound => ?_
  cases payment with
  | none => exact safe_call rfl
  | some payment =>
    obtain ⟨hProvider, hRef, hPayment⟩ := hFound payment rfl
    dsimp only
    split
    · exact (safe_call rfl).bind fun _ => safe_call rfl
    · rename_i hValid
      refine (applyPaymentStatusTransition_safe (by simpa using hValid) fun hPaid hWatched hId => ?_).bind fun _ =>
        (safe_call rfl).bind fun _ => safe_call rfl
      obtain ⟨session, hSession⟩ := Option.isSome_iff_exists.mp hWatched
      obtain ⟨-, hRuns⟩ := hPayment hId
      have hSame : event.providerRef = session.ref := Option.some.inj (hRef.symm.trans (hRuns session hSession).providerRef)
      exact h (hProvider.symm.trans (hRuns session hSession).provider) session hSession hSame hPaid

theorem processProviderEvent_safe {provider : ProviderName} {event : ProviderWebhookEvent} (account : Option Id)
    (h : f.event provider event) : f.Safe (processProviderEvent provider event account) := by
  unfold processProviderEvent applyProviderEvent
  refine (safe_call rfl).attempt.bind fun seen => ?_
  cases seen with
  | error err =>
    dsimp only
    split <;> trivial
  | ok _ =>
    dsimp only
    split
    · exact (applyProviderRefundUpdate_safe _ _ _).bind fun _ => (safe_call rfl).bind fun _ => safe_call rfl
    · exact applyPaymentEvent_safe account h

/-! ## Polling -/

theorem buildProviderFromAccount_name {env : Env} {account : RestaurantPaymentAccount} {provider : Provider}
    (h : buildProviderFromAccount env account = .ok provider) (hStripe : account.provider = .stripe) : provider.name = .stripe := by
  unfold buildProviderFromAccount at h
  repeat' split at h
  all_goals
    cases h
    try first | rfl | exact hStripe

theorem getPaymentProvider_name {env : Env} {name : ProviderName} {provider : Provider}
    (h : getPaymentProvider env name = .ok provider) : provider.name = name := by
  unfold getPaymentProvider at h
  split at h
  · cases h
    rfl
  · cases h

theorem retrieveProvider_stripe {env : Env} {payment : Payment} {session : Session} {account : Option RestaurantPaymentAccount}
    {provider : Provider} (hRuns : payment.RunsOn session)
    (hAccount : ∀ a, account = some a → payment.restaurantPaymentAccountId = some a.id ∧ (session.account = some a.id → a.provider = .stripe))
    (h : retrieveProvider env payment account = .ok provider) : provider.name = .stripe := by
  cases account with
  | none => exact (getPaymentProvider_name h).trans hRuns.provider
  | some a =>
    obtain ⟨hId, hStripe⟩ := hAccount a rfl
    exact buildProviderFromAccount_name h (hStripe (hRuns.account.symm.trans hId))

theorem reconcilePayment_safe {env : Env} {payment : Payment} (h : f.payment payment) : f.Safe (reconcilePayment env payment) := by
  unfold reconcilePayment findPaymentAccount
  have hReport : ∀ account : Option RestaurantPaymentAccount,
      (∀ a, account = some a → payment.restaurantPaymentAccountId = some a.id ∧ f.account a) →
      f.Safe (if payment.restaurantPaymentAccountId.isSome && account.isNone then pure () else do
        let provider ← .ofExcept (retrieveProvider env payment account)
        let report : SessionReport ← providerOp (.retrieve provider payment.providerRef)
        let status := provider.snapshotStatus report
        if status = payment.status then pure ()
        else if !isValidPaymentTransition payment.status status then pure ()
        else applyPaymentStatusTransition payment status : Promise Unit) := by
    intro account hAccount
    split
    · trivial
    · refine safe_ofExcept_bind fun provider hProvider => ?_
      refine safe_read rfl fun report hReport => ?_
      dsimp only
      split
      · trivial
      · split
        · trivial
        · rename_i hValid
          refine applyPaymentStatusTransition_safe (by simpa using hValid) fun hPaid hWatched hId => ?_
          obtain ⟨session, hSession⟩ := Option.isSome_iff_exists.mp hWatched
          have hRuns := (h hId).2 session hSession
          have hStripe := retrieveProvider_stripe hRuns (fun a hSome => ⟨(hAccount a hSome).1, (hAccount a hSome).2 session hSession⟩)
            hProvider
          rw [Provider.snapshotStatus, hStripe] at hPaid
          exact hReport report rfl hStripe session hSession hRuns.providerRef hPaid
  split
  · exact hReport none fun a hSome => by cases hSome
  · rename_i accountId hAccountId
    refine safe_read rfl fun account hFound => hReport account fun a hSome => ?_
    obtain ⟨hId, hAccount⟩ := hFound a (congrArg Except.ok hSome)
    exact ⟨hAccountId.trans (congrArg some hId.symm), hAccount⟩

theorem reconcilePayments_safe {env : Env} {payments : List Payment} (h : ∀ payment ∈ payments, f.payment payment) :
    f.Safe (reconcilePayments env payments) := by
  induction payments with
  | nil => trivial
  | cons payment rest ih =>
    exact (reconcilePayment_safe (h payment List.mem_cons_self)).attempt.bind fun _ =>
      ih fun p hp => h p (List.mem_cons_of_mem _ hp)

theorem reconcileStalePayments_safe (env : Env) : f.Safe (reconcileStalePayments env) := by
  unfold reconcileStalePayments
  refine (safe_call rfl).bind fun now => ?_
  exact safe_read rfl fun stale hStale => reconcilePayments_safe (hStale stale rfl)

/-! ## Terminals -/

theorem loadTerminalPayment_safe {α : Type} {restaurantId orderId paymentId : Id} {g : Payment → Promise α}
    (hg : ∀ payment, (f.session.isSome → f.id ≠ some payment.id) → f.Safe (g payment)) :
    f.Safe ((loadTerminalPayment restaurantId orderId paymentId).bind g) := by
  unfold loadTerminalPayment
  rw [bind_eq, bind_assoc]
  refine safe_read rfl fun payment hFound => ?_
  cases payment with
  | none => trivial
  | some payment =>
    obtain ⟨hMethod, hPayment⟩ := hFound payment rfl
    refine hg payment fun hWatched hId => ?_
    obtain ⟨session, hSession⟩ := Option.isSome_iff_exists.mp hWatched
    have hOnline := ((hPayment hId).2 session hSession).method
    rw [hMethod] at hOnline
    cases hOnline

theorem loadTerminalPayment_safe_last (restaurantId orderId paymentId : Id) :
    f.Safe (loadTerminalPayment restaurantId orderId paymentId) := by
  unfold loadTerminalPayment
  repeat' first | exact safe_call rfl | trivial | refine Watch.Safe.bind ?_ fun _ => ?_ | split

theorem getPosTerminalPaymentStatus_safe (env : Env) (restaurantId orderId paymentId : Id) :
    f.Safe (getPosTerminalPaymentStatus env restaurantId orderId paymentId) := by
  unfold getPosTerminalPaymentStatus
  refine loadTerminalPayment_safe fun payment hNot => ?_
  split
  · trivial
  · refine Watch.Safe.bind (Watch.Safe.attempt ?_) fun polled => by split <;> trivial
    refine (getPosTerminalProvider_safe _).bind fun provider => ?_
    refine (safe_call rfl).bind fun report => ?_
    dsimp only
    split
    · rename_i hMoves
      exact (applyPaymentStatusTransition_safe hMoves.2 fun _ => hNot).bind fun _ => loadTerminalPayment_safe_last _ _ _
    · trivial

theorem cancelPosTerminalPayment_safe (env : Env) (restaurantId orderId paymentId : Id) :
    f.Safe (cancelPosTerminalPayment env restaurantId orderId paymentId) := by
  unfold cancelPosTerminalPayment
  refine loadTerminalPayment_safe fun payment hNot => ?_
  split
  · trivial
  · refine Watch.Safe.bind ?_ fun _ => ?_
    · unfold cancelAtTerminal
      split
      · trivial
      · exact (getPosTerminalProvider_safe _).bind fun _ => safe_call rfl
    · refine Watch.Safe.bind ?_ fun _ => loadTerminalPayment_safe_last _ _ _
      refine keeps_onlyIf (fun hValid => ?_) trivial
      exact applyPaymentStatusTransition_safe hValid fun _ => hNot

/-! ## Webhooks -/

theorem verifyWebhookSignature_event {provider : Provider} {body : WebhookBody} {event : ProviderWebhookEvent} (h : f.body body)
    (hEvent : provider.verifyWebhookSignature body = some event) : f.event provider.name event := by
  intro hStripe session hSession hRef hPaid
  simp only [Provider.verifyWebhookSignature, hStripe, verifyStripeSignature, Option.bind_eq_bind, Option.bind_eq_some_iff] at hEvent
  obtain ⟨eventId, -, eventType, hType, object, hObject, id, hId, hBuilt⟩ := hEvent
  split at hBuilt
  · cases hBuilt
    cases hPaid
  · cases hBuilt
    have hSame : object.id = some session.ref := (truthy_eq_some hId).trans (congrArg some hRef)
    exact h session hSession object hObject hSame eventType (truthy_eq_some hType) hPaid

theorem handleProviderWebhook_safe (env : Env) (name : ProviderName) : f.Safe (handleProviderWebhook env name) := by
  unfold handleProviderWebhook
  split
  · trivial
  · split
    · trivial
    · refine safe_read rfl fun body hBody => ?_
      split
      · trivial
      · rename_i event hEvent
        obtain ⟨received, hReceived, hVerified⟩ := Option.bind_eq_some_iff.mp hEvent
        exact processProviderEvent_safe none (verifyWebhookSignature_event (hBody received (congrArg Except.ok hReceived)) hVerified)

theorem noteFirstWebhook_safe (account : RestaurantPaymentAccount) : f.Safe (noteFirstWebhook account) :=
  safe_onlyIf ((safe_call rfl).bind fun _ => safe_call rfl)

theorem handleRestaurantAccountWebhook_safe (env : Env) (name : ProviderName) (accountId : Id) :
    f.Safe (handleRestaurantAccountWebhook env name accountId) := by
  unfold handleRestaurantAccountWebhook
  split
  · trivial
  · refine (safe_call rfl).bind fun account => ?_
    split
    · trivial
    · split
      · trivial
      · refine (safe_ofExcept).bind fun provider => ?_
        refine safe_read rfl fun body hBody => ?_
        split
        · trivial
        · rename_i event hEvent
          obtain ⟨received, hReceived, hVerified⟩ := Option.bind_eq_some_iff.mp hEvent
          exact (noteFirstWebhook_safe _).bind fun _ =>
            processProviderEvent_safe _ (verifyWebhookSignature_event (hBody received (congrArg Except.ok hReceived)) hVerified)

theorem processAccountEvent_safe (loaded : RestaurantPaymentAccount) (eventId eventType : String) (object : Option StripeObject) :
    f.Safe (processAccountEvent loaded eventId eventType object) := by
  unfold processAccountEvent applyAccountEvent
  repeat' first
    | exact safe_call rfl
    | trivial
    | apply Watch.Safe.attempt
    | refine Watch.Safe.bind ?_ fun _ => ?_
    | split

theorem processConnectEvent_safe {account : RestaurantPaymentAccount} {body : WebhookBody} {eventId eventType : String}
    (h : f.body body) (hType : body.stripe.type = some eventType) :
    f.Safe (processConnectEvent account body.stripe eventId eventType) := by
  unfold processConnectEvent
  split
  · split
    · trivial
    · rename_i object id hObject
      refine (noteFirstWebhook_safe _).bind fun _ => processProviderEvent_safe _ fun _ session hSession hRef hPaid => ?_
      obtain ⟨found, hFound, hId⟩ := Option.bind_eq_some_iff.mp hObject
      obtain ⟨truthyId, hTruthy, hBoth⟩ := Option.map_eq_some_iff.mp hId
      cases hBoth
      exact h session hSession object hFound ((truthy_eq_some hTruthy).trans (congrArg some hRef)) eventType hType hPaid
  · split
    · exact processProviderEvent_safe _ fun _ session _ _ hPaid => by cases hPaid
    · split
      · exact processAccountEvent_safe _ _ _ _
      · trivial

theorem handleStripeConnectWebhook_safe (env : Env) : f.Safe (handleStripeConnectWebhook env) := by
  unfold handleStripeConnectWebhook
  split
  · trivial
  · refine safe_read rfl fun body hBody => ?_
    cases body with
    | none => trivial
    | some body =>
      dsimp only
      split
      · rename_i hId hType hAccount
        refine (safe_call rfl).bind fun account => ?_
        split
        · trivial
        · exact processConnectEvent_safe (hBody body rfl) (truthy_eq_some hType)
      · trivial

/-! ## Accounts and orders -/

theorem connectRestaurantPaymentAccount_safe (env : Env) (restaurantId userId : Id) (encryptedCredentials : String) :
    f.Safe (connectRestaurantPaymentAccount env restaurantId userId encryptedCredentials) := by
  unfold connectRestaurantPaymentAccount findConnectable
  repeat' first
    | exact safe_call rfl
    | exact safe_ofExcept
    | trivial
    | refine Watch.Safe.bind ?_ fun _ => ?_
    | split

theorem connectStripeConnect_safe (restaurantId : Id) : f.Safe (connectStripeConnect restaurantId) := by
  unfold connectStripeConnect findConnectable resumeOrCreate
  repeat' first | exact safe_call rfl | trivial | refine Watch.Safe.bind ?_ fun _ => ?_ | split

theorem syncStripeConnectStatus_safe (restaurantId userId : Id) : f.Safe (syncStripeConnectStatus restaurantId userId) := by
  unfold syncStripeConnectStatus
  repeat' first
    | exact safe_call rfl
    | trivial
    | apply safe_onlyIf
    | refine Watch.Safe.bind ?_ fun _ => ?_
    | split

theorem disconnectRestaurantPaymentAccount_safe (restaurantId userId : Id) :
    f.Safe (disconnectRestaurantPaymentAccount restaurantId userId) := by
  unfold disconnectRestaurantPaymentAccount
  repeat' first | exact safe_call rfl | trivial | refine Watch.Safe.bind ?_ fun _ => ?_ | split

theorem applyOrderStatusTransition_safe (orderId restaurantId : Id) (nextStatus : OrderStatus) (actor : Option ActorContext) :
    f.Safe (applyOrderStatusTransition orderId restaurantId nextStatus actor) := by
  unfold applyOrderStatusTransition recordStatusChange
  repeat' first
    | exact safe_call rfl
    | trivial
    | apply safe_onlyIf
    | refine Watch.Safe.bind ?_ fun _ => ?_
    | split

theorem updateOrderStatus_safe (restaurantId id : Id) (nextStatus : OrderStatus) (actor : ActorContext) :
    f.Safe (updateOrderStatus restaurantId id nextStatus actor) :=
  (applyOrderStatusTransition_safe _ _ _ _).bind fun _ => safe_call rfl

theorem advanceOrderForDeliveryStatus_safe (orderId restaurantId : Id) (deliveryStatus : DeliveryStatus)
    (actor : Option ActorContext) : f.Safe (advanceOrderForDeliveryStatus orderId restaurantId deliveryStatus actor) := by
  unfold advanceOrderForDeliveryStatus
  repeat' first
    | exact safe_call rfl
    | exact applyOrderStatusTransition_safe _ _ _ _
    | trivial
    | apply safe_onlyIf
    | apply Watch.Safe.attempt
    | refine Watch.Safe.bind ?_ fun _ => ?_
    | split

theorem cancelMyOrder_safe (id userId : Id) : f.Safe (cancelMyOrder id userId) := by
  unfold cancelMyOrder
  repeat' first | exact safe_call rfl | trivial | refine Watch.Safe.bind ?_ fun _ => ?_ | split

theorem updateOrderPaymentStatus_safe (restaurantId id : Id) (paid : Bool) : f.Safe (updateOrderPaymentStatus restaurantId id paid) := by
  unfold updateOrderPaymentStatus
  repeat' first | exact safe_call rfl | trivial | refine Watch.Safe.bind ?_ fun _ => ?_ | split

end Walk

theorem Request.program_safe (env : Env) (f : Watch) (request : Request) : f.Safe (request.program env) := by
  have hAnswered : ∀ {α : Type} {p : Promise α}, f.Safe p → f.Safe (answered p) := fun h => h.bind fun _ => trivial
  cases request with
  | refund input => exact hAnswered (refundPayment_safe _ _)
  | checkRefund | retryRefund => exact (findPaymentRefund_safe _ _ _ _).bind fun _ => hAnswered (reconcileRefund_safe _ _ _ _)
  | resolveRefund => exact (findPaymentRefund_safe _ _ _ _).bind fun _ => hAnswered (resolveHeldRefund_safe _ _ _ _)
  | providerWebhook name => exact handleProviderWebhook_safe _ _
  | accountWebhook name accountId => exact handleRestaurantAccountWebhook_safe _ _ _
  | connectWebhook => exact handleStripeConnectWebhook_safe _
  | reconcilePayments => exact reconcileStalePayments_safe _
  | createPayment input => exact hAnswered (createPaymentForOrder_safe _ _)
  | createTerminalPayment input => exact hAnswered (createPosTerminalPayment_safe _ _)
  | pollTerminalPayment => exact hAnswered (getPosTerminalPaymentStatus_safe _ _ _ _)
  | cancelTerminalPayment => exact hAnswered (cancelPosTerminalPayment_safe _ _ _ _)
  | connectAccount => exact connectRestaurantPaymentAccount_safe _ _ _ _
  | connectStripe => exact connectStripeConnect_safe _
  | syncStripe => exact syncStripeConnectStatus_safe _ _
  | disconnectAccount => exact disconnectRestaurantPaymentAccount_safe _ _
  | updateOrderStatus => exact updateOrderStatus_safe _ _ _ _
  | advanceOrder => exact advanceOrderForDeliveryStatus_safe _ _ _ _
  | cancelMyOrder => exact cancelMyOrder_safe _ _
  | updateOrderPaymentStatus => exact updateOrderPaymentStatus_safe _ _ _

/-! ## Answers -/

def Watch.reports (f : Watch) : (o : Op) → Except Err o.Resp → Prop
  | .receive, r => ∀ body, r = .ok (some body) → f.body body
  | .provider (.retrieve provider providerRef), r => ∀ report, r = .ok report → f.report provider providerRef report
  | _, _ => True

theorem Watch.rely_of_stored {f : Watch} {w : World} (hPayments : ∀ p ∈ w.payments, f.payment p)
    (hAccounts : ∀ account ∈ w.accounts, f.account account) {o : Op} {a : Answer} (hReports : f.reports o (o.perform a w).1) :
    f.rely o (o.perform a w).1 := by
  have hFound : ∀ {sel : Payment → Bool} (payment : Payment),
      (.ok (w.payments.find? sel) : Except Err (Option Payment)) = .ok (some payment) → sel payment = true ∧ f.payment payment := by
    intro sel payment hFind
    have hSome := Except.ok.inj hFind
    exact ⟨List.find?_some hSome, hPayments payment (List.mem_of_find?_eq_some hSome)⟩
  cases o with
  | receive => exact hReports
  | account op =>
    cases op with
    | findById id =>
      intro account hFind
      have hSome : w.accounts.find? (fun a => a.id = id) = some account := Except.ok.inj hFind
      exact ⟨by simpa using List.find?_some hSome, hAccounts account (List.mem_of_find?_eq_some hSome)⟩
    | _ => trivial
  | payment op =>
    cases op with
    | findById id => exact fun payment hFind => (hFound payment hFind).imp_left of_decide_eq_true
    | findByProviderRef provider ref account =>
      intro payment hFind
      obtain ⟨hSel, hPayment⟩ := hFound payment hFind
      rw [Bool.and_eq_true, Bool.and_eq_true, decide_eq_true_eq, decide_eq_true_eq] at hSel
      exact ⟨hSel.1.1, hSel.1.2, hPayment⟩
    | findTerminal restaurantId orderId id =>
      intro payment hFind
      obtain ⟨hSel, hPayment⟩ := hFound payment hFind
      rw [Bool.and_eq_true, decide_eq_true_eq] at hSel
      exact ⟨hSel.2, hPayment⟩
    | findStale before =>
      intro payments hFind payment hMem
      have hEq := Except.ok.inj hFind
      rw [← hEq] at hMem
      exact hPayments payment (List.mem_filter.mp (List.mem_of_mem_take hMem)).1
    | _ => trivial
  | provider op =>
    cases op with
    | retrieve provider providerRef => exact hReports
    | _ => trivial
  | _ => trivial

theorem State.start_safe (env : Env) (f : Watch) (w : World) (requests : List Request) :
    (State.start env w requests).Keeps f.rely f.ok := by
  intro th hth
  obtain ⟨p, hp, rfl⟩ := List.mem_map.mp hth
  obtain ⟨request, -, rfl⟩ := List.mem_map.mp hp
  exact request.program_safe env f

end RestaurantOs.Payments
