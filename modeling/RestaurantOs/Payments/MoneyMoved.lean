import RestaurantOs.Payments.StatusMoves

/-!
# Paid when money moved

What a checkout session's reports say is folded into one status. A payment that
runs on a session is collected only after a report that money moved, as long as no
report calls the session complete without saying so.
-/

namespace RestaurantOs.Payments

open Async Prog

/-! ## The property -/

def SessionReport.tellsPaid (report : SessionReport) : Bool :=
  report.paymentStatus = some "paid" || report.paymentStatus = some "no_payment_required"

def WebhookBody.reportOn (body : WebhookBody) (ref : String) : Option SessionReport :=
  body.stripe.object.bind fun object =>
    if object.id = some ref then
      some { object.toSessionReport with
        status := if body.stripe.type = some "checkout.session.expired" then some "expired" else object.status }
    else none

def reportOn (ref : String) : (o : Op) → Except Err o.Resp → Option SessionReport
  | .receive, .ok (some body) => body.reportOn ref
  | .provider (.retrieve provider providerRef), .ok report =>
    if provider.name = .stripe ∧ providerRef = some ref then some report else none
  | _, _ => none

def ToldPaid (ref : String) (history : List (Entry Op Op.Resp Err)) : Prop :=
  ∃ e ∈ history, (reportOn ref e.op e.result).any SessionReport.tellsPaid = true

/-- No report calls the session complete that does not tell that money moved. -/
def conclusive (ref : String) (c : State) : Label Answer Event → Bool
  | .run t a =>
    match c.waiting? t with
    | some o => (reportOn ref o (store.perform o a c.state).1).all fun report => report.status ≠ some "complete" || report.tellsPaid
    | none => true
  | _ => true

instance (ref : String) (history : List (Entry Op Op.Resp Err)) : Decidable (ToldPaid ref history) :=
  inferInstanceAs (Decidable (∃ e ∈ history, (reportOn ref e.op e.result).any SessionReport.tellsPaid = true))

/-! ## Reports -/

section Reports

variable {report : SessionReport} {session : Session} {f : Watch}

theorem mapCheckoutSessionStatus_paid (h : mapCheckoutSessionStatus report.status report.paymentStatus = .paid) :
    report.tellsPaid = true ∨ report.status = some "complete" := by
  unfold mapCheckoutSessionStatus at h
  split at h
  · cases h
  · split at h
    · rename_i hPaid
      refine .inl ?_
      rw [SessionReport.tellsPaid, Bool.or_eq_true, decide_eq_true_eq, decide_eq_true_eq]
      exact hPaid
    · split at h
      · rename_i hComplete
        exact .inr hComplete
      · split at h <;> cases h

theorem not_paid_of_report (hConclusive : (report.status ≠ some "complete" || report.tellsPaid) = true)
    (hUntold : report.tellsPaid = false) : mapCheckoutSessionStatus report.status report.paymentStatus ≠ .paid := by
  intro hPaid
  rw [hUntold, Bool.or_false, decide_eq_true_eq] at hConclusive
  rcases mapCheckoutSessionStatus_paid hPaid with hTold | hComplete
  · rw [hUntold] at hTold
    cases hTold
  · exact hConclusive hComplete

theorem Watch.body_of_report {body : WebhookBody} (hSession : f.session = some session)
    (h : ∀ report, body.reportOn session.ref = some report → mapCheckoutSessionStatus report.status report.paymentStatus ≠ .paid) :
    f.body body := by
  intro watched hWatched object hObject hId eventType hType hPaid
  cases hSession.symm.trans hWatched
  refine h _ (by rw [WebhookBody.reportOn, hObject, Option.bind_some, if_pos hId]) ?_
  rw [sessionEventStatus] at hPaid
  simpa only [hType, Option.some.injEq] using hPaid

end Reports

/-! ## What is stored -/

structure World.Awaits (w : World) (id : Id) (session : Session) : Prop where
  payment : ∀ p ∈ w.payments, p.id = id → p.status.collected = false ∧ p.RunsOn session
  known : id < w.nextId
  account : ∀ account ∈ w.accounts, session.account = some account.id → account.provider = .stripe
  accountKnown : ∀ accountId, session.account = some accountId → accountId < w.nextId

section Awaits

variable {w : World} {id : Id} {session : Session} {o : Op} {a : Answer} {p : Payment}

theorem Op.revise_runsOn (o : Op) (w : World) (h : p.RunsOn session) : (o.revise w p).RunsOn session := by
  have hFields : ∀ {q : Payment}, q.provider = p.provider → q.providerRef = p.providerRef →
      q.restaurantPaymentAccountId = p.restaurantPaymentAccountId → q.method = p.method → q.RunsOn session :=
    fun hProvider hRef hAccount hMethod =>
      ⟨hProvider.trans h.provider, hRef.trans h.providerRef, hAccount.trans h.account, hMethod.trans h.method⟩
  cases o with
  | payment op =>
    cases op with
    | reserve | release | count | giveBack | setStatus | transition =>
      simp only [Op.revise, PaymentOp.revise]
      split
      · exact hFields rfl rfl rfl rfl
      · exact h
    | _ => exact h
  | _ => exact h

theorem AccountOp.provider_perform (op : AccountOp) (w : World) {account : RestaurantPaymentAccount}
    (h : account ∈ (op.perform w).2.accounts) :
    (∃ stored ∈ w.accounts, account.id = stored.id ∧ account.provider = stored.provider) ∨ account.id = w.nextId := by
  have hUpdate : ∀ {sel : RestaurantPaymentAccount → Bool} {f : RestaurantPaymentAccount → RestaurantPaymentAccount},
      (∀ a, (f a).id = a.id) → (∀ a, (f a).provider = a.provider) → account ∈ Tables.update sel f w.accounts →
      (∃ stored ∈ w.accounts, account.id = stored.id ∧ account.provider = stored.provider) ∨ account.id = w.nextId := by
    intro sel f hId hProvider hMem
    obtain ⟨stored, hStored, rfl⟩ := Tables.mem_update.mp hMem
    refine .inl ⟨stored, hStored, ?_, ?_⟩ <;> split
    · exact hId stored
    · rfl
    · exact hProvider stored
    · rfl
  have hSame : account ∈ w.accounts → (∃ stored ∈ w.accounts, account.id = stored.id ∧ account.provider = stored.provider) ∨
      account.id = w.nextId := fun hMem => .inl ⟨account, hMem, rfl, rfl⟩
  cases op with
  | insert draft =>
    rw [AccountOp.perform] at h
    dsimp only at h
    split at h
    · exact hSame h
    · rcases List.mem_append.mp h with hOld | hNew
      · exact hSame hOld
      · cases List.mem_singleton.mp hNew
        exact .inr rfl
  | save loaded saved =>
    rw [AccountOp.perform] at h
    split at h
    · exact hSame h
    · dsimp only at h
      split at h
      · exact hSame h
      · exact hUpdate (f := loaded.saveOver saved) (fun _ => rfl) (fun _ => rfl) h
  | disconnectOthers => exact hUpdate (f := fun a => { a with status := .disconnected }) (fun _ => rfl) (fun _ => rfl) h
  | noteFirstWebhook id time =>
    exact hUpdate (f := fun a => { a with firstWebhookReceivedAt := some time }) (fun _ => rfl) (fun _ => rfl) h
  | _ => exact hSame h

theorem Op.provider_perform (o : Op) (a : Answer) (w : World) {account : RestaurantPaymentAccount}
    (h : account ∈ (o.perform a w).2.accounts) :
    (∃ stored ∈ w.accounts, account.id = stored.id ∧ account.provider = stored.provider) ∨ account.id = w.nextId := by
  have hSame : (o.perform a w).2.accounts = w.accounts →
      (∃ stored ∈ w.accounts, account.id = stored.id ∧ account.provider = stored.provider) ∨ account.id = w.nextId :=
    fun hEq => .inl ⟨account, hEq ▸ h, rfl, rfl⟩
  cases o with
  | account op => exact op.provider_perform w h
  | refund op => exact hSame ((congrArg World.accounts (op.perform_fields w)).trans rfl)
  | event op => exact hSame ((congrArg World.accounts (op.perform_fields w)).trans rfl)
  | provider op => exact hSame ((congrArg World.accounts (op.perform_fields a w)).trans rfl)
  | order op => cases op <;> exact hSame rfl
  | payment op =>
    refine hSame ?_
    cases op <;> simp only [Op.perform, PaymentOp.perform] <;> repeat' split
    all_goals rfl
  | _ => exact hSame rfl

theorem World.Awaits.perform (h : w.Awaits id session) (hOk : Watch.ok { id := some id, session := some session } o) :
    (o.perform a w).2.Awaits id session := by
  refine ⟨fun later hMem hId => ?_, Nat.lt_of_lt_of_le h.known (o.nextId_le a w), fun account hMem hAccount => ?_,
    fun accountId hAccount => Nat.lt_of_lt_of_le (h.accountKnown accountId hAccount) (o.nextId_le a w)⟩
  · rcases mem_perform_payments hMem with ⟨p, hp, rfl⟩ | hOpened
    · rw [o.revise_id] at hId
      obtain ⟨hUncollected, hRuns⟩ := h.payment p hp hId
      refine ⟨?_, o.revise_runsOn w hRuns⟩
      rcases o.revise_status w p with hSame | ⟨payment, next, rfl, hNamed, -, -, hNext⟩ | ⟨payment, next, rfl, hNamed, -⟩
      · rw [hSame]
        exact hUncollected
      · rw [hNext, ← Bool.not_eq_true]
        intro hCollected
        obtain ⟨hRefunded, hPartially, -⟩ := isValidPaymentTransition_ne_refunded hOk.1
        have hPaid : next = .paid := by
          cases next <;> first | rfl | exact absurd rfl hRefunded | exact absurd rfl hPartially | cases hCollected
        exact hOk.2 hPaid rfl (congrArg some (hId.symm.trans hNamed))
      · exact absurd (congrArg some (hId.symm.trans hNamed)) hOk.2.2
    · exact absurd (hId.symm.trans (Op.mem_opened hOpened)) (Nat.ne_of_lt h.known)
  · rcases o.provider_perform a w hMem with ⟨stored, hStored, hId, hProvider⟩ | hNew
    · exact hProvider.trans (h.account stored hStored (hAccount.trans (congrArg some hId)))
    · exact absurd hNew (Nat.ne_of_lt (h.accountKnown account.id hAccount))

end Awaits

/-! ## Runs -/

section Run

variable {env : Env} {w₀ : World} {requests : List Request} {c c' : State} {id : Id} {session : Session}

theorem toldPaid_cons {ref : String} {e : Entry Op Op.Resp Err} {history : List (Entry Op Op.Resp Err)} :
    ToldPaid ref (e :: history) ↔ (reportOn ref e.op e.result).any SessionReport.tellsPaid = true ∨ ToldPaid ref history :=
  List.exists_mem_cons_iff _ _ _

theorem reports_of_untold {o : Op} {r : Except Err o.Resp}
    (hConclusive : (reportOn session.ref o r).all (fun report => report.status ≠ some "complete" || report.tellsPaid) = true)
    (hUntold : (reportOn session.ref o r).any SessionReport.tellsPaid = false) :
    Watch.reports { id := some id, session := some session } o r := by
  have hNot : ∀ report, reportOn session.ref o r = some report →
      mapCheckoutSessionStatus report.status report.paymentStatus ≠ .paid := by
    intro report hReport
    rw [hReport] at hConclusive hUntold
    exact not_paid_of_report hConclusive hUntold
  cases o with
  | receive =>
    rintro body rfl
    exact Watch.body_of_report rfl hNot
  | provider op =>
    cases op with
    | retrieve provider providerRef =>
      rintro report rfl hStripe watched hWatched hRef
      cases hWatched
      exact hNot report (if_pos ⟨hStripe, hRef⟩)
    | _ => trivial
  | _ => trivial

theorem awaits_until_told (hAwaits : w₀.Awaits id session)
    (h : store.Reach (fun c l => conclusive session.ref c l) (State.start env w₀ requests) c) (hUntold : ¬ ToldPaid session.ref c.history) :
    c.state.Awaits id session ∧ c.Keeps (Watch.rely { id := some id, session := some session })
      (Watch.ok { id := some id, session := some session }) := by
  induction h with
  | start => exact ⟨hAwaits, State.start_safe env _ w₀ requests⟩
  | @step c c' l _ hGuard hStep ih =>
    cases l with
    | run t a =>
      obtain ⟨o, th, k, hRan⟩ := Store.run_cases hStep
      rw [hRan.history, toldPaid_cons, not_or, Bool.not_eq_true] at hUntold
      obtain ⟨hHolds, hKeeps⟩ := ih hUntold.2
      have hConclusive : (reportOn session.ref o (store.perform o a c.state).1).all
          (fun report => report.status ≠ some "complete" || report.tellsPaid) = true := by
        simpa only [conclusive, hRan.waiting?] using hGuard
      have hRely : Watch.rely { id := some id, session := some session } o (store.perform o a c.state).1 := by
        refine Watch.rely_of_stored (fun p hp hWatched => ?_) (fun account hMem watched hWatched => ?_)
          (reports_of_untold hConclusive hUntold.1)
        · obtain ⟨hUncollected, hRuns⟩ := hHolds.payment p hp (Option.some.inj hWatched).symm
          refine ⟨hUncollected, fun watched hSession => ?_⟩
          cases hSession
          exact hRuns
        · cases hWatched
          exact hHolds.account account hMem
      obtain ⟨hOk, hKeeps'⟩ := hRan.keeps hRely hKeeps
      rw [hRan.state]
      exact ⟨hHolds.perform hOk, hKeeps'⟩
    | stop t =>
      obtain ⟨th, hThread, rfl⟩ := Store.stop_cases hStep
      obtain ⟨hHolds, hKeeps⟩ := ih hUntold
      refine ⟨hHolds, fun thU hU => ?_⟩
      rcases List.mem_or_eq_of_mem_set hU with hU | rfl
      · exact hKeeps thU hU
      · exact hKeeps th (List.mem_of_getElem? hThread)
    | event e =>
      cases hStep
      obtain ⟨hHolds, hKeeps⟩ := ih hUntold
      obtain ⟨-, hPayments, hNext⟩ := e.advance_fields c.state
      refine ⟨⟨fun p hp => hHolds.payment p (hPayments ▸ hp), hNext.symm ▸ hHolds.known,
        fun account hMem => hHolds.account account (e.accounts_advance ▸ hMem),
        fun accountId hAccount => hNext.symm ▸ hHolds.accountKnown accountId hAccount⟩, hKeeps⟩

/-- While every report that calls the session complete tells that money moved, the
session's payment is paid only once some report has told so. -/
theorem paid_when_told (hAwaits : w₀.Awaits id session)
    (h : store.Reach (fun c l => conclusive session.ref c l) (State.start env w₀ requests) c) :
    ∀ p ∈ c.state.payments, p.id = id → p.status = .paid → ToldPaid session.ref c.history := by
  intro p hp hId hPaid
  by_contra hUntold
  have hUncollected := ((awaits_until_told hAwaits h hUntold).1.payment p hp hId).1
  rw [hPaid] at hUncollected
  cases hUncollected

end Run

/-! ### A session that is completed before the money arrives -/

theorem openCheckout_awaits : openCheckout.Awaits 5 ⟨"cs_1", none⟩ := by
  refine ⟨fun p hMem _ => ?_, by decide, fun _ hMem => absurd hMem List.not_mem_nil, fun _ hAccount => by cases hAccount⟩
  cases List.mem_singleton.mp hMem
  exact ⟨rfl, rfl, rfl, rfl, rfl⟩

theorem openCheckout_paid_when_told : ∃ c : State, c.state.payments.map Payment.status = [.paid] ∧
    ∀ p ∈ c.state.payments, p.id = 5 → p.status = .paid → ToldPaid "cs_1" c.history := by
  obtain ⟨c, hReach, hPaid⟩ := store.exists_of_exec (conclusive "cs_1") (State.start {} openCheckout [.providerWebhook .stripe])
    (List.replicate 7 (.run 0 paidDelivery)) (fun c : State => decide (c.state.payments.map Payment.status = [.paid])) (by decide +kernel)
  exact ⟨c, of_decide_eq_true hPaid, paid_when_told openCheckout_awaits hReach⟩

def unsettledDelivery : Answer := { body := some (sessionBody "evt_1" "checkout.session.completed" "complete" (some "unpaid")) }

theorem unsettled_session_paid : ¬ ∀ (env : Env) (w₀ : World) (requests : List Request) (c : State) (id : Id) (session : Session),
    w₀.Awaits id session → store.Reach (fun _ _ => True) (State.start env w₀ requests) c →
      ∀ p ∈ c.state.payments, p.id = id → p.status = .paid → ToldPaid session.ref c.history := by
  intro hClaim
  obtain ⟨c, hReach, hPaid⟩ := store.exists_of_exec (fun _ _ => true) (State.start {} openCheckout [.providerWebhook .stripe])
    (List.replicate 7 (.run 0 unsettledDelivery))
    (fun c : State => decide (∃ p ∈ c.state.payments, p.id = 5 ∧ p.status = .paid) && decide (¬ ToldPaid "cs_1" c.history))
    (by decide +kernel)
  rw [Bool.and_eq_true, decide_eq_true_eq, decide_eq_true_eq] at hPaid
  obtain ⟨⟨p, hp, hId, hStatus⟩, hUntold⟩ := hPaid
  exact hUntold (hClaim {} openCheckout [.providerWebhook .stripe] c 5 ⟨"cs_1", none⟩ openCheckout_awaits
    (hReach.mono fun _ _ _ => trivial) p hp hId hStatus)

end RestaurantOs.Payments
