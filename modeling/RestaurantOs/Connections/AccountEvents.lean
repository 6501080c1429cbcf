import RestaurantOs.Async.Sequential
import RestaurantOs.Payments.Accounts

/-!
# Events of a connected account

The events about one connected account come in any order, any number of times,
and any call of the database may throw. An event is recorded before it is applied:
what a failed attempt has recorded is never applied.
-/

namespace RestaurantOs.Payments

open Async Prog

def receiving {α : Type} (body : WebhookBody) : Promise α → Promise α
  | .ret v => .ret v
  | .raise e => .raise e
  | .await .receive next => receiving body (next (.ok (some body)))
  | .await op next => .await op fun r => receiving body (next r)

@[reducible] def faultyStore : Store Op Op.Resp Err World (Except String Answer) Event := store.faulty .other

def deliver (env : Env) (event : StripeEventPayload) : Promise Unit :=
  receiving { stripe := event } (handleStripeConnectWebhook env)

abbrev Delivery := Served StripeEventPayload Err World (Except String Answer) Unit

/-- `RestaurantPaymentAccount.findOne({ connectedAccountId, provider: "stripe" })` -/
def World.connected? (w : World) (connectedAccountId : String) : Option RestaurantPaymentAccount :=
  w.accounts.find? fun a => a.connectedAccountId = some connectedAccountId && a.provider = .stripe

/-- A well-formed `account.updated` event about the connected account. -/
structure StripeEventPayload.Updates (connectedAccountId : String) (event : StripeEventPayload) : Prop where
  id : (truthy event.id).isSome
  type : event.type = some "account.updated"
  account : event.account = some connectedAccountId
  named : connectedAccountId ≠ ""

def StripeEventPayload.status (event : StripeEventPayload) : ConnectedAccountStatus := parseAccountEventObject event.object

def RestaurantPaymentAccount.Reflects (account : RestaurantPaymentAccount) (event : StripeEventPayload) : Prop :=
  account.chargesEnabled = some event.status.chargesEnabled ∧ account.payoutsEnabled = some event.status.payoutsEnabled ∧
    account.requirementsDue = some event.status.requirementsDue ∧ account.status = resolveConnectAccountStatus event.status

def World.recorded (w : World) (event : StripeEventPayload) : Bool :=
  w.webhookEvents.any fun e => e.provider = .stripe && e.eventId = event.id.getD ""

def RestaurantPaymentAccount.updated (account : RestaurantPaymentAccount) (event : StripeEventPayload) :
    RestaurantPaymentAccount :=
  { account with
    chargesEnabled := some event.status.chargesEnabled
    payoutsEnabled := some event.status.payoutsEnabled
    requirementsDue := some event.status.requirementsDue
    disabledReason := event.status.disabledReason
    status := resolveConnectAccountStatus event.status }

def World.refuses (w : World) (connectedAccountId : String) (event : StripeEventPayload) : Bool :=
  (w.connected? connectedAccountId).any fun account =>
    resolveConnectAccountStatus event.status = .active && activeTaken w.accounts account

/-- An attempt that inserts the event's record also saves the account: the save
is not refused and does not throw. -/
def Completes (connectedAccountId : String) (step : Delivery) : Prop :=
  (step.answers 0).isOk → (step.answers 1).isOk → step.before.recorded step.request = false →
    step.before.refuses connectedAccountId step.request = false ∧ (step.answers 2).isOk

def InOrder (events : List StripeEventPayload) (created : StripeEventPayload → Time) (step : Delivery) : Prop :=
  (step.answers 0).isOk → (step.answers 1).isOk → step.before.recorded step.request = false →
    ∀ event ∈ events, step.before.recorded event = true → created event ≤ created step.request

instance (account : RestaurantPaymentAccount) (event : StripeEventPayload) : Decidable (account.Reflects event) :=
  inferInstanceAs (Decidable (_ ∧ _ ∧ _ ∧ _))

instance (connectedAccountId : String) : DecidablePred (Completes connectedAccountId) := fun _ =>
  inferInstanceAs (Decidable (_ → _ → _ → _ ∧ _))

instance (events : List StripeEventPayload) (created : StripeEventPayload → Time) : DecidablePred (InOrder events created) :=
  fun step => inferInstanceAs (Decidable (_ → _ → _ → ∀ event ∈ events, step.before.recorded event = true → _ ≤ _))

/-! ## One delivery -/

section Delivering

variable {α : Type} {body : WebhookBody}

@[simp] theorem receiving_ret {v : α} : receiving body (.ret v) = .ret v := rfl

@[simp] theorem receiving_raise {e : Err} : receiving body (.raise e : Promise α) = .raise e := rfl

theorem receiving_await {op : Op} {next : Except Err (Op.Resp op) → Promise α} (h : op ≠ .receive) :
    receiving body (.await op next) = .await op fun r => receiving body (next r) := by
  rw [receiving]
  intro _ hEq
  exact absurd hEq h

theorem receiving_receive (f : Option WebhookBody → Promise α) :
    receiving body ((call Op.receive : Promise (Option WebhookBody)).bind f) = receiving body (f (some body)) := rfl

theorem receiving_call {op : Op} (h : op ≠ .receive) (f : op.Resp → Promise α) :
    receiving body ((call op).bind f) = (call op).bind fun v => receiving body (f v) := by
  rw [call, Prog.bind, receiving_await h, Prog.bind]
  congr 1
  funext r
  cases r <;> simp

theorem receiving_attempt {op : Op} (h : op ≠ .receive) (f : Except Err op.Resp → Promise α) :
    receiving body ((call op).attempt.bind f) = .await op fun r => receiving body (f r) := by
  rw [call, Prog.attempt, Prog.bind, receiving_await h]
  congr 1
  funext r
  cases r <;> rfl

end Delivering

section Outcomes

variable {env : Env} {event : StripeEventPayload} {connectedAccountId : String} {w w' : World}
  {account : RestaurantPaymentAccount} {answers : Nat → Except String Answer} {answer : Except Err Unit}

theorem truthy_eq {s : Option String} (h : (truthy s).isSome) : truthy s = some (s.getD "") := by
  cases s with
  | none => cases h
  | some s =>
    obtain ⟨_, hSome⟩ := Option.isSome_iff_exists.mp h
    rw [hSome]
    exact (Option.filter_eq_some_iff.mp hSome).1.symm

def World.eventKeys (w : World) : List (ProviderName × String) := w.webhookEvents.map fun e => (e.provider, e.eventId)

theorem World.recorded_iff : w.recorded event = true ↔ (.stripe, event.id.getD "") ∈ w.eventKeys := by
  rw [World.recorded, World.eventKeys, List.any_eq_true, List.mem_map]
  refine exists_congr fun e => and_congr_right fun _ => ?_
  simp

theorem eventKeys_finish (provider : ProviderName) (eventId : String) (processedAt : Option Time) (processingError : Option String) :
    ((EventOp.finish provider eventId processedAt processingError).perform w).2.eventKeys = w.eventKeys := by
  apply Tables.map_update_eq
  intro _
  rfl

structure Applies (event : StripeEventPayload) (account : RestaurantPaymentAccount) (w w' : World) : Prop where
  unrecorded : w.recorded event = false
  accounts : w'.accounts = Tables.update (fun a => a.id = account.id) (account.saveOver (account.updated event)) w.accounts
  eventKeys : w'.eventKeys = w.eventKeys ++ [(.stripe, event.id.getD "")]

theorem receiving_finish {body : WebhookBody} (eventId : String) :
    receiving body (dateNow.bind fun now => eventOp (.finish .stripe eventId (some now) none)) =
      (call Op.clock).bind fun now => call (Op.event (.finish .stripe eventId (some now) none)) := by
  refine (receiving_call (by simp) _).trans ?_
  congr 1
  funext now
  rw [eventOp, call, receiving_await (by simp)]
  congr 1
  funext r
  cases r <;> simp

theorem receiving_applyAccountEvent {body : WebhookBody} (event : StripeEventPayload) (account : RestaurantPaymentAccount)
    (eventId : String) :
    receiving body ((applyAccountEvent account "account.updated" event.object).bind fun _ =>
        dateNow.bind fun now => eventOp (.finish .stripe eventId (some now) none)) =
      (Prog.onlyIf (account.status ≠ .disconnected) (accountOp (.save account (account.updated event)))).bind fun _ =>
        (call Op.clock).bind fun now => call (Op.event (.finish .stripe eventId (some now) none)) := by
  rw [applyAccountEvent, if_pos rfl]
  by_cases hLive : account.status ≠ .disconnected
  · rw [if_pos hLive, onlyIf, if_pos hLive]
    refine (receiving_call (by simp) _).trans ?_
    congr 1
    funext v
    exact receiving_finish eventId
  · rw [if_neg hLive, onlyIf, if_neg hLive]
    exact receiving_finish eventId

theorem deliver_eq (hSecret : env.stripeConnectWebhookSecret = true) (h : event.Updates connectedAccountId) :
    deliver env event = (accountOp (.findConnected connectedAccountId)).bind fun account =>
      match account with
      | none => .ret ()
      | some account => .await (.event (.create .stripe (event.id.getD "") "account.updated")) fun r =>
        match r with
        | .error err => if err.isDuplicateKey then .ret () else .raise err
        | .ok _ =>
          (Prog.onlyIf (account.status ≠ .disconnected) (accountOp (.save account (account.updated event)))).bind fun _ =>
            (call Op.clock).bind fun now => call (Op.event (.finish .stripe (event.id.getD "") (some now) none)) := by
  obtain ⟨id, type, connected, object⟩ := event
  obtain ⟨hId, rfl, rfl, hNamed⟩ := h
  have hAccount : truthy (some connectedAccountId) = some connectedAccountId := by
    simp [truthy, hNamed]
  have hType : truthy (some "account.updated") = some "account.updated" := rfl
  rw [deliver, handleStripeConnectWebhook, hSecret]
  simp only [Bool.not_true, Bool.false_eq_true, if_false, bind_eq]
  refine (receiving_receive _).trans ?_
  simp only [truthy_eq hId, hType, hAccount]
  rw [accountOp]
  refine (receiving_call (by simp) _).trans ?_
  congr 1
  funext account
  cases account with
  | none => exact receiving_ret
  | some account =>
    have hRefund : parseStripeRefundEvent ⟨id, some "account.updated", some connectedAccountId, object⟩ = none := by
      have hType : "account.updated" ∉ stripeRefundEventTypes := by decide
      cases object with
      | none => rfl
      | some object =>
        cases hObject : truthy object.id <;> simp [parseStripeRefundEvent, hObject, hType]
    simp only [processConnectEvent, hRefund]
    rw [if_neg (by decide), if_pos (by decide), processAccountEvent, eventOp]
    refine (receiving_attempt (by simp) _).trans ?_
    congr 1
    funext r
    cases r with
    | error err =>
      dsimp only
      split <;> simp
    | ok v =>
      exact receiving_applyAccountEvent ⟨id, some "account.updated", some connectedAccountId, object⟩ account (id.getD "")

theorem exists_of_isOk {ε β : Type} {r : Except ε β} (h : r.isOk = true) : ∃ a, r = .ok a := by
  cases r with
  | error e => cases h
  | ok a => exact ⟨a, rfl⟩

theorem overwrite_self {β : Type} [DecidableEq β] (stored saved : β) : overwrite stored saved stored = saved := by
  unfold overwrite
  split
  · rename_i hEq
    exact hEq.symm
  · rfl

theorem saveOver_updated (account : RestaurantPaymentAccount) (event : StripeEventPayload) :
    account.saveOver (account.updated event) account = account.updated event := by
  simp only [RestaurantPaymentAccount.saveOver, overwrite_self]
  rfl

theorem perform_save_updated (hFound : w.connected? connectedAccountId = some account)
    (hIds : (w.accounts.map (·.id)).Nodup) (hFree : w.refuses connectedAccountId event = false) :
    (AccountOp.save account (account.updated event)).perform w =
      (.ok (), w.updateAccounts (fun a => a.id = account.id) (account.saveOver (account.updated event))) := by
  have hStored : w.accounts.find? (fun a => a.id = account.id) = some account := by
    have hFind := Tables.find?_id hIds (List.mem_of_find?_eq_some hFound)
    have hSel : (fun a : RestaurantPaymentAccount => decide (a.id = account.id)) = fun a => a.id == account.id := by
      funext a
      exact (beq_eq_decide a.id account.id).symm
    rw [hSel]
    exact hFind
  have hTaken : ¬ ((account.updated event).status = .active ∧ activeTaken w.accounts (account.updated event) = true) := by
    rintro ⟨hActive, hTaken⟩
    rw [World.refuses, hFound] at hFree
    simp only [Option.any_some, Bool.and_eq_false_iff, decide_eq_false_iff_not] at hFree
    rcases hFree with hNot | hNot
    · exact hNot hActive
    · exact Bool.false_ne_true (hNot.symm.trans hTaken)
  simp only [AccountOp.perform, hStored, saveOver_updated, if_neg hTaken]

theorem after_save {eventId : String} (h : ((call Op.clock).bind fun now =>
      call (Op.event (.finish .stripe eventId (some now) none))).respond faultyStore answers w = (answer, w')) :
    w'.accounts = w.accounts ∧ w'.eventKeys = w.eventKeys := by
  rw [respond_call_bind] at h
  cases hClock : answers 0 with
  | error fault =>
    simp only [hClock] at h
    cases h
    exact ⟨rfl, rfl⟩
  | ok a =>
    simp only [hClock, Op.perform, respond_call] at h
    cases hFinish : answers 1 with
    | error fault =>
      simp only [Nat.zero_add, hFinish] at h
      cases h
      exact ⟨rfl, rfl⟩
    | ok a =>
      simp only [Nat.zero_add, hFinish] at h
      cases h
      exact ⟨rfl, eventKeys_finish .stripe eventId _ none⟩

theorem deliver_cases (hSecret : env.stripeConnectWebhookSecret = true) (hUpdates : event.Updates connectedAccountId)
    (hFound : w.connected? connectedAccountId = some account) (hLive : account.status ≠ .disconnected)
    (hIds : (w.accounts.map (·.id)).Nodup)
    (hCompletes : Completes connectedAccountId ⟨event, answers, w, answer, w'⟩)
    (h : (deliver env event).respond faultyStore answers w = (answer, w')) :
    (∃ err, answer = .error err ∧ w' = w) ∨ (answer = .ok () ∧ w.recorded event = true ∧ w' = w) ∨
      ((answers 0).isOk ∧ (answers 1).isOk ∧ Applies event account w w') := by
  rw [deliver_eq hSecret hUpdates, accountOp, respond_call_bind] at h
  cases hLookup : answers 0 with
  | error fault =>
    simp only [hLookup] at h
    cases h
    exact .inl ⟨_, rfl, rfl⟩
  | ok a =>
    have hFound' : w.accounts.find? (fun a => a.connectedAccountId = some connectedAccountId && a.provider = .stripe) =
      some account := hFound
    simp only [hLookup, Op.perform, AccountOp.perform, hFound'] at h
    cases hInsert : answers 1 with
    | error fault =>
      simp only [respond, hInsert, Err.isDuplicateKey, Bool.false_eq_true, if_false] at h
      cases h
      exact .inl ⟨_, rfl, rfl⟩
    | ok a =>
      cases hRecorded : w.recorded event with
      | true =>
        have hAny : (w.webhookEvents.any fun e => e.provider = .stripe && e.eventId = event.id.getD "") = true := hRecorded
        simp only [respond, hInsert, Op.perform, EventOp.perform, hAny, if_true, Err.isDuplicateKey] at h
        cases h
        exact .inr (.inl ⟨rfl, rfl, rfl⟩)
      | false =>
        have hAny : (w.webhookEvents.any fun e => e.provider = .stripe && e.eventId = event.id.getD "") = false := hRecorded
        have hLater := hCompletes (hLookup ▸ rfl : (answers 0).isOk = true) (hInsert ▸ rfl : (answers 1).isOk = true) hRecorded
        obtain ⟨hFree, hSave⟩ := hLater
        obtain ⟨_, hSave⟩ := exists_of_isOk hSave
        dsimp only at hSave
        simp only [respond, hInsert, Op.perform, EventOp.perform, hAny, Bool.false_eq_true, if_false] at h
        rw [onlyIf, if_pos hLive, accountOp, respond_call_bind] at h
        simp only [Nat.zero_add, Nat.reduceAdd, hSave, Op.perform] at h
        have hSaved : (AccountOp.save account (account.updated event)).perform { w with
            webhookEvents := w.webhookEvents ++ [{ provider := .stripe, eventId := event.id.getD "", eventType := "account.updated" }] } = _ :=
          @perform_save_updated event connectedAccountId _ account hFound hIds hFree
        rw [hSaved] at h
        obtain ⟨hAccounts, hKeys⟩ := after_save h
        refine .inr (.inr ⟨rfl, rfl, hRecorded, hAccounts, ?_⟩)
        rw [hKeys]
        exact List.map_append

/-! ## What applying an event changes -/

theorem Applies.connected? (h : Applies event account w w') (hFound : w.connected? connectedAccountId = some account) :
    w'.connected? connectedAccountId = some (account.updated event) := by
  rw [World.connected?, h.accounts, Tables.find?_update, ← World.connected?, hFound]
  · simp [saveOver_updated]
  · intro a _
    split <;> rfl

theorem Applies.ids (h : Applies event account w w') (hIds : (w.accounts.map (·.id)).Nodup) :
    (w'.accounts.map (·.id)).Nodup := by
  have hMap : w'.accounts.map (·.id) = w.accounts.map (·.id) := by
    rw [h.accounts]
    exact Tables.map_update_eq (fun a : RestaurantPaymentAccount => a.id) fun _ => rfl
  rwa [hMap]

theorem Applies.recorded_iff {other : StripeEventPayload} (h : Applies event account w w') :
    w'.recorded other = true ↔ w.recorded other = true ∨ other.id.getD "" = event.id.getD "" := by
  rw [World.recorded_iff, World.recorded_iff, h.eventKeys, List.mem_append, List.mem_singleton, Prod.mk.injEq]
  simp

theorem StripeEventPayload.Updates.id_eq {other : StripeEventPayload} (h : event.Updates connectedAccountId)
    (hOther : other.Updates connectedAccountId) (hEq : other.id.getD "" = event.id.getD "") : other.id = event.id := by
  have hSome : ∀ {s : Option String}, (truthy s).isSome → s = some (s.getD "") := by
    intro s hs
    cases s with
    | none => cases hs
    | some s => rfl
  rw [hSome h.id, hSome hOther.id, hEq]

end Outcomes

/-! ## Runs of deliveries -/

/-- The account reflects the last event that was applied, which is the most
recent of the recorded ones, and whatever was answered 2xx is recorded. -/
structure Current (events : List StripeEventPayload) (created : StripeEventPayload → Time) (connectedAccountId : String)
    (stored : RestaurantPaymentAccount) (history : List Delivery) (w : World) : Prop where
  account : ∃ account, w.connected? connectedAccountId = some account ∧ account.id = stored.id ∧
    account.status ≠ .disconnected ∧ ((∀ event ∈ events, w.recorded event = false) ∨
      ∃ last ∈ events, account.Reflects last ∧ ∀ event ∈ events, w.recorded event = true → created event ≤ created last)
  ids : (w.accounts.map (·.id)).Nodup
  answered : ∀ step ∈ history, step.answer = .ok () → w.recorded step.request = true

section Runs

variable {env : Env} {events : List StripeEventPayload} {created : StripeEventPayload → Time} {connectedAccountId : String}
  {stored : RestaurantPaymentAccount} {history : List Delivery} {w w' : World}

theorem Current.advance (h : Current events created connectedAccountId stored history w) (e : Event) :
    Current events created connectedAccountId stored history (e.advance w) := by
  have hRecorded : ∀ event, (e.advance w).recorded event = w.recorded event := by
    intro event
    rw [World.recorded, Event.webhookEvents_advance, World.recorded]
  refine ⟨?_, ?_, ?_⟩
  · simp only [World.connected?, Event.accounts_advance, hRecorded]
    exact h.account
  · rw [Event.accounts_advance]
    exact h.ids
  · intro step hStep hOk
    rw [hRecorded]
    exact h.answered step hStep hOk

theorem Current.deliver (h : Current events created connectedAccountId stored history w)
    (hSecret : env.stripeConnectWebhookSecret = true) (hUpdates : ∀ event ∈ events, event.Updates connectedAccountId)
    (hDistinct : (events.map (·.id)).Nodup) {event : StripeEventPayload} {answers : Nat → Except String Answer}
    {answer : Except Err Unit} (hEvent : event ∈ events)
    (hCompletes : Completes connectedAccountId ⟨event, answers, w, answer, w'⟩)
    (hInOrder : InOrder events created ⟨event, answers, w, answer, w'⟩)
    (hServed : (Payments.deliver env event).respond faultyStore answers w = (answer, w')) :
    Current events created connectedAccountId stored (⟨event, answers, w, answer, w'⟩ :: history) w' := by
  obtain ⟨account, hFound, hId, hLive, hLast⟩ := h.account
  rcases deliver_cases hSecret (hUpdates event hEvent) hFound hLive h.ids hCompletes hServed with
    ⟨err, rfl, rfl⟩ | ⟨rfl, hRecorded, rfl⟩ | ⟨hLookup, hInsert, hApplies⟩
  · refine ⟨⟨account, hFound, hId, hLive, hLast⟩, h.ids, ?_⟩
    intro step hStep hOk
    rcases List.mem_cons.mp hStep with rfl | hStep
    · cases hOk
    · exact h.answered step hStep hOk
  · refine ⟨⟨account, hFound, hId, hLive, hLast⟩, h.ids, ?_⟩
    intro step hStep hOk
    rcases List.mem_cons.mp hStep with rfl | hStep
    · exact hRecorded
    · exact h.answered step hStep hOk
  · refine ⟨⟨account.updated event, hApplies.connected? hFound, hId, resolveConnectAccountStatus_ne_disconnected _,
      .inr ⟨event, hEvent, ⟨rfl, rfl, rfl, rfl⟩, ?_⟩⟩, hApplies.ids h.ids, ?_⟩
    · intro other hOther hRecorded
      rcases hApplies.recorded_iff.mp hRecorded with hRecorded | hSame
      · exact hInOrder hLookup hInsert hApplies.unrecorded other hOther hRecorded
      · have hEq := (hUpdates event hEvent).id_eq (hUpdates other hOther) hSame
        rw [Tables.eq_of_id hDistinct hOther hEvent hEq]
    · intro step hStep hOk
      rw [hApplies.recorded_iff]
      rcases List.mem_cons.mp hStep with rfl | hStep
      · exact .inr rfl
      · exact .inl (h.answered step hStep hOk)

/-- Once every event was answered 2xx, the connected account is in the state of
the most recent one. -/
theorem account_follows_events {newest : StripeEventPayload} (hSecret : env.stripeConnectWebhookSecret = true)
    (hUpdates : ∀ event ∈ events, event.Updates connectedAccountId) (hDistinct : (events.map (·.id)).Nodup)
    (hNewest : newest ∈ events) (hRecent : ∀ event ∈ events, event ≠ newest → created event < created newest)
    (hFound : w.connected? connectedAccountId = some stored) (hLive : stored.status ≠ .disconnected)
    (hIds : (w.accounts.map (·.id)).Nodup) (hNew : ∀ event ∈ events, w.recorded event = false)
    (h : Serves faultyStore (deliver env) w history w') (hEvents : ∀ step ∈ history, step.request ∈ events)
    (hCompletes : ∀ step ∈ history, Completes connectedAccountId step)
    (hInOrder : ∀ step ∈ history, InOrder events created step)
    (hAnswered : ∀ event ∈ events, ∃ step ∈ history, step.request = event ∧ step.answer = .ok ()) :
    ∃ account, w'.connected? connectedAccountId = some account ∧ account.id = stored.id ∧ account.Reflects newest := by
  have hCurrent : (∀ step ∈ history, step.request ∈ events ∧ Completes connectedAccountId step ∧ InOrder events created step) →
      Current events created connectedAccountId stored history w' := by
    refine h.invariant (I := fun history w => (∀ step ∈ history, step.request ∈ events ∧ Completes connectedAccountId step ∧
      InOrder events created step) → Current events created connectedAccountId stored history w) ?_ ?_ ?_
    · intro _
      exact ⟨⟨stored, hFound, rfl, hLive, .inl hNew⟩, hIds, by simp⟩
    · intro history w e ih hSteps
      exact (ih hSteps).advance e
    · intro history w w' event answers answer ih hServed hSteps
      obtain ⟨hEvent, hCompletes, hInOrder⟩ := hSteps _ List.mem_cons_self
      exact (ih fun step hStep => hSteps step (List.mem_cons_of_mem _ hStep)).deliver hSecret hUpdates hDistinct hEvent
        hCompletes hInOrder hServed
  obtain ⟨⟨account, hAccount, hId, _, hLast⟩, _, hRecorded⟩ :=
    hCurrent fun step hStep => ⟨hEvents step hStep, hCompletes step hStep, hInOrder step hStep⟩
  obtain ⟨step, hStep, rfl, hOk⟩ := hAnswered newest hNewest
  have hNewestRecorded := hRecorded step hStep hOk
  rcases hLast with hNone | ⟨last, hMem, hReflects, hMost⟩
  · rw [hNone _ hNewest] at hNewestRecorded
    cases hNewestRecorded
  · have hLe := hMost _ hNewest hNewestRecorded
    by_cases hEq : last = step.request
    · exact ⟨account, hAccount, hId, hEq ▸ hReflects⟩
    · exact absurd (hRecent last hMem hEq) (Nat.not_lt.mpr hLe)

end Runs

def accountUpdate (eventId : String) (chargesEnabled : Bool) : StripeEventPayload where
  id := some eventId
  type := some "account.updated"
  account := some "acct_1"
  object := some { chargesEnabled := some chargesEnabled, payoutsEnabled := some chargesEnabled, currentlyDue := some [] }

def onboarded : RestaurantPaymentAccount where
  id := 3
  restaurantId := 1
  provider := .stripe
  connectionMode := .platformConnect
  connectedAccountId := some "acct_1"
  createdAt := 0

theorem accountUpdate_updates (eventId : String) (chargesEnabled : Bool) (h : (truthy (some eventId)).isSome) :
    (accountUpdate eventId chargesEnabled).Updates "acct_1" := ⟨h, rfl, rfl, by decide⟩

/-- The record of the newer event cannot be inserted at first, and the older
event is delivered once more at the end. -/
theorem account_follows_events_redelivered :
    ∃ account, (serve faultyStore (deliver {}) [.inr (accountUpdate "evt_1" false, fun _ => .ok {}),
        .inr (accountUpdate "evt_2" true, fun n => if n = 1 then .error "timed out" else .ok {}),
        .inr (accountUpdate "evt_2" true, fun _ => .ok {}), .inr (accountUpdate "evt_1" false, fun _ => .ok {})]
        ([], { accounts := [onboarded] })).2.connected? "acct_1" = some account ∧ account.id = onboarded.id ∧
      account.Reflects (accountUpdate "evt_2" true) := by
  have hUpdates : ∀ event ∈ [accountUpdate "evt_1" false, accountUpdate "evt_2" true], event.Updates "acct_1" := by
    intro event hEvent
    simp only [List.mem_cons, List.not_mem_nil, or_false] at hEvent
    rcases hEvent with rfl | rfl <;> exact accountUpdate_updates _ _ rfl
  exact @account_follows_events {} _ (fun event => if event.id = some "evt_2" then 20 else 10) "acct_1" onboarded _ _ _ _ rfl
    hUpdates (by decide) (by decide) (by decide) rfl (by decide) (by decide) (by decide) (serves_serve _ (c := ([], _)) .start)
    (by decide) (by decide) (by decide) (by decide)

/-- The save of the event throws once it is recorded; when it is delivered again
it is taken for a duplicate. -/
theorem account_misses_event :
    ¬ ∀ (env : Env) (events : List StripeEventPayload) (created : StripeEventPayload → Time) (connectedAccountId : String)
      (stored : RestaurantPaymentAccount) (history : List Delivery) (w w' : World) (newest : StripeEventPayload),
      env.stripeConnectWebhookSecret = true → (∀ event ∈ events, event.Updates connectedAccountId) →
      (events.map (·.id)).Nodup → newest ∈ events → (∀ event ∈ events, event ≠ newest → created event < created newest) →
      w.connected? connectedAccountId = some stored → stored.status ≠ .disconnected → (w.accounts.map (·.id)).Nodup →
      (∀ event ∈ events, w.recorded event = false) → Serves faultyStore (deliver env) w history w' →
      (∀ step ∈ history, step.request ∈ events) →
      (∀ event ∈ events, ∃ step ∈ history, step.request = event ∧ step.answer = .ok ()) →
      ∃ account, w'.connected? connectedAccountId = some account ∧ account.id = stored.id ∧ account.Reflects newest := by
  intro hClaim
  have hUpdates : ∀ event ∈ [accountUpdate "evt_1" true], event.Updates "acct_1" := by
    intro event hEvent
    rw [List.mem_singleton.mp hEvent]
    exact accountUpdate_updates _ _ rfl
  obtain ⟨account, hAccount, _, hReflects⟩ := hClaim {} [accountUpdate "evt_1" true] (fun _ => 10) "acct_1" onboarded _ _ _ _
    rfl hUpdates (by decide) (List.mem_singleton.mpr rfl) (by decide) rfl (by decide) (by decide) (by decide)
    (serves_serve (s := { accounts := [onboarded] }) [.inr (accountUpdate "evt_1" true, fun n => if n = 2 then .error "timed out" else .ok {}),
      .inr (accountUpdate "evt_1" true, fun _ => .ok {})] (c := ([], _)) .start)
    (by decide) (by decide)
  have hStill : ((serve faultyStore (deliver {}) [.inr (accountUpdate "evt_1" true, fun n => if n = 2 then .error "timed out" else .ok {}),
      .inr (accountUpdate "evt_1" true, fun _ => .ok {})] ([], { accounts := [onboarded] })).2.connected? "acct_1").all
      fun account => ¬ account.Reflects (accountUpdate "evt_1" true) := by decide
  rw [hAccount] at hStill
  simp [hReflects] at hStill

end RestaurantOs.Payments
