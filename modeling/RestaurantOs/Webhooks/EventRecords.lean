import RestaurantOs.Data.Tables
import RestaurantOs.Payments.Types

/-!
# Webhook event records

One record for each `(provider, eventId)`. An attempt claims its event by creating
the record or by retaking one that is neither processed nor being processed. A mark
that an event was processed is never taken back.
-/

namespace RestaurantOs.Webhooks

export Payments (Id Time ApiError Err)

variable {N : Type}

structure WebhookEvent (N : Type) where
  provider : N
  eventId : String
  eventType : String
  processedAt : Option Time := none
  processingStartedAt : Option Time := none
  processingError : Option String := none
  deriving DecidableEq

/-- The fields an `updateOne` sets; `processingError` is `some none` where it
is `$unset`. -/
structure WebhookEventUpdate where
  processedAt : Option Time := none
  processingError : Option (Option String) := none
  unsetProcessingStartedAt : Bool := false
  deriving DecidableEq

/-- `reclaim` retakes a record that is not marked as started or, where
`staleBefore` is given, was started before it. -/
inductive EventOp (N : Type)
  | create (provider : N) (eventId eventType : String) (startedAt : Time)
  | reclaim (provider : N) (eventId : String) (staleBefore : Option Time) (startedAt : Time)
  | update (provider : N) (eventId : String) (changes : WebhookEventUpdate)
  deriving DecidableEq

@[reducible] def EventOp.Resp : EventOp N → Type
  | reclaim _ _ _ _ => Bool
  | _ => Unit

namespace WebhookEvent

def key (event : WebhookEvent N) : N × String := (event.provider, event.eventId)

def claimable (staleBefore : Option Time) (event : WebhookEvent N) : Bool :=
  event.processedAt.isNone &&
    event.processingStartedAt.all fun startedAt => staleBefore.any fun stale => startedAt < stale

def started (startedAt : Time) (event : WebhookEvent N) : WebhookEvent N :=
  { event with processingStartedAt := some startedAt }

end WebhookEvent

def WebhookEventUpdate.apply (changes : WebhookEventUpdate) (event : WebhookEvent N) : WebhookEvent N :=
  { event with
    processedAt := changes.processedAt.or event.processedAt
    processingError := changes.processingError.getD event.processingError
    processingStartedAt := if changes.unsetProcessingStartedAt then none else event.processingStartedAt }

theorem WebhookEvent.key_started (event : WebhookEvent N) (startedAt : Time) : (event.started startedAt).key = event.key := rfl

theorem WebhookEvent.stale_of_claimable {event : WebhookEvent N} {stale now startedAt : Time}
    (hStarted : event.processingStartedAt = some startedAt) (h : event.claimable (some (now - stale)) = true) :
    startedAt + stale < now := by
  simp only [claimable, hStarted, Option.all_some, Option.any_some, Bool.and_eq_true, decide_eq_true_eq] at h
  exact Nat.add_lt_of_lt_sub h.2

theorem WebhookEventUpdate.key_apply (changes : WebhookEventUpdate) (event : WebhookEvent N) :
    (changes.apply event).key = event.key :=
  rfl

theorem key_update {events : List (WebhookEvent N)} {event : WebhookEvent N} (sel : WebhookEvent N → Bool)
    {f : WebhookEvent N → WebhookEvent N} (h : ∀ e, (f e).key = e.key) (hMem : event ∈ events) :
    ∃ e ∈ Tables.update sel f events, e.key = event.key := by
  refine ⟨_, Tables.mem_update.mpr ⟨event, hMem, rfl⟩, ?_⟩
  split
  · exact h event
  · rfl

variable [DecidableEq N]

def WebhookEvent.isFor (provider : N) (eventId : String) (event : WebhookEvent N) : Bool :=
  event.provider = provider && event.eventId = eventId

def EventOp.perform : (op : EventOp N) → List (WebhookEvent N) → Except Err op.Resp × List (WebhookEvent N)
  | create provider eventId eventType startedAt, events =>
    if events.any (·.isFor provider eventId) then (.error .duplicateKey, events)
    else (.ok (), events ++ [{ provider, eventId, eventType, processingStartedAt := some startedAt }])
  | reclaim provider eventId staleBefore startedAt, events =>
    let sel := fun e : WebhookEvent N => e.isFor provider eventId && e.claimable staleBefore
    (.ok (events.any sel), Tables.update sel (·.started startedAt) events)
  | update provider eventId changes, events =>
    (.ok (), Tables.update (·.isFor provider eventId) changes.apply events)

/-! ## One record for each event -/

def isProcessed (events : List (WebhookEvent N)) (provider : N) (eventId : String) : Bool :=
  events.any fun e => e.isFor provider eventId && e.processedAt.isSome

def Recorded (events : List (WebhookEvent N)) (provider : N) (eventId : String) : Prop :=
  ∃ e ∈ events, e.key = (provider, eventId)

section Records

variable {events : List (WebhookEvent N)} {event : WebhookEvent N} {provider : N} {eventId : String}

theorem isFor_iff : event.isFor provider eventId = true ↔ event.key = (provider, eventId) := by
  simp [WebhookEvent.isFor, WebhookEvent.key]

theorem isProcessed_iff : isProcessed events provider eventId = true ↔
    ∃ e ∈ events, e.key = (provider, eventId) ∧ e.processedAt.isSome = true := by
  simp only [isProcessed, List.any_eq_true, Bool.and_eq_true, isFor_iff]

theorem Recorded.perform (op : EventOp N) (h : Recorded events provider eventId) :
    Recorded (op.perform events).2 provider eventId := by
  obtain ⟨e, hMem, hKey⟩ := h
  cases op with
  | create name id eventType startedAt =>
    simp only [EventOp.perform]
    split
    · exact ⟨e, hMem, hKey⟩
    · exact ⟨e, List.mem_append_left _ hMem, hKey⟩
  | reclaim name id staleBefore startedAt =>
    obtain ⟨e', hMem', hKey'⟩ := key_update (fun e => e.isFor name id && e.claimable staleBefore)
      (fun e => e.key_started startedAt) hMem
    exact ⟨e', hMem', hKey'.trans hKey⟩
  | update name id changes =>
    obtain ⟨e', hMem', hKey'⟩ := key_update (·.isFor name id) (fun e => changes.key_apply e) hMem
    exact ⟨e', hMem', hKey'.trans hKey⟩

theorem isProcessed_perform (op : EventOp N) (h : isProcessed events provider eventId = true) :
    isProcessed (op.perform events).2 provider eventId = true := by
  obtain ⟨e, hMem, hKey, hProcessed⟩ := (isProcessed_iff).mp h
  cases op with
  | create name id eventType startedAt =>
    simp only [EventOp.perform]
    split
    · exact h
    · exact (isProcessed_iff).mpr ⟨e, List.mem_append_left _ hMem, hKey, hProcessed⟩
  | reclaim name id staleBefore startedAt =>
    refine (isProcessed_iff).mpr ⟨_, Tables.mem_update.mpr ⟨e, hMem, rfl⟩, ?_⟩
    split
    · exact ⟨hKey, hProcessed⟩
    · exact ⟨hKey, hProcessed⟩
  | update name id changes =>
    refine (isProcessed_iff).mpr ⟨_, Tables.mem_update.mpr ⟨e, hMem, rfl⟩, ?_⟩
    split
    · refine ⟨hKey, ?_⟩
      simp only [WebhookEventUpdate.apply, Option.isSome_or, hProcessed, Bool.or_true]
    · exact ⟨hKey, hProcessed⟩

theorem isProcessed_update {changes : WebhookEventUpdate} (hRecorded : Recorded events provider eventId)
    (hMark : changes.processedAt.isSome = true) :
    isProcessed ((EventOp.update provider eventId changes).perform events).2 provider eventId = true := by
  obtain ⟨e, hMem, hKey⟩ := hRecorded
  refine (isProcessed_iff).mpr ⟨_, Tables.mem_update.mpr ⟨e, hMem, rfl⟩, ?_⟩
  rw [if_pos ((isFor_iff).mpr hKey)]
  refine ⟨hKey, ?_⟩
  simp only [WebhookEventUpdate.apply, Option.isSome_or, hMark, Bool.true_or]

theorem isProcessed_of_perform (op : EventOp N) (h : isProcessed (op.perform events).2 provider eventId = true) :
    isProcessed events provider eventId = true ∨
      ∃ changes : WebhookEventUpdate, op = .update provider eventId changes ∧ changes.processedAt.isSome = true := by
  obtain ⟨e, hMem, hKey, hProcessed⟩ := (isProcessed_iff).mp h
  cases op with
  | create name id eventType startedAt =>
    simp only [EventOp.perform] at hMem
    split at hMem
    · exact .inl ((isProcessed_iff).mpr ⟨e, hMem, hKey, hProcessed⟩)
    · rcases List.mem_append.mp hMem with hOld | hNew
      · exact .inl ((isProcessed_iff).mpr ⟨e, hOld, hKey, hProcessed⟩)
      · rw [List.mem_singleton.mp hNew] at hProcessed
        cases hProcessed
  | reclaim name id staleBefore startedAt =>
    obtain ⟨old, hOld, rfl⟩ := Tables.mem_update.mp hMem
    split at hKey
    · rename_i hSel
      rw [if_pos hSel] at hProcessed
      exact .inl ((isProcessed_iff).mpr ⟨old, hOld, hKey, hProcessed⟩)
    · rename_i hSel
      rw [if_neg hSel] at hProcessed
      exact .inl ((isProcessed_iff).mpr ⟨old, hOld, hKey, hProcessed⟩)
  | update name id changes =>
    obtain ⟨old, hOld, rfl⟩ := Tables.mem_update.mp hMem
    split at hKey
    · rename_i hSel
      rw [if_pos hSel] at hProcessed
      have hSame : old.key = (provider, eventId) := hKey
      have hName := ((isFor_iff).mp hSel).symm.trans hSame
      cases hName
      rw [WebhookEventUpdate.apply, Option.isSome_or, Bool.or_eq_true] at hProcessed
      rcases hProcessed with hMark | hBefore
      · exact .inr ⟨changes, rfl, hMark⟩
      · exact .inl ((isProcessed_iff).mpr ⟨old, hOld, hSame, hBefore⟩)
    · rename_i hSel
      rw [if_neg hSel] at hProcessed
      exact .inl ((isProcessed_iff).mpr ⟨old, hOld, hKey, hProcessed⟩)

theorem recorded_create {eventType : String} {startedAt : Time}
    (h : ((EventOp.create provider eventId eventType startedAt).perform events).1 = .ok ()) :
    Recorded ((EventOp.create provider eventId eventType startedAt).perform events).2 provider eventId := by
  simp only [EventOp.perform] at h ⊢
  split
  · rename_i hTaken
    rw [if_pos hTaken] at h
    cases h
  · exact ⟨_, List.mem_append_right _ (List.mem_singleton_self _), rfl⟩

theorem recorded_reclaim {staleBefore : Option Time} {startedAt : Time}
    (h : ((EventOp.reclaim provider eventId staleBefore startedAt).perform events).1 = .ok true) :
    Recorded events provider eventId := by
  simp only [EventOp.perform, Except.ok.injEq] at h
  obtain ⟨e, hMem, hSel⟩ := List.any_eq_true.mp h
  exact ⟨e, hMem, (isFor_iff).mp ((Bool.and_eq_true ..).mp hSel).1⟩

theorem keys_perform (op : EventOp N) (h : (events.map WebhookEvent.key).Nodup) :
    ((op.perform events).2.map WebhookEvent.key).Nodup := by
  cases op with
  | create name id eventType startedAt =>
    simp only [EventOp.perform]
    split
    · exact h
    · rename_i hNew
      rw [List.map_append, List.nodup_append]
      refine ⟨h, List.nodup_singleton _, ?_⟩
      rintro key hKey key' hKey' rfl
      obtain ⟨e, hMem, rfl⟩ := List.mem_map.mp hKey
      exact hNew (List.any_eq_true.mpr ⟨e, hMem, (isFor_iff).mpr (List.mem_singleton.mp hKey')⟩)
  | reclaim name id staleBefore startedAt =>
    simp only [EventOp.perform]
    rw [Tables.map_update_eq WebhookEvent.key fun e => e.key_started startedAt]
    exact h
  | update name id changes =>
    simp only [EventOp.perform]
    rw [Tables.map_update_eq WebhookEvent.key fun e => changes.key_apply e]
    exact h

theorem started_of_create {eventType : String} {startedAt : Time}
    (h : ((EventOp.create provider eventId eventType startedAt).perform events).1 = .ok ()) :
    ¬ Recorded events provider eventId ∧
      ∀ e ∈ ((EventOp.create provider eventId eventType startedAt).perform events).2,
        e.key = (provider, eventId) → e.processingStartedAt = some startedAt := by
  simp only [EventOp.perform] at h ⊢
  split
  · rename_i hTaken
    rw [if_pos hTaken] at h
    cases h
  · rename_i hNew
    have hNone : ¬ Recorded events provider eventId := by
      rintro ⟨e, hMem, hKey⟩
      exact hNew (List.any_eq_true.mpr ⟨e, hMem, (isFor_iff).mpr hKey⟩)
    refine ⟨hNone, fun e hMem hKey => ?_⟩
    rcases List.mem_append.mp hMem with hOld | hLast
    · exact absurd ⟨e, hOld, hKey⟩ hNone
    · rw [List.mem_singleton.mp hLast]

theorem started_of_reclaim {staleBefore : Option Time} {startedAt : Time} (hKeys : (events.map WebhookEvent.key).Nodup)
    (h : ((EventOp.reclaim provider eventId staleBefore startedAt).perform events).1 = .ok true) :
    (∃ e ∈ events, e.key = (provider, eventId) ∧ e.claimable staleBefore = true) ∧
      ∀ e ∈ ((EventOp.reclaim provider eventId staleBefore startedAt).perform events).2,
        e.key = (provider, eventId) → e.processingStartedAt = some startedAt := by
  simp only [EventOp.perform, Except.ok.injEq] at h ⊢
  obtain ⟨idle, hMemIdle, hSel⟩ := List.any_eq_true.mp h
  have hIdle := (Bool.and_eq_true ..).mp hSel
  refine ⟨⟨idle, hMemIdle, (isFor_iff).mp hIdle.1, hIdle.2⟩, fun e hMem hKey => ?_⟩
  obtain ⟨old, hOld, rfl⟩ := Tables.mem_update.mp hMem
  have hKeyOld : old.key = (provider, eventId) := by
    split at hKey <;> exact hKey
  have hSame := Tables.eq_of_id hKeys hOld hMemIdle (hKeyOld.trans ((isFor_iff).mp hIdle.1).symm)
  rw [hSame, if_pos hSel]
  rfl

theorem create_refused {eventType : String} {startedAt : Time} {err : Err}
    (h : ((EventOp.create provider eventId eventType startedAt).perform events).1 = .error err) :
    ((EventOp.create provider eventId eventType startedAt).perform events).2 = events := by
  simp only [EventOp.perform] at h ⊢
  split
  · rfl
  · rename_i hNew
    rw [if_neg hNew] at h
    cases h

theorem reclaim_refused {staleBefore : Option Time} {startedAt : Time}
    (h : ((EventOp.reclaim provider eventId staleBefore startedAt).perform events).1 = .ok false) :
    ((EventOp.reclaim provider eventId staleBefore startedAt).perform events).2 = events := by
  simp only [EventOp.perform, Except.ok.injEq] at h ⊢
  rw [List.any_eq_false] at h
  exact (List.map_congr_left fun e he => if_neg (h e he)).trans (List.map_id' _)

end Records

end RestaurantOs.Webhooks
