import RestaurantOs.Payments.Backing

/-!
# One refund a key

The requests that carry one idempotency key, and the retries of the refund held
under it, share one document. A request calls the provider for it while the claim
is the request's own, or under the lease of a re-issue.
-/

namespace RestaurantOs.Payments

open Async

/-! ## The property -/

section History

variable (key : ProviderRefundKey)

def sendsRefund : Entry Op Op.Resp Err → Bool
  | ⟨_, .provider (.refundSent call), _⟩ => call.request.key = key
  | _ => false

def rejectsRefund : Entry Op Op.Resp Err → Bool
  | ⟨_, .provider (.refundAnswered call), .error err⟩ => call.request.key = key && err.isRejected
  | _ => false

def looksUp : Op → Bool
  | .provider (.lookupRefund _ _ refundKey _) => refundKey = key
  | _ => false

def findsNone (e : Entry Op Op.Resp Err) : Bool :=
  match e with
  | ⟨_, .provider (.lookupRefund _ _ refundKey _), .ok none⟩ => refundKey = key
  | _ => false

/-- Since the last call, if there was one, it was rejected or a lookup found no
refund. The newest entry comes first. -/
def clearSince : List (Entry Op Op.Resp Err) → Bool
  | [] => true
  | e :: earlier => rejectsRefund key e || findsNone key e || !sendsRefund key e && clearSince earlier

def callsCleared : List (Entry Op Op.Resp Err) → Bool
  | [] => true
  | e :: earlier => (!sendsRefund key e || clearSince key earlier) && callsCleared earlier

def calledSince (t : Nat) : List (Entry Op Op.Resp Err) → Bool
  | [] => false
  | e :: earlier => sendsRefund key e && earlier.any (fun e => e.thread = t && looksUp key e.op) || calledSince t earlier

end History

def RefundCall.IsFor (call : RefundCall) (restaurantId : Id) (idempotencyKey : String) : Prop :=
  call.claim.restaurantId = restaurantId ∧ call.claim.idempotencyKey = idempotencyKey

/-- The key moves money once: it has one document, one call at a time, made after
the one before was cleared, and all with one key of the provider. -/
structure MovesOnce (restaurantId : Id) (idempotencyKey : String) (c : State) : Prop where
  document : (c.state.refunds.filter fun r => r.restaurantId = restaurantId && r.idempotencyKey = idempotencyKey).length ≤ 1
  outstanding : ∀ t u call call', c.waiting? t = some (.provider (.refundAnswered call)) →
    c.waiting? u = some (.provider (.refundAnswered call')) → call.IsFor restaurantId idempotencyKey →
    call'.IsFor restaurantId idempotencyKey → t = u
  cleared : callsCleared (providerRefundIdempotencyKey restaurantId idempotencyKey) c.history = true
  key : ∀ e ∈ c.history, ∀ call, e.op = .provider (.refundSent call) → call.IsFor restaurantId idempotencyKey →
    call.request.key = providerRefundIdempotencyKey restaurantId idempotencyKey

/-- No request stops midway, and none takes `STALE_REFUND_CLAIM_MS`. -/
def inTime (c : State) : Label Answer Event → Bool
  | .run _ _ => true
  | .stop t => c.threads[t]?.all fun th => !decide th.Running
  | .event (.tick elapsed) => c.threads.all fun th => !decide th.Running ||
      th.born.all fun w => c.state.now + elapsed < w.now + STALE_REFUND_CLAIM_MS
  | .event _ => true

def leasesOnLookup (key : ProviderRefundKey) (c : State) : Label Answer Event → Bool
  | .run t _ =>
    match c.waiting? t with
    | some (.refund (.lease id now _)) => c.state.refunds.all fun r =>
        !(r.id = id && r.status = .pending && r.leaseFree now && r.refundKey = key) || !calledSince key t c.history
    | _ => true
  | _ => true

/-! ## The history -/

section History

variable {key : ProviderRefundKey} {e : Entry Op Op.Resp Err} {history : List (Entry Op Op.Resp Err)} {t : Nat}

theorem looksUp_of_findsNone (h : findsNone key e = true) : looksUp key e.op = true := by
  obtain ⟨u, o, r⟩ := e
  cases o with
  | provider op =>
    cases op with
    | lookupRefund provider payment refundKey refundRef =>
      cases r with
      | error err => cases h
      | ok found =>
        cases found with
        | none => exact h
        | some found => cases h
    | _ => cases h
  | _ => cases h

theorem clearSince_of_lookup (hUncalled : calledSince key t history = false) (hMem : e ∈ history) (hThread : e.thread = t)
    (hNone : findsNone key e = true) : clearSince key history = true := by
  induction history with
  | nil => cases hMem
  | cons newest earlier ih =>
    rw [calledSince, Bool.or_eq_false_iff, Bool.and_eq_false_iff] at hUncalled
    rw [clearSince, Bool.or_eq_true, Bool.or_eq_true]
    rcases List.mem_cons.mp hMem with rfl | hOld
    · exact .inl (.inr hNone)
    · have hLooked : (earlier.any fun e => e.thread = t && looksUp key e.op) = true :=
        List.any_eq_true.mpr ⟨e, hOld, by rw [hThread, looksUp_of_findsNone hNone, decide_eq_true rfl, Bool.and_self]⟩
      have hSends := hUncalled.1.resolve_right fun hNot => by
        rw [hLooked] at hNot
        cases hNot
      exact .inr (by rw [hSends, Bool.not_false, Bool.true_and]; exact ih hUncalled.2 hOld)

theorem clearSince_cons (h : clearSince key history = true) (hSends : sendsRefund key e = false) : clearSince key (e :: history) = true := by
  rw [clearSince, hSends, h, Bool.not_false, Bool.and_self, Bool.or_true]

theorem clearSince_rejected (h : rejectsRefund key e = true) : clearSince key (e :: history) = true := by
  rw [clearSince, h, Bool.true_or, Bool.true_or]

theorem callsCleared_cons (h : callsCleared key history = true) (hClear : sendsRefund key e = true → clearSince key history = true) :
    callsCleared key (e :: history) = true := by
  rw [callsCleared, h, Bool.and_true]
  cases hSends : sendsRefund key e with
  | true =>
    rw [hClear hSends]
    rfl
  | false => rfl

theorem sends_iff {o : Op} {r : Except Err o.Resp} (h : sendsRefund key ⟨t, o, r⟩ = true) :
    ∃ call : RefundCall, o = .provider (.refundSent call) ∧ call.request.key = key := by
  cases o with
  | provider op =>
    cases op with
    | refundSent call => exact ⟨call, rfl, of_decide_eq_true h⟩
    | _ => cases h
  | _ => cases h

end History

/-! ## What an operation does to a refund -/

def RefundOp.leases : RefundOp → Option Id
  | lease id _ _ | unlease id => some id
  | _ => none

/-- A refund that an operation leaves as `r'` in place of `r`. -/
structure Refund.Kept (op : RefundOp) (r r' : Refund) : Prop where
  claim : r'.claim = r.claim
  lease : op.leases ≠ some r.id → r'.reissueLeaseUntil = r.reissueLeaseUntil
  unknown : r'.providerOutcomeUnknown = true → r.providerOutcomeUnknown = true ∨ ∃ claim, op = .setOutcomeUnknown claim ∧ r.id = claim.id
  ref : (∀ ref, op.writtenRef r = some ref → ref ≠ "") → (truthy r.providerRefundRef).isSome = true →
    (truthy r'.providerRefundRef).isSome = true

theorem Refund.Kept.refl {op : RefundOp} {r : Refund} : r.Kept op r := ⟨rfl, fun _ => rfl, .inl, fun _ h => h⟩

theorem truthy_some {ref : String} : (truthy (some ref)).isSome = true ↔ ref ≠ "" := by
  rw [truthy, Option.isSome_filter]
  simp

theorem kept_update {op : RefundOp} {l : List Refund} {sel : Refund → Bool} {f : Refund → Refund} {r' : Refund}
    (hr' : r' ∈ Tables.update sel f l) (h : ∀ r, sel r = true → r.Kept op (f r)) : ∃ r ∈ l, r.Kept op r' := by
  obtain ⟨r, hr, rfl⟩ := Tables.mem_update.mp hr'
  refine ⟨r, hr, ?_⟩
  split
  · rename_i hSel
    exact h r hSel
  · exact .refl

theorem truthy_withDetails {r : Refund} {details : RefundDetails} (h : ∀ ref, details.providerRefundRef = some ref → ref ≠ "")
    (hRef : (truthy r.providerRefundRef).isSome = true) : (truthy (r.withDetails details).providerRefundRef).isSome = true := by
  cases hDetails : details.providerRefundRef with
  | none =>
    simp only [Refund.withDetails, hDetails, Option.none_or]
    exact hRef
  | some ref =>
    simp only [Refund.withDetails, hDetails, Option.some_or]
    exact (truthy_some).mpr (h ref hDetails)

theorem RefundOp.kept_perform (op : RefundOp) (w : World) : ∀ r' ∈ (op.perform w).2.refunds,
    (∃ r ∈ w.refunds, r.Kept op r') ∨ ∃ draft, op = create draft ∧ r' = { draft with id := w.nextId, createdAt := w.now } := by
  intro r' hr'
  have hSame : r' ∈ w.refunds → (∃ r ∈ w.refunds, r.Kept op r') ∨
      ∃ draft, op = create draft ∧ r' = { draft with id := w.nextId, createdAt := w.now } := fun h => .inl ⟨r', h, .refl⟩
  cases op with
  | create draft =>
    simp only [perform] at hr'
    split at hr'
    · exact hSame hr'
    · rcases List.mem_append.mp hr' with hOld | hNew
      · exact hSame hOld
      · exact .inr ⟨draft, rfl, List.mem_singleton.mp hNew⟩
  | deleteUnreserved claim => exact hSame (List.mem_of_mem_filter hr')
  | deleteRefused claim => exact hSame (List.mem_of_mem_filter hr')
  | markReserved claim => exact .inl (kept_update hr' fun r _ => ⟨rfl, fun _ => rfl, .inl, fun _ h => h⟩)
  | setOutcomeUnknown claim =>
    refine .inl (kept_update hr' fun r hSel => ⟨rfl, fun _ => rfl, fun _ => .inr ⟨claim, rfl, ?_⟩, fun _ h => h⟩)
    rw [Bool.and_eq_true, decide_eq_true_eq] at hSel
    exact hSel.1
  | setLookup id time result => exact .inl (kept_update hr' fun r _ => ⟨rfl, fun _ => rfl, .inl, fun _ h => h⟩)
  | unlease id =>
    refine .inl (kept_update hr' fun r hSel => ⟨rfl, fun hNot => ?_, .inl, fun _ h => h⟩)
    exact absurd (congrArg some (of_decide_eq_true hSel).symm) hNot
  | lease id now expiry =>
    simp only [perform] at hr'
    split at hr'
    · exact hSame hr'
    · refine .inl (kept_update hr' fun r hSel => ⟨rfl, fun hNot => ?_, .inl, fun _ h => h⟩)
      rw [Bool.and_eq_true, Bool.and_eq_true, decide_eq_true_eq] at hSel
      exact absurd (congrArg some hSel.1.1.symm) hNot
  | setDetails id details clearUnknown =>
    simp only [perform] at hr'
    split at hr'
    · exact hSame hr'
    · split at hr'
      · exact hSame hr'
      · refine .inl (kept_update hr' fun r hSel => ⟨rfl, fun _ => rfl, fun h => .inl ?_, fun hWritten => truthy_withDetails ?_⟩)
        · rw [Refund.noted, Bool.and_eq_true] at h
          exact h.2
        · rwa [writtenRef, if_pos (of_decide_eq_true hSel)] at hWritten
  | settle s =>
    simp only [perform] at hr'
    split at hr'
    · exact hSame hr'
    · split at hr'
      · exact hSame hr'
      · refine .inl (kept_update hr' fun r hSel => ⟨rfl, fun _ => rfl, fun h => (by cases h), fun hWritten => truthy_withDetails ?_⟩)
        rw [Bool.and_eq_true] at hSel
        rwa [writtenRef, if_pos (of_decide_eq_true hSel.1)] at hWritten
  | _ => exact hSame hr'

theorem Op.kept_perform (o : Op) (a : Answer) (w : World) : ∀ r' ∈ (o.perform a w).2.refunds,
    (∃ r ∈ w.refunds, r' = r ∨ ∃ op, o = .refund op ∧ r.Kept op r') ∨
      ∃ draft, o = .refund (.create draft) ∧ r' = { draft with id := w.nextId, createdAt := w.now } := by
  intro r' hr'
  have hSame : (o.perform a w).2.refunds = w.refunds → (∃ r ∈ w.refunds, r' = r ∨ ∃ op, o = .refund op ∧ r.Kept op r') ∨
      ∃ draft, o = .refund (.create draft) ∧ r' = { draft with id := w.nextId, createdAt := w.now } :=
    fun h => .inl ⟨r', h ▸ hr', .inl rfl⟩
  cases o with
  | refund op =>
    rcases op.kept_perform w r' hr' with ⟨r, hr, hKept⟩ | ⟨draft, rfl, hNew⟩
    · exact .inl ⟨r, hr, .inr ⟨op, rfl, hKept⟩⟩
    · exact .inr ⟨draft, rfl, hNew⟩
  | payment op => exact hSame (op.refunds_perform w).1
  | event op => exact hSame ((congrArg World.refunds (op.perform_fields w)).trans rfl)
  | account op => exact hSame ((congrArg World.refunds (op.perform_fields w)).trans rfl)
  | provider op => exact hSame ((congrArg World.refunds (op.perform_fields a w)).trans rfl)
  | order op => cases op <;> exact hSame rfl
  | _ => exact hSame rfl

theorem Op.now_perform (o : Op) (a : Answer) (w : World) : (o.perform a w).2.now = w.now := by
  cases o with
  | refund op => exact (congrArg World.now (op.perform_fields w)).trans rfl
  | payment op => exact (op.refunds_perform w).2.2.2.2
  | event op => exact (congrArg World.now (op.perform_fields w)).trans rfl
  | account op => exact (congrArg World.now (op.perform_fields w)).trans rfl
  | provider op => exact (congrArg World.now (op.perform_fields a w)).trans rfl
  | order op => cases op <;> rfl
  | _ => rfl

theorem World.Consistent.refund_eq {w : World} {r r' : Refund} (h : w.Consistent) (hr : r ∈ w.refunds) (hr' : r' ∈ w.refunds)
    (hId : r'.id = r.id) : r' = r := by
  have hIds : (w.refunds.map Refund.id).Nodup := by
    have hNodup := h.refundIds
    rwa [World.stakes, List.map_map] at hNodup
  exact Tables.eq_of_id hIds hr' hr hId

theorem World.Consistent.refund_lt {w : World} {r : Refund} (h : w.Consistent) (hr : r ∈ w.refunds) : r.id < w.nextId :=
  (h.sound _ (stake_mem hr)).id_lt

/-! ## Requests in time -/

section Time

variable {requests : List Request} {c c' : State} {pts : List Point} {t : Nat} {a : Answer} {o : Op}
  {th : Thread Op Op.Resp Err World Unit} {k : Except Err o.Resp → Promise Unit} {pt : Point}

def bornAt (c : State) (t : Nat) : Option Time := (c.threads[t]?.bind fun th => th.born).map World.now

/-- The requests that have started are not done for too long. -/
structure Aged (c : State) : Prop where
  past : ∀ th ∈ c.threads, ∀ w, th.born = some w → w.now ≤ c.state.now
  young : ∀ th ∈ c.threads, ∀ w, th.born = some w → th.stopped = false → th.next?.isSome = true →
    c.state.now < w.now + STALE_REFUND_CLAIM_MS
  clean : ∀ th ∈ c.threads, th.stopped = true → th.born = none ∨ th.next?.isSome = false

theorem Aged.run (h : Aged c) (hRan : store.Ran c t a o th k c') : Aged c' := by
  have hMem := List.mem_of_getElem? hRan.thread
  have hNow : c'.state.now = c.state.now := by
    rw [hRan.state]
    exact o.now_perform a c.state
  have hNext : th.next?.isSome = true := by
    rw [Thread.next?, hRan.prog]
    rfl
  have hBorn : ∀ w, some (th.born.getD c.state) = some w → w.now ≤ c.state.now ∧ c.state.now < w.now + STALE_REFUND_CLAIM_MS := by
    intro w hw
    cases hOld : th.born with
    | none =>
      rw [hOld] at hw
      cases hw
      exact ⟨le_refl _, Nat.lt_add_of_pos_right (by decide)⟩
    | some w₀ =>
      rw [hOld] at hw
      cases hw
      exact ⟨h.past th hMem w₀ hOld, h.young th hMem w₀ hOld hRan.running hNext⟩
  refine ⟨?_, ?_, ?_⟩
  · intro thU hU w hw
    rw [hNow]
    rw [hRan.threads] at hU
    rcases List.mem_or_eq_of_mem_set hU with hOld | rfl
    · exact h.past thU hOld w hw
    · exact (hBorn w hw).1
  · intro thU hU w hw hRunning hWaits
    rw [hNow]
    rw [hRan.threads] at hU
    rcases List.mem_or_eq_of_mem_set hU with hOld | rfl
    · exact h.young thU hOld w hw hRunning hWaits
    · exact (hBorn w hw).2
  · intro thU hU hStopped
    rw [hRan.threads] at hU
    rcases List.mem_or_eq_of_mem_set hU with hOld | rfl
    · exact h.clean thU hOld hStopped
    · cases hStopped

theorem Aged.stop (h : Aged c) (hInTime : inTime c (.stop t) = true) (hThread : c.threads[t]? = some th) :
    Aged { c with threads := c.threads.set t { th with stopped := true } } := by
  have hMem := List.mem_of_getElem? hThread
  refine ⟨?_, ?_, ?_⟩
  · intro thU hU w hw
    rcases List.mem_or_eq_of_mem_set hU with hOld | rfl
    · exact h.past thU hOld w hw
    · exact h.past th hMem w hw
  · intro thU hU w hw hRunning hWaits
    rcases List.mem_or_eq_of_mem_set hU with hOld | rfl
    · exact h.young thU hOld w hw hRunning hWaits
    · cases hRunning
  · intro thU hU hStopped
    rcases List.mem_or_eq_of_mem_set hU with hOld | rfl
    · exact h.clean thU hOld hStopped
    · cases hWas : th.stopped with
      | true => exact h.clean th hMem hWas
      | false =>
        simp only [inTime, hThread, Option.all_some, Bool.not_eq_true', decide_eq_false_iff_not, Thread.Running, hWas, true_and,
          not_and_or, Bool.not_eq_true, Option.isSome_eq_false_iff, Option.isNone_iff_eq_none] at hInTime
        exact hInTime.imp_right fun hDone => (Option.isSome_eq_false_iff.mpr (Option.isNone_iff_eq_none.mpr hDone))

theorem Aged.event {e : Event} (h : Aged c) (hInTime : inTime c (.event e) = true) : Aged { c with state := store.advance e c.state } := by
  cases e with
  | tick elapsed =>
    refine ⟨fun th hMem w hw => (h.past th hMem w hw).trans (Nat.le_add_right _ _), fun th hMem w hw hRunning hWaits => ?_, h.clean⟩
    have hThread := List.all_eq_true.mp hInTime th hMem
    have hMidway : th.Running := ⟨hRunning, by rw [hw]; rfl, hWaits⟩
    rw [decide_eq_true hMidway, hw, Bool.not_true, Bool.false_or, Option.all_some] at hThread
    exact of_decide_eq_true hThread
  | update key status => exact ⟨h.past, h.young, h.clean⟩
  | process index status =>
    have hNow : (Event.process index status |>.advance c.state).now = c.state.now := by
      simp only [Event.advance]
      split <;> rfl
    refine ⟨fun th hMem w hw => ?_, fun th hMem w hw hRunning hWaits => ?_, h.clean⟩
    · rw [hNow]
      exact h.past th hMem w hw
    · rw [hNow]
      exact h.young th hMem w hw hRunning hWaits

theorem Aged.of_point (h : Aged c) (hT : Tracks store protocol (requests.map fun _ => {}) c pts) (hPoint : pts[t]? = some pt)
    (hMidway : ¬ pt.Ended) : ∃ b, bornAt c t = some b ∧ b ≤ c.state.now ∧ c.state.now < b + STALE_REFUND_CLAIM_MS := by
  obtain ⟨th, hThread⟩ := hT.thread_exists hPoint
  have hMem := List.mem_of_getElem? hThread
  have hNext : th.next?.isSome = true := by
    rw [← Bool.not_eq_false]
    exact fun hEnded => hMidway (hT.rest_of_ended hThread hPoint hEnded)
  cases hBorn : th.born with
  | none =>
    have hStart := hT.unborn hThread hBorn
    rw [hPoint, List.getElem?_map] at hStart
    obtain ⟨_, -, hEq⟩ := Option.map_eq_some_iff.mp hStart.symm
    exact absurd (hEq ▸ ⟨rfl, rfl⟩) hMidway
  | some w =>
    have hRunning : th.stopped = false := by
      rw [← Bool.not_eq_true]
      intro hStopped
      rcases h.clean th hMem hStopped with hNone | hDone
      · rw [hBorn] at hNone
        cases hNone
      · rw [hNext] at hDone
        cases hDone
    refine ⟨w.now, ?_, h.past th hMem w hBorn, h.young th hMem w hBorn hRunning hNext⟩
    rw [bornAt, hThread, Option.bind_some, hBorn]
    rfl

theorem bornAt_of_point (hT : Tracks store protocol (requests.map fun _ => {}) c pts) (hPoint : pts[t]? = some pt) (hNe : pt ≠ {}) :
    ∃ b, bornAt c t = some b := by
  obtain ⟨th, hThread⟩ := hT.thread_exists hPoint
  cases hBorn : th.born with
  | none =>
    have hStart := hT.unborn hThread hBorn
    rw [hPoint, List.getElem?_map] at hStart
    obtain ⟨_, -, hEq⟩ := Option.map_eq_some_iff.mp hStart.symm
    exact absurd hEq.symm hNe
  | some w =>
    refine ⟨w.now, ?_⟩
    rw [bornAt, hThread, Option.bind_some, hBorn]
    rfl

theorem Aged.bornAt_ran (h : Aged c) (hRan : store.Ran c t a o th k c') :
    ∃ b, bornAt c' t = some b ∧ b ≤ c.state.now ∧ ∀ b₀, bornAt c t = some b₀ → b = b₀ := by
  refine ⟨(th.born.getD c.state).now, ?_, ?_, ?_⟩
  · rw [bornAt, hRan.threads, Tables.getElem?_set_eq hRan.thread]
    rfl
  · cases hBorn : th.born with
    | none => exact le_refl _
    | some w => exact h.past th (List.mem_of_getElem? hRan.thread) w hBorn
  · intro b₀ hb
    rw [bornAt, hRan.thread, Option.bind_some] at hb
    obtain ⟨w, hBorn, rfl⟩ := Option.map_eq_some_iff.mp hb
    rw [hBorn]
    rfl

theorem bornAt_other {u : Nat} (hRan : store.Ran c t a o th k c') (hNe : u ≠ t) : bornAt c' u = bornAt c u := by
  rw [bornAt, hRan.threads, List.getElem?_set_ne hNe.symm]
  rfl

end Time

/-! ## Who may call -/

def NoOwner (pts : List Point) (id : Id) : Prop := ∀ pu ∈ pts, pu.phase.owner ≠ some id

def World.RefKept (w : World) (id : Id) : Prop := ∀ r ∈ w.refunds, r.id = id → (truthy r.providerRefundRef).isSome = true

def Phase.Clear (w : World) (pts : List Point) : Phase → Prop
  | seen r => (r.providerOutcomeUnknown = true → NoOwner pts r.id) ∧ ((truthy r.providerRefundRef).isSome = true → w.RefKept r.id)
  | held r | missing r => w.RefKept r.id ∨ NoOwner pts r.id
  | fresh r latest | leasing r latest _ => (truthy latest.providerRefundRef).isNone = true → NoOwner pts r.id
  | ready call | calling call => call.reissue = true → NoOwner pts call.claim.id
  | unanswered call => NoOwner pts call.claim.id
  | _ => True

def Phase.missed : Phase → Option Refund
  | missing r | fresh r _ | leasing r _ _ => some r
  | _ => none

def Phase.uncalled : Phase → Option Refund
  | claimed claim | unreserved claim | reserved claim => some claim
  | ready call | refused call | released call => some call.claim
  | _ => none

section Moves

variable {o : Op} {a : Answer} {w : World} {pts : List Point} {t : Nat} {pt pt' : Point} {id : Id} {ph : Phase} {r : Refund}

theorem NoOwner.move (h : NoOwner pts id) (hMem : pt ∈ pts) (hMove : Move o a w pt pt') (hLt : id < w.nextId) :
    NoOwner (pts.set t pt') id := by
  intro pu hu hOwner
  rcases List.mem_or_eq_of_mem_set hu with hOld | rfl
  · exact h pu hOld hOwner
  · rcases hMove.owner hOwner with hBefore | ⟨s, hs, rfl⟩
    · exact h pt hMem hBefore
    · obtain ⟨_, -, hOpens⟩ := hMove.born hs
      exact absurd hOpens.id_eq (Nat.ne_of_lt hLt)

theorem Move.writtenRef {op : RefundOp} {ref : String} (h : Move (.refund op) a w pt pt') (hRef : op.writtenRef r = some ref) :
    ref ≠ "" ∨ (op.perform w).2.refunds = w.refunds := by
  have hDetails : ∀ {current : Refund} {report : RefundReport}, (reportDetails current report).providerRefundRef = some ref → ref ≠ "" := by
    intro current report hSome
    simp only [reportDetails] at hSome
    split at hSome
    · exact of_decide_eq_true (Option.filter_eq_some_iff.mp hSome).2
    · cases hSome
  cases h with
  | note =>
    simp only [RefundOp.writtenRef] at hRef
    split at hRef
    · exact .inl (hDetails hRef)
    · cases hRef
  | settle _ _ _ hOwn =>
    simp only [RefundOp.writtenRef] at hRef
    split at hRef
    · rw [hOwn] at hRef
      exact .inl (hDetails hRef)
    · cases hRef
  | settleLost _ hFind => exact .inr (congrArg World.refunds (RefundOp.settleLost_perform hFind))
  | quiet ho | rest ho => cases op <;> first | cases hRef | cases ho
  | see _ hRead => cases hRead <;> cases hRef
  | _ => cases hRef

theorem World.RefKept.move (h : w.RefKept id) (hMove : Move o a w pt pt') (hLt : id < w.nextId) : (o.perform a w).2.RefKept id := by
  intro r' hr' hId
  rcases o.kept_perform a w r' hr' with ⟨r, hr, rfl | ⟨op, rfl, hKept⟩⟩ | ⟨draft, rfl, rfl⟩
  · exact h r' hr hId
  · by_cases hSame : (op.perform w).2.refunds = w.refunds
    · have hOld : r' ∈ (op.perform w).2.refunds := hr'
      rw [hSame] at hOld
      exact h r' hOld hId
    · exact hKept.ref (fun ref hRef => (hMove.writtenRef hRef).resolve_right hSame)
        (h r hr ((congrArg Claim.id hKept.claim).symm.trans hId))
  · exact absurd hId (Nat.ne_of_gt hLt)

theorem Phase.Clear.move (h : ph.Clear w pts) (hMem : pt ∈ pts) (hMove : Move o a w pt pt') (hKnows : ∀ r ∈ ph.copies, w.Knows r.claim) :
    ph.Clear (o.perform a w).2 (pts.set t pt') := by
  have hNoOwner : ∀ {r : Refund}, r ∈ ph.copies → NoOwner pts r.id → NoOwner (pts.set t pt') r.id :=
    fun hr hNone => hNone.move hMem hMove (hKnows _ hr).sound.id_lt
  have hRefKept : ∀ {r : Refund}, r ∈ ph.copies → w.RefKept r.id → (o.perform a w).2.RefKept r.id :=
    fun hr hKept => hKept.move hMove (hKnows _ hr).sound.id_lt
  cases ph with
  | seen r =>
    exact ⟨fun hUnknown => hNoOwner (List.mem_singleton_self _) (h.1 hUnknown), fun hRef => hRefKept (List.mem_singleton_self _) (h.2 hRef)⟩
  | held r | missing r => exact h.imp (hRefKept (List.mem_singleton_self _)) (hNoOwner (List.mem_singleton_self _))
  | fresh r latest | leasing r latest now => exact fun hNone => hNoOwner List.mem_cons_self (h hNone)
  | ready call | calling call => exact fun hReissue => hNoOwner (List.mem_singleton_self _) (h hReissue)
  | unanswered call => exact hNoOwner (List.mem_singleton_self _) h
  | _ => trivial

structure Leases (w : World) (pt pt' : Point) (op : RefundOp) (id : Id) : Prop where
  had : pt.lease = none
  has : pt'.lease = some id
  taken : ∃ now refund latest stored, op = .lease id now (now + STALE_REFUND_CLAIM_MS) ∧ pt.phase = .leasing refund latest now ∧
    w.refunds.find? (fun r => r.id = id && r.status = .pending && r.leaseFree now) = some stored

theorem Move.leases {op : RefundOp} (h : Move (.refund op) a w pt pt') (hLeases : op.leases = some id) :
    (op.perform w).2.refunds = w.refunds ∨ (pt.lease = some id ∧ pt'.lease = none) ∨ Leases w pt pt' op id := by
  cases h with
  | @lease _ _ refund latest now stored _ _ _ _ _ hFind =>
    cases hLeases
    have hSel := List.find?_some hFind
    simp only [Bool.and_eq_true, decide_eq_true_eq] at hSel
    exact .inr (.inr ⟨rfl, congrArg some hSel.1.1, now, refund, latest, stored, rfl, rfl, hFind⟩)
  | leaseTaken hFind =>
    refine .inl ?_
    simp only [RefundOp.perform, hFind]
  | unlease =>
    cases hLeases
    exact .inr (.inl ⟨rfl, rfl⟩)
  | quiet ho | rest ho =>
    cases op with
    | lease | unlease => cases ho
    | _ => cases hLeases
  | see _ hRead => cases hRead <;> cases hLeases
  | _ => cases hLeases

theorem Move.lease_cases (h : Move o a w pt pt') (hLease : pt'.lease = some id) :
    pt.lease = some id ∨ ∃ op, o = .refund op ∧ op.leases = some id ∧ Leases w pt pt' op id := by
  induction h with
  | @lease _ _ refund latest now stored _ _ _ _ _ hFind =>
    cases hLease
    have hSel := List.find?_some hFind
    simp only [Bool.and_eq_true, decide_eq_true_eq] at hSel
    exact .inr ⟨_, rfl, congrArg some hSel.1.1.symm, rfl, rfl, now, refund, latest, stored, by rw [hSel.1.1], rfl, by rw [hSel.1.1]; exact hFind⟩
  | unlease => cases hLease
  | _ => exact .inl hLease

theorem Move.reissuing (h : Move o a w pt pt') (hReissues : pt'.phase.reissues = some id) :
    pt'.lease = some id ∨ (pt.phase.reissues = some id ∧ pt'.lease = pt.lease) := by
  induction h with
  | quiet | setLookup | send => exact .inr ⟨hReissues, rfl⟩
  | lease => exact .inl hReissues
  | _ => cases hReissues

theorem Move.leasing {latest : Refund} {now : Time} (h : Move o a w pt pt') (hPhase : pt'.phase = .leasing r latest now) :
    pt.phase = .leasing r latest now ∨ now = w.now := by
  induction h with
  | quiet | setLookup => exact .inl hPhase
  | clock =>
    cases hPhase
    exact .inr rfl
  | _ => cases hPhase

theorem Move.owned (h : Move o a w pt pt') (hOwner : pt'.phase.owner = some id) (hWorking : pt'.phase.working = some r) :
    (pt.phase.owner = some id ∧ ∃ r₀, pt.phase.working = some r₀ ∧ r₀.claim = r.claim) ∨ r.createdAt = w.now := by
  induction h with
  | quiet _ hph | setLookup hph =>
    rw [Phase.owner_calm hph] at hOwner
    cases hOwner
  | reserve | reserveRefused | mark | send | refused | release =>
    cases hWorking
    exact .inl ⟨hOwner, _, rfl, rfl⟩
  | claim =>
    cases hWorking
    exact .inr rfl
  | _ => cases hOwner

theorem Move.of_setUnknown {claim : Refund} (h : Move (.refund (.setOutcomeUnknown claim)) a w pt pt') :
    ∃ call, pt.phase = .unanswered call ∧ call.claim = claim := by
  cases h with
  | setUnknown => exact ⟨_, rfl, rfl⟩
  | quiet ho | rest ho => cases ho
  | see _ hRead => cases hRead

theorem Move.of_create {draft : Refund} (h : Move (.refund (.create draft)) a w pt pt') :
    draft.IsDraft ∨ ((RefundOp.create draft).perform w).2.refunds = w.refunds := by
  cases h with
  | claim hDraft => exact .inl hDraft
  | keyTaken _ hTaken => exact .inr (by simp only [RefundOp.perform, hTaken, if_true])
  | quiet ho | rest ho => cases ho
  | see _ hRead => cases hRead

end Moves

/-! ## The requests of a refund -/

section Runs

variable {requests : List Request} {c c' : State} {pts : List Point} {t u : Nat} {a : Answer} {o : Op}
  {th : Thread Op Op.Resp Err World Unit} {k : Except Err o.Resp → Promise Unit} {pt pt' pu : Point} {id : Id} {r r' : Refund}
  {key : ProviderRefundKey}

structure Single (c : State) (pts : List Point) : Prop where
  ordered : Ordered c.state pts
  aged : Aged c
  stored : ∀ pt ∈ pts, ∀ r, pt.phase.working = some r → c.state.Stored r
  owned : ∀ {t : Nat} {pt : Point} {id : Id} {r : Refund} {b : Time}, pts[t]? = some pt → pt.phase.owner = some id →
    pt.phase.working = some r → bornAt c t = some b → b ≤ r.createdAt
  unknown : ∀ r ∈ c.state.refunds, r.providerOutcomeUnknown = true → NoOwner pts r.id
  clear : ∀ pt ∈ pts, pt.phase.Clear c.state pts
  clocked : ∀ {t : Nat} {pt : Point} {r latest : Refund} {now b : Time}, pts[t]? = some pt → pt.phase = .leasing r latest now →
    bornAt c t = some b → b ≤ now ∧ now ≤ c.state.now
  lease_lt : ∀ pt ∈ pts, ∀ id, pt.lease = some id → id < c.state.nextId
  leased : ∀ {t : Nat} {pt : Point} {id : Id} {b : Time}, pts[t]? = some pt → pt.lease = some id → bornAt c t = some b →
    ∀ r ∈ c.state.refunds, r.id = id → ∃ expiry, r.reissueLeaseUntil = some expiry ∧ b + STALE_REFUND_CLAIM_MS ≤ expiry
  oneLease : ∀ {t u : Nat} {pt pu : Point} {id : Id}, pts[t]? = some pt → pts[u]? = some pu → pt.lease = some id →
    pu.lease = some id → t = u
  reissuing : ∀ pt ∈ pts, ∀ id, pt.phase.reissues = some id → pt.lease = some id

theorem Single.no_owner (h : Single c pts) (hMem : pt ∈ pts) (hReissues : pt.phase.reissues = some id) : NoOwner pts id := by
  have hClear := h.clear pt hMem
  generalize pt.phase = ph at hReissues hClear
  cases ph with
  | ready call | calling call =>
    simp only [Phase.reissues] at hReissues
    split at hReissues
    · rename_i hReissue
      cases hReissues
      exact hClear hReissue
    · cases hReissues
  | _ => cases hReissues

theorem Single.working_unique (h : Single c pts) (hT : pts[t]? = some pt) (hU : pts[u]? = some pu) (hWorking : pt.phase.working = some r)
    (hWorking' : pu.phase.working = some r') (hKey : r'.refundKey = r.refundKey) : t = u := by
  have hMemT := List.mem_of_getElem? hT
  have hMemU := List.mem_of_getElem? hU
  have hId : r'.id = r.id := by
    by_contra hNe
    exact h.ordered.consistent.key_ne (h.stored pt hMemT r hWorking) (h.stored pu hMemU r' hWorking') hNe hKey
  rcases Phase.working_cases hWorking (h.ordered.fits pt hMemT) with hOwner | hReissues
  · rcases Phase.working_cases hWorking' (h.ordered.fits pu hMemU) with hOwner' | hReissues'
    · exact h.ordered.owners hT hU hOwner (hId ▸ hOwner')
    · exact absurd hOwner (hId ▸ h.no_owner hMemU hReissues' pt hMemT)
  · rcases Phase.working_cases hWorking' (h.ordered.fits pu hMemU) with hOwner' | hReissues'
    · exact absurd hOwner' (hId ▸ h.no_owner hMemT hReissues pu hMemU)
    · exact h.oneLease hT hU (h.reissuing pt hMemT _ hReissues) (hId ▸ h.reissuing pu hMemU _ hReissues')

theorem Single.stored_ran (h : Single c pts) (hPoint : pts[t]? = some pt) (hMove : Move o a c.state pt pt') :
    ∀ pu ∈ pts.set t pt', ∀ r, pu.phase.working = some r → (o.perform a c.state).2.Stored r := by
  have hMem := List.mem_of_getElem? hPoint
  have hStays : ∀ {s s' : Stake} {r : Refund}, s ∈ c.state.stakes → s.claim = r.claim → (o.edit c.state).on s = some s' →
      (o.perform a c.state).2.Stored r := by
    intro s s' r hs hClaim hOn
    refine ⟨s', ?_, (Edit.on_claim hOn).trans hClaim⟩
    rw [o.stakes_perform, Edit.mem_apply]
    exact .inl ⟨s, hs, hOn⟩
  intro pu hu r hWorking
  obtain ⟨u, hU⟩ := List.mem_iff_getElem?.mp hu
  rcases Tables.getElem?_set_cases hU with ⟨rfl, rfl⟩ | ⟨hNe, hU⟩
  · rcases hMove.working hWorking with ⟨r₀, hOld, hClaim, hOn⟩ | ⟨r₀, hr₀, hClaim, hKeep⟩ | ⟨s, hs, hClaim⟩
    · obtain ⟨s, hs, hEq⟩ := h.stored pt hMem r₀ hOld
      obtain ⟨s', hOn⟩ := Option.ne_none_iff_exists'.mp (hOn s)
      exact hStays hs (hEq.trans hClaim) hOn
    · exact hStays (stake_mem hr₀) hClaim (by rw [hKeep]; rfl)
    · refine ⟨s, ?_, hClaim⟩
      rw [o.stakes_perform, Edit.mem_apply]
      exact .inr hs
  · obtain ⟨s, hs, hClaim⟩ := h.stored pu (List.mem_of_getElem? hU) r hWorking
    cases hOn : (o.edit c.state).on s with
    | some s' => exact hStays hs hClaim hOn
    | none =>
      -- the document is deleted by the request that claimed it
      obtain ⟨r', hId, hWorking', -, -⟩ := hMove.dropped hOn
      obtain ⟨s', hs', hClaim'⟩ := h.stored pt hMem r' hWorking'
      have hSame : s' = s := Tables.eq_of_id h.ordered.consistent.refundIds hs' hs (by rw [hClaim']; exact hId)
      rw [hSame, hClaim] at hClaim'
      exact absurd (h.working_unique hPoint hU hWorking' hWorking (congrArg Claim.key hClaim')) (Ne.symm hNe)

theorem Single.unknown_ran (h : Single c pts) (hPoint : pts[t]? = some pt) (hMove : Move o a c.state pt pt') :
    ∀ r' ∈ (o.perform a c.state).2.refunds, r'.providerOutcomeUnknown = true → NoOwner (pts.set t pt') r'.id := by
  have hMem := List.mem_of_getElem? hPoint
  have hStays : ∀ r ∈ c.state.refunds, NoOwner pts r.id → NoOwner (pts.set t pt') r.id := fun r hr hNone =>
    hNone.move hMem hMove (h.ordered.consistent.refund_lt hr)
  intro r' hr' hUnknown
  rcases o.kept_perform a c.state r' hr' with ⟨r, hr, rfl | ⟨op, rfl, hKept⟩⟩ | ⟨draft, rfl, rfl⟩
  · exact hStays r' hr (h.unknown r' hr hUnknown)
  · have hId : r'.id = r.id := congrArg Claim.id hKept.claim
    rw [hId]
    refine hStays r hr ?_
    rcases hKept.unknown hUnknown with hOld | ⟨claim, rfl, hClaim⟩
    · exact h.unknown r hr hOld
    · obtain ⟨call, hPhase, rfl⟩ := hMove.of_setUnknown
      have hClear := h.clear pt hMem
      rw [hPhase] at hClear
      rw [hClaim]
      exact hClear
  · rcases hMove.of_create with hDraft | hSame
    · have hKnown : draft.providerOutcomeUnknown = true := hUnknown
      rw [hDraft.providerOutcomeUnknown] at hKnown
      cases hKnown
    · have hOld : _ ∈ ((RefundOp.create draft).perform c.state).2.refunds := hr'
      rw [hSame] at hOld
      exact absurd (h.ordered.consistent.refund_lt hOld) (Nat.lt_irrefl _)

theorem Phase.working_of_owner (h : pt.phase.owner = some id) : ∃ r, pt.phase.working = some r ∧ r.id = id := by
  generalize pt.phase = ph at h
  cases ph with
  | claimed claim | unreserved claim | reserved claim =>
    cases h
    exact ⟨claim, rfl, rfl⟩
  | ready call | calling call | refused call | released call =>
    simp only [Phase.owner] at h
    split at h
    · cases h
    · cases h
      exact ⟨call.claim, rfl, rfl⟩
  | _ => cases h

theorem Single.no_owner_stale (h : Single c pts) (hT : Tracks store protocol (requests.map fun _ => {}) c pts)
    (hKnows : c.state.Knows r.claim) (hStale : c.state.now > r.createdAt + STALE_REFUND_CLAIM_MS) : NoOwner pts r.id := by
  intro pu hu hOwner
  obtain ⟨u, hU⟩ := List.mem_iff_getElem?.mp hu
  have hMidway : ¬ pu.Ended := fun hEnded => by
    rw [Phase.owner_calm hEnded.2] at hOwner
    cases hOwner
  obtain ⟨b, hBorn, -, hYoung⟩ := h.aged.of_point hT hU hMidway
  obtain ⟨r', hWorking, hId⟩ := Phase.working_of_owner hOwner
  have hOld := h.owned hU hOwner hWorking hBorn
  obtain ⟨s, hs, hClaim⟩ := h.stored pu hu r' hWorking
  have hSame : r'.claim = r.claim := hClaim.symm.trans (hKnows.eq_of_id s hs (by rw [hClaim]; exact hId))
  have hCreated : r'.createdAt = r.createdAt := congrArg Claim.createdAt hSame
  rw [hCreated] at hOld
  exact absurd (hStale.trans hYoung) (Nat.not_lt.mpr (Nat.add_le_add_right hOld _))

theorem Single.clear_ran (h : Single c pts) (hT : Tracks store protocol (requests.map fun _ => {}) c pts)
    (hPoint : pts[t]? = some pt) (hMove : Move o a c.state pt pt') :
    ∀ pu ∈ pts.set t pt', pu.phase.Clear (o.perform a c.state).2 (pts.set t pt') := by
  have hMem := List.mem_of_getElem? hPoint
  have hKept : pt.phase.Clear (o.perform a c.state).2 (pts.set t pt') :=
    (h.clear pt hMem).move hMem hMove (h.ordered.knows pt hMem)
  intro pu hu
  rcases List.mem_or_eq_of_mem_set hu with hOld | rfl
  · exact (h.clear pu hOld).move hMem hMove (h.ordered.knows pu hOld)
  · have hFits := h.ordered.fits pt hMem
    have hKnows := h.ordered.knows pt hMem
    have hStep := hMove
    cases hMove with
    | quiet | setLookup | missing | clock | send => exact hKept
    | @see _ _ _ _ _ refund hph hRead =>
      have hRefund := hRead.mem
      have hBefore : (Phase.seen refund).Clear c.state pts := by
        refine ⟨h.unknown refund hRefund, fun hRef r hr hId => ?_⟩
        rw [h.ordered.consistent.refund_eq hRefund hr hId]
        exact hRef
      have hCopies : ∀ r ∈ (Phase.seen refund).copies, c.state.Knows r.claim := by
        intro r hr
        rw [List.mem_singleton.mp hr]
        exact h.ordered.consistent.knows_refund hRefund
      exact hBefore.move hMem hStep hCopies
    | @hold _ _ _ refund hOpen =>
      rcases hOpen.2 with hHeld | hRef
      · simp only [isHeld, decide_eq_true_eq] at hHeld
        rcases hHeld.2 with hUnknown | ⟨-, hStale⟩
        · exact .inr (hKept.1 hUnknown)
        · exact .inr ((h.no_owner_stale hT (hKnows refund (List.mem_singleton_self _)) hStale).move hMem hStep
            (hKnows refund (List.mem_singleton_self _)).sound.id_lt)
      · exact .inl (hKept.2 hRef)
    | @fresh _ _ _ refund latest hFind =>
      intro hNone
      rcases hKept with hRefKept | hNoOwner
      · have hId := List.find?_some hFind
        rw [decide_eq_true_eq] at hId
        have hRef := hRefKept latest (List.mem_of_find?_eq_some hFind) hId
        rw [Option.isNone_iff_eq_none.mp hNone] at hRef
        cases hRef
      · exact hNoOwner
    | @lease _ _ refund latest _ stored _ _ hRef _ _ hFind =>
      intro _
      have hSel := List.find?_some hFind
      simp only [Bool.and_eq_true, decide_eq_true_eq] at hSel
      have hId : stored.id = refund.id := hSel.1.1.trans hFits
      have hNone := hKept hRef
      rw [← hId] at hNone
      exact hNone
    | mark => exact fun hReissue => by cases hReissue
    | @unanswered call _ _ _ _ hAnswer hRejected =>
      cases hReissue : call.reissue with
      | true => exact hKept hReissue
      | false =>
        intro pv hv hOwner
        obtain ⟨v, hV⟩ := List.mem_iff_getElem?.mp hv
        rcases Tables.getElem?_set_cases hV with ⟨rfl, rfl⟩ | ⟨hNe, hV⟩
        · cases hOwner
        · exact hNe (h.ordered.owners hV hPoint hOwner (if_neg (by rw [hReissue]; exact Bool.false_ne_true)))
    | _ => trivial

theorem Single.owned_ran (h : Single c pts) (hT : Tracks store protocol (requests.map fun _ => {}) c pts) (hRan : store.Ran c t a o th k c')
    (hPoint : pts[t]? = some pt) (hMove : Move o a c.state pt pt') {b : Time} (hU : (pts.set t pt')[u]? = some pu)
    (hOwner : pu.phase.owner = some id) (hWorking : pu.phase.working = some r) (hBorn : bornAt c' u = some b) : b ≤ r.createdAt := by
  rcases Tables.getElem?_set_cases hU with ⟨rfl, rfl⟩ | ⟨hNe, hU⟩
  · obtain ⟨b', hBorn', hPast, hSame⟩ := h.aged.bornAt_ran hRan
    rw [hBorn] at hBorn'
    cases hBorn'
    rcases hMove.owned hOwner hWorking with ⟨hOwner₀, r₀, hWorking₀, hClaim⟩ | hNow
    · obtain ⟨b₀, hBorn₀⟩ := bornAt_of_point hT hPoint fun hStart => by
        rw [hStart] at hOwner₀
        cases hOwner₀
      have hOld := h.owned hPoint hOwner₀ hWorking₀ hBorn₀
      rw [hSame b₀ hBorn₀]
      exact hOld.trans_eq (congrArg Claim.createdAt hClaim)
    · exact hPast.trans_eq hNow.symm
  · rw [bornAt_other hRan hNe] at hBorn
    exact h.owned hU hOwner hWorking hBorn

theorem Single.clocked_ran (h : Single c pts) (hT : Tracks store protocol (requests.map fun _ => {}) c pts) (hRan : store.Ran c t a o th k c')
    (hPoint : pts[t]? = some pt) (hMove : Move o a c.state pt pt') {latest : Refund} {now b : Time} (hU : (pts.set t pt')[u]? = some pu)
    (hPhase : pu.phase = .leasing r latest now) (hBorn : bornAt c' u = some b) : b ≤ now ∧ now ≤ c'.state.now := by
  rw [hRan.state, o.now_perform]
  rcases Tables.getElem?_set_cases hU with ⟨rfl, rfl⟩ | ⟨hNe, hU⟩
  · obtain ⟨b', hBorn', hPast, hSame⟩ := h.aged.bornAt_ran hRan
    rw [hBorn] at hBorn'
    cases hBorn'
    rcases hMove.leasing hPhase with hPhase₀ | rfl
    · obtain ⟨b₀, hBorn₀⟩ := bornAt_of_point hT hPoint fun hStart => by
        rw [hStart] at hPhase₀
        cases hPhase₀
      rw [hSame b₀ hBorn₀]
      exact h.clocked hPoint hPhase₀ hBorn₀
    · exact ⟨hPast, le_refl _⟩
  · rw [bornAt_other hRan hNe] at hBorn
    exact h.clocked hU hPhase hBorn

theorem Single.lease_alone {op : RefundOp} (h : Single c pts) (hT : Tracks store protocol (requests.map fun _ => {}) c pts)
    (hPoint : pts[t]? = some pt) (hLeases : Leases c.state pt pt' op id) (hU : pts[u]? = some pu) : pu.lease ≠ some id := by
  intro hLease
  obtain ⟨now, refund, latest, stored, -, hPhase, hFind⟩ := hLeases.taken
  obtain ⟨b, hBorn, -, hYoung⟩ := h.aged.of_point hT hU fun hEnded => by
    rw [hEnded.1] at hLease
    cases hLease
  obtain ⟨b', hBorn'⟩ := bornAt_of_point hT hPoint fun hStart => by
    rw [hStart] at hPhase
    cases hPhase
  have hSel := List.find?_some hFind
  rw [Bool.and_eq_true, Bool.and_eq_true, decide_eq_true_eq] at hSel
  obtain ⟨expiry, hExpiry, hLate⟩ := h.leased hU hLease hBorn stored (List.mem_of_find?_eq_some hFind) hSel.1.1
  have hFree : expiry < now := by
    have hFree := hSel.2
    rw [Refund.leaseFree, hExpiry] at hFree
    exact of_decide_eq_true hFree
  exact absurd ((hFree.trans_le (h.clocked hPoint hPhase hBorn').2).trans hYoung) (Nat.not_lt.mpr hLate)

theorem Single.lease_lt_ran (h : Single c pts) (hPoint : pts[t]? = some pt) (hMove : Move o a c.state pt pt') :
    ∀ pu ∈ pts.set t pt', ∀ id, pu.lease = some id → id < (o.perform a c.state).2.nextId := by
  intro pu hu id hLease
  refine Nat.lt_of_lt_of_le ?_ (o.nextId_le a c.state)
  rcases List.mem_or_eq_of_mem_set hu with hOld | rfl
  · exact h.lease_lt pu hOld id hLease
  · rcases hMove.lease_cases hLease with hHeld | ⟨op, -, -, hLeases⟩
    · exact h.lease_lt pt (List.mem_of_getElem? hPoint) id hHeld
    · obtain ⟨now, refund, latest, stored, -, -, hFind⟩ := hLeases.taken
      have hSel := List.find?_some hFind
      rw [Bool.and_eq_true, Bool.and_eq_true, decide_eq_true_eq] at hSel
      exact hSel.1.1 ▸ h.ordered.consistent.refund_lt (List.mem_of_find?_eq_some hFind)

theorem Single.oneLease_ran (h : Single c pts) (hT : Tracks store protocol (requests.map fun _ => {}) c pts)
    (hPoint : pts[t]? = some pt) (hMove : Move o a c.state pt pt') {v : Nat} {pv : Point} (hU : (pts.set t pt')[u]? = some pu)
    (hV : (pts.set t pt')[v]? = some pv) (hLeaseU : pu.lease = some id) (hLeaseV : pv.lease = some id) : u = v := by
  rcases Tables.getElem?_set_cases hU with ⟨rfl, rfl⟩ | ⟨-, hU₀⟩
  · rcases Tables.getElem?_set_cases hV with ⟨rfl, rfl⟩ | ⟨-, hV⟩
    · rfl
    · rcases hMove.lease_cases hLeaseU with hHeld | ⟨op, -, -, hLeases⟩
      · exact h.oneLease hPoint hV hHeld hLeaseV
      · exact absurd hLeaseV (h.lease_alone hT hPoint hLeases hV)
  · rcases Tables.getElem?_set_cases hV with ⟨rfl, rfl⟩ | ⟨-, hV⟩
    · rcases hMove.lease_cases hLeaseV with hHeld | ⟨op, -, -, hLeases⟩
      · exact h.oneLease hU₀ hPoint hLeaseU hHeld
      · exact absurd hLeaseU (h.lease_alone hT hPoint hLeases hU₀)
    · exact h.oneLease hU₀ hV hLeaseU hLeaseV

theorem Single.reissuing_ran (h : Single c pts) (hPoint : pts[t]? = some pt) (hMove : Move o a c.state pt pt') :
    ∀ pu ∈ pts.set t pt', ∀ id, pu.phase.reissues = some id → pu.lease = some id := by
  intro pu hu id hReissues
  rcases List.mem_or_eq_of_mem_set hu with hOld | rfl
  · exact h.reissuing pu hOld id hReissues
  · rcases hMove.reissuing hReissues with hLease | ⟨hBefore, hSame⟩
    · exact hLease
    · rw [hSame]
      exact h.reissuing pt (List.mem_of_getElem? hPoint) id hBefore

theorem Single.lease_kept (h : Single c pts) (hHeld : pu.lease = some id) (hMem : pu ∈ pts)
    (hOther : ∀ op, o = .refund op → op.leases = some id → (op.perform c.state).2.refunds = c.state.refunds) :
    ∀ r' ∈ (o.perform a c.state).2.refunds, r'.id = id →
      ∃ r ∈ c.state.refunds, r.id = id ∧ r'.reissueLeaseUntil = r.reissueLeaseUntil := by
  intro r' hr' hId
  rcases o.kept_perform a c.state r' hr' with ⟨r, hr, rfl | ⟨op, rfl, hKept⟩⟩ | ⟨draft, rfl, rfl⟩
  · exact ⟨r', hr, hId, rfl⟩
  · have hSame : r'.id = r.id := congrArg Claim.id hKept.claim
    by_cases hLeases : op.leases = some id
    · have hOld : r' ∈ (op.perform c.state).2.refunds := hr'
      rw [hOther op rfl hLeases] at hOld
      exact ⟨r', hOld, hId, rfl⟩
    · exact ⟨r, hr, hSame.symm.trans hId, hKept.lease fun hSome => hLeases (by rw [hSome, ← hSame, hId])⟩
  · exact absurd (h.lease_lt pu hMem id hHeld) (Nat.not_lt.mpr (Nat.le_of_eq hId))

theorem Single.leased_ran (h : Single c pts) (hT : Tracks store protocol (requests.map fun _ => {}) c pts) (hRan : store.Ran c t a o th k c')
    (hPoint : pts[t]? = some pt) (hMove : Move o a c.state pt pt') {b : Time} (hU : (pts.set t pt')[u]? = some pu)
    (hLease : pu.lease = some id) (hBorn : bornAt c' u = some b) : ∀ r' ∈ (o.perform a c.state).2.refunds, r'.id = id →
      ∃ expiry, r'.reissueLeaseUntil = some expiry ∧ b + STALE_REFUND_CLAIM_MS ≤ expiry := by
  have hOld : ∀ {u : Nat} {pu : Point} {b : Time}, pts[u]? = some pu → pu.lease = some id → bornAt c u = some b →
      (∀ op, o = .refund op → op.leases = some id → (op.perform c.state).2.refunds = c.state.refunds) →
      ∀ r' ∈ (o.perform a c.state).2.refunds, r'.id = id →
        ∃ expiry, r'.reissueLeaseUntil = some expiry ∧ b + STALE_REFUND_CLAIM_MS ≤ expiry := by
    intro u pu b hU hHeld hBorn hOther r' hr' hId
    obtain ⟨r, hr, hIdR, hSame⟩ := h.lease_kept hHeld (List.mem_of_getElem? hU) hOther r' hr' hId
    rw [hSame]
    exact h.leased hU hHeld hBorn r hr hIdR
  rcases Tables.getElem?_set_cases hU with ⟨rfl, rfl⟩ | ⟨hNe, hU⟩
  · obtain ⟨b', hBorn', -, hSame⟩ := h.aged.bornAt_ran hRan
    rw [hBorn] at hBorn'
    cases hBorn'
    rcases hMove.lease_cases hLease with hHeld | ⟨op, rfl, -, hLeases⟩
    · obtain ⟨b₀, hBorn₀⟩ := bornAt_of_point hT hPoint fun hStart => by
        rw [hStart] at hHeld
        cases hHeld
      rw [hSame b₀ hBorn₀]
      refine hOld hPoint hHeld hBorn₀ fun op hOp hId => ?_
      subst hOp
      rcases hMove.leases hId with hSame | ⟨-, hNone⟩ | hLeases
      · exact hSame
      · rw [hNone] at hLease
        cases hLease
      · rw [hLeases.had] at hHeld
        cases hHeld
    · obtain ⟨now, refund, latest, stored, rfl, hPhase, hFind⟩ := hLeases.taken
      obtain ⟨b₀, hBorn₀⟩ := bornAt_of_point hT hPoint fun hStart => by
        rw [hStart] at hPhase
        cases hPhase
      rw [hSame b₀ hBorn₀]
      have hSel := List.find?_some hFind
      have hStored := hSel
      rw [Bool.and_eq_true, Bool.and_eq_true, decide_eq_true_eq] at hStored
      intro r' hr' hId
      have hUpdated : r' ∈ (RefundOp.perform (.lease id now (now + STALE_REFUND_CLAIM_MS)) c.state).2.refunds := hr'
      simp only [RefundOp.perform, hFind] at hUpdated
      obtain ⟨r, hr, rfl⟩ := Tables.mem_update.mp hUpdated
      have hIdR : r.id = id := by
        rw [← hId]
        split <;> rfl
      have hEq := h.ordered.consistent.refund_eq (List.mem_of_find?_eq_some hFind) hr (hIdR.trans hStored.1.1.symm)
      subst hEq
      rw [if_pos hSel]
      exact ⟨_, rfl, Nat.add_le_add_right (h.clocked hPoint hPhase hBorn₀).1 _⟩
  · rw [bornAt_other hRan hNe] at hBorn
    refine hOld hU hLease hBorn fun op hOp hId => ?_
    subst hOp
    rcases hMove.leases hId with hSame | ⟨hHeld, -⟩ | hLeases
    · exact hSame
    · exact absurd (h.oneLease hU hPoint hLease hHeld) hNe
    · exact absurd hLease (h.lease_alone hT hPoint hLeases hU)

theorem Single.ran (h : Single c pts) (hT : Tracks store protocol (requests.map fun _ => {}) c pts) (hRan : store.Ran c t a o th k c')
    (hPoint : pts[t]? = some pt) (hMove : Move o a c.state pt pt') : Single c' (pts.set t pt') := by
  have hState := hRan.state
  exact {
    ordered := hState ▸ h.ordered.move hPoint hMove
    aged := h.aged.run hRan
    stored := hState ▸ h.stored_ran hPoint hMove
    owned := fun hU hOwner hWorking hBorn => h.owned_ran hT hRan hPoint hMove hU hOwner hWorking hBorn
    unknown := hState ▸ h.unknown_ran hPoint hMove
    clear := hState ▸ h.clear_ran hT hPoint hMove
    clocked := fun hU hPhase hBorn => h.clocked_ran hT hRan hPoint hMove hU hPhase hBorn
    lease_lt := hState ▸ h.lease_lt_ran hPoint hMove
    leased := fun hU hLease hBorn => hState ▸ h.leased_ran hT hRan hPoint hMove hU hLease hBorn
    oneLease := fun hU hV hLeaseU hLeaseV => h.oneLease_ran hT hPoint hMove hU hV hLeaseU hLeaseV
    reissuing := h.reissuing_ran hPoint hMove }

theorem Single.stop (h : Single c pts) (hInTime : inTime c (.stop t) = true) (hThread : c.threads[t]? = some th) :
    Single { c with threads := c.threads.set t { th with stopped := true } } pts := by
  have hBorn : ∀ u, bornAt { c with threads := c.threads.set t { th with stopped := true } } u = bornAt c u := by
    intro u
    simp only [bornAt]
    by_cases hU : t = u
    · subst hU
      rw [Tables.getElem?_set_eq hThread, hThread]
      rfl
    · rw [List.getElem?_set_ne hU]
  exact {
    h with
    aged := h.aged.stop hInTime hThread
    owned := fun hU hOwner hWorking hBornU => h.owned hU hOwner hWorking (hBorn _ ▸ hBornU)
    clocked := fun hU hPhase hBornU => h.clocked hU hPhase (hBorn _ ▸ hBornU)
    leased := fun hU hLease hBornU => h.leased hU hLease (hBorn _ ▸ hBornU) }

theorem Single.event {e : Event} (h : Single c pts) (hInTime : inTime c (.event e) = true) :
    Single { c with state := store.advance e c.state } pts := by
  obtain ⟨hStakes, -, hNext⟩ := e.advance_fields c.state
  have hRefunds : (e.advance c.state).refunds = c.state.refunds := (e.refunds_advance c.state).1
  have hLater : c.state.now ≤ (e.advance c.state).now := by
    cases e with
    | tick elapsed => exact Nat.le_add_right _ _
    | update => exact le_refl _
    | process =>
      simp only [Event.advance]
      split <;> exact le_refl _
  refine {
    ordered := h.ordered.advance e
    aged := h.aged.event hInTime
    stored := ?_
    owned := h.owned
    unknown := ?_
    clear := ?_
    clocked := fun hU hPhase hBorn => (h.clocked hU hPhase hBorn).imp_right fun hNow => hNow.trans hLater
    lease_lt := ?_
    leased := ?_
    oneLease := h.oneLease
    reissuing := h.reissuing }
  · intro pu hu r hWorking
    obtain ⟨s, hs, hClaim⟩ := h.stored pu hu r hWorking
    refine ⟨s, ?_, hClaim⟩
    change s ∈ (e.advance c.state).stakes
    rw [hStakes]
    exact hs
  · intro r hr
    exact h.unknown r (hRefunds ▸ hr)
  · intro pu hu
    have hClear := h.clear pu hu
    have hKept : ∀ id, c.state.RefKept id → (e.advance c.state).RefKept id := fun id hKept r hr => hKept r (hRefunds ▸ hr)
    generalize pu.phase = ph at hClear ⊢
    cases ph with
    | seen r => exact ⟨hClear.1, fun hRef => hKept _ (hClear.2 hRef)⟩
    | held r | missing r => exact hClear.imp_left (hKept _)
    | _ => exact hClear
  · intro pu hu id hLease
    change id < (e.advance c.state).nextId
    rw [hNext]
    exact h.lease_lt pu hu id hLease
  · intro u pu id b hU hLease hBorn r hr
    exact h.leased hU hLease hBorn r (hRefunds ▸ hr)

/-! ## What the calls follow -/

theorem Move.of_sent {call : RefundCall} (h : Move (.provider (.refundSent call)) a c.state pt pt') :
    pt.phase = .ready call ∧ pt'.phase = .calling call := by
  cases h with
  | send => exact ⟨rfl, rfl⟩
  | quiet ho | rest ho => cases ho
  | see _ hRead => cases hRead

theorem Move.of_answered {call : RefundCall} {w : World} (h : Move (.provider (.refundAnswered call)) a w pt pt') :
    pt.phase = .calling call := by
  cases h with
  | answered | refused | reissueRefused | unanswered => rfl
  | quiet ho | rest ho => cases ho
  | see _ hRead => cases hRead

theorem Phase.working_of_uncalled {ph : Phase} (h : ph.uncalled = some r) : ph.working = some r := by
  cases ph <;> first | exact h | cases h

theorem Move.uncalled_dropped {w : World} {s : Stake} (h : Move o a w pt pt') (hOn : (o.edit w).on s = none) :
    ∃ r, r.id = s.claim.id ∧ pt.phase.uncalled = some r := by
  have hEdits := h.edits
  generalize o.edit w = e at hEdits hOn
  generalize pt.phase = ph at hEdits ⊢
  generalize pt'.phase = ph' at hEdits
  induction hEdits with
  | @dropUnreserved claim =>
    simp only [Edit.on] at hOn
    split at hOn
    · rename_i hSel
      exact ⟨claim, hSel.1.symm, rfl⟩
    · cases hOn
  | @dropRefused call =>
    simp only [Edit.on] at hOn
    split at hOn
    · rename_i hSel
      exact ⟨call.claim, hSel.1.symm, rfl⟩
    · cases hOn
  | keep | claim | mark | settle => cases hOn

theorem Move.missed (h : Move o a c.state pt pt') (hMissed : pt'.phase.missed = some r) :
    pt.phase.missed = some r ∨ findsNone r.refundKey ⟨t, o, (o.perform a c.state).1⟩ = true := by
  generalize c.state = w at h ⊢
  induction h with
  | quiet | setLookup | clock => exact .inl hMissed
  | fresh hFind => exact .inl hMissed
  | missing hAnswer =>
    cases hMissed
    refine .inr ?_
    simp only [Op.perform, ProviderOp.perform, hAnswer, findsNone, decide_true]
  | _ => cases hMissed

/-- The calls for a key so far, and what the next would follow. -/
structure Cleared (key : ProviderRefundKey) (c : State) (pts : List Point) : Prop where
  cleared : callsCleared key c.history = true
  keys : ∀ e ∈ c.history, ∀ call, e.op = .provider (.refundSent call) →
    call.request.key = providerRefundIdempotencyKey call.claim.restaurantId call.claim.idempotencyKey
  absent : (∀ s ∈ c.state.stakes, s.claim.key ≠ key) → clearSince key c.history = true
  uncalled : ∀ pt ∈ pts, ∀ r, pt.phase.uncalled = some r → r.refundKey = key → clearSince key c.history = true
  missed : ∀ {t : Nat} {pt : Point} {r : Refund}, pts[t]? = some pt → pt.phase.missed = some r →
    ∃ e ∈ c.history, e.thread = t ∧ findsNone r.refundKey e = true

theorem Stake.Opens.key_free {payment : Payment} {s : Stake} {w : World} (hOpens : s.Opens w payment) (h : w.Consistent) :
    ∀ s' ∈ w.stakes, s'.claim.key ≠ s.claim.key := by
  intro s' hs' hKey
  obtain ⟨r, hr, rfl⟩ := List.mem_map.mp hs'
  rw [(h.sound _ hs').key_eq, hOpens.key_eq] at hKey
  exact hOpens.keyFree r hr ⟨congrArg ProviderRefundKey.restaurantId hKey, congrArg ProviderRefundKey.idempotencyKey hKey⟩

theorem Cleared.cleared_ran (h : Cleared key c pts) (hRan : store.Ran c t a o th k c') (hPoint : pts[t]? = some pt)
    (hMove : Move o a c.state pt pt') : callsCleared key c'.history = true := by
  rw [hRan.history]
  refine callsCleared_cons h.cleared fun hSends => ?_
  obtain ⟨call, rfl, hKey⟩ := sends_iff hSends
  refine h.uncalled pt (List.mem_of_getElem? hPoint) call.claim ?_ hKey
  rw [hMove.of_sent.1]
  rfl

theorem Cleared.keys_ran (h : Cleared key c pts) (hI : Single c pts) (hRan : store.Ran c t a o th k c') (hPoint : pts[t]? = some pt)
    (hMove : Move o a c.state pt pt') : ∀ e ∈ c'.history, ∀ call, e.op = .provider (.refundSent call) →
      call.request.key = providerRefundIdempotencyKey call.claim.restaurantId call.claim.idempotencyKey := by
  intro e he call hOp
  rw [hRan.history] at he
  rcases List.mem_cons.mp he with rfl | hOld
  · have hSent : o = .provider (.refundSent call) := hOp
    subst hSent
    refine (hI.ordered.knows pt (List.mem_of_getElem? hPoint) call.claim ?_).sound.key_eq
    rw [hMove.of_sent.1]
    exact List.mem_singleton_self _
  · exact h.keys e hOld call hOp

theorem Cleared.absent_ran (h : Cleared key c pts) (hI : Single c pts) (hRan : store.Ran c t a o th k c') (hPoint : pts[t]? = some pt)
    (hMove : Move o a c.state pt pt') (hAbsent : ∀ s ∈ c'.state.stakes, s.claim.key ≠ key) : clearSince key c'.history = true := by
  have hMem := List.mem_of_getElem? hPoint
  rw [hRan.history]
  rw [hRan.state, o.stakes_perform] at hAbsent
  have hGone : ∀ s ∈ c.state.stakes, s.claim.key = key → (o.edit c.state).on s = none := by
    intro s hs hKey
    cases hOn : (o.edit c.state).on s with
    | none => rfl
    | some s' =>
      refine absurd ?_ (hAbsent s' (Edit.mem_apply.mpr (.inl ⟨s, hs, hOn⟩)))
      rw [Edit.on_claim hOn]
      exact hKey
  have hQuiet : sendsRefund key ⟨t, o, (o.perform a c.state).1⟩ = false := by
    rw [← Bool.not_eq_true]
    intro hSends
    obtain ⟨call, rfl, hKey⟩ := sends_iff hSends
    obtain ⟨s, hs, hClaim⟩ := hI.stored pt hMem call.claim (by rw [hMove.of_sent.1]; rfl)
    have hNone := hGone s hs (by rw [hClaim]; exact hKey)
    cases hNone
  refine clearSince_cons ?_ hQuiet
  by_cases hBefore : ∃ s ∈ c.state.stakes, s.claim.key = key
  · obtain ⟨s, hs, hKey⟩ := hBefore
    obtain ⟨r, hId, hUncalled⟩ := hMove.uncalled_dropped (hGone s hs hKey)
    have hClaim := hI.ordered.consistent.stored_claim (hI.stored pt hMem r (Phase.working_of_uncalled hUncalled)) hs hId.symm
    rw [hClaim] at hKey
    exact h.uncalled pt hMem r hUncalled hKey
  · exact h.absent fun s hs hKey => hBefore ⟨s, hs, hKey⟩

theorem Cleared.missed_ran (h : Cleared key c pts) (hRan : store.Ran c t a o th k c') (hPoint : pts[t]? = some pt)
    (hMove : Move o a c.state pt pt') (hU : (pts.set t pt')[u]? = some pu) (hMissed : pu.phase.missed = some r) :
    ∃ e ∈ c'.history, e.thread = u ∧ findsNone r.refundKey e = true := by
  have hOld : (∃ e ∈ c.history, e.thread = u ∧ findsNone r.refundKey e = true) →
      ∃ e ∈ c'.history, e.thread = u ∧ findsNone r.refundKey e = true := by
    rintro ⟨e, he, hEntry⟩
    exact ⟨e, hRan.history ▸ List.mem_cons_of_mem _ he, hEntry⟩
  rcases Tables.getElem?_set_cases hU with ⟨rfl, rfl⟩ | ⟨hNe, hU⟩
  · rcases hMove.missed hMissed with hBefore | hNew
    · exact hOld (h.missed hPoint hBefore)
    · exact ⟨_, hRan.history ▸ List.mem_cons_self, rfl, hNew⟩
  · exact hOld (h.missed hU hMissed)

theorem Phase.uncalled_calm {ph : Phase} (h : ph.calm = true) : ph.uncalled = none := by
  cases ph <;> first | rfl | cases h

theorem Move.uncalled {w : World} (h : Move o a w pt pt') (hUncalled : pt'.phase.uncalled = some r) :
    (∃ r₀, pt.phase.uncalled = some r₀ ∧ r₀.refundKey = r.refundKey) ∨ (∃ s ∈ (o.edit w).born, s.claim = r.claim) ∨
      (∃ call err, o = .provider (.refundAnswered call) ∧ a.refund = .error err ∧ err.isRejected = true ∧ call.claim = r) ∨
        ∃ refund latest now stored, pt.phase = .leasing refund latest now ∧
          o = .refund (.lease latest.id now (now + STALE_REFUND_CLAIM_MS)) ∧
          w.refunds.find? (fun r => r.id = latest.id && r.status = .pending && r.leaseFree now) = some stored ∧
          r = stored.withLease (some (now + STALE_REFUND_CLAIM_MS)) := by
  induction h with
  | quiet _ hph | setLookup hph =>
    rw [Phase.uncalled_calm hph] at hUncalled
    cases hUncalled
  | reserve | reserveRefused | mark | release =>
    cases hUncalled
    exact .inl ⟨_, rfl, rfl⟩
  | claim hDraft hPayment hFree =>
    cases hUncalled
    rw [Op.edit_create hFree]
    exact .inr (.inl ⟨_, List.mem_singleton_self _, rfl⟩)
  | refused hAnswer hRejected =>
    cases hUncalled
    exact .inr (.inr (.inl ⟨_, _, rfl, hAnswer, hRejected, rfl⟩))
  | lease _ _ _ hFind =>
    cases hUncalled
    exact .inr (.inr (.inr ⟨_, _, _, _, rfl, rfl, hFind, rfl⟩))
  | _ => cases hUncalled

theorem Cleared.uncalled_ran (h : Cleared key c pts) (hI : Single c pts) (hOnLookup : leasesOnLookup key c (.run t a) = true)
    (hRan : store.Ran c t a o th k c') (hPoint : pts[t]? = some pt) (hMove : Move o a c.state pt pt') :
    ∀ pu ∈ pts.set t pt', ∀ r, pu.phase.uncalled = some r → r.refundKey = key → clearSince key c'.history = true := by
  have hMem := List.mem_of_getElem? hPoint
  intro pu hu r hUncalled hKey
  rw [hRan.history]
  obtain ⟨u, hU⟩ := List.mem_iff_getElem?.mp hu
  rcases Tables.getElem?_set_cases hU with ⟨rfl, rfl⟩ | ⟨hNe, hU⟩
  · have hQuiet : sendsRefund key ⟨u, o, (o.perform a c.state).1⟩ = false := by
      rw [← Bool.not_eq_true]
      intro hSends
      obtain ⟨call, rfl, -⟩ := sends_iff hSends
      rw [hMove.of_sent.2] at hUncalled
      cases hUncalled
    rcases hMove.uncalled hUncalled with ⟨r₀, hBefore, hKey₀⟩ | ⟨s, hs, hClaim⟩ | ⟨call, err, rfl, hAnswer, hRejected, rfl⟩ |
      ⟨refund, latest, now, stored, hPhase, rfl, hFind, rfl⟩
    · exact clearSince_cons (h.uncalled pt hMem r₀ hBefore (hKey₀.trans hKey)) hQuiet
    · obtain ⟨_, -, hOpens⟩ := hMove.born hs
      refine clearSince_cons (h.absent fun s' hs' hSame => hOpens.key_free hI.ordered.consistent s' hs' ?_) hQuiet
      rw [hSame, hClaim]
      exact hKey.symm
    · refine clearSince_rejected ?_
      have hRequest : call.request.key = key := hKey
      simp only [rejectsRefund, Op.perform, ProviderOp.perform, hAnswer, hRequest, hRejected, decide_true, Bool.and_self]
    · have hSel := List.find?_some hFind
      have hStored := List.mem_of_find?_eq_some hFind
      have hUncalledSince : calledSince key u c.history = false := by
        simp only [leasesOnLookup, hRan.waiting?] at hOnLookup
        have hAll := List.all_eq_true.mp hOnLookup stored hStored
        have hStoredKey : stored.refundKey = key := hKey
        rw [hSel, hStoredKey] at hAll
        simpa using hAll
      obtain ⟨e, he, hThread, hNone⟩ := h.missed hPoint (by rw [hPhase]; rfl)
      have hSame : refund.refundKey = key := by
        have hFits := hI.ordered.fits pt hMem
        have hKnows := hI.ordered.knows pt hMem refund
        rw [hPhase] at hFits hKnows
        rw [Bool.and_eq_true, Bool.and_eq_true, decide_eq_true_eq] at hSel
        have hClaim := (hKnows List.mem_cons_self).eq_of_id _ (stake_mem hStored) (hSel.1.1.trans hFits)
        exact (congrArg Claim.key hClaim).symm.trans hKey
      exact clearSince_cons (clearSince_of_lookup hUncalledSince he hThread (hSame ▸ hNone)) hQuiet
  · refine clearSince_cons (h.uncalled pu (List.mem_of_getElem? hU) r hUncalled hKey) ?_
    rw [← Bool.not_eq_true]
    intro hSends
    obtain ⟨call, rfl, hCallKey⟩ := sends_iff hSends
    have hWorking : pt.phase.working = some call.claim := by
      rw [hMove.of_sent.1]
      rfl
    exact hNe (hI.working_unique hPoint hU hWorking (Phase.working_of_uncalled hUncalled) (hKey.trans hCallKey.symm)).symm

theorem Cleared.ran (h : Cleared key c pts) (hI : Single c pts) (hOnLookup : leasesOnLookup key c (.run t a) = true)
    (hRan : store.Ran c t a o th k c') (hPoint : pts[t]? = some pt) (hMove : Move o a c.state pt pt') : Cleared key c' (pts.set t pt') where
  cleared := h.cleared_ran hRan hPoint hMove
  keys := h.keys_ran hI hRan hPoint hMove
  absent := h.absent_ran hI hRan hPoint hMove
  uncalled := h.uncalled_ran hI hOnLookup hRan hPoint hMove
  missed := fun hU hMissed => h.missed_ran hRan hPoint hMove hU hMissed

theorem Cleared.event {e : Event} (h : Cleared key c pts) : Cleared key { c with state := store.advance e c.state } pts := by
  refine { h with absent := fun hAbsent => h.absent fun s hs => hAbsent s ?_ }
  change s ∈ (e.advance c.state).stakes
  rw [(e.advance_fields c.state).1]
  exact hs

theorem Single.initial {env : Env} {w : World} (h : w.Consistent) :
    Single (State.start env w requests) (requests.map fun _ => {}) := by
  have hPoints : ∀ pt ∈ requests.map fun _ => ({} : Point), pt = {} := by
    intro pt hpt
    obtain ⟨_, -, rfl⟩ := List.mem_map.mp hpt
    rfl
  have hBorn : ∀ th ∈ (State.start env w requests).threads, th.born = none := by
    intro th hth
    obtain ⟨_, -, rfl⟩ := List.mem_map.mp hth
    rfl
  refine {
    ordered := .initial h hPoints
    aged := ⟨?_, ?_, fun th hth _ => .inl (hBorn th hth)⟩
    stored := ?_
    owned := ?_
    unknown := ?_
    clear := ?_
    clocked := ?_
    lease_lt := ?_
    leased := ?_
    oneLease := ?_
    reissuing := ?_ }
  · intro th hth w₀ hw
    rw [hBorn th hth] at hw
    cases hw
  · intro th hth w₀ hw
    rw [hBorn th hth] at hw
    cases hw
  · intro pt hpt r hWorking
    rw [hPoints pt hpt] at hWorking
    cases hWorking
  · intro t pt id r b hPoint hOwner
    rw [hPoints pt (List.mem_of_getElem? hPoint)] at hOwner
    cases hOwner
  · intro r hr hUnknown pt hpt hOwner
    rw [hPoints pt hpt] at hOwner
    cases hOwner
  · intro pt hpt
    rw [hPoints pt hpt]
    trivial
  · intro t pt r latest now b hPoint hPhase
    rw [hPoints pt (List.mem_of_getElem? hPoint)] at hPhase
    cases hPhase
  · intro pt hpt id hLease
    rw [hPoints pt hpt] at hLease
    cases hLease
  · intro t pt id b hPoint hLease
    rw [hPoints pt (List.mem_of_getElem? hPoint)] at hLease
    cases hLease
  · intro t u pt pu id hPoint _ hLease
    rw [hPoints pt (List.mem_of_getElem? hPoint)] at hLease
    cases hLease
  · intro pt hpt id hReissues
    rw [hPoints pt hpt] at hReissues
    cases hReissues

theorem Cleared.initial {env : Env} {w : World} : Cleared key (State.start env w requests) (requests.map fun _ => {}) := by
  refine ⟨rfl, ?_, fun _ => rfl, fun _ _ _ _ _ => rfl, ?_⟩
  · intro e he
    cases he
  · intro t pt r hPoint hMissed
    obtain ⟨_, -, rfl⟩ := List.mem_map.mp (List.mem_of_getElem? hPoint)
    cases hMissed

/-! ## One refund a key -/

theorem Single.copy_key (h : Single c pts) (hPoint : pts[t]? = some pt) (hCopy : r ∈ pt.phase.copies) {restaurantId : Id} {idempotencyKey : String}
    (hRestaurant : r.restaurantId = restaurantId) (hIdempotency : r.idempotencyKey = idempotencyKey) :
    r.refundKey = providerRefundIdempotencyKey restaurantId idempotencyKey := by
  have hKey := (h.ordered.knows pt (List.mem_of_getElem? hPoint) r hCopy).sound.key_eq
  rw [← hRestaurant, ← hIdempotency]
  exact hKey

theorem calling_of_waiting (hT : Tracks store protocol (requests.map fun _ => {}) c pts) {call : RefundCall}
    (hWaits : c.waiting? t = some (.provider (.refundAnswered call))) : ∃ pt, pts[t]? = some pt ∧ pt.phase = .calling call := by
  obtain ⟨th, hThread, hWaits⟩ := Option.bind_eq_some_iff.mp hWaits
  obtain ⟨pt, hPoint⟩ := hT.point_exists hThread
  refine ⟨pt, hPoint, ?_⟩
  have hFollows := hT.follows hThread hPoint
  rw [Thread.waiting?] at hWaits
  split at hWaits
  · cases hWaits
  · obtain ⟨prog, stopped, born⟩ := th
    cases prog with
    | ret | raise => cases hWaits
    | await o k =>
      cases hWaits
      obtain ⟨pt', hMove, -⟩ := hFollows {} c.state
      exact hMove.of_answered

theorem World.Consistent.one_document {w : World} (h : w.Consistent) (restaurantId : Id) (idempotencyKey : String) :
    (w.refunds.filter fun r => r.restaurantId = restaurantId && r.idempotencyKey = idempotencyKey).length ≤ 1 := by
  generalize hDocuments : (w.refunds.filter fun r => r.restaurantId = restaurantId && r.idempotencyKey = idempotencyKey) = documents
  have hSub : documents.Sublist w.refunds := hDocuments ▸ List.filter_sublist
  have hKeys : (documents.map Refund.refundKey).Nodup := by
    have hNodup := h.refundKeys
    rw [World.stakes, List.map_map] at hNodup
    exact hNodup.sublist (hSub.map _)
  have hSame : ∀ key ∈ documents.map Refund.refundKey, key = providerRefundIdempotencyKey restaurantId idempotencyKey := by
    intro key hKey
    obtain ⟨r, hr, rfl⟩ := List.mem_map.mp hKey
    rw [← hDocuments, List.mem_filter, Bool.and_eq_true, decide_eq_true_eq, decide_eq_true_eq] at hr
    rw [← hr.2.1, ← hr.2.2]
    exact (h.sound _ (stake_mem hr.1)).key_eq
  rw [List.eq_replicate_of_mem hSame, List.nodup_replicate, List.length_map] at hKeys
  exact hKeys

theorem key_moves_once {env : Env} {w₀ : World} {requests : List Request} {c : State} {restaurantId : Id} {idempotencyKey : String}
    (hConsistent : w₀.Consistent)
    (h : store.Reach (fun c l => inTime c l && leasesOnLookup (providerRefundIdempotencyKey restaurantId idempotencyKey) c l)
      (State.start env w₀ requests) c) : MovesOnce restaurantId idempotencyKey c := by
  have hStart : Single (State.start env w₀ requests) (requests.map fun _ => {}) ∧
      Cleared (providerRefundIdempotencyKey restaurantId idempotencyKey) (State.start env w₀ requests) (requests.map fun _ => {}) :=
    ⟨.initial hConsistent, .initial⟩
  obtain ⟨pts, hT, hSingle, hCleared⟩ := (Tracks.initial fun r _ => Request.program_follows env r).invariant
    (I := fun (c : State) (pts : List Point) => Single c pts ∧ Cleared (providerRefundIdempotencyKey restaurantId idempotencyKey) c pts) hStart
    (fun hT hI hGuard hRan hPoint hMove _ => by
      rw [Bool.and_eq_true] at hGuard
      exact ⟨hI.1.ran hT hRan hPoint hMove, hI.2.ran hI.1 hGuard.2 hRan hPoint hMove⟩)
    (fun _ hI hGuard hThread => by
      rw [Bool.and_eq_true] at hGuard
      exact ⟨hI.1.stop hGuard.1 hThread, { hI.2 with }⟩)
    (fun _ hI hGuard => by
      rw [Bool.and_eq_true] at hGuard
      exact ⟨hI.1.event hGuard.1, hI.2.event⟩) h
  refine ⟨hSingle.ordered.consistent.one_document restaurantId idempotencyKey, ?_, hCleared.cleared, ?_⟩
  · intro t u call call' hWaits hWaits' hFor hFor'
    obtain ⟨pt, hPoint, hPhase⟩ := calling_of_waiting hT hWaits
    obtain ⟨pu, hPoint', hPhase'⟩ := calling_of_waiting hT hWaits'
    have hKey := hSingle.copy_key hPoint (r := call.claim) (by rw [hPhase]; exact List.mem_singleton_self _) hFor.1 hFor.2
    have hKey' := hSingle.copy_key hPoint' (r := call'.claim) (by rw [hPhase']; exact List.mem_singleton_self _) hFor'.1 hFor'.2
    exact hSingle.working_unique hPoint hPoint' (by rw [hPhase]; rfl) (by rw [hPhase']; rfl) (hKey'.trans hKey.symm)
  · intro e he call hOp hFor
    rw [← hFor.1, ← hFor.2]
    exact hCleared.keys e he call hOp

end Runs

def notFound : Answer := { lookup := .ok none }

def reissueSteps : List (Label Answer Event) := List.replicate 10 (.run 0 {}) ++ List.replicate 16 (.run 1 notFound)

theorem key_moves_once_reissued : ∃ c : State, c.history.countP (sendsRefund ⟨1, "refund-1"⟩) = 2 ∧ MovesOnce 1 "refund-1" c := by
  obtain ⟨c, hReach, hTwice⟩ := store.exists_of_exec (fun c l => inTime c l && leasesOnLookup (providerRefundIdempotencyKey 1 "refund-1") c l)
    (State.start {} (.single paidPayment) [.refund paidRefund, .refund paidRefund]) reissueSteps
    (fun c => decide (c.history.countP (sendsRefund ⟨1, "refund-1"⟩) = 2)) (by decide +kernel)
  exact ⟨c, of_decide_eq_true hTwice, key_moves_once (.single paidPayment) hReach⟩

def lateLeaseSteps : List (Label Answer Event) :=
  List.replicate 10 (.run 0 {}) ++ List.replicate 9 (.run 1 notFound) ++ List.replicate 9 (.run 2 notFound) ++
    List.replicate 7 (.run 1 {}) ++ List.replicate 2 (.run 2 {})

theorem late_lease_calls_again : ¬ ∀ (env : Env) (w₀ : World) (n : Nat) (input : RefundInput) (c : State), w₀.Consistent →
    store.Reach (fun c l => inTime c l) (State.start env w₀ (List.replicate n (.refund input))) c →
    MovesOnce input.restaurantId input.idempotencyKey c := by
  intro hClaim
  obtain ⟨c, hReach, hCalls⟩ := store.exists_of_exec inTime (State.start {} (.single paidPayment) (List.replicate 3 (.refund paidRefund)))
    lateLeaseSteps (fun c => !callsCleared ⟨1, "refund-1"⟩ c.history) (by decide +kernel)
  have hCleared : callsCleared ⟨1, "refund-1"⟩ c.history = true :=
    (hClaim {} _ 3 paidRefund c (.single paidPayment) hReach).cleared
  rw [hCleared] at hCalls
  cases hCalls

end RestaurantOs.Payments
