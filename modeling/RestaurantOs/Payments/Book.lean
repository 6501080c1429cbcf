import RestaurantOs.Payments.Walk

/-!
# The refund book

What every operation does to the refunds and to the payments' totals, said
once. A refund's claim never changes; its stake is the claim with the status
and the recorded reservation.
-/

namespace RestaurantOs.Payments

open Async

structure Claim where
  id : Id
  restaurantId : Id
  paymentId : Id
  provider : ProviderName
  amount : ℚ
  idempotencyKey : String
  key : ProviderRefundKey
  createdAt : Time

def Refund.claim (refund : Refund) : Claim where
  id := refund.id
  restaurantId := refund.restaurantId
  paymentId := refund.paymentId
  provider := refund.provider
  amount := refund.amount
  idempotencyKey := refund.idempotencyKey
  key := refund.refundKey
  createdAt := refund.createdAt

structure Stake where
  claim : Claim
  status : RefundStatus
  reserved : Bool

def Refund.stake (refund : Refund) : Stake := ⟨refund.claim, refund.status, refund.amountReserved⟩

def World.stakes (w : World) : List Stake := w.refunds.map Refund.stake

section Claims

variable (refund : Refund)

@[simp] theorem Refund.claim_id : refund.claim.id = refund.id := rfl

@[simp] theorem Refund.claim_paymentId : refund.claim.paymentId = refund.paymentId := rfl

@[simp] theorem Refund.claim_amount : refund.claim.amount = refund.amount := rfl

@[simp] theorem Refund.claim_key : refund.claim.key = refund.refundKey := rfl

@[simp] theorem Refund.stake_claim : refund.stake.claim = refund.claim := rfl

@[simp] theorem Refund.stake_status : refund.stake.status = refund.status := rfl

@[simp] theorem Refund.stake_reserved : refund.stake.reserved = refund.amountReserved := rfl

@[simp] theorem Refund.claim_withReservation : refund.withReservation.claim = refund.claim := rfl

@[simp] theorem Refund.claim_withLease (expiry : Option Time) : (refund.withLease expiry).claim = refund.claim := rfl

@[simp] theorem Refund.stake_withLease (expiry : Option Time) : (refund.withLease expiry).stake = refund.stake := rfl

@[simp] theorem Refund.stake_lookedUp (time : Time) (result : LookupResult) :
    (refund.lookedUp time result).stake = refund.stake := rfl

@[simp] theorem Refund.stake_withOutcomeUnknown : refund.withOutcomeUnknown.stake = refund.stake := rfl

@[simp] theorem Refund.stake_noted (details : RefundDetails) (clearUnknown : Bool) :
    (refund.noted details clearUnknown).stake = refund.stake := rfl

@[simp] theorem Refund.stake_withReservation :
    refund.withReservation.stake = { refund.stake with reserved := true } := rfl

@[simp] theorem Refund.stake_settled (s : Settlement) :
    (refund.settled s).stake = ⟨refund.claim, s.target, s.target ≠ .failed⟩ := rfl

end Claims

/-! ## What an operation does to the stakes -/

inductive Edit
  | keep
  | claim (stake : Stake)
  | drop (id : Id)
  | mark (id : Id)
  | settle (id : Id) (source target : RefundStatus)

def Edit.on : Edit → Stake → Option Stake
  | keep, s => some s
  | claim _, s => some s
  | drop id, s => if s.claim.id = id ∧ s.status = .pending then none else some s
  | mark id, s => some (if s.claim.id = id ∧ s.status = .pending then { s with reserved := true } else s)
  | settle id source target, s =>
    some (if s.claim.id = id ∧ s.status = source then ⟨s.claim, target, target ≠ .failed⟩ else s)

def Edit.born : Edit → List Stake
  | claim stake => [stake]
  | _ => []

def Edit.subject : Edit → Option Id
  | drop id | mark id | settle id _ _ => some id
  | _ => none

def Edit.apply (e : Edit) (l : List Stake) : List Stake := l.filterMap e.on ++ e.born

section Edits

variable {e : Edit} {l : List Stake} {s s' : Stake}

@[simp] theorem Edit.apply_keep : Edit.keep.apply l = l := by
  simp only [apply, born, List.append_nil]
  exact List.filterMap_some

theorem Edit.mem_apply : s' ∈ e.apply l ↔ (∃ s ∈ l, e.on s = some s') ∨ s' ∈ e.born := by
  simp only [apply, List.mem_append, List.mem_filterMap]

theorem Edit.on_claim (h : e.on s = some s') : s'.claim = s.claim := by
  cases e with
  | drop id =>
    simp only [on] at h
    split at h
    · cases h
    · cases h
      rfl
  | mark id =>
    simp only [on, Option.some.injEq] at h
    subst h
    split <;> rfl
  | settle id source target =>
    simp only [on, Option.some.injEq] at h
    subst h
    split <;> rfl
  | _ => exact congrArg Stake.claim (Option.some.inj h).symm

theorem Edit.on_of_ne (h : e.subject ≠ some s.claim.id) : e.on s = some s := by
  cases e with
  | drop id => simp_all [on, subject, eq_comm]
  | mark id => simp_all [on, subject, eq_comm]
  | settle id source target => simp_all [on, subject, eq_comm]
  | _ => rfl

theorem Edit.claims_sublist (e : Edit) (l : List Stake) :
    ((l.filterMap e.on).map Stake.claim).Sublist (l.map Stake.claim) := by
  induction l with
  | nil => exact List.Sublist.refl _
  | cons s l ih =>
    rw [List.filterMap_cons, List.map_cons]
    split
    · exact ih.cons _
    · rename_i s' hOn
      rw [List.map_cons, Edit.on_claim hOn]
      exact ih.cons_cons _

theorem Edit.on_pending (h : e.on s = some s') (hNot : ∀ id source target, e = .settle id source target → target ≠ .pending)
    (hPending : s'.status = .pending) : s.status = .pending ∧ (s.reserved = true → s'.reserved = true) := by
  cases e with
  | drop id =>
    simp only [on] at h
    split at h
    · cases h
    · cases h
      exact ⟨hPending, fun hReserved => hReserved⟩
  | mark id =>
    simp only [on, Option.some.injEq] at h
    subst h
    split at hPending
    · rename_i hSel
      exact ⟨hSel.2, fun _ => by rw [if_pos hSel]⟩
    · rename_i hSel
      exact ⟨hPending, fun hReserved => by rw [if_neg hSel]; exact hReserved⟩
  | settle id source target =>
    simp only [on, Option.some.injEq] at h
    subst h
    split at hPending
    · exact absurd hPending (hNot _ _ _ rfl)
    · rename_i hSel
      exact ⟨hPending, fun hReserved => by rw [if_neg hSel]; exact hReserved⟩
  | keep =>
    cases h
    exact ⟨hPending, fun hReserved => hReserved⟩
  | claim stake =>
    cases h
    exact ⟨hPending, fun hReserved => hReserved⟩

theorem Edit.on_settled (hNot : ∀ id source target, e = .settle id source target → target ≠ .pending)
    (h : s.status ≠ .pending) : ∃ s', e.on s = some s' ∧ s'.status ≠ .pending := by
  cases e with
  | drop id => exact ⟨s, if_neg fun hSel => h hSel.2, h⟩
  | mark id => exact ⟨s, congrArg some (if_neg fun hSel => h hSel.2), h⟩
  | settle id source target =>
    refine ⟨_, rfl, ?_⟩
    split
    · exact hNot _ _ _ rfl
    · exact h
  | _ => exact ⟨s, rfl, h⟩

variable {β : Type} [AddCommGroup β] (e) (weight : Stake → β)

theorem Edit.total_apply : Tables.total weight (e.apply l) =
    Tables.total (fun s => (e.on s).elim 0 weight) l + Tables.total weight e.born := by
  rw [apply, Tables.total_append, Tables.total_filterMap]

theorem Edit.total_change (hNodup : (l.map fun s => s.claim.id).Nodup) (hs : s ∈ l)
    (hSubject : ∀ id, e.subject = some id → id = s.claim.id) : Tables.total weight (e.apply l) =
    Tables.total weight l + ((e.on s).elim 0 weight - weight s) + Tables.total weight e.born := by
  rw [total_apply, Tables.total_change (w := weight) (fun s : Stake => s.claim.id) hNodup hs]
  intro s₁ _ hNe
  rw [on_of_ne]
  · rfl
  · intro hEq
    exact hNe (hSubject _ hEq)

theorem Edit.total_same (hSame : ∀ s ∈ l, e.on s = some s) :
    Tables.total weight (e.apply l) = Tables.total weight l + Tables.total weight e.born := by
  rw [total_apply]
  congr 1
  refine Tables.total_congr fun s hs => ?_
  rw [hSame s hs]
  rfl

end Edits

def RefundOp.edit : RefundOp → World → Edit
  | create draft, w =>
    if w.refunds.any fun r => r.restaurantId = draft.restaurantId && r.idempotencyKey = draft.idempotencyKey then
      .keep
    else .claim { draft with id := w.nextId, createdAt := w.now }.stake
  | deleteUnreserved claim, _ => .drop claim.id
  | deleteRefused claim, _ => .drop claim.id
  | markReserved claim, _ => .mark claim.id
  | settle s, w =>
    match w.refunds.find? fun r => r.id = s.id && r.status = s.source with
    | none => .keep
    | some before => if refTaken w.refunds before s.details then .keep else .settle s.id s.source s.target
  | _, _ => .keep

def Op.edit : Op → World → Edit
  | .refund op, w => op.edit w
  | _, _ => .keep

theorem stakes_update (w : World) (sel : Refund → Bool) (f : Refund → Refund) (e : Edit)
    (hOn : ∀ r, e.on r.stake = some (if sel r then f r else r).stake) (hBorn : e.born = []) :
    (w.updateRefunds sel f).stakes = e.apply w.stakes := by
  simp only [World.stakes, World.updateRefunds, Tables.update, List.map_map, Edit.apply, hBorn, List.append_nil,
    List.filterMap_map]
  rw [← List.filterMap_eq_map]
  exact congrArg (List.filterMap · w.refunds) (funext fun r => (hOn r).symm)

theorem stakes_keep (w : World) (sel : Refund → Bool) (f : Refund → Refund) (hf : ∀ r, (f r).stake = r.stake) :
    (w.updateRefunds sel f).stakes = Edit.keep.apply w.stakes := by
  rw [Edit.apply_keep]
  exact Tables.map_update_eq Refund.stake hf

theorem stakes_drop (w : World) (id : Id) :
    (w.refunds.filter fun r => !(r.id = id && r.status = .pending)).map Refund.stake =
      (Edit.drop id).apply w.stakes := by
  simp only [World.stakes, Edit.apply, Edit.born, List.append_nil, List.filterMap_map]
  rw [← List.filterMap_eq_map, List.filterMap_filter]
  refine List.filterMap_congr fun r _ => ?_
  by_cases hSel : r.id = id ∧ r.status = .pending
  · simp [Edit.on, hSel]
  · simp [Edit.on, hSel]

theorem RefundOp.stakes_perform (op : RefundOp) (w : World) :
    (op.perform w).2.stakes = (op.edit w).apply w.stakes := by
  cases op with
  | create draft =>
    simp only [perform, edit]
    split
    · exact (Edit.apply_keep).symm
    · simp only [World.stakes, List.map_append, Edit.apply, Edit.born]
      congr 1
      exact List.filterMap_some.symm
  | deleteUnreserved claim => exact stakes_drop w claim.id
  | deleteRefused claim => exact stakes_drop w claim.id
  | markReserved claim =>
    refine stakes_update w _ _ (Edit.mark claim.id) (fun r => ?_) rfl
    by_cases hSel : r.id = claim.id ∧ r.status = .pending
    · simp [Edit.on, hSel]
    · simp [Edit.on, hSel]
  | setOutcomeUnknown claim => exact stakes_keep w _ _ fun _ => rfl
  | setDetails id details clearUnknown =>
    simp only [perform]
    split
    · exact (Edit.apply_keep).symm
    · split
      · exact (Edit.apply_keep).symm
      · exact stakes_keep w _ _ fun _ => rfl
  | settle s =>
    cases hFind : w.refunds.find? fun r => r.id = s.id && r.status = s.source with
    | none =>
      simp only [perform, edit, hFind]
      exact (Edit.apply_keep).symm
    | some before =>
      simp only [perform, edit, hFind]
      split
      · exact (Edit.apply_keep).symm
      · refine stakes_update w _ _ (Edit.settle s.id s.source s.target) (fun r => ?_) rfl
        by_cases hSel : r.id = s.id ∧ r.status = s.source
        · simp [Edit.on, hSel]
        · simp [Edit.on, hSel]
  | setLookup id time result => exact stakes_keep w _ _ fun _ => rfl
  | lease id now expiry =>
    simp only [perform]
    split
    · exact (Edit.apply_keep).symm
    · exact stakes_keep w _ _ fun _ => rfl
  | unlease id => exact stakes_keep w _ _ fun _ => rfl
  | _ => exact (Edit.apply_keep).symm

theorem PaymentOp.refunds_perform (op : PaymentOp) (w : World) :
    (op.perform w).2.refunds = w.refunds ∧ (op.perform w).2.received = w.received ∧
      (op.perform w).2.ledger = w.ledger ∧ (op.perform w).2.refundRefs = w.refundRefs ∧
      (op.perform w).2.now = w.now := by
  cases op with
  | create draft =>
    simp only [perform]
    split
    · exact ⟨rfl, rfl, rfl, rfl, rfl⟩
    · split <;> exact ⟨rfl, rfl, rfl, rfl, rfl⟩
  | reserve payment claim =>
    simp only [perform]
    split <;> exact ⟨rfl, rfl, rfl, rfl, rfl⟩
  | setStatus payment next =>
    simp only [perform]
    split
    · exact ⟨rfl, rfl, rfl, rfl, rfl⟩
    · split <;> exact ⟨rfl, rfl, rfl, rfl, rfl⟩
  | transition payment next =>
    simp only [perform]
    split
    · exact ⟨rfl, rfl, rfl, rfl, rfl⟩
    · split
      · exact ⟨rfl, rfl, rfl, rfl, rfl⟩
      · split
        · exact ⟨rfl, rfl, rfl, rfl, rfl⟩
        · split <;> exact ⟨rfl, rfl, rfl, rfl, rfl⟩
  | _ => exact ⟨rfl, rfl, rfl, rfl, rfl⟩

theorem EventOp.perform_fields (op : EventOp) (w : World) :
    (op.perform w).2 = { w with webhookEvents := (op.perform w).2.webhookEvents } := by
  cases op with
  | create provider eventId eventType =>
    simp only [perform]
    split <;> rfl
  | finish => rfl

theorem AccountOp.perform_fields (op : AccountOp) (w : World) :
    (op.perform w).2 = { w with accounts := (op.perform w).2.accounts, nextId := (op.perform w).2.nextId } := by
  cases op with
  | insert account =>
    simp only [perform]
    split <;> rfl
  | save loaded account =>
    simp only [perform]
    split
    · rfl
    · split <;> rfl
  | _ => rfl

theorem ProviderOp.perform_fields (op : ProviderOp) (a : Answer) (w : World) :
    (op.perform a w).2 = { w with received := (op.perform a w).2.received } := by
  cases op with
  | refundAnswered call =>
    simp only [perform]
    split
    · split <;> rfl
    · rfl
  | _ => rfl

theorem Op.stakes_perform (o : Op) (a : Answer) (w : World) :
    (o.perform a w).2.stakes = (o.edit w).apply w.stakes := by
  cases o with
  | refund op => exact op.stakes_perform w
  | payment op => exact (congrArg (List.map Refund.stake) (op.refunds_perform w).1).trans (Edit.apply_keep).symm
  | event op => exact (congrArg World.stakes (op.perform_fields w)).trans (Edit.apply_keep).symm
  | account op => exact (congrArg World.stakes (op.perform_fields w)).trans (Edit.apply_keep).symm
  | provider op => exact (congrArg World.stakes (op.perform_fields a w)).trans (Edit.apply_keep).symm
  | order op => cases op <;> exact (Edit.apply_keep).symm
  | _ => exact (Edit.apply_keep).symm

/-! ## What an operation does to the references -/

def RefundOp.writtenRef : RefundOp → Refund → Option String
  | settle s, r => if r.id = s.id then s.details.providerRefundRef else none
  | setDetails id details _, r => if r.id = id then details.providerRefundRef else none
  | _, _ => none

theorem ref_update {l : List Refund} {sel : Refund → Bool} {f : Refund → Refund} {written : Refund → Option String}
    {r' : Refund} (hr' : r' ∈ Tables.update sel f l) (hClaim : ∀ r, (f r).claim = r.claim)
    (hRef : ∀ r, sel r = true → ∀ ref, (f r).providerRefundRef = some ref →
      r.providerRefundRef = some ref ∨ written r = some ref) : ∃ r ∈ l, r'.claim = r.claim ∧
      ∀ ref, r'.providerRefundRef = some ref → r.providerRefundRef = some ref ∨ written r = some ref := by
  obtain ⟨r, hr, rfl⟩ := Tables.mem_update.mp hr'
  refine ⟨r, hr, ?_⟩
  split
  · rename_i hSel
    exact ⟨hClaim r, hRef r hSel⟩
  · exact ⟨rfl, fun _ h => .inl h⟩

theorem ref_withDetails {r : Refund} {details : RefundDetails} {ref : String}
    (h : (r.withDetails details).providerRefundRef = some ref) :
    r.providerRefundRef = some ref ∨ details.providerRefundRef = some ref := by
  cases hDetails : details.providerRefundRef with
  | none =>
    simp only [Refund.withDetails, hDetails, Option.none_or] at h
    exact .inl h
  | some ref' =>
    simp only [Refund.withDetails, hDetails, Option.some_or] at h
    exact .inr h

theorem RefundOp.refs_perform (op : RefundOp) (w : World) : ∀ r' ∈ (op.perform w).2.refunds,
    (∃ r ∈ w.refunds, r'.claim = r.claim ∧
      ∀ ref, r'.providerRefundRef = some ref → r.providerRefundRef = some ref ∨ op.writtenRef r = some ref) ∨
    ∃ draft, op = create draft ∧ r'.stake ∈ (op.edit w).born ∧ r'.providerRefundRef = draft.providerRefundRef := by
  intro r' hr'
  have hSame : r' ∈ w.refunds → (∃ r ∈ w.refunds, r'.claim = r.claim ∧
      ∀ ref, r'.providerRefundRef = some ref → r.providerRefundRef = some ref ∨ op.writtenRef r = some ref) ∨
      ∃ draft, op = create draft ∧ r'.stake ∈ (op.edit w).born ∧ r'.providerRefundRef = draft.providerRefundRef :=
    fun h => .inl ⟨r', h, rfl, fun _ h => .inl h⟩
  cases op with
  | create draft =>
    simp only [perform] at hr'
    split at hr'
    · exact hSame hr'
    · rename_i hFree
      rcases List.mem_append.mp hr' with hr' | hr'
      · exact hSame hr'
      · cases List.mem_singleton.mp hr'
        refine .inr ⟨draft, rfl, ?_, rfl⟩
        rw [edit, if_neg hFree]
        exact List.mem_singleton_self _
  | deleteUnreserved claim => exact hSame (List.mem_of_mem_filter hr')
  | deleteRefused claim => exact hSame (List.mem_of_mem_filter hr')
  | markReserved claim => exact .inl (ref_update hr' (fun _ => rfl) fun _ _ _ h => .inl h)
  | setOutcomeUnknown claim => exact .inl (ref_update hr' (fun _ => rfl) fun _ _ _ h => .inl h)
  | setLookup id time result => exact .inl (ref_update hr' (fun _ => rfl) fun _ _ _ h => .inl h)
  | unlease id => exact .inl (ref_update hr' (fun _ => rfl) fun _ _ _ h => .inl h)
  | lease id now expiry =>
    simp only [perform] at hr'
    split at hr'
    · exact hSame hr'
    · exact .inl (ref_update hr' (fun _ => rfl) fun _ _ _ h => .inl h)
  | setDetails id details clearUnknown =>
    simp only [perform] at hr'
    split at hr'
    · exact hSame hr'
    · split at hr'
      · exact hSame hr'
      · refine .inl (ref_update hr' (fun _ => rfl) fun r hSel ref h => ?_)
        rw [writtenRef, if_pos (of_decide_eq_true hSel)]
        exact ref_withDetails h
  | settle s =>
    simp only [perform] at hr'
    split at hr'
    · exact hSame hr'
    · split at hr'
      · exact hSame hr'
      · refine .inl (ref_update hr' (fun _ => rfl) fun r hSel ref h => ?_)
        rw [Bool.and_eq_true] at hSel
        rw [writtenRef, if_pos (of_decide_eq_true hSel.1)]
        exact ref_withDetails h
  | _ => exact hSame hr'

theorem Op.refs_perform (o : Op) (a : Answer) (w : World) : ∀ r' ∈ (o.perform a w).2.refunds,
    (∃ r ∈ w.refunds, r'.claim = r.claim ∧ ∀ ref, r'.providerRefundRef = some ref →
      r.providerRefundRef = some ref ∨ ∃ op, o = .refund op ∧ op.writtenRef r = some ref) ∨
    ∃ draft, o = .refund (.create draft) ∧ r'.stake ∈ (o.edit w).born ∧ r'.providerRefundRef = draft.providerRefundRef := by
  intro r' hr'
  have hSame : (o.perform a w).2.refunds = w.refunds → (∃ r ∈ w.refunds, r'.claim = r.claim ∧
      ∀ ref, r'.providerRefundRef = some ref → r.providerRefundRef = some ref ∨
        ∃ op, o = .refund op ∧ op.writtenRef r = some ref) ∨
      ∃ draft, o = .refund (.create draft) ∧ r'.stake ∈ (o.edit w).born ∧ r'.providerRefundRef = draft.providerRefundRef :=
    fun h => .inl ⟨r', h ▸ hr', rfl, fun _ h => .inl h⟩
  cases o with
  | refund op =>
    rcases op.refs_perform w r' hr' with ⟨r, hr, hClaim, hRef⟩ | ⟨draft, rfl, hBorn, hRef⟩
    · exact .inl ⟨r, hr, hClaim, fun ref h => (hRef ref h).imp id fun hWritten => ⟨op, rfl, hWritten⟩⟩
    · exact .inr ⟨draft, rfl, hBorn, hRef⟩
  | payment op => exact hSame (op.refunds_perform w).1
  | event op => exact hSame ((congrArg World.refunds (op.perform_fields w)).trans rfl)
  | account op => exact hSame ((congrArg World.refunds (op.perform_fields w)).trans rfl)
  | provider op => exact hSame ((congrArg World.refunds (op.perform_fields a w)).trans rfl)
  | order op => cases op <;> exact hSame rfl
  | _ => exact hSame rfl

/-! ## What an operation does to the payments -/

def statusBlocked (w : World) (sel : Payment → Bool) (next : PaymentStatus) : Bool :=
  next = .paid && ((w.payments.find? sel).map (paidTaken w.payments)).getD false

def PaymentOp.revise : PaymentOp → World → Payment → Payment
  | reserve payment claim, _, p =>
    if p.id = payment.id && p.status.refundable && p.totalRefunded + claim.amount ≤ p.amount then
      p.addRefunded claim.amount
    else p
  | release payment claim, _, p => if p.id = payment.id then p.addRefunded (-claim.amount) else p
  | count refund, _, p => if p.id = refund.paymentId then p.addRefunded refund.amount else p
  | giveBack refund, _, p => if p.id = refund.paymentId then p.addRefunded (-refund.amount) else p
  | setStatus payment next, w, p =>
    if p.id = payment.id && !statusBlocked w (fun p => p.id = payment.id) next then p.withStatus next else p
  | transition payment next, w, p =>
    if p.id = payment.id && p.status ≠ next &&
        !statusBlocked w (fun p => p.id = payment.id && p.status ≠ next) next then p.withStatus next
    else p
  | _, _, p => p

def PaymentOp.opened : PaymentOp → World → List Payment
  | create draft, w =>
    if draft.amount < 0 ∨ paymentTaken w.payments draft then []
    else [{ draft with id := w.nextId, createdAt := w.now }]
  | _, _ => []

def Op.revise : Op → World → Payment → Payment
  | .payment op, w => op.revise w
  | _, _ => id

def Op.opened : Op → World → List Payment
  | .payment op, w => op.opened w
  | _, _ => []

theorem payments_update (l : List Payment) (sel : Payment → Bool) (f g : Payment → Payment)
    (h : ∀ p ∈ l, g p = if sel p then f p else p) : Tables.update sel f l = l.map g ++ [] := by
  rw [List.append_nil]
  exact (List.map_congr_left h).symm

theorem payments_same (l : List Payment) (g : Payment → Payment) (h : ∀ p ∈ l, g p = p) : l = l.map g ++ [] := by
  rw [List.append_nil, List.map_congr_left h, List.map_id']

theorem PaymentOp.payments_perform (op : PaymentOp) (w : World) :
    (op.perform w).2.payments = w.payments.map (op.revise w) ++ op.opened w := by
  have hSame : ∀ l : List Payment, l = l.map (fun p => p) ++ [] := fun l => by simp
  cases op with
  | create draft =>
    simp only [perform, opened]
    have hId : w.payments.map ((create draft).revise w) = w.payments := List.map_id' _
    rw [hId]
    split
    · rename_i h
      rw [if_pos (.inl h), List.append_nil]
    · rename_i h
      split
      · rename_i hTaken
        rw [if_pos (.inr hTaken), List.append_nil]
      · rename_i hTaken
        rw [if_neg (by simp [h, hTaken])]
  | reserve payment claim =>
    cases hFind : w.payments.find? fun p => p.id = payment.id && p.status.refundable &&
        p.totalRefunded + claim.amount ≤ p.amount with
    | none =>
      simp only [perform, opened, hFind]
      refine payments_same _ _ fun p hp => ?_
      exact if_neg (List.find?_eq_none.mp hFind p hp)
    | some stored =>
      simp only [perform, opened, hFind]
      exact payments_update _ _ _ _ fun p _ => rfl
  | release payment claim => exact payments_update _ _ _ _ fun p _ => by simp only [revise, decide_eq_true_eq]
  | count refund => exact payments_update _ _ _ _ fun p _ => by simp only [revise, decide_eq_true_eq]
  | giveBack refund => exact payments_update _ _ _ _ fun p _ => by simp only [revise, decide_eq_true_eq]
  | setStatus payment next =>
    cases hFind : w.payments.find? fun p => p.id = payment.id with
    | none =>
      simp only [perform, opened, hFind]
      refine payments_same _ _ fun p hp => ?_
      have hp := List.find?_eq_none.mp hFind p hp
      simp only [decide_eq_true_eq] at hp
      simp [revise, hp]
    | some stored =>
      simp only [perform, opened, hFind]
      split
      · rename_i hBlocked
        refine payments_same _ _ fun p hp => ?_
        simp [revise, statusBlocked, hFind, hBlocked]
      · rename_i hBlocked
        refine payments_update _ _ _ _ fun p _ => ?_
        simp only [not_and, Bool.not_eq_true] at hBlocked
        by_cases hNext : next = .paid
        · simp [revise, statusBlocked, hFind, hNext, hBlocked hNext]
        · simp [revise, statusBlocked, hFind, hNext]
  | transition payment next =>
    cases hFind : w.payments.find? fun p => p.id = payment.id && p.status ≠ next with
    | none =>
      simp only [perform, opened, hFind]
      refine payments_same _ _ fun p hp => ?_
      have hp := List.find?_eq_none.mp hFind p hp
      simp only [Bool.not_eq_true] at hp
      simp only [revise, hp, Bool.false_and, Bool.false_eq_true, if_false]
    | some stored =>
      have hRevise : ¬ (next = .paid ∧ paidTaken w.payments stored = true) →
          Tables.update (fun p => p.id = payment.id && p.status ≠ next) (·.withStatus next) w.payments =
            w.payments.map ((transition payment next).revise w) ++ [] := by
        intro hBlocked
        refine payments_update _ _ _ _ fun p _ => ?_
        simp only [not_and, Bool.not_eq_true] at hBlocked
        by_cases hNext : next = .paid
        · simp only [revise, statusBlocked, hFind, Option.map_some, Option.getD_some, hBlocked hNext,
            Bool.and_false, Bool.not_false, Bool.and_true]
        · simp only [revise, statusBlocked, hNext, decide_false, Bool.false_and, Bool.not_false, Bool.and_true]
      simp only [perform, opened, hFind]
      split
      · rename_i hBlocked
        have hTaken : statusBlocked w (fun p => p.id = payment.id && p.status ≠ next) next = true := by
          simp only [statusBlocked, hFind, Option.map_some, Option.getD_some, hBlocked.2, Bool.and_true,
            decide_eq_true_eq]
          exact hBlocked.1
        refine payments_same _ _ fun p hp => ?_
        simp only [revise, hTaken, Bool.not_true, Bool.and_false, Bool.false_eq_true, if_false]
      · rename_i hBlocked
        split
        · exact hRevise hBlocked
        · split <;> exact hRevise hBlocked
  | _ => exact hSame _

theorem RefundOp.perform_fields (op : RefundOp) (w : World) :
    (op.perform w).2 = { w with refunds := (op.perform w).2.refunds, nextId := (op.perform w).2.nextId } := by
  cases op with
  | create draft =>
    simp only [perform]
    split <;> rfl
  | setDetails id details clearUnknown =>
    simp only [perform]
    split
    · rfl
    · split <;> rfl
  | settle s =>
    simp only [perform]
    split
    · rfl
    · split <;> rfl
  | lease id now expiry =>
    simp only [perform]
    split <;> rfl
  | _ => rfl

theorem Op.payments_perform (o : Op) (a : Answer) (w : World) :
    (o.perform a w).2.payments = w.payments.map (o.revise w) ++ o.opened w := by
  have hSame : w.payments = w.payments.map id ++ [] := by simp
  cases o with
  | payment op => exact op.payments_perform w
  | refund op => exact (congrArg World.payments (op.perform_fields w)).trans hSame
  | event op => exact (congrArg World.payments (op.perform_fields w)).trans hSame
  | account op => exact (congrArg World.payments (op.perform_fields w)).trans hSame
  | provider op => exact (congrArg World.payments (op.perform_fields a w)).trans hSame
  | order op => cases op <;> exact hSame
  | _ => exact hSame

def Op.adds : Op → Bool
  | .payment (.reserve _ _) | .payment (.release _ _) | .payment (.count _) | .payment (.giveBack _) => true
  | _ => false

/-- Only the refunded total and the status of a payment are ever revised. -/
theorem Op.revise_same {β : Type} {f : Payment → β} (o : Op) (w : World) (p : Payment)
    (hRefunded : o.adds = true → ∀ amount, f (p.addRefunded amount) = f p) (hStatus : ∀ status, f (p.withStatus status) = f p) :
    f (o.revise w p) = f p := by
  have hIte : ∀ (c : Prop) [Decidable c] (q : Payment), f q = f p → f (if c then q else p) = f p := by
    intro c _ q hSame
    split
    · exact hSame
    · rfl
  cases o with
  | payment op =>
    cases op with
    | reserve | release | count | giveBack => exact hIte _ _ (hRefunded rfl _)
    | setStatus | transition => exact hIte _ _ (hStatus _)
    | _ => rfl
  | _ => rfl

theorem Op.revise_id (o : Op) (w : World) (p : Payment) : (o.revise w p).id = p.id :=
  o.revise_same w p (fun _ _ => rfl) fun _ => rfl

theorem Op.revise_amount (o : Op) (w : World) (p : Payment) : (o.revise w p).amount = p.amount :=
  o.revise_same w p (fun _ _ => rfl) fun _ => rfl

theorem Op.revise_orderId (o : Op) (w : World) (p : Payment) : (o.revise w p).orderId = p.orderId :=
  o.revise_same w p (fun _ _ => rfl) fun _ => rfl

theorem Op.revise_providerRef (o : Op) (w : World) (p : Payment) : (o.revise w p).providerRef = p.providerRef :=
  o.revise_same w p (fun _ _ => rfl) fun _ => rfl

theorem revise_reserve {w : World} {payment stored p : Payment} {claim : Refund} (hIds : (w.payments.map Payment.id).Nodup)
    (hp : p ∈ w.payments) (hFind : w.payments.find? (fun p => p.id = payment.id && p.status.refundable &&
      p.totalRefunded + claim.amount ≤ p.amount) = some stored) :
    ((Op.payment (.reserve payment claim)).revise w p).totalRefunded =
      p.totalRefunded + if p.id = payment.id then claim.amount else 0 := by
  change (if p.id = payment.id && p.status.refundable && p.totalRefunded + claim.amount ≤ p.amount then
    p.addRefunded claim.amount else p).totalRefunded = _
  by_cases hId : p.id = payment.id
  · have hSel := List.find?_some hFind
    have hStored : stored.id = payment.id := by
      simp only [Bool.and_eq_true, decide_eq_true_eq] at hSel
      exact hSel.1.1
    have hEq : stored = p := Tables.eq_of_id hIds (List.mem_of_find?_eq_some hFind) hp (hStored.trans hId.symm)
    rw [hEq] at hSel
    rw [if_pos hSel, if_pos hId]
    rfl
  · rw [if_neg (by simp [hId]), if_neg hId, add_zero]

theorem revise_reserveRefused {w : World} {payment p : Payment} {claim : Refund} (hp : p ∈ w.payments)
    (hFind : w.payments.find? (fun p => p.id = payment.id && p.status.refundable &&
      p.totalRefunded + claim.amount ≤ p.amount) = none) :
    (Op.payment (.reserve payment claim)).revise w p = p :=
  if_neg (List.find?_eq_none.mp hFind p hp)

theorem Op.revise_total {o : Op} (h : o.adds = false) (w : World) (p : Payment) :
    (o.revise w p).totalRefunded = p.totalRefunded :=
  o.revise_same w p (fun hAdds => absurd (h.symm.trans hAdds) Bool.false_ne_true) fun _ => rfl

theorem Op.adds_quiet {o : Op} (h : o.quiet = true) : o.adds = false := by
  cases o with
  | payment op => cases op <;> first | rfl | cases h
  | _ => rfl

theorem Move.opened {o : Op} {a : Answer} {w : World} {pt pt' : Point} {p : Payment} (h : Move o a w pt pt')
    (hp : p ∈ o.opened w) : p.totalRefunded = 0 ∧ 0 ≤ p.amount ∧ p.status.inFlight = true ∧ o.edit w = .keep ∧
      pt'.phase = .idle := by
  induction h with
  | charge hph hStatus hTotal =>
    simp only [Op.opened, PaymentOp.opened] at hp
    split at hp
    · cases hp
    · rename_i hDraft
      cases List.mem_singleton.mp hp
      exact ⟨hTotal, not_lt.mp fun hLt => hDraft (.inl hLt), hStatus, rfl, rfl⟩
  | @quiet o _ _ _ _ ho | @rest o _ _ _ _ ho =>
    cases o with
    | payment op => cases op <;> first | cases hp | cases ho
    | _ => cases hp
  | see hph hRead => cases hRead <;> cases hp
  | _ => cases hp

theorem Op.mem_opened {o : Op} {w : World} {p : Payment} (h : p ∈ o.opened w) : p.id = w.nextId := by
  cases o with
  | payment op =>
    cases op with
    | create draft =>
      simp only [opened, PaymentOp.opened] at h
      split at h
      · cases h
      · cases List.mem_singleton.mp h
        rfl
    | _ => cases h
  | _ => cases h

theorem Op.opened_length (o : Op) (w : World) : (o.opened w).length ≤ 1 := by
  cases o with
  | payment op =>
    cases op with
    | create draft =>
      simp only [opened, PaymentOp.opened]
      split
      · exact Nat.zero_le _
      · exact le_refl _
    | _ => exact Nat.zero_le _
  | _ => exact Nat.zero_le _

/-! ## What an operation does to the rest -/

/-- The requests the provider has received and not processed, after the
operation. -/
def Op.inbox : Op → Answer → List RefundRequest → List RefundRequest
  | .provider (.refundSent call), _, l => l ++ [call.request]
  | .provider (.refundAnswered call), a, l =>
    match a.refund with
    | .error e => if e.isRejected then l.erase call.request else l
    | .ok _ => l
  | _, _, l => l

theorem Op.received_perform (o : Op) (a : Answer) (w : World) :
    (o.perform a w).2.received = o.inbox a w.received := by
  cases o with
  | refund op => exact (congrArg World.received (op.perform_fields w)).trans rfl
  | payment op => exact (op.refunds_perform w).2.1
  | event op => exact (congrArg World.received (op.perform_fields w)).trans rfl
  | account op => exact (congrArg World.received (op.perform_fields w)).trans rfl
  | order op => cases op <;> rfl
  | provider op =>
    cases op with
    | refundAnswered call =>
      cases hAnswer : a.refund with
      | error e =>
        simp only [perform, ProviderOp.perform, inbox, hAnswer]
        split <;> rfl
      | ok result => simp only [perform, ProviderOp.perform, inbox, hAnswer]
    | _ => rfl
  | _ => rfl

theorem Op.ledger_perform (o : Op) (a : Answer) (w : World) : (o.perform a w).2.ledger = w.ledger ∧
    (o.perform a w).2.refundRefs = w.refundRefs ∧ (o.perform a w).2.now = w.now := by
  have hFields : ∀ {w' : World} {nextId refunds webhookEvents accounts received},
      w' = { w with nextId, refunds, webhookEvents, accounts, received } →
      w'.ledger = w.ledger ∧ w'.refundRefs = w.refundRefs ∧ w'.now = w.now := by
    rintro _ _ _ _ _ _ rfl
    exact ⟨rfl, rfl, rfl⟩
  cases o with
  | refund op => exact hFields (op.perform_fields w)
  | payment op => exact (op.refunds_perform w).2.2
  | event op => exact hFields (op.perform_fields w)
  | account op => exact hFields (op.perform_fields w)
  | provider op => exact hFields (op.perform_fields a w)
  | order op => cases op <;> exact ⟨rfl, rfl, rfl⟩
  | _ => exact ⟨rfl, rfl, rfl⟩

theorem RefundOp.nextId_perform (op : RefundOp) (w : World) :
    (op.perform w).2.nextId = w.nextId + (op.edit w).born.length := by
  cases op with
  | create draft =>
    simp only [perform, edit]
    split <;> rfl
  | setDetails id details clearUnknown =>
    simp only [perform]
    split
    · rfl
    · split <;> rfl
  | settle s =>
    cases hFind : w.refunds.find? fun r => r.id = s.id && r.status = s.source with
    | none =>
      simp only [perform, edit, hFind]
      rfl
    | some before =>
      simp only [perform, edit, hFind]
      split <;> rfl
  | lease id now expiry =>
    simp only [perform]
    split <;> rfl
  | _ => rfl

theorem PaymentOp.nextId_perform (op : PaymentOp) (w : World) :
    (op.perform w).2.nextId = w.nextId + (op.opened w).length := by
  cases op with
  | create draft =>
    simp only [perform, opened]
    split
    · rename_i h
      rw [if_pos (.inl h)]
      rfl
    · rename_i h
      split
      · rename_i hTaken
        rw [if_pos (.inr hTaken)]
        rfl
      · rename_i hTaken
        rw [if_neg (by simp [h, hTaken])]
        rfl
  | reserve payment claim =>
    simp only [perform]
    split <;> rfl
  | setStatus payment next =>
    simp only [perform]
    split
    · rfl
    · split <;> rfl
  | transition payment next =>
    simp only [perform]
    split
    · rfl
    · split
      · rfl
      · split
        · rfl
        · split <;> rfl
  | _ => rfl

theorem AccountOp.nextId_perform (op : AccountOp) (w : World) : w.nextId ≤ (op.perform w).2.nextId := by
  cases op with
  | insert account =>
    simp only [perform]
    split
    · exact le_refl _
    · exact Nat.le_succ _
  | save loaded account =>
    simp only [perform]
    split
    · exact le_refl _
    · split <;> exact le_refl _
  | _ => exact le_refl _

theorem Op.nextId_perform (o : Op) (a : Answer) (w : World) :
    w.nextId + (o.edit w).born.length + (o.opened w).length ≤ (o.perform a w).2.nextId := by
  cases o with
  | refund op => exact (op.nextId_perform w).ge
  | payment op => exact (op.nextId_perform w).ge
  | event op => exact ((congrArg World.nextId (op.perform_fields w)).trans rfl).ge
  | account op => exact op.nextId_perform w
  | provider op => exact ((congrArg World.nextId (op.perform_fields a w)).trans rfl).ge
  | order op => cases op <;> exact le_refl _
  | _ => exact le_refl _

theorem Event.advance_fields (e : Event) (w : World) : (e.advance w).stakes = w.stakes ∧
    (e.advance w).payments = w.payments ∧ (e.advance w).nextId = w.nextId := by
  cases e with
  | process index status =>
    simp only [advance]
    split <;> exact ⟨rfl, rfl, rfl⟩
  | _ => exact ⟨rfl, rfl, rfl⟩

section NextId

variable (o : Op) (a : Answer) (w : World)

theorem Op.nextId_le : w.nextId ≤ (o.perform a w).2.nextId :=
  ((Nat.le_add_right _ _).trans (Nat.le_add_right _ _)).trans (o.nextId_perform a w)

theorem Op.nextId_born {s : Stake} (h : s ∈ (o.edit w).born) : w.nextId < (o.perform a w).2.nextId :=
  ((Nat.lt_add_of_pos_right (List.length_pos_of_mem h)).trans_le (Nat.le_add_right _ _)).trans_le
    (o.nextId_perform a w)

theorem Op.nextId_opened {p : Payment} (h : p ∈ o.opened w) : w.nextId < (o.perform a w).2.nextId :=
  ((Nat.le_add_right _ _).trans_lt (Nat.lt_add_of_pos_right (List.length_pos_of_mem h))).trans_le
    (o.nextId_perform a w)

end NextId

end RestaurantOs.Payments
