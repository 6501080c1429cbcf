import Mathlib.Data.List.Count
import RestaurantOs.Async.Protocol
import RestaurantOs.Loyalty.Bookings

/-!
# The balance and its ledger

A reversal writes its rows before it saves the balance, so between the two the
ledger is ahead of the balance by what the reversal has still to save. Reversals
that save over a balance that changed meanwhile lose that change.
-/

namespace RestaurantOs.Loyalty

open Async Prog

/-- The two rows of a reversal: points taken back, and points given back. -/
inductive Side
  | taken | given
  deriving DecidableEq

def Side.has (points : ℚ) : Side → Bool
  | taken => points < 0
  | given => 0 < points

theorem Side.eq_of_has {points : ℚ} {side side' : Side} (h : side.has points = true) (h' : side'.has points = true) :
    side = side' := by
  cases side <;> cases side' <;> simp only [Side.has, decide_eq_true_eq] at h h' <;> first | rfl | linarith

/-- Where a request stands with a reversal: before the account was loaded, or
with the account it loaded, what its rows add up to, and the rows it may still
write. -/
inductive Stage
  | out
  | flipped (key : AccountKey) (id : Id)
  | loaded (key : AccountKey) (id : Id) (account : LoyaltyAccount) (written : ℚ) (may : Side → Bool)
  | lost

namespace Stage

def pending (key : AccountKey) : Stage → ℚ
  | loaded key' _ _ written _ => if key' = key then written else 0
  | _ => 0

def owes (side : Side) (id : Id) : Stage → ℤ
  | flipped _ id' => if id' = id then 1 else 0
  | loaded _ id' _ _ may => if id' = id ∧ may side = true then 1 else 0
  | _ => 0

def Rest : Stage → Prop
  | out => True
  | flipped _ _ => False
  | loaded _ _ _ written _ => written = 0
  | lost => True

/-- The copy that a reversal saves: the account it loaded with what its rows
add up to. -/
structure Copies (account copy : LoyaltyAccount) (written : ℚ) : Prop where
  key : copy.key = account.key
  balance : copy.pointsBalance = account.pointsBalance + written
  loadedSound : account.Sound
  sound : copy.Sound

def harmless : TableOp → Bool
  | .clock | .recordPromoUsage | .account (.findOne _) | .order (.findOne _ _) | .order (.findById _) | .order (.save _ _) => true
  | _ => false

inductive Move (a : Answer) (w : World) : Op → Stage → Stage → Prop
  | other {op : TableOp} {st : Stage} : harmless op = true → Move a w (.table op) st st
  | place {input : OrderInput} : Move a w (.transaction (placeOrder input)) .out .out
  | flip {id : Id} (key : AccountKey) :
      Move a w (.table (.order (.flipReversed id))) .out (if w.orders.any (Order.unreversed id) then .flipped key id else .out)
  | missing {key : AccountKey} {id : Id} :
      w.account? key = none → Move a w (.table (.account (.findOne key))) (.flipped key id) .out
  | load {key : AccountKey} {id : Id} {account : LoyaltyAccount} : w.account? key = some account → account.Sound →
      Move a w (.table (.account (.findOne key))) (.flipped key id) (.loaded key id account 0 fun _ => true)
  | lose {key : AccountKey} {id : Id} {account : LoyaltyAccount} : w.account? key = some account → ¬ account.Sound →
      Move a w (.table (.account (.findOne key))) (.flipped key id) .lost
  | row {key : AccountKey} {id : Id} {account : LoyaltyAccount} {written points : ℚ} {may : Side → Bool} {reason : String}
      (side : Side) : side.has points = true → may side = true →
      Move a w (.table (.createTransaction (adjustment key id points reason))) (.loaded key id account written may)
        (.loaded key id account (written + points) (Function.update may side false))
  | save {id : Id} {account copy : LoyaltyAccount} {written : ℚ} {may : Side → Bool} : Copies account copy written →
      Move a w (.table (.account (.save account copy))) (.loaded account.key id account written may) .out
  | stray {o : Op} : Move a w o .lost .lost

end Stage

@[reducible] def reversing : Protocol Op World Answer where
  Point := Stage
  Move o a w := Stage.Move a w o
  Rest := Stage.Rest

/-! ## The requests follow -/

section Follows

variable {key : AccountKey} {id : Id} {account : LoyaltyAccount} {st : Stage}

theorem follows_lost (p : Promise Unit) :
    p.Follows store reversing .lost (fun _ st => st.Rest) (fun _ st => st.Rest) := by
  induction p with
  | ret _ => trivial
  | raise _ => trivial
  | await o k ih => exact fun a w => ⟨.lost, .stray, ih _⟩

theorem follows_harmless {op : TableOp} {Q : op.Resp → Stage → Prop} {E : Err → Stage → Prop} (hOp : Stage.harmless op = true)
    (hQ : ∀ v, Q v st) (hE : ∀ e, E e st) : (tableOp op).Follows store reversing st Q E := by
  refine follows_call.mpr fun a w => ⟨st, .other hOp, ?_⟩
  split
  · exact hQ _
  · exact hE _

theorem clawBack_follows (taken : ℚ) (p : Promise Unit)
    (h : ∀ may : Side → Bool, may .given = true → p.Follows store reversing
      (.loaded key id account (if taken > 0 then -taken else 0) may) (fun _ st => st.Rest) (fun _ st => st.Rest)) :
    ((clawBack key id taken).bind fun _ => p).Follows store reversing (.loaded key id account 0 fun _ => true) (fun _ st => st.Rest)
      (fun _ st => st.Rest) := by
  rw [follows_bind, clawBack]
  refine follows_onlyIf (fun hTaken => ?_) fun hNone => ?_
  · refine follows_call.mpr fun a w => ⟨_, .row .taken (decide_eq_true (neg_neg_of_pos hTaken)) rfl, ?_⟩
    have hRest := h (Function.update (fun _ => true) .taken false) rfl
    rwa [if_pos hTaken, ← zero_add (-taken)] at hRest
  · have hRest := h (fun _ => true) rfl
    rwa [if_neg hNone] at hRest

theorem giveBack_follows (redeemed written : ℚ) (may : Side → Bool) (hMay : may .given = true) (p : Promise Unit)
    (h : ∀ may : Side → Bool, p.Follows store reversing
      (.loaded key id account (if redeemed > 0 then written + redeemed else written) may) (fun _ st => st.Rest) (fun _ st => st.Rest)) :
    ((giveBack key id redeemed).bind fun _ => p).Follows store reversing (.loaded key id account written may)
      (fun _ st => st.Rest) (fun _ st => st.Rest) := by
  rw [follows_bind, giveBack]
  refine follows_onlyIf (fun hRedeemed => ?_) fun hNone => ?_
  · refine follows_call.mpr fun a w => ⟨_, .row .given (decide_eq_true hRedeemed) hMay, ?_⟩
    have hRest := h (Function.update may .given false)
    rwa [if_pos hRedeemed] at hRest
  · have hRest := h may
    rwa [if_neg hNone] at hRest

theorem reverseLoyaltyForOrder_follows (earned redeemed : ℚ) :
    (reverseLoyaltyForOrder key id earned redeemed).Follows store reversing (.flipped key id) (fun _ st => st.Rest)
      (fun _ st => st.Rest) := by
  rw [reverseLoyaltyForOrder, bind_eq, follows_bind]
  refine follows_call.mpr fun a w => ?_
  cases hAccount : w.account? key with
  | none =>
    refine ⟨.out, .missing hAccount, ?_⟩
    simp only [Op.perform, TableOp.perform, AccountOp.perform, hAccount]
    trivial
  | some account =>
    by_cases hSound : account.Sound
    · refine ⟨_, .load hAccount hSound, ?_⟩
      simp only [Op.perform, TableOp.perform, AccountOp.perform, hAccount]
      have hKey := w.key_of_account? hAccount
      subst hKey
      refine clawBack_follows _ _ fun may hMay => giveBack_follows _ _ may hMay _ fun may => ?_
      generalize hTaken : clawback earned account.pointsBalance = taken
      have hNonneg := reversedBalance_nonneg redeemed hSound.nonneg (hTaken ▸ clawback_le hSound.nonneg)
      obtain ⟨tier, hTier⟩ := tierForPoints_of_nonneg hNonneg
      refine follows_onlyIf (fun _ => ?_) fun hNone => ?_
      · rw [hTier, bind_eq, Prog.ofExcept, ret_bind]
        exact follows_call.mpr fun a w => ⟨.out, .save ⟨rfl, reversedBalance_eq _ _ _, hSound, hNonneg, hTier⟩, by
          simp only [Op.perform, TableOp.perform, AccountOp.perform]
          split <;> trivial⟩
      · rw [not_or] at hNone
        rw [if_neg hNone.2, if_neg hNone.1]
        rfl
    · refine ⟨.lost, .lose hAccount hSound, ?_⟩
      exact follows_lost _

theorem reverseLoyaltyForOrderIfNeeded_follows (order : Order) :
    (reverseLoyaltyForOrderIfNeeded order).Follows store reversing .out (fun _ st => st.Rest) (fun _ st => st.Rest) := by
  rw [reverseLoyaltyForOrderIfNeeded]
  split
  · trivial
  · rw [bind_eq, follows_bind]
    refine follows_call.mpr fun a w => ⟨_, .flip order.key, ?_⟩
    simp only [Op.perform, TableOp.perform, OrderOp.perform]
    cases w.orders.any (Order.unreversed order.id) with
    | false => trivial
    | true => exact reverseLoyaltyForOrder_follows _ _

theorem createOrderForCustomer_follows (input : OrderInput) :
    (createOrderForCustomer input).Follows store reversing .out (fun _ st => st.Rest) (fun _ st => st.Rest) := by
  rw [createOrderForCustomer]
  split
  · trivial
  · rw [bind_eq, follows_bind]
    refine follows_call.mpr fun a w => ⟨.out, .place, ?_⟩
    split <;> trivial

theorem cancelMyOrder_follows (id userId : Id) :
    (cancelMyOrder id userId).Follows store reversing .out (fun _ st => st.Rest) (fun _ st => st.Rest) := by
  rw [cancelMyOrder, bind_eq, follows_bind]
  refine follows_harmless rfl (fun order => ?_) fun _ => trivial
  cases order with
  | none => trivial
  | some order =>
    dsimp only
    split
    · trivial
    · split
      · trivial
      · rw [bind_eq, follows_bind]
        refine follows_harmless rfl (fun now => ?_) fun _ => trivial
        rw [bind_eq, follows_bind]
        exact follows_harmless rfl (fun _ => reverseLoyaltyForOrderIfNeeded_follows order) fun _ => trivial

theorem applyOrderStatusTransition_follows (orderId restaurantId : Id) (nextStatus : OrderStatus) :
    (applyOrderStatusTransition orderId restaurantId nextStatus).Follows store reversing .out (fun _ st => st.Rest)
      (fun _ st => st.Rest) := by
  rw [applyOrderStatusTransition, bind_eq, follows_bind]
  refine follows_harmless rfl (fun order => ?_) fun _ => trivial
  cases order with
  | none => trivial
  | some order =>
    dsimp only
    split
    · trivial
    · split
      · trivial
      · rw [bind_eq, follows_bind]
        refine follows_harmless rfl (fun now => ?_) fun _ => trivial
        rw [bind_eq, follows_bind]
        refine follows_harmless rfl (fun _ => ?_) fun _ => trivial
        exact follows_onlyIf (fun _ => reverseLoyaltyForOrderIfNeeded_follows order) fun _ => trivial

theorem reverseRefunded_follows (orderId : Id) :
    (reverseRefunded orderId).Follows store reversing .out (fun _ st => st.Rest) (fun _ st => st.Rest) := by
  rw [reverseRefunded, bind_eq, follows_bind]
  refine follows_harmless rfl (fun order => ?_) fun _ => trivial
  cases order with
  | none => trivial
  | some order => exact reverseLoyaltyForOrderIfNeeded_follows order

theorem Request.program_follows (r : Request) :
    r.program.Follows store reversing .out (fun _ st => st.Rest) (fun _ st => st.Rest) := by
  cases r with
  | createOrder input => exact createOrderForCustomer_follows input
  | cancelMyOrder id userId => exact cancelMyOrder_follows id userId
  | updateOrderStatus orderId restaurantId nextStatus => exact applyOrderStatusTransition_follows orderId restaurantId nextStatus
  | fullRefund orderId => exact reverseRefunded_follows orderId

end Follows

/-! ## The books of a run -/

def LoyaltyTransaction.reverses (side : Side) (id : Id) (row : LoyaltyTransaction) : Bool :=
  row.orderId = id && row.type = .adjustment && side.has row.points

def World.ReversedOnce (w : World) (id : Id) : Prop := ∀ side, w.transactions.countP (·.reverses side id) ≤ 1

def World.reversals (w : World) (id : Id) : ℤ := if w.orders.any fun o => o.id = id && o.loyaltyReversed then 1 else 0

/-- The world, and the requests with what they have not saved yet. -/
structure Keeping (w : World) (pts : List Stage) : Prop where
  balance : ∀ key, w.balance key + Tables.total (Stage.pending key) pts = w.ledger key
  sound : w.Sound
  once : ∀ side id, (w.transactions.countP (·.reverses side id) : ℤ) + Tables.total (Stage.owes side id) pts ≤ w.reversals id
  ids : (w.orders.map (·.id)).Nodup
  fresh : ∀ o ∈ w.orders, o.id < w.nextId
  found : ∀ st ∈ pts, st ≠ .lost

section Keeping

variable {w w' : World} {pts : List Stage} {pt pt' : Stage} {t : Nat} {a : Answer} {o : Op}

theorem Keeping.moved (h : Keeping w pts) (hPoint : pts[t]? = some pt)
    (hBalance : ∀ key, w'.balance key + pt'.pending key + w.ledger key = w.balance key + pt.pending key + w'.ledger key)
    (hSound : w'.Sound)
    (hOnce : ∀ side id, (w'.transactions.countP (·.reverses side id) : ℤ) + pt'.owes side id + w.reversals id ≤
      w.transactions.countP (·.reverses side id) + pt.owes side id + w'.reversals id)
    (hIds : (w'.orders.map (·.id)).Nodup) (hFresh : ∀ o ∈ w'.orders, o.id < w'.nextId) (hFound : pt' ≠ .lost) :
    Keeping w' (pts.set t pt') := by
  refine ⟨fun key => ?_, hSound, fun side id => ?_, hIds, hFresh, fun st hst => ?_⟩
  · have hOld := h.balance key
    rw [Tables.total_set hPoint]
    linarith [hBalance key]
  · have hOld := h.once side id
    rw [Tables.total_set hPoint]
    linarith [hOnce side id]
  · rcases List.mem_or_eq_of_mem_set hst with hst | rfl
    · exact h.found st hst
    · exact hFound

theorem Keeping.unmoved (h : Keeping w pts) (hPoint : pts[t]? = some pt) (hAccounts : w'.accounts = w.accounts)
    (hRows : w'.transactions = w.transactions) (hNext : w'.nextId = w.nextId) (hIds : w'.orders.map (·.id) = w.orders.map (·.id))
    (hPending : ∀ key, pt'.pending key = pt.pending key)
    (hOwes : ∀ side id, pt'.owes side id + w.reversals id ≤ pt.owes side id + w'.reversals id) (hFound : pt' ≠ .lost) :
    Keeping w' (pts.set t pt') := by
  have hAccount : ∀ key, w'.account? key = w.account? key := fun key => by rw [World.account?, hAccounts, World.account?]
  refine h.moved hPoint (fun key => ?_) ?_ (fun side id => ?_) (hIds ▸ h.ids) ?_ hFound
  · rw [World.balance, World.balance, hAccount, World.ledger, World.ledger, hRows, hPending]
  · intro key account hFind
    rw [hAccount] at hFind
    exact h.sound key account hFind
  · rw [hRows]
    linarith [hOwes side id]
  · intro o ho
    have hId : o.id ∈ w.orders.map (·.id) := hIds ▸ List.mem_map_of_mem ho
    obtain ⟨o', ho', hEq⟩ := List.mem_map.mp hId
    rw [hNext, ← hEq]
    exact h.fresh o' ho'

theorem reversals_update {f : Order → Order} {sel : Order → Bool}
    (hKeep : ∀ o, (f o).id = o.id ∧ (f o).loyaltyReversed = o.loyaltyReversed) (id : Id) :
    (w.updateOrders sel f).reversals id = w.reversals id := by
  have hSame : ∀ o : Order, ((if sel o then f o else o).id = id && (if sel o then f o else o).loyaltyReversed) =
      (decide (o.id = id) && o.loyaltyReversed) := by
    intro o
    split
    · rw [(hKeep o).1, (hKeep o).2]
    · rfl
  simp only [World.reversals, World.updateOrders, Tables.update, List.any_map, Function.comp_def, hSame]

theorem Keeping.harmless (h : Keeping w pts) (hPoint : pts[t]? = some pt) {op : TableOp} (hOp : Stage.harmless op = true) :
    Keeping (op.perform a w).2 (pts.set t pt) := by
  have hFound := h.found pt (List.mem_of_getElem? hPoint)
  have hSame : Keeping w (pts.set t pt) := h.unmoved hPoint rfl rfl rfl rfl (fun _ => rfl) (fun _ _ => le_refl _) hFound
  cases op with
  | order op =>
    cases op with
    | save order entry =>
      refine h.unmoved hPoint rfl rfl rfl ?_ (fun _ => rfl) (fun side id => ?_) hFound
      · exact Tables.map_update_eq (fun o : Order => o.id) fun _ => rfl
      · have hReversals : (w.updateOrders (·.id = order.id) (·.moved entry)).reversals id = w.reversals id :=
          reversals_update (f := (·.moved entry)) (fun _ => ⟨rfl, rfl⟩) id
        exact (congrArg (pt.owes side id + ·) hReversals).ge
    | findOne id restaurantId => exact hSame
    | findById id => exact hSame
    | _ => cases hOp
  | account op =>
    cases op with
    | findOne key => exact hSame
    | _ => cases hOp
  | clock => exact hSame
  | recordPromoUsage => exact hSame
  | _ => cases hOp

theorem Keeping.place (h : Keeping w pts) (hPoint : pts[t]? = some .out) {input : OrderInput} :
    Keeping ((Op.transaction (placeOrder input)).perform a w).2 (pts.set t .out) := by
  have hSame : Keeping w (pts.set t .out) := h.unmoved hPoint rfl rfl rfl rfl (fun _ => rfl) (fun _ _ => le_refl _) (by simp)
  simp only [Op.perform]
  split
  · exact hSame
  · split
    · rename_i order w' hEval
      obtain ⟨rows, hPlaced⟩ := placeOrder_placed h.sound h.fresh hEval
      refine h.moved hPoint (fun key => ?_) hPlaced.sound (fun side id => ?_) ?_ (fun o ho => ?_) (by simp)
      · have hLedger : w'.ledger key = w.ledger key + booked key rows := by
          rw [World.ledger, hPlaced.transactions, booked_append]
          rfl
        rw [hPlaced.balance, hLedger]
        ring
      · have hNone : rows.countP (·.reverses side id) = 0 := by
          refine List.countP_eq_zero.mpr fun row hRow => ?_
          simp [LoyaltyTransaction.reverses, (hPlaced.entries_of row hRow).2]
        have hReversals : w'.reversals id = w.reversals id := by
          simp [World.reversals, hPlaced.orders, hPlaced.unreversed]
        rw [hPlaced.transactions, List.countP_append, hNone, hReversals, add_zero]
      · rw [hPlaced.orders, List.map_append, List.nodup_append]
        refine ⟨h.ids, List.nodup_singleton _, fun id hId id' hId' => ?_⟩
        obtain ⟨o, ho, rfl⟩ := List.mem_map.mp hId
        rw [List.map_singleton, List.mem_singleton, hPlaced.id] at hId'
        exact hId' ▸ (h.fresh o ho).ne
      · rw [hPlaced.orders, List.mem_append, List.mem_singleton] at ho
        rw [hPlaced.nextId]
        rcases ho with ho | rfl
        · exact (h.fresh o ho).trans (Nat.lt_succ_self _)
        · rw [hPlaced.id]
          exact Nat.lt_succ_self _
    · exact hSame

theorem reversals_flip (hIds : (w.orders.map (·.id)).Nodup) (id id' : Id) :
    (w.updateOrders (Order.unreversed id) Order.reversed).reversals id' =
      w.reversals id' + if id' = id ∧ w.orders.any (Order.unreversed id) = true then 1 else 0 := by
  have hAny : (w.updateOrders (Order.unreversed id) Order.reversed).orders.any (fun o => o.id = id' && o.loyaltyReversed) =
      (w.orders.any (fun o => o.id = id' && o.loyaltyReversed) ||
        w.orders.any fun o => o.id = id' && Order.unreversed id o) := by
    rw [Bool.eq_iff_iff]
    simp only [World.updateOrders, Tables.update, List.any_map, Bool.or_eq_true, List.any_eq_true, Function.comp_apply,
      ← exists_or, ← and_or_left]
    refine exists_congr fun o => and_congr_right fun _ => ?_
    cases hSel : Order.unreversed id o <;> simp +contextual [Order.reversed]
  rw [World.reversals, hAny, World.reversals]
  by_cases hId : id' = id
  · subst hId
    have hSame : (w.orders.any fun o => o.id = id' && Order.unreversed id' o) = w.orders.any (Order.unreversed id') := by
      congr 1
      funext o
      simp [Order.unreversed]
    rw [hSame]
    cases hUnreversed : w.orders.any (Order.unreversed id') with
    | false => simp
    | true =>
      have hNot : (w.orders.any fun o => o.id = id' && o.loyaltyReversed) = false := by
        obtain ⟨o, ho, hSel⟩ := List.any_eq_true.mp hUnreversed
        simp only [Order.unreversed, Bool.and_eq_true, decide_eq_true_eq, Bool.not_eq_true'] at hSel
        refine List.any_eq_false.mpr fun o' ho' hReversed => ?_
        simp only [Bool.and_eq_true, decide_eq_true_eq] at hReversed
        cases Tables.eq_of_id hIds ho ho' (hSel.1.trans hReversed.1.symm)
        rw [hSel.2] at hReversed
        cases hReversed.2
      simp [hNot]
  · have hNone : (w.orders.any fun o => o.id = id' && Order.unreversed id o) = false := by
      refine List.any_eq_false.mpr fun o _ hBoth => ?_
      simp only [Order.unreversed, Bool.and_eq_true, decide_eq_true_eq] at hBoth
      exact hId (hBoth.1.symm.trans hBoth.2.1)
    simp [hNone, hId]

theorem Keeping.flip (h : Keeping w pts) {id : Id} {key : AccountKey} (hPoint : pts[t]? = some .out) :
    Keeping ((OrderOp.flipReversed id).perform w).2
      (pts.set t (if w.orders.any (Order.unreversed id) then .flipped key id else .out)) := by
  refine h.unmoved hPoint rfl rfl rfl (Tables.map_update_eq (fun o : Order => o.id) fun _ => rfl) (fun _ => ?_) (fun side id' => ?_) ?_
  · split <;> rfl
  · have hFlip := reversals_flip h.ids id id'
    change _ ≤ _ + (w.updateOrders (Order.unreversed id) Order.reversed).reversals id'
    rw [hFlip]
    cases w.orders.any (Order.unreversed id) with
    | false => simp
    | true =>
      simp only [if_true, and_true, Stage.owes, eq_comm (a := id')]
      linarith
  · split <;> simp

theorem Keeping.row (h : Keeping w pts) {key : AccountKey} {id : Id} {account : LoyaltyAccount} {written points : ℚ}
    {may : Side → Bool} {reason : String} {side : Side} (hPoint : pts[t]? = some (.loaded key id account written may))
    (hHas : side.has points = true) (hMay : may side = true) :
    Keeping { w with transactions := w.transactions ++ [adjustment key id points reason] }
      (pts.set t (.loaded key id account (written + points) (Function.update may side false))) := by
  refine h.moved hPoint (fun key' => ?_) h.sound (fun side' id' => ?_) h.ids h.fresh (by simp)
  · have hLedger : ({ w with transactions := w.transactions ++ [adjustment key id points reason] } : World).ledger key' =
        w.ledger key' + if key = key' then points else 0 := by
      rw [World.ledger, booked_append, booked_singleton]
      rfl
    rw [hLedger, Stage.pending, Stage.pending]
    change w.balance key' + _ + _ = _
    by_cases hKey : key = key'
    · rw [if_pos hKey, if_pos hKey, if_pos hKey]
      ring
    · rw [if_neg hKey, if_neg hKey, if_neg hKey]
      ring
  · rw [List.countP_append, List.countP_singleton]
    change (_ : ℤ) + _ + w.reversals id' ≤ _ + _ + w.reversals id'
    simp only [Stage.owes, LoyaltyTransaction.reverses, adjustment, decide_true, Bool.and_true]
    by_cases hSide : side' = side
    · subst hSide
      by_cases hId : id = id' <;> simp [hId, hHas, hMay]
    · have hOther : side'.has points = false := by
        rw [Bool.eq_false_iff]
        exact fun h => hSide (Side.eq_of_has h hHas)
      simp [hOther, Function.update_of_ne hSide]

def World.savesLoaded (w : World) (loaded copy : LoyaltyAccount) : Bool :=
  copy.pointsBalance = loaded.pointsBalance || (w.account? copy.key).any (·.pointsBalance = loaded.pointsBalance)

theorem Keeping.save (h : Keeping w pts) {id : Id} {account copy : LoyaltyAccount} {written : ℚ} {may : Side → Bool}
    (hPoint : pts[t]? = some (.loaded account.key id account written may)) (hCopies : Stage.Copies account copy written)
    (hSaves : w.savesLoaded account copy = true) :
    Keeping ((AccountOp.save account copy).perform w).2 (pts.set t .out) := by
  have hOwes : ∀ side id', Stage.owes side id' .out ≤ Stage.owes side id' (.loaded account.key id account written may) := by
    intro side id'
    simp only [Stage.owes]
    split <;> simp
  rw [World.savesLoaded, Bool.or_eq_true, decide_eq_true_eq] at hSaves
  by_cases hSame : copy.pointsBalance = account.pointsBalance
  · -- Nothing is written.
    have hWritten : written = 0 := by linarith [hCopies.balance]
    obtain rfl := hCopies.sound.eq hCopies.loadedSound hCopies.key hSame
    have hPerform : ((AccountOp.save copy copy).perform w).2 = w := by
      simp only [AccountOp.perform, ne_eq, not_true_eq_false, false_and, if_false, LoyaltyAccount.saved, if_true, Tables.update,
        ite_self, List.map_id']
    rw [hPerform]
    refine h.unmoved hPoint rfl rfl rfl rfl (fun key => ?_) (fun side id' => add_le_add_left (hOwes side id') _) (by simp)
    simp [Stage.pending, hWritten]
  · -- The stored account is the one that was loaded.
    obtain ⟨stored, hStored, hBalance⟩ := (Option.any_eq_true _ _).mp (hSaves.resolve_left hSame)
    rw [decide_eq_true_eq] at hBalance
    have hKey := (w.key_of_account? hStored).trans hCopies.key
    obtain rfl := (h.sound _ _ hStored).eq hCopies.loadedSound hKey hBalance
    obtain ⟨accounts, hPerform, hAll⟩ := perform_save copy (hCopies.key ▸ hStored) hCopies.key hCopies.sound.nonneg
    rw [hPerform]
    refine h.moved hPoint (fun key => ?_) (sound_save hAll hCopies.sound h.sound) (fun side id' => ?_) h.ids h.fresh (by simp)
    · rw [balance_save hAll key]
      change _ + 0 + w.ledger key = w.balance key + Stage.pending key (.loaded stored.key id stored written may) + w.ledger key
      rw [Stage.pending]
      by_cases hKey' : key = stored.key
      · subst hKey'
        rw [if_pos rfl, if_pos rfl, hCopies.balance, w.balance_of (hCopies.key ▸ hStored)]
        ring
      · rw [if_neg hKey', if_neg (Ne.symm hKey')]
    · change (_ : ℤ) + _ + w.reversals id' ≤ _ + _ + w.reversals id'
      linarith [hOwes side id']

theorem Keeping.run (h : Keeping w pts) (hPoint : pts[t]? = some pt) (hMove : Stage.Move a w o pt pt')
    (hSaves : ∀ loaded copy, o = .table (.account (.save loaded copy)) → w.savesLoaded loaded copy = true) :
    Keeping (o.perform a w).2 (pts.set t pt') := by
  induction hMove with
  | other hOp => exact h.harmless hPoint hOp
  | place => exact h.place hPoint
  | flip key => exact h.flip hPoint
  | missing hNone =>
    refine h.unmoved hPoint rfl rfl rfl rfl (fun _ => rfl) (fun side id => ?_) (by simp)
    simp only [Stage.owes]
    split <;> simp [Op.perform, TableOp.perform, AccountOp.perform]
  | load hAccount hSound =>
    refine h.unmoved hPoint rfl rfl rfl rfl (fun key => ?_) (fun side id => ?_) (by simp)
    · simp [Stage.pending]
    · simp [Stage.owes, Op.perform, TableOp.perform, AccountOp.perform]
  | lose hAccount hUnsound => exact absurd (h.sound _ _ hAccount) hUnsound
  | row side hHas hMay => exact h.row hPoint hHas hMay
  | save hCopies => exact h.save hPoint hCopies (hSaves _ _ rfl)
  | stray => exact absurd rfl (h.found _ (List.mem_of_getElem? hPoint))

end Keeping

/-! ## Runs -/

def savesOverLoaded (c : State) : Label Answer Event → Bool
  | .run t _ =>
    match c.waiting? t with
    | some (.table (.account (.save loaded copy))) => c.state.savesLoaded loaded copy
    | _ => true
  | _ => true

def Idle (c : State) : Prop := ∀ th ∈ c.threads, th.born = none ∨ th.next? = none

instance (c : State) : Decidable (Idle c) :=
  inferInstanceAs (Decidable (∀ th ∈ c.threads, th.born = none ∨ th.next? = none))

/-- The accounts agree with the ledger, and each order was reversed at most
once. -/
structure World.Balanced (w : World) : Prop where
  balance : ∀ key, w.balance key = w.ledger key
  sound : w.Sound
  once : ∀ id, w.ReversedOnce id

structure World.Consistent (w : World) : Prop extends w.Balanced where
  ids : (w.orders.map (·.id)).Nodup
  fresh : ∀ o ∈ w.orders, o.id < w.nextId
  reversed : ∀ side id, (w.transactions.countP (·.reverses side id) : ℤ) ≤ w.reversals id

section Runs

variable {w : World} {requests : List Request} {c : State} {pts : List Stage}

theorem total_out {β : Type} [AddCommGroup β] {f : Stage → β} (hOut : f .out = 0) (requests : List Request) :
    Tables.total f (requests.map fun _ => .out) = 0 :=
  Tables.total_zero fun st hst => by
    obtain ⟨_, _, rfl⟩ := List.mem_map.mp hst
    exact hOut

theorem Keeping.initial (h : w.Consistent) : Keeping w (requests.map fun _ => .out) where
  balance key := by
    rw [total_out rfl, add_zero]
    exact h.balance key
  sound := h.sound
  once side id := by
    rw [total_out rfl, add_zero]
    exact h.reversed side id
  ids := h.ids
  fresh := h.fresh
  found st hst := by
    obtain ⟨_, _, rfl⟩ := List.mem_map.mp hst
    simp

theorem keeping_of_reach (h : w.Consistent) (hReach : store.Reach (fun c l => savesOverLoaded c l) (State.start w requests) c) :
    ∃ pts, Tracks store reversing (requests.map fun _ => .out) c pts ∧ Keeping c.state pts := by
  have hStart : Tracks store reversing (requests.map fun _ => .out) (State.start w requests) (requests.map fun _ => .out) :=
    .initial fun r _ => r.program_follows
  refine hStart.invariant (I := fun (c : State) (pts : List Stage) => Keeping c.state pts) (Keeping.initial h) ?_ ?_ ?_ hReach
  · intro c c' pts t a o th k pt pt' _ hKeeping hGuard hRan hPoint hMove _
    have hSaves : ∀ loaded copy, o = .table (.account (.save loaded copy)) → c.state.savesLoaded loaded copy = true := by
      rintro loaded copy rfl
      simp only [savesOverLoaded, hRan.waiting?] at hGuard
      exact hGuard
    rw [hRan.state]
    exact hKeeping.run hPoint hMove hSaves
  · intro c pts t th _ hKeeping _ _
    exact hKeeping
  · intro c pts e _ hKeeping _
    cases e
    exact ⟨hKeeping.balance, hKeeping.sound, hKeeping.once, hKeeping.ids, hKeeping.fresh, hKeeping.found⟩

theorem total_idle {β : Type} [AddCommGroup β] {f : Stage → β} (hOut : f .out = 0)
    (hRest : ∀ st : Stage, st.Rest → f st = 0 ∨ st = .lost) (hTracks : Tracks store reversing (requests.map fun _ => .out) c pts)
    (hFound : ∀ st ∈ pts, st ≠ .lost) (hIdle : Idle c) : Tables.total f pts = 0 := by
  refine Tables.total_zero fun st hst => ?_
  obtain ⟨t, hPoint⟩ := List.mem_iff_getElem?.mp hst
  obtain ⟨th, hThread⟩ := hTracks.thread_exists hPoint
  rcases hIdle th (List.mem_of_getElem? hThread) with hUnborn | hEnded
  · have hStart := hTracks.unborn hThread hUnborn
    rw [hPoint, List.getElem?_map] at hStart
    obtain ⟨_, _, rfl⟩ := Option.map_eq_some_iff.mp hStart.symm
    exact hOut
  · exact (hRest st (hTracks.rest_of_ended hThread hPoint (by rw [hEnded]; rfl))).resolve_right (hFound st hst)

end Runs

/-- Where reversals save accounts only over the balances they loaded, the
accounts agree with the ledger whenever no request is in progress. -/
theorem accounts_balanced {w : World} {requests : List Request} {c : State} (hStart : w.Consistent)
    (hReach : store.Reach (fun c l => savesOverLoaded c l) (State.start w requests) c) (hIdle : Idle c) : c.state.Balanced := by
  obtain ⟨pts, hTracks, hKeeping⟩ := keeping_of_reach hStart hReach
  refine ⟨fun key => ?_, hKeeping.sound, fun id side => ?_⟩
  · rw [← hKeeping.balance, total_idle rfl (fun st hRest => ?_) hTracks hKeeping.found hIdle, add_zero]
    cases st with
    | loaded _ _ _ written =>
      have hWritten : written = 0 := hRest
      simp [Stage.pending, hWritten]
    | _ => simp [Stage.pending]
  · have hOnce := hKeeping.once side id
    have hOwed : 0 ≤ Tables.total (Stage.owes side id) pts := Tables.total_nonneg fun st _ => by
      cases st <;> simp only [Stage.owes] <;> first | exact le_refl _ | (split <;> simp)
    have hReversals : c.state.reversals id ≤ 1 := by
      rw [World.reversals]
      split <;> simp
    omega

def placedOrder (id : Id) (earned redeemed : ℚ) : Order where
  id := id
  restaurantId := 1
  customerId := 7
  orderNumber := "A-1"
  total := earned
  currency := "USD"
  subtotal := earned + redeemed
  loyaltyPointsEarned := earned
  loyaltyPointsRedeemed := redeemed

def earnedRow (orderId : Id) (points : ℚ) : LoyaltyTransaction where
  key := ⟨1, 7⟩
  orderId := orderId
  type := .earn
  points := points
  reason := "Order placed"

def ordersWorld : World where
  nextId := 2
  orders := [placedOrder 0 100 0, placedOrder 1 100 0]
  accounts := [{ key := ⟨1, 7⟩, pointsBalance := 200 }]
  transactions := [earnedRow 0 100, earnedRow 1 100]

theorem ordersWorld_consistent : ordersWorld.Consistent := by
  refine ⟨⟨fun key => ?_, fun key account h => ?_, fun id side => ?_⟩, by decide, by decide, fun side id => ?_⟩
  · by_cases hKey : (⟨1, 7⟩ : AccountKey) = key
    · subst hKey
      decide +kernel
    · simp [World.balance, World.ledger, booked, World.account?, ordersWorld, earnedRow, hKey]
  · have hMem : account ∈ ordersWorld.accounts := List.mem_of_find?_eq_some h
    rw [List.mem_singleton.mp hMem]
    exact ⟨by decide, by decide⟩
  · simp [ordersWorld, earnedRow, LoyaltyTransaction.reverses]
  · have hNone : ordersWorld.transactions.countP (·.reverses side id) = 0 := by
      simp [ordersWorld, earnedRow, LoyaltyTransaction.reverses]
    rw [hNone, World.reversals]
    split <;> simp

theorem accounts_balanced_cancelled : ∃ c : State, c.state.orders.all (·.loyaltyReversed) = true ∧ c.state.Balanced := by
  obtain ⟨c, hReach, hEnd⟩ := store.exists_of_exec savesOverLoaded
    (State.start ordersWorld [.cancelMyOrder 0 7, .cancelMyOrder 1 7])
    (List.flatten [List.replicate 3 (.run 0 {}), List.replicate 7 (.run 1 {}), List.replicate 4 (.run 0 {})])
    (fun c => decide (Idle c) && c.state.orders.all (·.loyaltyReversed))
    (by decide +kernel)
  rw [Bool.and_eq_true, decide_eq_true_eq] at hEnd
  exact ⟨c, hEnd.2, accounts_balanced ordersWorld_consistent hReach hEnd.1⟩

/-- Both orders are cancelled at the same moment: each reversal loads 200 and
saves 100. -/
theorem accounts_unbalanced : ¬ ∀ (w : World) (requests : List Request) (c : State), w.Consistent →
    store.Reach (fun _ _ => True) (State.start w requests) c → Idle c → c.state.Balanced := by
  intro hClaim
  obtain ⟨c, hReach, hEnd⟩ := store.exists_of_exec (fun _ _ => true)
    (State.start ordersWorld [.cancelMyOrder 0 7, .cancelMyOrder 1 7])
    (List.flatten [List.replicate 5 (.run 0 {}), List.replicate 7 (.run 1 {}), List.replicate 2 (.run 0 {})])
    (fun c => decide (Idle c) && (c.state.balance ⟨1, 7⟩ = 100 && c.state.ledger ⟨1, 7⟩ = 0))
    (by decide +kernel)
  rw [Bool.and_eq_true, Bool.and_eq_true, decide_eq_true_eq, decide_eq_true_eq, decide_eq_true_eq] at hEnd
  have hBalanced := hClaim _ _ c ordersWorld_consistent (hReach.mono fun _ _ _ => trivial) hEnd.1
  have hEqual := hBalanced.balance ⟨1, 7⟩
  rw [hEnd.2.1, hEnd.2.2] at hEqual
  norm_num at hEqual

end RestaurantOs.Loyalty
