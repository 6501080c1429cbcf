import RestaurantOs.Loyalty.Points

/-!
# Bookings

What placing an order does to the accounts and the ledger: the balances change
by the rows that are recorded, and no account is left overdrawn or in another
tier than its balance's.
-/

namespace RestaurantOs.Loyalty

open Async Prog

def World.balance (w : World) (key : AccountKey) : ℚ := ((w.account? key).map (·.pointsBalance)).getD 0

def booked (key : AccountKey) (rows : List LoyaltyTransaction) : ℚ :=
  Tables.total (·.points) (rows.filter fun row => row.key = key)

def World.ledger (w : World) (key : AccountKey) : ℚ := booked key w.transactions

def World.Sound (w : World) : Prop := ∀ key account, w.account? key = some account → account.Sound

/-- From `w` to `w'` the balances change by `rows`, which are recorded. -/
structure World.Books (w w' : World) (rows : List LoyaltyTransaction) : Prop where
  orders : w'.orders = w.orders
  nextId : w'.nextId = w.nextId
  transactions : w'.transactions = w.transactions ++ rows
  balance : ∀ key, w'.balance key = w.balance key + booked key rows
  kept : ∀ key, (w.account? key).isSome → (w'.account? key).isSome
  owned : ∀ row ∈ rows, (w'.account? row.key).isSome
  sound : w'.Sound

section Accounts

variable {w w' : World} {key k : AccountKey} {account stored loaded copy : LoyaltyAccount}

@[simp] theorem booked_nil : booked key [] = 0 := rfl

theorem booked_append (rows rows' : List LoyaltyTransaction) : booked key (rows ++ rows') = booked key rows + booked key rows' := by
  rw [booked, List.filter_append, Tables.total_append]
  rfl

theorem booked_singleton (row : LoyaltyTransaction) : booked key [row] = if row.key = key then row.points else 0 := by
  by_cases h : row.key = key <;> simp [booked, h]

theorem World.Books.refl (h : w.Sound) : w.Books w [] := ⟨rfl, rfl, (List.append_nil _).symm, fun _ => (add_zero _).symm, fun _ => id, by simp, h⟩

theorem World.Books.trans {w'' : World} {rows rows' : List LoyaltyTransaction} (h : w.Books w' rows) (h' : w'.Books w'' rows') :
    w.Books w'' (rows ++ rows') where
  orders := h'.orders.trans h.orders
  nextId := h'.nextId.trans h.nextId
  transactions := by rw [h'.transactions, h.transactions, List.append_assoc]
  balance key := by rw [h'.balance, h.balance, booked_append, add_assoc]
  kept key hSome := h'.kept key (h.kept key hSome)
  owned row hRow := by
    rcases List.mem_append.mp hRow with hRow | hRow
    · exact h'.kept _ (h.owned row hRow)
    · exact h'.owned row hRow
  sound := h'.sound

theorem World.Books.owned_of_booked {rows rows' : List LoyaltyTransaction} (h : w.Books w' rows) (hRows : rows' ⊆ rows) {v : ℚ}
    (hBooked : booked key rows' = if key = key then v else 0) (hNe : v ≠ 0) : (w'.account? key).isSome := by
  rw [if_pos rfl] at hBooked
  have hSome : rows'.filter (fun row => row.key = key) ≠ [] := by
    intro hNone
    rw [booked, hNone] at hBooked
    exact hNe hBooked.symm
  obtain ⟨row, hRow⟩ := List.exists_mem_of_ne_nil _ hSome
  obtain ⟨hMem, hKey⟩ := List.mem_filter.mp hRow
  rw [decide_eq_true_eq] at hKey
  exact hKey ▸ h.owned row (hRows hMem)

theorem World.key_of_account? (h : w.account? key = some account) : account.key = key := by
  simpa using List.find?_some h

theorem World.balance_of (h : w.account? key = some account) : w.balance key = account.pointsBalance := by
  rw [World.balance, h]
  rfl

theorem World.Sound.balance_nonneg (h : w.Sound) (key : AccountKey) : 0 ≤ w.balance key := by
  rw [World.balance]
  cases hAccount : w.account? key with
  | none => exact le_refl 0
  | some stored => exact (h key stored hAccount).nonneg

theorem LoyaltyAccount.Sound.eq (h : account.Sound) (h' : stored.Sound) (hKey : account.key = stored.key)
    (hBalance : account.pointsBalance = stored.pointsBalance) : account = stored := by
  have hTier := h.tier
  rw [hBalance, h'.tier, Except.ok.injEq] at hTier
  obtain ⟨key, pointsBalance, tier⟩ := account
  subst hKey hBalance hTier
  rfl

theorem account?_update {f : LoyaltyAccount → LoyaltyAccount} (hKeep : ∀ account, (f account).key = account.key) :
    ({ w with accounts := Tables.update (·.key = key) f w.accounts } : World).account? k =
      (w.account? k).map fun account => if k = key then f account else account := by
  have hFind : (Tables.update (·.key = key) f w.accounts).find? (·.key = k) =
      (w.accounts.find? (·.key = k)).map fun account => if decide (account.key = key) then f account else account :=
    Tables.find?_update fun account _ => by
      split
      · rw [hKeep]
      · rfl
  rw [World.account?, hFind]
  cases h : w.account? k with
  | none =>
    rw [World.account?] at h
    rw [h]
    rfl
  | some account =>
    have hKey := w.key_of_account? h
    rw [World.account?] at h
    rw [h, Option.map_some, Option.map_some, hKey]
    simp only [decide_eq_true_eq]

theorem perform_save (copy : LoyaltyAccount) (hLoaded : w.account? loaded.key = some loaded) (hKey : copy.key = loaded.key)
    (hNonneg : 0 ≤ copy.pointsBalance) :
    ∃ accounts, (AccountOp.save loaded copy).perform w = (.ok (), { w with accounts }) ∧
      ∀ k, ({ w with accounts } : World).account? k = if k = loaded.key then some copy else w.account? k := by
  refine ⟨Tables.update (·.key = copy.key) (loaded.saved copy) w.accounts, ?_, fun k => ?_⟩
  · rw [AccountOp.perform, if_neg fun h => not_lt.mpr hNonneg h.2]
  · rw [account?_update (f := loaded.saved copy) fun _ => rfl, hKey]
    by_cases h : k = loaded.key
    · subst h
      rw [hLoaded, Option.map_some, if_pos rfl, if_pos rfl]
      obtain ⟨copyKey, pointsBalance, tier⟩ := copy
      subst hKey
      simp only [LoyaltyAccount.saved, Option.some.injEq]
      by_cases hBalance : pointsBalance = loaded.pointsBalance <;> by_cases hTier : tier = loaded.tier <;> simp [hBalance, hTier]
    · simp only [if_neg h]
      exact Option.map_id'

theorem balance_save (h : ∀ k, w'.account? k = if k = key then some copy else w.account? k) (k : AccountKey) :
    w'.balance k = if k = key then copy.pointsBalance else w.balance k := by
  rw [World.balance, h]
  split <;> rfl

theorem sound_save (h : ∀ k, w'.account? k = if k = key then some copy else w.account? k) (hCopy : copy.Sound) (hSound : w.Sound) :
    w'.Sound := by
  intro k account hAccount
  rw [h] at hAccount
  split at hAccount
  · cases hAccount
    exact hCopy
  · exact hSound k account hAccount

theorem perform_increment (key : AccountKey) (points : ℚ) (w : World) :
    ∃ account accounts, (AccountOp.increment key points).perform w = (.ok account, { w with accounts }) ∧ account.key = key ∧
      account.pointsBalance = w.balance key + points ∧
      ∀ k, ({ w with accounts } : World).account? k = if k = key then some account else w.account? k := by
  simp only [AccountOp.perform]
  cases hFind : w.account? key with
  | some stored =>
    refine ⟨stored.credited points, Tables.update (·.key = key) (·.credited points) w.accounts, rfl,
      (w.key_of_account? hFind : stored.key = key), by rw [w.balance_of hFind]; rfl, fun k => ?_⟩
    rw [account?_update (f := (·.credited points)) fun _ => rfl]
    by_cases h : k = key
    · subst h
      rw [hFind, Option.map_some, if_pos rfl, if_pos rfl]
    · simp only [if_neg h]
      exact Option.map_id'
  | none =>
    refine ⟨{ key, pointsBalance := points }, _, rfl, rfl, by rw [World.balance, hFind]; simp, fun k => ?_⟩
    rw [World.account?, List.find?_append]
    by_cases h : k = key
    · subst h
      rw [World.account?] at hFind
      simp [hFind]
    · simp [h, Ne.symm h, World.account?]

end Accounts

/-! ## Placing an order -/

section Placing

variable {w w' : World} {a : Answer} {key : AccountKey} {orderId : Id} {order : Order} {input : OrderInput}

theorem eval_inSession (op : TableOp) : (inSession op).eval tables a w = op.perform a w := eval_call op

theorem eval_account (op : AccountOp) : (inSession (.account op)).eval tables a w = op.perform w := eval_call _

theorem World.Books.of_row {w₁ : World} {copy : LoyaltyAccount} {row : LoyaltyTransaction} (hKey : row.key = key)
    (hOrders : w₁.orders = w.orders) (hNext : w₁.nextId = w.nextId) (hRows : w₁.transactions = w.transactions)
    (hAll : ∀ k, w₁.account? k = if k = key then some copy else w.account? k)
    (hBalance : copy.pointsBalance = w.balance key + row.points) (hCopy : copy.Sound) (hSound : w.Sound) :
    w.Books { w₁ with transactions := w₁.transactions ++ [row] } [row] := by
  refine ⟨hOrders, hNext, by rw [hRows], fun k => ?_, fun k hSome => ?_, ?_, sound_save hAll hCopy hSound⟩
  · rw [booked_singleton, hKey]
    refine (balance_save hAll k).trans ?_
    by_cases h : k = key
    · rw [if_pos h, if_pos h.symm, hBalance, h]
    · rw [if_neg h, if_neg (Ne.symm h), add_zero]
  · change (w₁.account? k).isSome
    rw [hAll]
    split
    · rfl
    · exact hSome
  · rintro row' hRow
    rw [List.mem_singleton.mp hRow, hKey]
    change (w₁.account? key).isSome
    rw [hAll, if_pos rfl]
    rfl

theorem earnPoints_books {subtotal earned : ℚ} (hSound : w.Sound)
    (h : (earnPoints key orderId subtotal).eval tables a w = (.ok earned, w')) :
    0 ≤ earned ∧ ∃ rows, w.Books w' rows ∧ (∀ row ∈ rows, row.orderId = orderId ∧ row.type = .earn) ∧
      ∀ k, booked k rows = if k = key then earned else 0 := by
  rw [earnPoints] at h
  split at h
  · cases h
    exact ⟨le_refl 0, [], .refl hSound, by simp, fun k => by simp⟩
  · rename_i hPoints
    generalize pointsForSpend subtotal = points at h hPoints
    rw [not_le] at hPoints
    obtain ⟨account, accounts, hIncrement, hKey, hBalance, hAccounts⟩ := perform_increment key points w
    have hOld := hSound.balance_nonneg key
    obtain ⟨tier, hTier⟩ := tierForPoints_of_nonneg (hBalance ▸ add_nonneg hOld hPoints.le : 0 ≤ account.pointsBalance)
    have hStored : ({ w with accounts } : World).account? account.key = some account := by rw [hAccounts, if_pos hKey]
    obtain ⟨accounts', hSave, hSaved⟩ := perform_save { account with tier } hStored rfl (hBalance ▸ add_nonneg hOld hPoints.le)
    rw [bind_eq, eval_bind_ok ((eval_account _).trans hIncrement), hTier, bind_eq, Prog.ofExcept, ret_bind, bind_eq,
      eval_bind_ok ((eval_account _).trans hSave), bind_eq, eval_bind_ok (eval_inSession _)] at h
    have hAll : ∀ k, ({ w with accounts := accounts' } : World).account? k =
        if k = key then some { account with tier } else w.account? k := by
      intro k
      rw [hSaved, hAccounts, hKey]
      split <;> rfl
    have hCopy : ({ account with tier } : LoyaltyAccount).Sound := ⟨hBalance ▸ add_nonneg hOld hPoints.le, hTier⟩
    cases h
    refine ⟨hPoints.le, _, .of_row rfl rfl rfl rfl hAll hBalance hCopy hSound, by simp, fun k => ?_⟩
    rw [booked_singleton]
    simp only [eq_comm]

theorem redeemPoints_books {points : ℚ} (hSound : w.Sound) (h : (redeemPoints key points orderId).eval tables a w = (.ok (), w')) :
    ∃ rows, w.Books w' rows ∧ (∀ row ∈ rows, row.orderId = orderId ∧ row.type = .redeem) ∧
      ∀ k, booked k rows = if k = key then -points else 0 := by
  rw [redeemPoints] at h
  split at h
  · cases h
  · rw [bind_eq, eval_bind_ok (eval_account (.findOne key))] at h
    cases hFilter : (w.account? key).filter fun account => ¬ account.pointsBalance < points with
    | none =>
      rw [hFilter] at h
      cases h
    | some account =>
      obtain ⟨hAccount, hEnough⟩ := Option.filter_eq_some_iff.mp hFilter
      have hNonneg : 0 ≤ account.pointsBalance - points := by simpa using hEnough
      obtain ⟨tier, hTier⟩ := tierForPoints_of_nonneg hNonneg
      have hKey := w.key_of_account? hAccount
      obtain ⟨accounts, hSave, hSaved⟩ := perform_save { account with pointsBalance := account.pointsBalance - points, tier }
        (show w.account? account.key = some account from hKey ▸ hAccount) rfl hNonneg
      rw [hFilter] at h
      dsimp only at h
      rw [hTier, bind_eq, Prog.ofExcept, ret_bind, bind_eq, eval_bind_ok ((eval_account _).trans hSave), eval_inSession] at h
      cases h
      rw [hKey] at hSaved
      refine ⟨_, .of_row rfl rfl rfl rfl hSaved ?_ ⟨hNonneg, hTier⟩ hSound, by simp, fun k => ?_⟩
      · rw [w.balance_of hAccount, ← sub_eq_add_neg]
      · rw [booked_singleton]
        simp only [eq_comm]

structure World.Placed (w w' : World) (order : Order) (entries : List LoyaltyTransaction) : Prop where
  orders : w'.orders = w.orders ++ [order]
  nextId : w'.nextId = w.nextId + 1
  id : order.id = w.nextId
  unreversed : order.loyaltyReversed = false
  earned : 0 ≤ order.loyaltyPointsEarned
  redeemed : 0 ≤ order.loyaltyPointsRedeemed
  transactions : w'.transactions = w.transactions ++ entries
  entries_of : ∀ row ∈ entries, row.orderId = order.id ∧ row.type ≠ .adjustment
  booked : ∀ key, booked key entries = if key = order.key then order.loyaltyPointsEarned - order.loyaltyPointsRedeemed else 0
  balance : ∀ key, w'.balance key = w.balance key + Loyalty.booked key entries
  kept : ∀ key, (w.account? key).isSome → (w'.account? key).isSome
  owned : 0 < order.loyaltyPointsEarned ∨ 0 < order.loyaltyPointsRedeemed → (w'.account? order.key).isSome
  sound : w'.Sound

theorem redeemOnOrder_books (hSound : w.Sound) (hNonneg : 0 ≤ input.loyaltyDiscount)
    (h : (redeemOnOrder input order).eval tables a w = (.ok (), w')) :
    ∃ rows, w.Books w' rows ∧ (∀ row ∈ rows, row.orderId = order.id ∧ row.type = .redeem) ∧
      ∀ k, booked k rows = if k = input.key then -input.loyaltyDiscount else 0 := by
  rw [redeemOnOrder, onlyIf] at h
  split at h
  · exact redeemPoints_books hSound h
  · rename_i hNone
    cases h
    have hZero : input.loyaltyDiscount = 0 := le_antisymm (not_lt.mp hNone) hNonneg
    exact ⟨[], .refl hSound, by simp, fun k => by simp [hZero]⟩

theorem recordPromoOnOrder_same (h : (recordPromoOnOrder input).eval tables a w = (.ok (), w')) : w' = w := by
  rw [recordPromoOnOrder, onlyIf] at h
  split at h
  · rw [bind_eq, eval_bind_ok (eval_inSession _)] at h
    split at h
    · cases h
      rfl
    · cases h
  · cases h
    rfl

theorem of_bind_ok {α β : Type} {p : Session α} {f : α → Session β} {v : β} (h : (p.bind f).eval tables a w = (.ok v, w')) :
    ∃ x w₁, p.eval tables a w = (.ok x, w₁) ∧ (f x).eval tables a w₁ = (.ok v, w') := by
  rw [eval_bind] at h
  cases hEval : p.eval tables a w with
  | mk r w₁ =>
    rw [hEval] at h
    cases r with
    | ok x => exact ⟨x, w₁, rfl, h⟩
    | error e => cases h

theorem placeOrder_placed (hSound : w.Sound) (hFresh : ∀ o ∈ w.orders, o.id < w.nextId)
    (h : (placeOrder input).eval tables a w = (.ok order, w')) : ∃ rows, w.Placed w' order rows := by
  rw [placeOrder, bind_eq, eval_bind_ok (eval_inSession _), bind_eq] at h
  obtain ⟨created, w₁, hCreated, h⟩ := of_bind_ok h
  rw [bind_eq] at h
  obtain ⟨_, w₂, hRedeemed, h⟩ := of_bind_ok h
  rw [bind_eq] at h
  obtain ⟨_, w₃, hPromo, h⟩ := of_bind_ok h
  rw [bind_eq] at h
  obtain ⟨earned, w₄, hEarned, h⟩ := of_bind_ok h
  rw [bind_eq, eval_bind_ok (eval_inSession _)] at h
  cases h
  rw [eval_inSession] at hCreated
  simp only [TableOp.perform, OrderOp.perform] at hCreated
  split at hCreated
  · rename_i hValid
    cases hCreated
    have hDiscount : 0 ≤ input.loyaltyDiscount := by
      simp only [Order.amountsValid, OrderInput.draft, Bool.and_eq_true] at hValid
      exact of_decide_eq_true hValid.1.1.2
    obtain ⟨rows, hBooks, hRows, hBooked⟩ := redeemOnOrder_books (by exact hSound) hDiscount hRedeemed
    cases recordPromoOnOrder_same hPromo
    obtain ⟨hNonneg, rows', hBooks', hRows', hBooked'⟩ := earnPoints_books hBooks.sound hEarned
    have hAll := hBooks.trans hBooks'
    refine ⟨rows ++ rows', ?_, hAll.nextId, rfl, rfl, hNonneg, hDiscount, hAll.transactions, ?_, ?_, hAll.balance, hAll.kept,
      fun hPoints => ?_, hAll.sound⟩
    · have hOrders := hAll.orders
      dsimp only [TableOp.perform, OrderOp.perform, World.updateOrders] at hOrders ⊢
      rw [hOrders, Tables.update, List.map_append]
      congr 1
      · refine (List.map_congr_left fun o ho => if_neg ?_).trans (List.map_id' _)
        rw [decide_eq_true_eq]
        exact (hFresh o ho).ne
      · simp
    · intro row hRow
      rcases List.mem_append.mp hRow with hRow | hRow
      · obtain ⟨hId, hType⟩ := hRows row hRow
        exact ⟨hId, by rw [hType]; decide⟩
      · obtain ⟨hId, hType⟩ := hRows' row hRow
        exact ⟨hId, by rw [hType]; decide⟩
    · intro key
      rw [booked_append, hBooked, hBooked']
      change _ = if key = input.key then earned - input.loyaltyDiscount else 0
      by_cases hKey : key = input.key
      · rw [if_pos hKey, if_pos hKey, if_pos hKey]
        exact neg_add_eq_sub _ _
      · rw [if_neg hKey, if_neg hKey, if_neg hKey, add_zero]
    · change (w₄.account? input.key).isSome
      rcases hPoints with hPoints | hPoints
      · exact hAll.owned_of_booked (List.subset_append_right _ _) (hBooked' input.key) (ne_of_gt hPoints)
      · exact hAll.owned_of_booked (List.subset_append_left _ _) (hBooked input.key) (neg_ne_zero.mpr (ne_of_gt hPoints))
  · cases hCreated

end Placing

end RestaurantOs.Loyalty
