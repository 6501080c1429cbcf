import RestaurantOs.Loyalty.Bookings

/-!
# What a clawback leaves

Requests served one after another. The balance is what the orders that are not
reversed earned and redeemed, and what the reversals could not take back.
-/

namespace RestaurantOs.Loyalty

open Async Prog

def serve (w : World) (step : Request × Answer) : World := (step.1.program.eval store step.2 w).2

def LoyaltyTransaction.clawsBack (id : Id) (row : LoyaltyTransaction) : Bool :=
  row.orderId = id && row.type = .adjustment && row.points < 0

def World.clawedBack (w : World) (id : Id) : ℚ :=
  -Tables.total (fun row : LoyaltyTransaction => if row.clawsBack id then row.points else 0) w.transactions

/-- What the order stands for in the balance, `clawedBack` having been taken
back of it. -/
def Order.share (clawedBack : ℚ) (order : Order) : ℚ :=
  if order.loyaltyReversed then order.loyaltyPointsEarned - clawedBack
  else order.loyaltyPointsEarned - order.loyaltyPointsRedeemed

def World.shares (w : World) (key : AccountKey) : ℚ :=
  Tables.total (fun o : Order => if o.key = key then o.share (w.clawedBack o.id) else 0) w.orders

structure World.Tallied (w : World) : Prop where
  tally : ∀ key, w.balance key = w.shares key
  sound : w.Sound
  ids : (w.orders.map (·.id)).Nodup
  fresh : ∀ o ∈ w.orders, o.id < w.nextId
  points : ∀ o ∈ w.orders, 0 ≤ o.loyaltyPointsEarned ∧ 0 ≤ o.loyaltyPointsRedeemed
  held : ∀ o ∈ w.orders, 0 < o.loyaltyPointsEarned ∨ 0 < o.loyaltyPointsRedeemed → (w.account? o.key).isSome
  unclawed : ∀ o ∈ w.orders, o.loyaltyReversed = false → w.clawedBack o.id = 0
  clawed : ∀ o ∈ w.orders, 0 ≤ w.clawedBack o.id ∧ w.clawedBack o.id ≤ o.loyaltyPointsEarned
  rows : ∀ row ∈ w.transactions, row.orderId < w.nextId

/-- From `w` to `w'` orders may be reversed, each taking back what the balance
had left of what it earned. -/
structure World.Served (w w' : World) : Prop where
  tallied : w'.Tallied
  clawed : ∀ o ∈ w.orders, o.loyaltyReversed = false → ∀ o' ∈ w'.orders, o'.id = o.id → o'.loyaltyReversed = true →
    w'.clawedBack o.id = min o.loyaltyPointsEarned (w.balance o.key)

section Serving

variable {w w' : World} {a : Answer} {order : Order}

theorem World.Tallied.served (h : w.Tallied) : w.Served w := by
  refine ⟨h, fun o ho hUnreversed o' ho' hId hReversed => ?_⟩
  cases Tables.eq_of_id h.ids ho' ho hId
  rw [hUnreversed] at hReversed
  cases hReversed

theorem clawedBack_append {rows : List LoyaltyTransaction} (hRows : w'.transactions = w.transactions ++ rows) (id : Id) :
    w'.clawedBack id =
      w.clawedBack id - Tables.total (fun row : LoyaltyTransaction => if row.clawsBack id then row.points else 0) rows := by
  rw [World.clawedBack, hRows, Tables.total_append, World.clawedBack]
  ring

theorem World.Tallied.save (h : w.Tallied) (entry : StatusHistoryEntry) (id : Id) :
    (w.updateOrders (·.id = id) (·.moved entry)).Tallied := by
  have hOrder : ∀ o ∈ (w.updateOrders (·.id = id) (·.moved entry)).orders, ∃ o' ∈ w.orders, o.id = o'.id ∧ o.key = o'.key ∧
      o.loyaltyPointsEarned = o'.loyaltyPointsEarned ∧ o.loyaltyPointsRedeemed = o'.loyaltyPointsRedeemed ∧
      o.loyaltyReversed = o'.loyaltyReversed := by
    intro o ho
    obtain ⟨o', ho', rfl⟩ := Tables.mem_update.mp ho
    refine ⟨o', ho', ?_⟩
    split <;> exact ⟨rfl, rfl, rfl, rfl, rfl⟩
  have hShares : ∀ key, (w.updateOrders (·.id = id) (·.moved entry)).shares key = w.shares key := by
    intro key
    rw [World.shares, World.updateOrders, Tables.total_update]
    refine Tables.total_congr fun o _ => ?_
    split <;> rfl
  refine ⟨fun key => ?_, h.sound, ?_, ?_, ?_, ?_, ?_, ?_, h.rows⟩
  · rw [hShares]
    exact h.tally key
  · have hIds : (w.updateOrders (·.id = id) (·.moved entry)).orders.map (·.id) = w.orders.map (·.id) :=
      Tables.map_update_eq (fun o : Order => o.id) fun _ => rfl
    rw [hIds]
    exact h.ids
  · intro o ho
    obtain ⟨o', ho', hId, -⟩ := hOrder o ho
    exact hId ▸ h.fresh o' ho'
  · intro o ho
    obtain ⟨o', ho', -, -, hEarned, hRedeemed, -⟩ := hOrder o ho
    rw [hEarned, hRedeemed]
    exact h.points o' ho'
  · intro o ho hPoints
    obtain ⟨o', ho', -, hKey, hEarned, hRedeemed, -⟩ := hOrder o ho
    rw [hEarned, hRedeemed] at hPoints
    rw [hKey]
    exact h.held o' ho' hPoints
  · intro o ho hUnreversed
    obtain ⟨o', ho', hId, -, -, -, hReversed⟩ := hOrder o ho
    rw [hId]
    exact h.unclawed o' ho' (hReversed ▸ hUnreversed)
  · intro o ho
    obtain ⟨o', ho', hId, -, hEarned, -⟩ := hOrder o ho
    rw [hId, hEarned]
    exact h.clawed o' ho'

theorem World.Served.after_save (entry : StatusHistoryEntry) (id : Id)
    (h : (w.updateOrders (·.id = id) (·.moved entry)).Served w') : w.Served w' := by
  refine ⟨h.tallied, fun o ho hUnreversed o' ho' hId hReversed => ?_⟩
  have hMem : (if decide (o.id = id) then o.moved entry else o) ∈ (w.updateOrders (·.id = id) (·.moved entry)).orders :=
    Tables.mem_update.mpr ⟨o, ho, rfl⟩
  have hClawed := h.clawed _ hMem
  split at hClawed <;> exact hClawed hUnreversed o' ho' hId hReversed

theorem World.Placed.served {rows : List LoyaltyTransaction} (h : w.Tallied) (hPlaced : w.Placed w' order rows) : w.Served w' := by
  have hRows : ∀ id, Tables.total (fun row : LoyaltyTransaction => if row.clawsBack id then row.points else 0) rows = 0 := fun id =>
    Tables.total_zero fun row hRow => if_neg (by simp [LoyaltyTransaction.clawsBack, (hPlaced.entries_of row hRow).2])
  have hClawed : ∀ id, w'.clawedBack id = w.clawedBack id := fun id => by
    rw [clawedBack_append hPlaced.transactions, hRows, sub_zero]
  have hNew : w.clawedBack order.id = 0 := by
    rw [World.clawedBack, Tables.total_zero, neg_zero]
    intro row hRow
    have hNe : row.orderId ≠ order.id := hPlaced.id ▸ (h.rows row hRow).ne
    exact if_neg (by simp [LoyaltyTransaction.clawsBack, hNe])
  have hOrders : ∀ o ∈ w'.orders, o ∈ w.orders ∨ o = order := by
    intro o ho
    rwa [hPlaced.orders, List.mem_append, List.mem_singleton] at ho
  have hTallied : w'.Tallied := by
    refine ⟨fun key => ?_, hPlaced.sound, ?_, ?_, ?_, ?_, ?_, ?_, ?_⟩
    · have hShare : order.share (w.clawedBack order.id) = order.loyaltyPointsEarned - order.loyaltyPointsRedeemed := by
        rw [Order.share, hPlaced.unreversed, if_neg Bool.false_ne_true]
      rw [hPlaced.balance, hPlaced.booked, h.tally, World.shares, World.shares, hPlaced.orders, Tables.total_append]
      simp only [hClawed, Tables.total_cons, Tables.total_nil, add_zero, hShare, eq_comm]
    · rw [hPlaced.orders, List.map_append, List.nodup_append]
      refine ⟨h.ids, List.nodup_singleton _, fun id hId id' hId' => ?_⟩
      obtain ⟨o, ho, rfl⟩ := List.mem_map.mp hId
      rw [List.map_singleton, List.mem_singleton, hPlaced.id] at hId'
      exact hId' ▸ (h.fresh o ho).ne
    · intro o ho
      rw [hPlaced.nextId]
      rcases hOrders o ho with ho | rfl
      · exact (h.fresh o ho).trans (Nat.lt_succ_self _)
      · rw [hPlaced.id]
        exact Nat.lt_succ_self _
    · intro o ho
      rcases hOrders o ho with ho | rfl
      · exact h.points o ho
      · exact ⟨hPlaced.earned, hPlaced.redeemed⟩
    · intro o ho
      rcases hOrders o ho with ho | rfl
      · exact fun hPoints => hPlaced.kept _ (h.held o ho hPoints)
      · exact hPlaced.owned
    · intro o ho
      rw [hClawed]
      rcases hOrders o ho with ho | rfl
      · exact h.unclawed o ho
      · exact fun _ => hNew
    · intro o ho
      rw [hClawed]
      rcases hOrders o ho with ho | rfl
      · exact h.clawed o ho
      · rw [hNew]
        exact ⟨le_refl 0, hPlaced.earned⟩
    · intro row hRow
      rw [hPlaced.transactions, List.mem_append] at hRow
      rw [hPlaced.nextId]
      rcases hRow with hRow | hRow
      · exact (h.rows row hRow).trans (Nat.lt_succ_self _)
      · rw [(hPlaced.entries_of row hRow).1, hPlaced.id]
        exact Nat.lt_succ_self _
  refine ⟨hTallied, fun o ho hUnreversed o' ho' hId hReversed => ?_⟩
  have hMem : o ∈ w'.orders := by
    rw [hPlaced.orders]
    exact List.mem_append_left _ ho
  cases Tables.eq_of_id hTallied.ids ho' hMem hId
  rw [hUnreversed] at hReversed
  cases hReversed

/-- From `w` to `w'` the order was reversed: `taken` was taken back, and what it
redeemed was given back. -/
structure World.Reverses (w w' : World) (order : Order) (points : ℚ) : Prop where
  mem : order ∈ w.orders
  unreversed : order.loyaltyReversed = false
  taken : points = min order.loyaltyPointsEarned (w.balance order.key)
  orders : w'.orders = Tables.update (Order.unreversed order.id) Order.reversed w.orders
  nextId : w'.nextId = w.nextId
  rows : ∀ row ∈ w'.transactions, row ∈ w.transactions ∨ row.orderId = order.id
  clawedBack : ∀ id, w'.clawedBack id = w.clawedBack id + if id = order.id then points else 0
  balance : ∀ key, w'.balance key = w.balance key + if key = order.key then order.loyaltyPointsRedeemed - points else 0
  kept : ∀ key, (w.account? key).isSome → (w'.account? key).isSome
  sound : w'.Sound

theorem World.Reverses.served {taken : ℚ} (h : w.Tallied) (hReverses : w.Reverses w' order taken) : w.Served w' := by
  obtain ⟨hEarned, hRedeemed⟩ := h.points order hReverses.mem
  have hNonneg : 0 ≤ taken := hReverses.taken ▸ le_min hEarned (h.sound.balance_nonneg _)
  have hNew : w'.clawedBack order.id = taken := by
    rw [hReverses.clawedBack, h.unclawed order hReverses.mem hReverses.unreversed, if_pos rfl, zero_add]
  have hSel : ∀ o ∈ w.orders, Order.unreversed order.id o = true ↔ o.id = order.id := by
    intro o ho
    constructor
    · intro hSel
      rw [Order.unreversed, Bool.and_eq_true, decide_eq_true_eq] at hSel
      exact hSel.1
    · intro hId
      cases Tables.eq_of_id h.ids ho hReverses.mem hId
      simp [Order.unreversed, hReverses.unreversed]
  have hOrders : ∀ o ∈ w'.orders, o = order.reversed ∨ (o ∈ w.orders ∧ o.id ≠ order.id) := by
    intro o ho
    rw [hReverses.orders] at ho
    obtain ⟨o', ho', rfl⟩ := Tables.mem_update.mp ho
    split
    · rename_i hSelected
      cases Tables.eq_of_id h.ids ho' hReverses.mem ((hSel o' ho').mp hSelected)
      exact .inl rfl
    · rename_i hOther
      exact .inr ⟨ho', fun hId => hOther ((hSel o' ho').mpr hId)⟩
  have hOther : ∀ id, id ≠ order.id → w'.clawedBack id = w.clawedBack id := fun id hNe => by
    rw [hReverses.clawedBack, if_neg hNe, add_zero]
  refine ⟨⟨fun key => ?_, hReverses.sound, ?_, ?_, ?_, ?_, ?_, ?_, ?_⟩, ?_⟩
  · have hShares : w'.shares key = w.shares key + if key = order.key then order.loyaltyPointsRedeemed - taken else 0 := by
      rw [World.shares, hReverses.orders, Tables.total_update, World.shares]
      refine (Tables.total_change (w := fun o : Order => if o.key = key then o.share (w.clawedBack o.id) else 0)
        (fun o : Order => o.id) h.ids hReverses.mem fun o ho hNe => ?_).trans ?_
      · rw [if_neg fun hSelected => hNe ((hSel o ho).mp hSelected), hOther o.id hNe]
      · rw [if_pos ((hSel order hReverses.mem).mpr rfl)]
        have hAfter : order.reversed.share (w'.clawedBack order.id) = order.loyaltyPointsEarned - taken := by
          rw [hNew]
          rfl
        have hBefore : order.share (w.clawedBack order.id) = order.loyaltyPointsEarned - order.loyaltyPointsRedeemed := by
          rw [Order.share, hReverses.unreversed, if_neg Bool.false_ne_true]
        change _ + ((if order.key = key then order.reversed.share (w'.clawedBack order.id) else 0) - _) = _
        rw [hAfter, hBefore]
        by_cases hKey : key = order.key
        · rw [if_pos hKey.symm, if_pos hKey.symm, if_pos hKey]
          ring
        · rw [if_neg (Ne.symm hKey), if_neg (Ne.symm hKey), if_neg hKey, sub_zero]
    rw [hReverses.balance, h.tally, hShares]
  · rw [hReverses.orders, Tables.map_update_eq (f := Order.reversed) (fun o : Order => o.id) fun _ => rfl]
    exact h.ids
  · intro o ho
    rw [hReverses.nextId]
    rcases hOrders o ho with rfl | ⟨ho, -⟩
    · exact h.fresh order hReverses.mem
    · exact h.fresh o ho
  · intro o ho
    rcases hOrders o ho with rfl | ⟨ho, -⟩
    · exact h.points order hReverses.mem
    · exact h.points o ho
  · intro o ho hPoints
    rcases hOrders o ho with rfl | ⟨ho, -⟩
    · exact hReverses.kept _ (h.held order hReverses.mem hPoints)
    · exact hReverses.kept _ (h.held o ho hPoints)
  · intro o ho hUnreversed
    rcases hOrders o ho with rfl | ⟨ho, hNe⟩
    · cases hUnreversed
    · rw [hOther _ hNe]
      exact h.unclawed o ho hUnreversed
  · intro o ho
    rcases hOrders o ho with rfl | ⟨ho, hNe⟩
    · change 0 ≤ w'.clawedBack order.id ∧ w'.clawedBack order.id ≤ order.loyaltyPointsEarned
      rw [hNew]
      exact ⟨hNonneg, hReverses.taken ▸ min_le_left _ _⟩
    · rw [hOther _ hNe]
      exact h.clawed o ho
  · intro row hRow
    rw [hReverses.nextId]
    rcases hReverses.rows row hRow with hRow | hId
    · exact h.rows row hRow
    · exact hId ▸ h.fresh order hReverses.mem
  · intro o ho hUnreversed o' ho' hId hReversed
    rcases hOrders o' ho' with rfl | ⟨ho', hNe⟩
    · cases Tables.eq_of_id h.ids hReverses.mem ho hId
      rw [hNew, hReverses.taken]
    · cases Tables.eq_of_id h.ids ho' ho hId
      rw [hUnreversed] at hReversed
      cases hReversed

end Serving

end RestaurantOs.Loyalty
