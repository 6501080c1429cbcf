import RestaurantOs.Async.Sequential
import RestaurantOs.Payments.Requests

/-!
# Disconnected for good

Requests and events run concurrently, each save writing what changed on a copy
that was read earlier. An account that was disconnected stays so as long as no
such save finds it disconnected.
-/

namespace RestaurantOs.Payments

open Async Prog

/-! ## The property -/

def OneActive (accounts : List RestaurantPaymentAccount) : Prop :=
  ∀ account ∈ accounts, ∀ other ∈ accounts, account.restaurantId = other.restaurantId → account.status = .active →
    other.status = .active → account.id = other.id

structure World.AccountsSound (w : World) : Prop where
  ids : (w.accounts.map (·.id)).Nodup
  fresh : ∀ account ∈ w.accounts, account.id < w.nextId
  oneActive : OneActive w.accounts

instance (accounts : List RestaurantPaymentAccount) : Decidable (OneActive accounts) :=
  inferInstanceAs (Decidable (∀ account ∈ accounts, ∀ other ∈ accounts, account.restaurantId = other.restaurantId →
    account.status = .active → other.status = .active → account.id = other.id))

def KeepsDisconnected (accounts later : List RestaurantPaymentAccount) : Prop :=
  ∀ account ∈ accounts, account.status = .disconnected → ∃ kept ∈ later, kept.id = account.id ∧ kept.status = .disconnected

section Writes

variable {w w' : World} {accounts : List RestaurantPaymentAccount} {sel : RestaurantPaymentAccount → Bool}
  {f : RestaurantPaymentAccount → RestaurantPaymentAccount}

theorem active_of_not_taken {account other : RestaurantPaymentAccount} (h : activeTaken accounts account = false)
    (hMem : other ∈ accounts) (hRestaurant : other.restaurantId = account.restaurantId) (hActive : other.status = .active) :
    other.id = account.id := by
  by_contra hNe
  have hTaken := List.any_eq_false.mp h other hMem
  simp [hNe, hRestaurant, hActive] at hTaken

theorem OneActive.append {account : RestaurantPaymentAccount} (h : OneActive accounts)
    (hFree : account.status = .active → activeTaken accounts account = false) : OneActive (accounts ++ [account]) := by
  intro a ha b hb hRestaurant hActiveA hActiveB
  rcases List.mem_append.mp ha with ha | ha <;> rcases List.mem_append.mp hb with hb | hb
  · exact h a ha b hb hRestaurant hActiveA hActiveB
  · cases List.mem_singleton.mp hb
    exact active_of_not_taken (hFree hActiveB) ha hRestaurant hActiveA
  · cases List.mem_singleton.mp ha
    exact (active_of_not_taken (hFree hActiveA) hb hRestaurant.symm hActiveB).symm
  · cases List.mem_singleton.mp ha
    cases List.mem_singleton.mp hb
    rfl

theorem OneActive.update (h : OneActive accounts) (hId : ∀ a, (f a).id = a.id) (hRestaurant : ∀ a, (f a).restaurantId = a.restaurantId)
    (hActive : ∀ a ∈ accounts, sel a = true → (f a).status = .active →
      a.status = .active ∨ activeTaken accounts (f a) = false ∧ ∀ b ∈ accounts, sel b = true → b.id = a.id) :
    OneActive (Tables.update sel f accounts) := by
  have hKeptId : ∀ a, (if sel a then f a else a).id = a.id := fun a => by
    split
    · exact hId a
    · rfl
  have hKeptRestaurant : ∀ a, (if sel a then f a else a).restaurantId = a.restaurantId := fun a => by
    split
    · exact hRestaurant a
    · rfl
  have hWas : ∀ a ∈ accounts, (if sel a then f a else a).status = .active →
      a.status = .active ∨ sel a = true ∧ activeTaken accounts (f a) = false ∧ ∀ b ∈ accounts, sel b = true → b.id = a.id := by
    intro a ha hNow
    split at hNow
    · rename_i hSel
      exact (hActive a ha hSel hNow).imp_right fun hNew => ⟨hSel, hNew⟩
    · exact .inl hNow
  -- an account that is newly active is alone
  have hAlone : ∀ a ∈ accounts, ∀ b ∈ accounts, a.restaurantId = b.restaurantId → sel a = true → activeTaken accounts (f a) = false →
      (∀ b ∈ accounts, sel b = true → b.id = a.id) → (if sel b then f b else b).status = .active → b.id = a.id := by
    intro a ha b hb hSame hSel hFree hOnly hNow
    rcases hWas b hb hNow with hActiveB | ⟨hSelB, -⟩
    · exact (active_of_not_taken hFree hb (hSame.symm.trans (hRestaurant a).symm) hActiveB).trans (hId a)
    · exact hOnly b hb hSelB
  intro a' ha' b' hb' hSame hActiveA hActiveB
  obtain ⟨a, ha, rfl⟩ := Tables.mem_update.mp ha'
  obtain ⟨b, hb, rfl⟩ := Tables.mem_update.mp hb'
  rw [hKeptRestaurant, hKeptRestaurant] at hSame
  rw [hKeptId, hKeptId]
  rcases hWas a ha hActiveA with hWasA | ⟨hSel, hFree, hOnly⟩
  · rcases hWas b hb hActiveB with hWasB | ⟨hSel, hFree, hOnly⟩
    · exact h a ha b hb hSame hWasA hWasB
    · exact hAlone b hb a ha hSame.symm hSel hFree hOnly hActiveA
  · exact (hAlone a ha b hb hSame hSel hFree hOnly hActiveB).symm

theorem KeepsDisconnected.refl : KeepsDisconnected accounts accounts :=
  fun account hMem hStatus => ⟨account, hMem, rfl, hStatus⟩

theorem KeepsDisconnected.trans {later last : List RestaurantPaymentAccount} (h : KeepsDisconnected accounts later)
    (h' : KeepsDisconnected later last) : KeepsDisconnected accounts last := by
  intro account hMem hStatus
  obtain ⟨kept, hKept, hId, hKeptStatus⟩ := h account hMem hStatus
  obtain ⟨stays, hStays, hSame, hStaysStatus⟩ := h' kept hKept hKeptStatus
  exact ⟨stays, hStays, hSame.trans hId, hStaysStatus⟩

theorem KeepsDisconnected.update (hId : ∀ a, (f a).id = a.id)
    (hKept : ∀ a ∈ accounts, sel a = true → a.status = .disconnected → (f a).status = .disconnected) :
    KeepsDisconnected accounts (Tables.update sel f accounts) := by
  intro account hMem hStatus
  refine ⟨_, Tables.mem_update.mpr ⟨account, hMem, rfl⟩, ?_, ?_⟩
  · split
    · exact hId account
    · rfl
  · split
    · rename_i hSel
      exact hKept account hMem hSel hStatus
    · exact hStatus

end Writes

/-! ## What an operation does to the accounts -/

structure Stays (w w' : World) : Prop where
  sound : w'.AccountsSound
  kept : KeepsDisconnected w.accounts w'.accounts

section Operations

variable {w w' : World}

theorem World.AccountsSound.same (h : w.AccountsSound) (hAccounts : w'.accounts = w.accounts) (hIds : w.nextId ≤ w'.nextId) :
    Stays w w' := by
  refine ⟨⟨?_, ?_, ?_⟩, ?_⟩
  · rw [hAccounts]
    exact h.ids
  · rw [hAccounts]
    exact fun account hMem => Nat.lt_of_lt_of_le (h.fresh account hMem) hIds
  · rw [hAccounts]
    exact h.oneActive
  · rw [hAccounts]
    exact .refl

theorem World.AccountsSound.update (h : w.AccountsSound) {sel : RestaurantPaymentAccount → Bool}
    {f : RestaurantPaymentAccount → RestaurantPaymentAccount} (hId : ∀ a, (f a).id = a.id)
    (hRestaurant : ∀ a, (f a).restaurantId = a.restaurantId)
    (hActive : ∀ a ∈ w.accounts, sel a = true → (f a).status = .active →
      a.status = .active ∨ activeTaken w.accounts (f a) = false ∧ ∀ b ∈ w.accounts, sel b = true → b.id = a.id)
    (hKept : ∀ a ∈ w.accounts, sel a = true → a.status = .disconnected → (f a).status = .disconnected) :
    Stays w (w.updateAccounts sel f) := by
  have hIds : (w.updateAccounts sel f).accounts.map (·.id) = w.accounts.map (·.id) := Tables.map_update_eq _ hId
  refine ⟨⟨?_, fun account hMem => ?_, h.oneActive.update hId hRestaurant hActive⟩, .update hId hKept⟩
  · rw [hIds]
    exact h.ids
  · have hSome : account.id ∈ w.accounts.map (·.id) := hIds ▸ List.mem_map_of_mem hMem
    obtain ⟨stored, hStored, hSame⟩ := List.mem_map.mp hSome
    exact hSame ▸ h.fresh stored hStored

theorem World.AccountsSound.insert (h : w.AccountsSound) {account : RestaurantPaymentAccount} (hId : account.id = w.nextId)
    (hFree : account.status = .active → activeTaken w.accounts account = false) :
    Stays w { w with accounts := w.accounts ++ [account], nextId := w.nextId + 1 } := by
  refine ⟨⟨?_, fun stored hMem => ?_, h.oneActive.append hFree⟩, fun stored hMem hStatus => ?_⟩
  · rw [List.map_append, List.nodup_append]
    refine ⟨h.ids, List.nodup_singleton _, ?_⟩
    rintro id hOld new hNew rfl
    obtain ⟨stored, hStored, rfl⟩ := List.mem_map.mp hOld
    obtain ⟨added, hAdded, hSame⟩ := List.mem_map.mp hNew
    cases List.mem_singleton.mp hAdded
    exact Nat.ne_of_lt (h.fresh stored hStored) (hSame.symm.trans hId)
  · rcases List.mem_append.mp hMem with hOld | hNew
    · exact Nat.lt_succ_of_lt (h.fresh stored hOld)
    · cases List.mem_singleton.mp hNew
      exact hId ▸ Nat.lt_succ_self w.nextId
  · exact ⟨stored, List.mem_append_left _ hMem, rfl, hStatus⟩

theorem saveOver_id (loaded saved stored : RestaurantPaymentAccount) : (loaded.saveOver saved stored).id = stored.id := rfl

theorem AccountOp.perform_stays (h : w.AccountsSound) (op : AccountOp)
    (hFinds : ∀ loaded account, op = .save loaded account → account.status = loaded.status ∨ account.status = .disconnected ∨
      ∀ stored, w.accounts.find? (·.id = loaded.id) = some stored → stored.status ≠ .disconnected) :
    Stays w (op.perform w).2 := by
  have hSame : Stays w w := h.same rfl (Nat.le_refl _)
  cases op with
  | insert account =>
    rw [AccountOp.perform]
    dsimp only
    split
    · exact hSame
    · rename_i hFree
      refine h.insert rfl fun hActive => ?_
      rw [Bool.eq_false_iff]
      exact fun hTaken => hFree ⟨hActive, hTaken⟩
  | save loaded account =>
    rw [AccountOp.perform]
    split
    · exact hSame
    · rename_i stored hStored
      dsimp only
      split
      · exact hSame
      · rename_i hFree
        have hId : stored.id = loaded.id := by simpa using List.find?_some hStored
        have hOnly : ∀ a ∈ w.accounts, decide (a.id = loaded.id) = true → a = stored := fun a ha hSel =>
          Tables.eq_of_id h.ids ha (List.mem_of_find?_eq_some hStored) ((of_decide_eq_true hSel).trans hId.symm)
        refine h.update (saveOver_id loaded account) (fun _ => rfl) (fun a ha hSel hNow => .inr ⟨?_, fun b hb hSelB => ?_⟩)
          fun a ha hSel hWas => ?_
        · cases hOnly a ha hSel
          rw [Bool.eq_false_iff]
          exact fun hTaken => hFree ⟨hNow, hTaken⟩
        · rw [hOnly a ha hSel, hOnly b hb hSelB]
        · cases hOnly a ha hSel
          rcases hFinds loaded account rfl with hUnchanged | hDisconnected | hFound
          · exact (if_pos hUnchanged).trans hWas
          · change (if account.status = loaded.status then stored.status else account.status) = _
            split
            · exact hWas
            · exact hDisconnected
          · exact absurd hWas (hFound stored hStored)
  | disconnectOthers restaurantId kept =>
    exact h.update (fun _ => rfl) (fun _ => rfl) (fun _ _ _ hNow => by cases hNow) fun _ _ _ _ => rfl
  | noteFirstWebhook id time => exact h.update (fun _ => rfl) (fun _ => rfl) (fun _ _ _ hNow => .inl hNow) fun _ _ _ hWas => hWas
  | _ => exact hSame

theorem RefundOp.perform_accounts (op : RefundOp) : (op.perform w).2.accounts = w.accounts ∧ w.nextId ≤ (op.perform w).2.nextId := by
  cases op <;> dsimp only [RefundOp.perform] <;> (repeat' split) <;>
    first | exact ⟨rfl, Nat.le_refl _⟩ | exact ⟨rfl, Nat.le_succ _⟩

theorem PaymentOp.perform_accounts (op : PaymentOp) : (op.perform w).2.accounts = w.accounts ∧ w.nextId ≤ (op.perform w).2.nextId := by
  cases op <;> dsimp only [PaymentOp.perform] <;> (repeat' split) <;>
    first | exact ⟨rfl, Nat.le_refl _⟩ | exact ⟨rfl, Nat.le_succ _⟩

theorem OrderOp.perform_accounts (op : OrderOp) : (op.perform w).2.accounts = w.accounts ∧ w.nextId ≤ (op.perform w).2.nextId := by
  cases op <;> exact ⟨rfl, Nat.le_refl _⟩

theorem EventOp.perform_accounts (op : EventOp) : (op.perform w).2.accounts = w.accounts ∧ w.nextId ≤ (op.perform w).2.nextId := by
  cases op <;> dsimp only [EventOp.perform] <;> (repeat' split) <;> exact ⟨rfl, Nat.le_refl _⟩

theorem ProviderOp.perform_accounts (op : ProviderOp) (a : Answer) :
    (op.perform a w).2.accounts = w.accounts ∧ w.nextId ≤ (op.perform a w).2.nextId := by
  cases op <;> dsimp only [ProviderOp.perform] <;> (repeat' split) <;> exact ⟨rfl, Nat.le_refl _⟩

theorem perform_stays (h : w.AccountsSound) {op : Op} {a : Answer}
    (hFinds : ∀ loaded account, op = .account (.save loaded account) → account.status = loaded.status ∨
      account.status = .disconnected ∨ ∀ stored, w.accounts.find? (·.id = loaded.id) = some stored → stored.status ≠ .disconnected) :
    Stays w (op.perform a w).2 := by
  cases op with
  | account op => exact AccountOp.perform_stays h op fun loaded account hSave => hFinds loaded account (congrArg Op.account hSave)
  | refund op => exact h.same op.perform_accounts.1 op.perform_accounts.2
  | payment op => exact h.same op.perform_accounts.1 op.perform_accounts.2
  | order op => exact h.same op.perform_accounts.1 op.perform_accounts.2
  | event op => exact h.same op.perform_accounts.1 op.perform_accounts.2
  | provider op => exact h.same (op.perform_accounts a).1 (op.perform_accounts a).2
  | _ => exact h.same rfl (Nat.le_refl _)

end Operations

section Run

variable {env : Env} {w₀ : World} {requests : List Request} {c c' : State}

end Run

/-! ### A disconnect while an account is synchronised -/

def enabled : Answer := { account := .ok { chargesEnabled := true, payoutsEnabled := true, requirementsDue := [], disabledReason := none } }

def World.statuses (w : World) : List (Id × AccountStatus) := w.accounts.map fun account => (account.id, account.status)

end RestaurantOs.Payments
