import Mathlib.Data.Multiset.Basic
import RestaurantOs.Carts.LineKeys

/-!
# The cart of the register

A line's key is its content's key with the length of the cart at the time. An
item is looked up by the content's key alone, so it never joins a line, and a
key comes back when the cart has shrunk in between.
-/

namespace RestaurantOs.Register

export Carts (Id Text)

open Carts

abbrev SelectedModifier := Menus.PricedSelectedModifier

structure MenuItem where
  id : Id
  name : Text
  price : ℚ

structure CartLine where
  key : Text
  menuItemId : Id
  name : Text
  unitPrice : ℚ
  quantity : Int
  selectedModifiers : List SelectedModifier
  specialInstructions : Option Text

structure Content where
  menuItemId : Id
  optionIds : Multiset Id
  notes : Text
  deriving DecidableEq

def optionIds (mods : List SelectedModifier) : List Id := mods.map (·.optionId)

def lineKey (menuItemId : Id) (mods : List SelectedModifier) : Text := idChars menuItemId ++ ':' :: ':' :: joinedIds (optionIds mods)

def numberedKey (key : Text) (length : Nat) : Text := key ++ ':' :: ':' :: idChars length

/-- `l.specialInstructions ?? ""` -/
def CartLine.notes (l : CartLine) : Text := l.specialInstructions.getD []

def CartLine.content (l : CartLine) : Content := ⟨l.menuItemId, optionIds l.selectedModifiers, l.notes⟩

abbrev Cart := List CartLine

namespace Cart

def addToCart (item : MenuItem) (mods : List SelectedModifier) (notes : Text) (prev : Cart) : Cart :=
  let key := lineKey item.id mods
  match prev.findIdx? fun l => l.key = key && l.notes = notes with
  | some existing => prev.modify existing fun l => { l with quantity := l.quantity + 1 }
  | none =>
    prev ++ [{
      key := numberedKey key prev.length, menuItemId := item.id, name := item.name, unitPrice := item.price, quantity := 1
      selectedModifiers := mods, specialInstructions := if notes = [] then none else some notes }]

def changed (delta : Int) (l : CartLine) : Cart :=
  if l.quantity + delta ≤ 0 then [] else [{ l with quantity := l.quantity + delta }]

def updateQuantity (key : Text) (delta : Int) (prev : Cart) : Cart :=
  prev.flatMap fun l => if l.key = key then changed delta l else [l]

def quantityOf (cart : Cart) (c : Content) : Int := Tables.total (fun l => if l.content = c then l.quantity else 0) cart

end Cart

inductive Op
  | add (item : MenuItem) (mods : List SelectedModifier) (notes : Text)
  | update (key : Text) (delta : Int)

/-- `owed` is what the operations on a content add up to. -/
structure Sale where
  cart : Cart := []
  owed : Content → Int := fun _ => 0

namespace Sale

def perform (s : Sale) : Op → Sale
  | .add item mods notes => {
      cart := s.cart.addToCart item mods notes
      owed := fun c => if c = ⟨item.id, optionIds mods, notes⟩ then s.owed c + 1 else s.owed c }
  | .update key delta => {
      cart := s.cart.updateQuantity key delta
      owed := fun c =>
        if (s.cart.find? fun l => l.key = key).any fun l => c = l.content then max 0 (s.owed c + delta) else s.owed c }

/-- An operation on a fresh sale, or on what the one before it left. -/
inductive Reached (guard : Cart → Op → Bool) : Sale → Prop
  | start : Reached guard {}
  | perform {s : Sale} {op : Op} (h : Reached guard s) (hGuard : guard s.cart op = true) : Reached guard (s.perform op)

end Sale

def keepsApart (cart : Cart) : Op → Bool
  | .add item mods notes =>
    !cart.any fun l => l.content = ⟨item.id, optionIds mods, notes⟩ || l.key = numberedKey (lineKey item.id mods) cart.length
  | .update _ _ => true

section Keys

variable {a b : Id} {mods mods' : List SelectedModifier} {n : Nat}

theorem colon_not_mem_idChars : ':' ∉ idChars a := not_mem_idChars rfl

theorem count_lineKey : (lineKey a mods).count ':' = 2 := by
  rw [lineKey, List.count_append, List.count_cons_self, List.count_cons_self, List.count_eq_zero.mpr colon_not_mem_idChars,
    List.count_eq_zero.mpr colon_not_mem_joinedIds]

theorem count_numberedKey : (numberedKey (lineKey a mods) n).count ':' = 4 := by
  rw [numberedKey, List.count_append, List.count_cons_self, List.count_cons_self, count_lineKey,
    List.count_eq_zero.mpr colon_not_mem_idChars]

theorem numberedKey_ne : numberedKey (lineKey a mods) n ≠ lineKey b mods' := fun h => by
  have hCount := congrArg (List.count ':') h
  rw [count_numberedKey, count_lineKey] at hCount
  cases hCount

end Keys

namespace Cart

variable {cart before after : Cart} {l : CartLine} {key : Text} {delta : Int} {c : Content}

theorem updateQuantity_append {more : Cart} : (cart ++ more).updateQuantity key delta =
    cart.updateQuantity key delta ++ more.updateQuantity key delta := List.flatMap_append

theorem updateQuantity_of_ne (h : ∀ l ∈ cart, l.key ≠ key) : cart.updateQuantity key delta = cart := by
  induction cart with
  | nil => rfl
  | cons l cart ih =>
    obtain ⟨hl, hRest⟩ := List.forall_mem_cons.mp h
    have hHead : updateQuantity key delta (l :: cart) = [l] ++ updateQuantity key delta cart := by
      rw [updateQuantity, List.flatMap_cons, if_neg hl]
      rfl
    rw [hHead, ih hRest]
    rfl

theorem updateQuantity_split (hKeys : ((before ++ l :: after).map CartLine.key).Nodup) :
    (before ++ l :: after).updateQuantity l.key delta = before ++ changed delta l ++ after := by
  rw [List.map_append, List.map_cons, List.nodup_append, List.nodup_cons] at hKeys
  obtain ⟨-, ⟨hAfter, -⟩, hApart⟩ := hKeys
  have hBefore : ∀ l' ∈ before, l'.key ≠ l.key := fun l' hl' =>
    hApart _ (List.mem_map_of_mem hl') _ List.mem_cons_self
  have hBehind : ∀ l' ∈ after, l'.key ≠ l.key := fun l' hl' hEq => hAfter (List.mem_map.mpr ⟨l', hl', hEq⟩)
  have hLine : updateQuantity l.key delta [l] = changed delta l := by
    rw [updateQuantity, List.flatMap_singleton, if_pos rfl]
  rw [List.append_cons, updateQuantity_append, updateQuantity_append, updateQuantity_of_ne hBefore, hLine,
    updateQuantity_of_ne hBehind]

@[simp] theorem quantityOf_append {more : Cart} : (cart ++ more).quantityOf c = cart.quantityOf c + more.quantityOf c := by
  simp [quantityOf, Tables.total]

theorem quantityOf_cons : quantityOf (l :: cart) c = (if l.content = c then l.quantity else 0) + quantityOf cart c := by
  simp [quantityOf, Tables.total]

theorem quantityOf_of_ne (h : ∀ l ∈ cart, l.content ≠ c) : cart.quantityOf c = 0 := by
  induction cart with
  | nil => rfl
  | cons l cart ih =>
    obtain ⟨hl, hRest⟩ := List.forall_mem_cons.mp h
    rw [quantityOf_cons, if_neg hl, ih hRest, add_zero]

theorem quantityOf_changed :
    (changed delta l).quantityOf c = if l.content = c then max 0 (l.quantity + delta) else 0 := by
  unfold changed
  split
  · rename_i hGone
    rw [max_eq_left hGone, ite_self]
    rfl
  · rename_i hStays
    have hContent : ({ l with quantity := l.quantity + delta } : CartLine).content = l.content := rfl
    rw [quantityOf_cons, hContent, max_eq_right (not_le.mp hStays).le]
    exact add_zero _

end Cart

namespace Sale

structure Kept (s : Sale) : Prop where
  keys : (s.cart.map CartLine.key).Nodup
  contents : (s.cart.map CartLine.content).Nodup
  positive : ∀ l ∈ s.cart, 0 < l.quantity
  numbered : ∀ l ∈ s.cart, ∃ n, l.key = numberedKey (lineKey l.menuItemId l.selectedModifiers) n
  totals (c : Content) : s.cart.quantityOf c = s.owed c

variable {s : Sale} {item : MenuItem} {mods : List SelectedModifier} {notes key : Text} {delta : Int}

theorem Kept.addToCart_eq (h : s.Kept) : ∃ l : CartLine, s.cart.addToCart item mods notes = s.cart ++ [l] ∧
    l.key = numberedKey (lineKey item.id mods) s.cart.length ∧ l.content = ⟨item.id, optionIds mods, notes⟩ ∧ l.quantity = 1 ∧
      lineKey l.menuItemId l.selectedModifiers = lineKey item.id mods := by
  have hFind : (s.cart.findIdx? fun l => l.key = lineKey item.id mods && l.notes = notes) = none := by
    refine List.findIdx?_eq_none_iff.mpr fun l hl => ?_
    obtain ⟨n, hKey⟩ := h.numbered l hl
    rw [hKey, decide_eq_false numberedKey_ne, Bool.false_and]
  rw [Cart.addToCart, hFind]
  refine ⟨_, rfl, rfl, ?_, rfl, rfl⟩
  have hNotes : (if notes = [] then none else some notes : Option Text).getD [] = notes := by
    split
    · rename_i hNil
      exact hNil.symm
    · rfl
  rw [CartLine.content, CartLine.notes, hNotes]

theorem Kept.added (h : s.Kept) (hApart : keepsApart s.cart (.add item mods notes) = true) :
    (s.perform (.add item mods notes)).Kept := by
  obtain ⟨l, hCart, hKey, hContent, hQuantity, hLineKey⟩ := @Kept.addToCart_eq _ item mods notes h
  rw [keepsApart, Bool.not_eq_true', List.any_eq_false] at hApart
  have hNew : ∀ l' ∈ s.cart, l'.content ≠ l.content ∧ l'.key ≠ l.key := by
    intro l' hl'
    have hNot := hApart l' hl'
    rw [Bool.or_eq_true, decide_eq_true_eq, decide_eq_true_eq, not_or] at hNot
    rwa [hKey, hContent]
  have hPerform : (s.perform (.add item mods notes)).cart = s.cart ++ [l] := hCart
  constructor
  · rw [hPerform, List.map_append]
    refine List.nodup_append.mpr ⟨h.keys, List.nodup_singleton _, fun k hk k' hk' => ?_⟩
    obtain ⟨l', hl', rfl⟩ := List.mem_map.mp hk
    rw [List.mem_singleton.mp hk']
    exact (hNew l' hl').2
  · rw [hPerform, List.map_append]
    refine List.nodup_append.mpr ⟨h.contents, List.nodup_singleton _, fun k hk k' hk' => ?_⟩
    obtain ⟨l', hl', rfl⟩ := List.mem_map.mp hk
    rw [List.mem_singleton.mp hk']
    exact (hNew l' hl').1
  · intro l' hl'
    rw [hPerform, List.mem_append, List.mem_singleton] at hl'
    rcases hl' with hl' | rfl
    · exact h.positive l' hl'
    · rw [hQuantity]
      exact Int.one_pos
  · intro l' hl'
    rw [hPerform, List.mem_append, List.mem_singleton] at hl'
    rcases hl' with hl' | rfl
    · exact h.numbered l' hl'
    · exact ⟨s.cart.length, by rw [hKey, hLineKey]⟩
  · intro c
    rw [hPerform, Cart.quantityOf_append, Cart.quantityOf_cons, h.totals, hQuantity, hContent]
    change s.owed c + ((if _ = c then 1 else 0) + 0) = if c = _ then s.owed c + 1 else s.owed c
    by_cases hc : c = ⟨item.id, optionIds mods, notes⟩
    · rw [if_pos hc.symm, if_pos hc, add_zero]
    · rw [if_neg (Ne.symm hc), if_neg hc, add_zero, add_zero]

theorem mem_changed {l l' : CartLine} (h : l' ∈ Cart.changed delta l) :
    l'.key = l.key ∧ l'.content = l.content ∧ 0 < l'.quantity ∧
      lineKey l'.menuItemId l'.selectedModifiers = lineKey l.menuItemId l.selectedModifiers := by
  unfold Cart.changed at h
  split at h
  · cases h
  · rename_i hStays
    cases List.mem_singleton.mp h
    exact ⟨rfl, rfl, not_le.mp hStays, rfl⟩

theorem map_changed_sublist {β : Type} {f : CartLine → β} {l : CartLine} (hf : ∀ l' ∈ Cart.changed delta l, f l' = f l) :
    ((Cart.changed delta l).map f).Sublist [f l] := by
  unfold Cart.changed at hf ⊢
  split
  · exact List.nil_sublist _
  · rename_i hStays
    rw [if_neg hStays] at hf
    rw [List.map_singleton, hf _ (List.mem_singleton_self _)]

theorem Kept.updated (h : s.Kept) : (s.perform (.update key delta)).Kept := by
  cases hFind : s.cart.find? (fun l => l.key = key) with
  | none =>
    have hNone : ∀ l ∈ s.cart, l.key ≠ key := fun l hl => by simpa using List.find?_eq_none.mp hFind l hl
    have hCart : (s.perform (.update key delta)).cart = s.cart := Cart.updateQuantity_of_ne hNone
    have hOwed : (s.perform (.update key delta)).owed = s.owed := by
      funext c
      simp only [perform, hFind, Option.any_none, Bool.false_eq_true, if_false]
    exact ⟨hCart ▸ h.keys, hCart ▸ h.contents, hCart ▸ h.positive, hCart ▸ h.numbered, by rw [hCart, hOwed]; exact h.totals⟩
  | some l =>
    have hKey := List.find?_some hFind
    rw [decide_eq_true_eq] at hKey
    subst hKey
    obtain ⟨before, after, hSplit⟩ := List.append_of_mem (List.mem_of_find?_eq_some hFind)
    have hKeys := h.keys
    have hContents := h.contents
    rw [hSplit] at hKeys hContents
    have hCart : (s.perform (.update l.key delta)).cart = before ++ Cart.changed delta l ++ after := by
      change s.cart.updateQuantity l.key delta = _
      rw [hSplit, Cart.updateQuantity_split hKeys]
    have hSub : ∀ {β : Type} (f : CartLine → β), (∀ l' ∈ Cart.changed delta l, f l' = f l) →
        ((before ++ Cart.changed delta l ++ after).map f).Sublist ((before ++ l :: after).map f) := by
      intro β f hf
      rw [List.append_cons, List.map_append, List.map_append, List.map_append, List.map_append]
      exact ((List.Sublist.refl _).append (map_changed_sublist hf)).append (List.Sublist.refl _)
    have hOld : ∀ l' ∈ before ++ Cart.changed delta l ++ after, l' ∈ s.cart ∨ l' ∈ Cart.changed delta l := by
      intro l' hl'
      rw [hSplit]
      simp only [List.mem_append, List.mem_cons] at hl' ⊢
      tauto
    constructor
    · rw [hCart]
      exact hKeys.sublist (hSub _ fun l' hl' => (mem_changed hl').1)
    · rw [hCart]
      exact hContents.sublist (hSub _ fun l' hl' => (mem_changed hl').2.1)
    · intro l' hl'
      rcases hOld l' (hCart ▸ hl') with hl' | hl'
      · exact h.positive l' hl'
      · exact (mem_changed hl').2.2.1
    · intro l' hl'
      rcases hOld l' (hCart ▸ hl') with hl' | hl'
      · exact h.numbered l' hl'
      · obtain ⟨n, hNumbered⟩ := h.numbered l (List.mem_of_find?_eq_some hFind)
        exact ⟨n, by rw [(mem_changed hl').1, (mem_changed hl').2.2.2]; exact hNumbered⟩
    · intro c
      have hTotal := h.totals c
      have hOwed : (s.perform (.update l.key delta)).owed c = if c = l.content then max 0 (s.owed c + delta) else s.owed c := by
        simp only [perform, hFind, Option.any_some, decide_eq_true_eq]
      rw [hSplit, Cart.quantityOf_append, Cart.quantityOf_cons] at hTotal
      rw [hCart, Cart.quantityOf_append, Cart.quantityOf_append, hOwed, Cart.quantityOf_changed]
      by_cases hc : c = l.content
      · -- no other line has the content
        subst hc
        rw [List.map_append, List.map_cons, List.nodup_append, List.nodup_cons] at hContents
        obtain ⟨-, ⟨hAfter, -⟩, hApart⟩ := hContents
        have hBefore : Cart.quantityOf before l.content = 0 := Cart.quantityOf_of_ne fun l' hl' =>
          hApart _ (List.mem_map_of_mem hl') _ List.mem_cons_self
        have hBehind : Cart.quantityOf after l.content = 0 :=
          Cart.quantityOf_of_ne fun l' hl' hEq => hAfter (List.mem_map.mpr ⟨l', hl', hEq⟩)
        rw [if_pos rfl, hBefore, hBehind, zero_add, add_zero] at hTotal
        rw [if_pos rfl, if_pos rfl, hBefore, hBehind, zero_add, add_zero, hTotal]
      · rw [if_neg (Ne.symm hc), zero_add] at hTotal
        rw [if_neg (Ne.symm hc), if_neg hc, add_zero, hTotal]

theorem Reached.kept (h : Reached keepsApart s) : s.Kept := by
  induction h with
  | start => exact ⟨List.nodup_nil, List.nodup_nil, by simp, by simp, fun _ => rfl⟩
  | @perform s op _ hGuard ih =>
    cases op with
    | add item mods notes => exact ih.added hGuard
    | update key delta => exact ih.updated

end Sale

namespace Espresso

def item : MenuItem := { id := 1, name := "Espresso".toList, price := 3 }

end Espresso

end RestaurantOs.Register
