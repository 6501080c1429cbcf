import Mathlib.Data.Multiset.Basic
import RestaurantOs.Carts.LineKeys
import RestaurantOs.Data.Traversals

/-!
# The cart of the storefront

A line's id is made of its item, its options and its instructions, and an item
joins the line of its id. A past order that is ordered again becomes the cart
line by line, without the instructions.
-/

namespace RestaurantOs.Storefront

export Carts (Id Text)

open Carts Menus
open Words (split_at)

abbrev SelectedModifier := PricedSelectedModifier

structure MenuItem where
  id : Id
  name : Text
  price : ℚ
  restaurantId : Id

structure CartLine where
  lineId : Text
  menuItem : MenuItem
  quantity : Int
  selectedModifiers : List SelectedModifier
  specialInstructions : Option Text := none

def optionIds (mods : List SelectedModifier) : List Id := mods.map (·.optionId)

def makeLineId (menuItemId : Id) (mods : List SelectedModifier) (specialInstructions : Option Text) : Text :=
  idChars menuItemId ++ ':' :: (joinedIds (optionIds mods) ++ ':' :: specialInstructions.getD [])

structure HistoricalItem where
  menuItemId : Id
  quantity : Nat
  selectedModifiers : List SelectedModifierInput
  specialInstructions : Option Text := none
  quantity_pos : 0 < quantity

def HistoricalItem.line (i : HistoricalItem) : OrderLine :=
  { menuItemId := i.menuItemId, quantity := i.quantity, selectedModifiers := i.selectedModifiers }

/-- `reorderOrder`: the items that can still be priced, each by itself. -/
def reorderItems (menu : Menu) (restaurantId : Id) (original : List HistoricalItem) : List PricedOrderItem :=
  original.filterMap fun i => ((priceOrderItems menu restaurantId [i.line]).toOption.bind fun priced => priced.items.head?)

abbrev Cart := List CartLine

namespace Cart

/-- `lines[0]?.menuItem.restaurantId` -/
def restaurantId? (lines : Cart) : Option Id := lines.head?.map (·.menuItem.restaurantId)

def addItem (item : MenuItem) (mods : List SelectedModifier) (specialInstructions : Option Text) (force : Bool) (lines : Cart) :
    Cart :=
  if !force && lines.restaurantId?.any fun id => item.restaurantId ≠ id then lines
  else
    let lineId := makeLineId item.id mods specialInstructions
    if lines.any fun l => l.lineId = lineId then
      lines.map fun l => if l.lineId = lineId then { l with quantity := l.quantity + 1 } else l
    else lines ++ [{ lineId, menuItem := item, quantity := 1, selectedModifiers := mods, specialInstructions }]

def removeItem (lineId : Text) (lines : Cart) : Cart := lines.filter fun l => l.lineId ≠ lineId

def setQuantity (lineId : Text) (quantity : Int) (lines : Cart) : Cart :=
  if quantity ≤ 0 then lines.removeItem lineId
  else lines.map fun l => if l.lineId = lineId then { l with quantity } else l

def loadFromReorder (items : List PricedOrderItem) (restaurantId : Id) : Cart :=
  items.map fun item => {
    lineId := makeLineId item.menuItemId item.selectedModifiers none
    menuItem := { id := item.menuItemId, name := item.name, price := item.unitPrice, restaurantId }
    quantity := item.quantity
    selectedModifiers := item.selectedModifiers }

end Cart

inductive Op
  | addItem (item : MenuItem) (mods : List SelectedModifier) (specialInstructions : Option Text) (force : Bool)
  | removeItem (lineId : Text)
  | setQuantity (lineId : Text) (quantity : Int)
  | clear
  | loadFromReorder (menu : Menu) (restaurantId : Id) (original : List HistoricalItem)

namespace Op

def perform (lines : Cart) : Op → Cart
  | addItem item mods specialInstructions force => lines.addItem item mods specialInstructions force
  | removeItem lineId => lines.removeItem lineId
  | setQuantity lineId quantity => lines.setQuantity lineId quantity
  | clear => []
  | loadFromReorder menu restaurantId original => Cart.loadFromReorder (reorderItems menu restaurantId original) restaurantId

/-- `force` is used only when the cart has just been cleared. -/
def forcesCleared (lines : Cart) : Op → Bool
  | addItem _ _ _ force => !force || lines.isEmpty
  | _ => true

end Op

def orderedAs (item : PricedOrderItem) : Id × Multiset Id := (item.menuItemId, optionIds item.selectedModifiers)

/-- A reply that is loaded has each item and options once. -/
def reordersOnce : Op → Bool
  | .loadFromReorder menu restaurantId original => decide ((reorderItems menu restaurantId original).map orderedAs).Nodup
  | _ => true

inductive Cart.Reached (guard : Op → Bool) : Cart → Prop
  | empty : Reached guard []
  | perform {lines : Cart} {op : Op} (h : Reached guard lines) (hForces : op.forcesCleared lines = true) (hGuard : guard op = true) :
      Reached guard (op.perform lines)

structure Content where
  menuItemId : Id
  optionIds : Multiset Id
  specialInstructions : Text
  deriving DecidableEq

def CartLine.content (l : CartLine) : Content := ⟨l.menuItem.id, optionIds l.selectedModifiers, l.specialInstructions.getD []⟩

section Lines

variable {lines before after : Cart} {l : CartLine} {lineId : Text} {quantity : Int} {a b : Id} {mods mods' : List SelectedModifier}
  {t t' : Option Text}

theorem makeLineId_inj : makeLineId a mods t = makeLineId b mods' t' ↔
    a = b ∧ (optionIds mods : Multiset Id) = optionIds mods' ∧ t.getD [] = t'.getD [] := by
  constructor
  · intro h
    obtain ⟨hId, hRest⟩ := split_at (not_mem_idChars rfl) (not_mem_idChars rfl) h
    obtain ⟨hOptions, hText⟩ := split_at colon_not_mem_joinedIds colon_not_mem_joinedIds hRest
    exact ⟨idChars_inj hId, Multiset.coe_eq_coe.mpr (joinedIds_inj.mp hOptions), hText⟩
  · rintro ⟨rfl, hOptions, hText⟩
    rw [makeLineId, makeLineId, hText, joinedIds_inj.mpr (Multiset.coe_eq_coe.mp hOptions)]

end Lines

/-! ## Replies -/

section Replies

variable {menu : Menu} {restaurantId : Id} {original : List HistoricalItem}

theorem priceLine_quantity {items : List EffectivePricingItem} {groups : List EffectivePricingGroup} {line : OrderLine}
    {priced : PricedOrderItem} (h : priceLine items groups line = .ok priced) : priced.quantity = line.quantity := by
  obtain ⟨_, -, h⟩ := Traversals.bind_ok h
  obtain ⟨selected, -, h⟩ := Traversals.bind_ok h
  obtain ⟨_, -, h⟩ := Traversals.bind_ok h
  split at h
  · cases h
  · cases h
    rfl

theorem mapM_of_priceOrderItems {lines : List OrderLine} {priced : PricedOrder}
    (h : priceOrderItems menu restaurantId lines = .ok priced) :
    ∃ items groups, lines.mapM (priceLine items groups) = .ok priced.items := by
  rw [priceOrderItems] at h
  dsimp only at h
  split_ifs at h
  obtain ⟨items, hItems, hResult⟩ := Traversals.bind_ok h
  cases hResult
  exact ⟨_, _, hItems⟩

theorem reorderItems_quantity {item : PricedOrderItem} (h : item ∈ reorderItems menu restaurantId original) : 0 < item.quantity := by
  obtain ⟨i, -, hPriced⟩ := List.mem_filterMap.mp h
  obtain ⟨priced, hOk, hHead⟩ := Option.bind_eq_some_iff.mp hPriced
  have hOrder : priceOrderItems menu restaurantId [i.line] = .ok priced := by
    cases hPrice : priceOrderItems menu restaurantId [i.line] with
    | error err =>
      rw [hPrice] at hOk
      cases hOk
    | ok priced' =>
      rw [hPrice] at hOk
      cases hOk
      rfl
  obtain ⟨items, groups, hItems⟩ := mapM_of_priceOrderItems hOrder
  obtain ⟨line, hLine, hItem⟩ := Traversals.exists_of_forall₂ (List.Forall₂.flip (Traversals.mapM_ok_iff.mp hItems))
    (List.mem_of_mem_head? hHead)
  cases List.mem_singleton.mp hLine
  rw [priceLine_quantity hItem]
  exact i.quantity_pos

end Replies

/-! ## Every cart -/

structure Cart.Kept (lines : Cart) : Prop where
  ids : (lines.map CartLine.lineId).Nodup
  one_restaurant : ∀ l ∈ lines, ∀ l' ∈ lines, l.menuItem.restaurantId = l'.menuItem.restaurantId
  positive : ∀ l ∈ lines, 0 < l.quantity
  made : ∀ l ∈ lines, l.lineId = makeLineId l.menuItem.id l.selectedModifiers l.specialInstructions

namespace Cart

variable {lines : Cart} {item : MenuItem} {mods : List SelectedModifier} {t : Option Text} {force : Bool} {lineId : Text}
  {quantity : Int} {guard : Op → Bool}

theorem Kept.empty : Kept [] := ⟨List.nodup_nil, by simp, by simp, by simp⟩

theorem Kept.map {f : CartLine → CartLine} (h : lines.Kept) (hId : ∀ l, (f l).lineId = l.lineId)
    (hOf : ∀ l, (f l).menuItem = l.menuItem ∧ (f l).selectedModifiers = l.selectedModifiers ∧
      (f l).specialInstructions = l.specialInstructions)
    (hPositive : ∀ l, 0 < l.quantity → 0 < (f l).quantity) : Kept (lines.map f) where
  ids := by
    have hSame : lines.map (CartLine.lineId ∘ f) = lines.map CartLine.lineId := List.map_congr_left fun l _ => hId l
    rw [List.map_map, hSame]
    exact h.ids
  one_restaurant l hl l' hl' := by
    obtain ⟨k, hk, rfl⟩ := List.mem_map.mp hl
    obtain ⟨k', hk', rfl⟩ := List.mem_map.mp hl'
    rw [(hOf k).1, (hOf k').1]
    exact h.one_restaurant k hk k' hk'
  positive l hl := by
    obtain ⟨k, hk, rfl⟩ := List.mem_map.mp hl
    exact hPositive k (h.positive k hk)
  made l hl := by
    obtain ⟨k, hk, rfl⟩ := List.mem_map.mp hl
    rw [hId, (hOf k).1, (hOf k).2.1, (hOf k).2.2]
    exact h.made k hk

theorem Kept.filter {p : CartLine → Bool} (h : lines.Kept) : Kept (lines.filter p) where
  ids := h.ids.sublist (List.filter_sublist.map _)
  one_restaurant l hl l' hl' := h.one_restaurant l (List.mem_filter.mp hl).1 l' (List.mem_filter.mp hl').1
  positive l hl := h.positive l (List.mem_filter.mp hl).1
  made l hl := h.made l (List.mem_filter.mp hl).1

theorem Kept.added (h : lines.Kept) (hForces : (Op.addItem item mods t force).forcesCleared lines = true) :
    Kept (lines.addItem item mods t force) := by
  unfold Cart.addItem
  split
  · exact h
  rename_i hConflict
  simp only
  split
  · refine h.map (fun l => ?_) (fun l => ?_) fun l hl => ?_
    · split <;> rfl
    · split <;> exact ⟨rfl, rfl, rfl⟩
    · split
      · exact lt_trans hl (Int.lt_succ l.quantity)
      · exact hl
  · rename_i hNone
    rw [Bool.not_eq_true, List.any_eq_false] at hNone
    -- the lines that are there are of the item's restaurant
    have hSame : ∀ l ∈ lines, l.menuItem.restaurantId = item.restaurantId := by
      intro l hl
      cases lines with
      | nil => cases hl
      | cons first rest =>
        have hForce : force = false := by simpa [Op.forcesCleared] using hForces
        have hFirst : item.restaurantId = first.menuItem.restaurantId := by
          simpa [hForce, Cart.restaurantId?] using hConflict
        rw [hFirst]
        exact h.one_restaurant l hl first List.mem_cons_self
    constructor
    · rw [List.map_append]
      refine List.nodup_append.mpr ⟨h.ids, List.nodup_singleton _, fun k hk k' hk' => ?_⟩
      obtain ⟨l, hl, rfl⟩ := List.mem_map.mp hk
      rw [List.mem_singleton.mp hk']
      simpa using hNone l hl
    · intro l hl l' hl'
      rcases List.mem_append.mp hl with hl | hl <;> rcases List.mem_append.mp hl' with hl' | hl'
      · exact h.one_restaurant l hl l' hl'
      · rw [List.mem_singleton.mp hl', hSame l hl]
      · rw [List.mem_singleton.mp hl, hSame l' hl']
      · rw [List.mem_singleton.mp hl, List.mem_singleton.mp hl']
    · intro l hl
      rcases List.mem_append.mp hl with hl | hl
      · exact h.positive l hl
      · rw [List.mem_singleton.mp hl]
        exact Int.one_pos
    · intro l hl
      rcases List.mem_append.mp hl with hl | hl
      · exact h.made l hl
      · rw [List.mem_singleton.mp hl]

theorem Kept.quantitySet (h : lines.Kept) : Kept (lines.setQuantity lineId quantity) := by
  unfold Cart.setQuantity
  split
  · exact h.filter
  · rename_i hPositive
    refine h.map (fun l => ?_) (fun l => ?_) fun l hl => ?_
    · split <;> rfl
    · split <;> exact ⟨rfl, rfl, rfl⟩
    · split
      · exact not_le.mp hPositive
      · exact hl

theorem Kept.loaded {menu : Menu} {restaurantId : Id} {original : List HistoricalItem}
    (hOnce : ((reorderItems menu restaurantId original).map orderedAs).Nodup) :
    Kept (Cart.loadFromReorder (reorderItems menu restaurantId original) restaurantId) where
  ids := by
    rw [Cart.loadFromReorder, List.map_map]
    refine List.Nodup.of_map (f := id) ?_
    rw [List.map_id]
    refine List.nodup_map_iff_inj_on (List.Nodup.of_map _ hOnce) |>.mpr fun i hi j hj hEq => ?_
    obtain ⟨hId, hOptions, -⟩ := (makeLineId_inj).mp hEq
    exact List.inj_on_of_nodup_map hOnce hi hj (Prod.ext hId hOptions)
  one_restaurant l hl l' hl' := by
    obtain ⟨i, -, rfl⟩ := List.mem_map.mp hl
    obtain ⟨j, -, rfl⟩ := List.mem_map.mp hl'
    rfl
  positive l hl := by
    obtain ⟨i, hi, rfl⟩ := List.mem_map.mp hl
    exact Int.natCast_pos.mpr (reorderItems_quantity hi)
  made l hl := by
    obtain ⟨i, -, rfl⟩ := List.mem_map.mp hl
    rfl

theorem Reached.kept (h : Reached reordersOnce lines) : lines.Kept := by
  induction h with
  | empty => exact Kept.empty
  | @perform lines op _ hForces hGuard ih =>
    cases op with
    | addItem item mods t force => exact ih.added hForces
    | removeItem lineId => exact ih.filter
    | setQuantity lineId quantity => exact ih.quantitySet
    | clear => exact Kept.empty
    | loadFromReorder menu restaurantId original => exact Kept.loaded (of_decide_eq_true hGuard)

end Cart

namespace Lunch

def menu : Menu where
  items := [{ id := 4, restaurantId := some 2, categoryId := 3, name := "Soup".toList, price := 9 }]

def original : List HistoricalItem := [
  { menuItemId := 4, quantity := 1, selectedModifiers := [], quantity_pos := Nat.one_pos },
  { menuItemId := 4, quantity := 1, selectedModifiers := [], specialInstructions := some "No cream".toList, quantity_pos := Nat.one_pos }]

end Lunch

end RestaurantOs.Storefront
