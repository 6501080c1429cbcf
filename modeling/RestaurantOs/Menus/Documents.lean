import RestaurantOs.Data.Tables
import RestaurantOs.Payments.Types

/-!
# Menu documents

The categories, items and modifier groups of a menu and what a location
overrides of them. A text is the list of its characters, an override field
that is absent or null is `none`.
-/

namespace RestaurantOs.Menus

export Payments (Id ApiError Err)

abbrev Text := List Char

structure Category where
  id : Id
  restaurantId : Option Id := none
  businessId : Option Id := none
  name : Text
  description : Option Text := none
  sortOrder : Int := 0
  isActive : Bool := true
  clonedFromCategoryId : Option Id := none
  deriving DecidableEq

structure MenuItem where
  id : Id
  restaurantId : Option Id := none
  businessId : Option Id := none
  categoryId : Id
  name : Text
  description : Text := []
  price : ℚ
  imageUrl : Option Text := none
  isAvailable : Bool := true
  sortOrder : Int := 0
  clonedFromMenuItemId : Option Id := none
  deriving DecidableEq

structure ModifierOption where
  id : Id
  name : Text
  priceAdjustment : ℚ
  isActive : Bool := true
  sortOrder : Int := 0
  deriving DecidableEq

structure ModifierGroup where
  id : Id
  restaurantId : Option Id := none
  businessId : Option Id := none
  menuItemId : Id
  name : Text
  minSelect : Nat := 0
  maxSelect : Nat := 1
  isActive : Bool := true
  sortOrder : Int := 0
  options : List ModifierOption
  clonedFromModifierGroupId : Option Id := none
  deriving DecidableEq

structure CategoryLocationOverride where
  businessId : Id
  locationId : Id
  categoryId : Id
  isActive : Option Bool := none
  sortOrderOverride : Option Int := none
  deriving DecidableEq

structure MenuItemLocationOverride where
  businessId : Id
  locationId : Id
  menuItemId : Id
  isAvailable : Option Bool := none
  priceOverride : Option ℚ := none
  sortOrderOverride : Option Int := none
  deriving DecidableEq

structure ModifierOptionOverride where
  optionId : Id
  isActive : Option Bool := none
  priceAdjustmentOverride : Option ℚ := none
  deriving DecidableEq

structure ModifierGroupLocationOverride where
  businessId : Id
  locationId : Id
  modifierGroupId : Id
  isActive : Option Bool := none
  optionOverrides : List ModifierOptionOverride := []
  deriving DecidableEq

structure Restaurant where
  id : Id
  businessId : Option Id := none
  createdAt : Nat := 0
  deriving DecidableEq

structure Menu where
  restaurants : List Restaurant := []
  categories : List Category := []
  items : List MenuItem := []
  groups : List ModifierGroup := []
  categoryOverrides : List CategoryLocationOverride := []
  itemOverrides : List MenuItemLocationOverride := []
  groupOverrides : List ModifierGroupLocationOverride := []
  deriving DecidableEq

/-- `new Map(docs.map((d) => [key(d), d])).get(k)`: the last document wins. -/
def mapGet {α κ : Type} [DecidableEq κ] (key : α → κ) (docs : List α) (k : κ) : Option α :=
  (docs.filter fun d => key d = k).getLast?

section MapGet

variable {α κ : Type} [DecidableEq κ] {key : α → κ} {docs : List α} {k : κ}

theorem mem_of_mapGet {d : α} (h : mapGet key docs k = some d) : d ∈ docs ∧ key d = k := by
  have hMem := List.mem_filter.mp (List.mem_of_getLast? h)
  exact ⟨hMem.1, of_decide_eq_true hMem.2⟩

theorem mapGet_isSome : (mapGet key docs k).isSome = true ↔ ∃ d ∈ docs, key d = k := by
  rw [mapGet, List.getLast?_isSome, ne_eq, List.filter_eq_nil_iff]
  simp

theorem mapGet_filter_and {p q : α → Bool} (h : ∀ d ∈ docs, key d = k → q d = true) :
    mapGet key (docs.filter fun d => p d && q d) k = mapGet key (docs.filter p) k := by
  rw [mapGet, mapGet, List.filter_filter, List.filter_filter]
  congr 1
  refine List.filter_congr fun d hMem => ?_
  cases hKey : decide (key d = k) with
  | false => rfl
  | true => rw [h d hMem (of_decide_eq_true hKey), Bool.and_true]

theorem mapGet_of_unique {d : α} (hMem : d ∈ docs) (hKey : key d = k) (hUnique : ∀ e ∈ docs, key e = k → e = d) :
    mapGet key docs k = some d := by
  cases hGet : mapGet key docs k with
  | none =>
    have hSome := (mapGet_isSome).mpr ⟨d, hMem, hKey⟩
    rw [hGet] at hSome
    cases hSome
  | some e =>
    obtain ⟨hMem', hKey'⟩ := mem_of_mapGet hGet
    rw [hUnique e hMem' hKey']

theorem mapGet_append {more : List α} : mapGet key (docs ++ more) k = (mapGet key more k).or (mapGet key docs k) := by
  rw [mapGet, List.filter_append, List.getLast?_append, mapGet, mapGet]

theorem mapGet_map {β : Type} {key' : β → κ} {f : α → β} (h : ∀ d, key' (f d) = key d) : mapGet key' (docs.map f) k = (mapGet key docs k).map f := by
  have hKey : (fun d => decide (key' d = k)) ∘ f = fun d => decide (key d = k) := funext fun d => by simp [h d]
  rw [mapGet, mapGet, List.filter_map, hKey, List.getLast?_map]

theorem find?_of_unique {p : α → Bool} {d : α} (hMem : d ∈ docs) (hp : p d = true) (hUnique : ∀ e ∈ docs, p e = true → e = d) :
    docs.find? p = some d := by
  cases hFind : docs.find? p with
  | none => exact absurd hp (List.find?_eq_none.mp hFind d hMem)
  | some e => rw [hUnique e (List.mem_of_find?_eq_some hFind) (List.find?_some hFind)]

end MapGet

end RestaurantOs.Menus
