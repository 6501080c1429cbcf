import RestaurantOs.MenuEdits.Writes
import RestaurantOs.Menus.PlainOrders

/-!
# Limits that can be met

A modifier group can be chosen from while its minimum is at most its maximum and it
has an option. Two updates that each set one limit, and draft rows, can bring the
minimum above the maximum.
-/

namespace RestaurantOs.MenuEdits

open Async Prog Menus
open MenuImport (ImportScope ResolvedImport Answer passesValidators writtenMenu toCreate)

/-! ## What an order can choose -/

structure Fit (group : ModifierGroup) : Prop where
  limits : group.minSelect ≤ group.maxSelect
  someOption : group.options ≠ []

section Pricing

variable {items : List EffectivePricingItem} {menu : Menu} {group : ModifierGroup} {loaded : EffectivePricingGroup} {restaurantId : Id}

def chosen (loaded : EffectivePricingGroup) (option : EffectivePricingOption) : List SelectedModifierInput :=
  List.replicate loaded.minSelect ⟨loaded.id, option.id⟩

end Pricing

/-! ## What the writes leave -/

section Writes

variable {menu menu' : Menu} {change : Write} {scope : Scope}

end Writes

namespace Toppings

def group : ModifierGroup where
  id := 30
  restaurantId := some 1
  menuItemId := 20
  name := "Toppings".toList
  minSelect := 0
  maxSelect := 2
  options := [{ id := 31, name := "Olives".toList, priceAdjustment := 1 }]

def world : World := { imports := { menu := { restaurants := [{ id := 1 }], groups := [group] } } }

def requests : List Request :=
  [.edit (.updateGroup (.restaurant 1) 20 30 40 { minSelect := some 2 }), .edit (.updateGroup (.restaurant 1) 20 30 40 { maxSelect := some 1 })]

end Toppings

end RestaurantOs.MenuEdits
