import RestaurantOs.Menus.Resolution

/-!
# Pricing an order

The items and modifier groups that an order's lines name are loaded again,
with the location's overrides, and every price is taken from what was loaded.
-/

namespace RestaurantOs.Menus

structure SelectedModifierInput where
  groupId : Id
  optionId : Id
  deriving DecidableEq

structure OrderLine where
  menuItemId : Id
  quantity : Nat
  selectedModifiers : List SelectedModifierInput := []
  specialInstructions : Option Text := none
  deriving DecidableEq

structure PricedSelectedModifier where
  groupId : Id
  groupName : Text
  optionId : Id
  optionName : Text
  priceAdjustment : ℚ
  deriving DecidableEq

structure PricedOrderItem where
  menuItemId : Id
  name : Text
  unitPrice : ℚ
  quantity : Nat
  selectedModifiers : List PricedSelectedModifier
  lineTotal : ℚ
  specialInstructions : Option Text
  deriving DecidableEq

structure PricedOrder where
  items : List PricedOrderItem
  subtotal : ℚ
  deriving DecidableEq

structure EffectivePricingItem where
  id : Id
  name : Text
  price : ℚ
  deriving DecidableEq

structure EffectivePricingOption where
  id : Id
  name : Text
  priceAdjustment : ℚ
  isActive : Bool
  deriving DecidableEq

structure EffectivePricingGroup where
  id : Id
  menuItemId : Id
  name : Text
  minSelect : Nat
  maxSelect : Nat
  options : List EffectivePricingOption
  deriving DecidableEq

def loadEffectiveMenuItemsLegacy (menu : Menu) (restaurantId : Id) (menuItemIds : List Id) : List EffectivePricingItem :=
  (menu.items.filter fun d => menuItemIds.contains d.id && d.restaurantId = some restaurantId && d.isAvailable).map fun d =>
    { id := d.id, name := d.name, price := d.price }

def loadEffectiveModifierGroupsLegacy (menu : Menu) (restaurantId : Id) (menuItemIds : List Id) : List EffectivePricingGroup :=
  (menu.groups.filter fun d => menuItemIds.contains d.menuItemId && d.restaurantId = some restaurantId && d.isActive).map fun d =>
    { id := d.id
      menuItemId := d.menuItemId
      name := d.name
      minSelect := d.minSelect
      maxSelect := d.maxSelect
      options := d.options.map fun o => { id := o.id, name := o.name, priceAdjustment := o.priceAdjustment, isActive := o.isActive } }

/-- The entries of the map that the source builds, in the order they are set. -/
def loadEffectiveMenuItemsCanonical (menu : Menu) (businessId locationId : Id) (menuItemIds : List Id) : List EffectivePricingItem :=
  let docs := menu.items.filter fun d => menuItemIds.contains d.id && d.businessId = some businessId
  let overrides := menu.itemOverrides.filter fun o => o.locationId = locationId && menuItemIds.contains o.menuItemId
  docs.filterMap fun doc =>
    let override := mapGet (·.menuItemId) overrides doc.id
    if (override.bind (·.isAvailable)).getD doc.isAvailable then
      some { id := doc.id, name := doc.name, price := (override.bind (·.priceOverride)).getD doc.price }
    else none

def ModifierOption.effective (override : Option ModifierOptionOverride) (option : ModifierOption) : EffectivePricingOption where
  id := option.id
  name := option.name
  priceAdjustment := (override.bind (·.priceAdjustmentOverride)).getD option.priceAdjustment
  isActive := (override.bind (·.isActive)).getD option.isActive

def ModifierGroup.effective (override : Option ModifierGroupLocationOverride) (group : ModifierGroup) : EffectivePricingGroup where
  id := group.id
  menuItemId := group.menuItemId
  name := group.name
  minSelect := group.minSelect
  maxSelect := group.maxSelect
  options := group.options.map fun o => o.effective (mapGet (·.optionId) (override.elim [] (·.optionOverrides)) o.id)

def loadEffectiveModifierGroupsCanonical (menu : Menu) (businessId locationId : Id) (menuItemIds : List Id) :
    List EffectivePricingGroup :=
  let docs := menu.groups.filter fun d => menuItemIds.contains d.menuItemId && d.businessId = some businessId
  let overrides := menu.groupOverrides.filter fun o =>
    o.locationId = locationId && (docs.map (·.id)).contains o.modifierGroupId
  docs.filterMap fun doc =>
    let override := mapGet (·.modifierGroupId) overrides doc.id
    if (override.bind (·.isActive)).getD doc.isActive then some (doc.effective override) else none

/-- `menuItemById.size !== new Set(menuItemIds).size` -/
def allItemsLoaded (loaded : List EffectivePricingItem) (menuItemIds : List Id) : Bool :=
  (loaded.map (·.id)).dedup.length = menuItemIds.dedup.length

def idText (id : Id) : String := toString id

def selectGroup (groups : List EffectivePricingGroup) (menuItemId : Id) (selection : SelectedModifierInput) :
    Except Err EffectivePricingGroup :=
  match mapGet (·.id) groups selection.groupId with
  | some group =>
    if group.menuItemId = menuItemId then .ok group
    else .error (.api (.badRequest s!"Modifier group {idText selection.groupId} does not belong to menu item {idText menuItemId}"))
  | none => .error (.api (.badRequest s!"Modifier group {idText selection.groupId} does not belong to menu item {idText menuItemId}"))

def selectOption (group : EffectivePricingGroup) (selection : SelectedModifierInput) : Except Err PricedSelectedModifier :=
  match group.options.find? fun o => o.id = selection.optionId && o.isActive with
  | some option =>
    .ok {
      groupId := group.id
      groupName := group.name
      optionId := option.id
      optionName := option.name
      priceAdjustment := option.priceAdjustment }
  | none => .error (.api (.badRequest s!"Modifier option {idText selection.optionId} is invalid or unavailable"))

def textString (text : Text) : String := String.ofList text

def priceGroup (groups : List EffectivePricingGroup) (selections : List SelectedModifierInput) (groupId : Id) :
    Except Err (List PricedSelectedModifier) :=
  match mapGet (·.id) groups groupId with
  | none => .ok []
  | some group =>
    let chosen := selections.filter (·.groupId = groupId)
    if chosen.length < group.minSelect ∨ group.maxSelect < chosen.length then
      .error (.api (.badRequest
        s!"Modifier group \"{textString group.name}\" requires between {group.minSelect} and {group.maxSelect} selection(s)"))
    else chosen.mapM (selectOption group)

def checkRequired (selections : List SelectedModifierInput) (menuItemId : Id) (group : EffectivePricingGroup) : Except Err Unit :=
  if group.menuItemId = menuItemId ∧ 0 < group.minSelect ∧ ¬ selections.any (·.groupId = group.id) then
    .error (.api (.badRequest s!"Modifier group \"{textString group.name}\" requires a selection"))
  else .ok ()

def selectedGroups (selections : List SelectedModifierInput) : List Id := (selections.map (·.groupId)).reverse.dedup.reverse

def priceLine (items : List EffectivePricingItem) (groups : List EffectivePricingGroup) (line : OrderLine) :
    Except Err PricedOrderItem := do
  let _ ← line.selectedModifiers.mapM (selectGroup groups line.menuItemId)
  let selected ← (selectedGroups line.selectedModifiers).mapM (priceGroup groups line.selectedModifiers)
  let _ ← groups.mapM (checkRequired line.selectedModifiers line.menuItemId)
  match mapGet (·.id) items line.menuItemId with
  | none => .error Payments.Err.nullDocument
  | some menuItem =>
    .ok {
      menuItemId := menuItem.id
      name := menuItem.name
      unitPrice := menuItem.price
      quantity := line.quantity
      selectedModifiers := selected.flatten
      lineTotal := (menuItem.price + (selected.flatten.map (·.priceAdjustment)).sum) * line.quantity
      specialInstructions := line.specialInstructions }

def priceOrderItems (menu : Menu) (restaurantId : Id) (lines : List OrderLine) : Except Err PricedOrder := do
  let menuItemIds := lines.map (·.menuItemId)
  let canonical := resolveCanonicalBusinessId menu restaurantId
  let items :=
    match canonical with
    | some businessId => loadEffectiveMenuItemsCanonical menu businessId restaurantId menuItemIds
    | none => loadEffectiveMenuItemsLegacy menu restaurantId menuItemIds
  if !allItemsLoaded items menuItemIds then
    .error (.api (.badRequest "One or more menu items are unavailable or do not exist for this restaurant"))
  else do
    let groups :=
      match canonical with
      | some businessId => loadEffectiveModifierGroupsCanonical menu businessId restaurantId menuItemIds
      | none => loadEffectiveModifierGroupsLegacy menu restaurantId menuItemIds
    let priced ← lines.mapM (priceLine items groups)
    .ok { items := priced, subtotal := (priced.map (·.lineTotal)).sum }

end RestaurantOs.Menus
