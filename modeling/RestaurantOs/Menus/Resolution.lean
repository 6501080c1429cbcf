import RestaurantOs.Menus.Documents

/-!
# The menu that a location sells

The canonical documents of a business merged with one location's overrides.
Without the hidden entries only what is effectively active is listed.
-/

namespace RestaurantOs.Menus

structure ResolvedCategory where
  id : Id
  restaurantId : Id
  name : Text
  description : Option Text
  sortOrder : Int
  isActive : Bool
  deriving DecidableEq

structure ResolvedModifierOption where
  id : Id
  name : Text
  priceAdjustment : ℚ
  isActive : Bool
  sortOrder : Int
  deriving DecidableEq

structure ResolvedModifierGroup where
  id : Id
  restaurantId : Id
  menuItemId : Id
  name : Text
  minSelect : Nat
  maxSelect : Nat
  isActive : Bool
  sortOrder : Int
  options : List ResolvedModifierOption
  deriving DecidableEq

structure ResolvedMenuItem where
  id : Id
  restaurantId : Id
  categoryId : Id
  name : Text
  description : Text
  price : ℚ
  imageUrl : Option Text
  isAvailable : Bool
  sortOrder : Int
  deriving DecidableEq

structure ResolvedMenu where
  items : List ResolvedMenuItem
  categories : List ResolvedCategory
  modifierGroups : List ResolvedModifierGroup
  deriving DecidableEq

/-- `a.localeCompare(b)` of two names or ids. -/
structure Locale where
  compareNames : Text → Text → Ordering := fun _ _ => .eq
  compareIds : Id → Id → Ordering := fun _ _ => .eq

def businessHasCanonicalMenu (menu : Menu) (businessId : Id) : Bool := menu.items.any (·.businessId = some businessId)

def resolveCanonicalBusinessId (menu : Menu) (restaurantId : Id) : Option Id :=
  ((menu.restaurants.find? (·.id = restaurantId)).bind (·.businessId)).filter (businessHasCanonicalMenu menu)

def sortBySortOrder {α : Type} (locale : Locale) (sortOrder : α → Int) (name : α → Text) (l : List α) : List α :=
  l.mergeSort fun a b => (compare (sortOrder a) (sortOrder b)).then (locale.compareNames (name a) (name b)) != .gt

def Category.resolve (locationId : Id) (override : Option CategoryLocationOverride) (category : Category) : ResolvedCategory where
  id := category.id
  restaurantId := locationId
  name := category.name
  description := category.description
  sortOrder := (override.bind (·.sortOrderOverride)).getD category.sortOrder
  isActive := (override.bind (·.isActive)).getD category.isActive

def MenuItem.resolve (locationId : Id) (override : Option MenuItemLocationOverride) (item : MenuItem) : ResolvedMenuItem where
  id := item.id
  restaurantId := locationId
  categoryId := item.categoryId
  name := item.name
  description := item.description
  price := (override.bind (·.priceOverride)).getD item.price
  imageUrl := item.imageUrl
  isAvailable := (override.bind (·.isAvailable)).getD item.isAvailable
  sortOrder := (override.bind (·.sortOrderOverride)).getD item.sortOrder

def ModifierOption.resolve (override : Option ModifierOptionOverride) (option : ModifierOption) : ResolvedModifierOption where
  id := option.id
  name := option.name
  priceAdjustment := (override.bind (·.priceAdjustmentOverride)).getD option.priceAdjustment
  isActive := (override.bind (·.isActive)).getD option.isActive
  sortOrder := option.sortOrder

def ModifierGroup.resolve (locationId : Id) (includeHidden : Bool) (override : Option ModifierGroupLocationOverride)
    (group : ModifierGroup) : ResolvedModifierGroup where
  id := group.id
  restaurantId := locationId
  menuItemId := group.menuItemId
  name := group.name
  minSelect := group.minSelect
  maxSelect := group.maxSelect
  isActive := (override.bind (·.isActive)).getD group.isActive
  sortOrder := group.sortOrder
  options :=
    ((group.options.map fun option =>
      option.resolve (mapGet (·.optionId) (override.elim [] (·.optionOverrides)) option.id)).filter
        fun option => includeHidden || option.isActive).mergeSort fun a b => a.sortOrder ≤ b.sortOrder

def Menu.itemOverride (menu : Menu) (locationId menuItemId : Id) : Option MenuItemLocationOverride :=
  mapGet (·.menuItemId) (menu.itemOverrides.filter (·.locationId = locationId)) menuItemId

def Menu.categoryOverride (menu : Menu) (locationId categoryId : Id) : Option CategoryLocationOverride :=
  mapGet (·.categoryId) (menu.categoryOverrides.filter (·.locationId = locationId)) categoryId

def Menu.groupOverride (menu : Menu) (locationId modifierGroupId : Id) : Option ModifierGroupLocationOverride :=
  mapGet (·.modifierGroupId) (menu.groupOverrides.filter (·.locationId = locationId)) modifierGroupId

def compareItems (locale : Locale) (a b : ResolvedMenuItem) : Bool :=
  ((locale.compareIds a.categoryId b.categoryId).then (compare a.sortOrder b.sortOrder)).then (locale.compareNames a.name b.name) != .gt

def resolveMenuForLocation (locale : Locale) (menu : Menu) (businessId locationId : Id) (includeHidden : Bool) : ResolvedMenu where
  items :=
    (((menu.items.filter (·.businessId = some businessId)).map fun item =>
      item.resolve locationId (menu.itemOverride locationId item.id)).filter
        fun item => includeHidden || item.isAvailable).mergeSort (compareItems locale)
  categories :=
    sortBySortOrder locale (·.sortOrder) (·.name)
      (((menu.categories.filter (·.businessId = some businessId)).map fun category =>
        category.resolve locationId (menu.categoryOverride locationId category.id)).filter
          fun category => includeHidden || category.isActive)
  modifierGroups :=
    sortBySortOrder locale (·.sortOrder) (·.name)
      (((menu.groups.filter (·.businessId = some businessId)).map fun group =>
        group.resolve locationId includeHidden (menu.groupOverride locationId group.id)).filter
          fun group => includeHidden || group.isActive)

section Listed

variable {locale : Locale} {menu : Menu} {businessId locationId : Id}

theorem mem_items {item : ResolvedMenuItem} : item ∈ (resolveMenuForLocation locale menu businessId locationId false).items ↔
    ∃ doc ∈ menu.items, doc.businessId = some businessId ∧
      item = doc.resolve locationId (menu.itemOverride locationId doc.id) ∧ item.isAvailable = true := by
  simp only [resolveMenuForLocation, List.mem_mergeSort, List.mem_filter, List.mem_map, Bool.false_or, decide_eq_true_eq]
  constructor
  · rintro ⟨⟨doc, ⟨hMem, hBusiness⟩, rfl⟩, hAvailable⟩
    exact ⟨doc, hMem, hBusiness, rfl, hAvailable⟩
  · rintro ⟨doc, hMem, hBusiness, rfl, hAvailable⟩
    exact ⟨⟨doc, ⟨hMem, hBusiness⟩, rfl⟩, hAvailable⟩

theorem mem_modifierGroups {group : ResolvedModifierGroup} :
    group ∈ (resolveMenuForLocation locale menu businessId locationId false).modifierGroups ↔
      ∃ doc ∈ menu.groups, doc.businessId = some businessId ∧
        group = doc.resolve locationId false (menu.groupOverride locationId doc.id) ∧ group.isActive = true := by
  simp only [resolveMenuForLocation, sortBySortOrder, List.mem_mergeSort, List.mem_filter, List.mem_map, Bool.false_or,
    decide_eq_true_eq]
  constructor
  · rintro ⟨⟨doc, ⟨hMem, hBusiness⟩, rfl⟩, hActive⟩
    exact ⟨doc, hMem, hBusiness, rfl, hActive⟩
  · rintro ⟨doc, hMem, hBusiness, rfl, hActive⟩
    exact ⟨⟨doc, ⟨hMem, hBusiness⟩, rfl⟩, hActive⟩

theorem mem_options {override : Option ModifierGroupLocationOverride} {group : ModifierGroup} {option : ResolvedModifierOption} :
    option ∈ (group.resolve locationId false override).options ↔
      ∃ doc ∈ group.options,
        option = doc.resolve (mapGet (·.optionId) (override.elim [] (·.optionOverrides)) doc.id) ∧ option.isActive = true := by
  simp only [ModifierGroup.resolve, List.mem_mergeSort, List.mem_filter, List.mem_map, Bool.false_or]
  constructor
  · rintro ⟨⟨doc, hMem, rfl⟩, hActive⟩
    exact ⟨doc, hMem, rfl, hActive⟩
  · rintro ⟨doc, hMem, rfl, hActive⟩
    exact ⟨⟨doc, hMem, rfl⟩, hActive⟩

end Listed

end RestaurantOs.Menus
