import RestaurantOs.Data.Sorting
import RestaurantOs.Menus.Agreement

/-!
# The menu of a cloned location

A new location takes over the menu of another: its overrides where the business
has a canonical menu, else a copy of its documents under new ids, less the items
whose category is not there to be copied.
-/

namespace RestaurantOs.Menus

open Sorting

/-! ## The public menu -/

def compareByOrder {α : Type} (sortOrder : α → Int) (name : α → Text) : α → α → Ordering :=
  compareLex (compareOn sortOrder) (compareOn name)

/-- `sort({ categoryId: 1, sortOrder: 1, name: 1 })` -/
def compareItemDocs : MenuItem → MenuItem → Ordering :=
  compareLex (compareOn (·.categoryId)) (compareByOrder (·.sortOrder) (·.name))

def Category.toJSON (restaurantId : Id) (doc : Category) : ResolvedCategory where
  id := doc.id
  restaurantId := restaurantId
  name := doc.name
  description := doc.description
  sortOrder := doc.sortOrder
  isActive := doc.isActive

def MenuItem.toJSON (restaurantId : Id) (doc : MenuItem) : ResolvedMenuItem where
  id := doc.id
  restaurantId := restaurantId
  categoryId := doc.categoryId
  name := doc.name
  description := doc.description
  price := doc.price
  imageUrl := doc.imageUrl
  isAvailable := doc.isAvailable
  sortOrder := doc.sortOrder

def ModifierOption.toJSON (doc : ModifierOption) : ResolvedModifierOption where
  id := doc.id
  name := doc.name
  priceAdjustment := doc.priceAdjustment
  isActive := doc.isActive
  sortOrder := doc.sortOrder

def ModifierGroup.toJSON (restaurantId : Id) (doc : ModifierGroup) : ResolvedModifierGroup where
  id := doc.id
  restaurantId := restaurantId
  menuItemId := doc.menuItemId
  name := doc.name
  minSelect := doc.minSelect
  maxSelect := doc.maxSelect
  isActive := doc.isActive
  sortOrder := doc.sortOrder
  options := doc.options.map ModifierOption.toJSON

def ResolvedModifierGroup.withoutHidden (json : ResolvedModifierGroup) : ResolvedModifierGroup :=
  { json with options := json.options.filter (·.isActive) }

def loadLegacyPublicMenu (menu : Menu) (restaurantId : Id) : ResolvedMenu where
  items :=
    (sorted compareItemDocs
      ((menu.items.filter (·.restaurantId = some restaurantId)).filter (·.isAvailable))).map (MenuItem.toJSON restaurantId)
  categories :=
    (sorted (compareByOrder (·.sortOrder) (·.name))
      ((menu.categories.filter (·.restaurantId = some restaurantId)).filter (·.isActive))).map (Category.toJSON restaurantId)
  modifierGroups :=
    (sorted (compareByOrder (·.sortOrder) (·.name))
      ((menu.groups.filter (·.restaurantId = some restaurantId)).filter (·.isActive))).map fun doc =>
        (doc.toJSON restaurantId).withoutHidden

/-- The payload of `listMenu`. -/
def publicMenu (locale : Locale) (menu : Menu) (restaurantId : Id) : ResolvedMenu :=
  match resolveCanonicalBusinessId menu restaurantId with
  | some canonicalBusinessId => resolveMenuForLocation locale menu canonicalBusinessId restaurantId false
  | none => loadLegacyPublicMenu menu restaurantId

/-! ## The clone -/

def seedLocationOverridesFromSource (businessId sourceLocationId targetLocationId : Id) (menu : Menu) : Menu :=
  { menu with
    categoryOverrides := menu.categoryOverrides ++ (menu.categoryOverrides.filter (·.locationId = sourceLocationId)).map fun o =>
      { businessId := businessId
        locationId := targetLocationId
        categoryId := o.categoryId
        isActive := o.isActive
        sortOrderOverride := o.sortOrderOverride }
    itemOverrides := menu.itemOverrides ++ (menu.itemOverrides.filter (·.locationId = sourceLocationId)).map fun o =>
      { businessId := businessId
        locationId := targetLocationId
        menuItemId := o.menuItemId
        isAvailable := o.isAvailable
        priceOverride := o.priceOverride
        sortOrderOverride := o.sortOrderOverride }
    groupOverrides := menu.groupOverrides ++ (menu.groupOverrides.filter (·.locationId = sourceLocationId)).map fun o =>
      { businessId := businessId
        locationId := targetLocationId
        modifierGroupId := o.modifierGroupId
        isActive := o.isActive
        optionOverrides := o.optionOverrides } }

/-- The documents as the transaction has them, the next `ObjectId` and the maps
from the source's ids. -/
structure Cloning where
  menu : Menu
  nextId : Id
  categoryIdMap : List (Id × Id) := []
  menuItemIdMap : List (Id × Id) := []

def Category.clone (targetRestaurantId id : Id) (source : Category) : Category where
  id := id
  restaurantId := some targetRestaurantId
  name := source.name
  description := source.description
  sortOrder := source.sortOrder
  isActive := source.isActive
  clonedFromCategoryId := some source.id

def MenuItem.clone (targetRestaurantId targetCategoryId id : Id) (source : MenuItem) : MenuItem where
  id := id
  restaurantId := some targetRestaurantId
  categoryId := targetCategoryId
  name := source.name
  description := source.description
  price := source.price
  imageUrl := source.imageUrl
  isAvailable := source.isAvailable
  sortOrder := source.sortOrder
  clonedFromMenuItemId := some source.id

def ModifierOption.clone (id : Id) (source : ModifierOption) : ModifierOption where
  id := id
  name := source.name
  priceAdjustment := source.priceAdjustment
  isActive := source.isActive
  sortOrder := source.sortOrder

/-- The group takes `id` and its options the ids after it. -/
def ModifierGroup.clone (targetRestaurantId targetMenuItemId id : Id) (source : ModifierGroup) : ModifierGroup where
  id := id
  restaurantId := some targetRestaurantId
  menuItemId := targetMenuItemId
  name := source.name
  minSelect := source.minSelect
  maxSelect := source.maxSelect
  isActive := source.isActive
  sortOrder := source.sortOrder
  options := source.options.mapIdx fun i opt => opt.clone (id + 1 + i)
  clonedFromModifierGroupId := some source.id

namespace Cloning

def get (idMap : List (Id × Id)) (id : Id) : Option Id := (mapGet Prod.fst idMap id).map Prod.snd

def cloneCategory (targetRestaurantId : Id) (c : Cloning) (source : Category) : Cloning :=
  { c with
    menu := { c.menu with categories := c.menu.categories ++ [source.clone targetRestaurantId c.nextId] }
    nextId := c.nextId + 1
    categoryIdMap := c.categoryIdMap ++ [(source.id, c.nextId)] }

def cloneMenuItem (targetRestaurantId : Id) (c : Cloning) (source : MenuItem) : Cloning :=
  match get c.categoryIdMap source.categoryId with
  | none => c
  | some targetCategoryId =>
    { c with
      menu := { c.menu with items := c.menu.items ++ [source.clone targetRestaurantId targetCategoryId c.nextId] }
      nextId := c.nextId + 1
      menuItemIdMap := c.menuItemIdMap ++ [(source.id, c.nextId)] }

def cloneModifierGroup (targetRestaurantId : Id) (c : Cloning) (source : ModifierGroup) : Cloning :=
  match get c.menuItemIdMap source.menuItemId with
  | none => c
  | some targetMenuItemId =>
    { c with
      menu := { c.menu with groups := c.menu.groups ++ [source.clone targetRestaurantId targetMenuItemId c.nextId] }
      nextId := c.nextId + 1 + source.options.length }

end Cloning

def cloneMenuDocumentsToRestaurant (sourceRestaurantId targetRestaurantId nextId : Id) (menu : Menu) : Menu :=
  let sourceCategories := menu.categories.filter (·.restaurantId = some sourceRestaurantId)
  let c := sourceCategories.foldl (Cloning.cloneCategory targetRestaurantId) { menu := menu, nextId := nextId }
  let sourceMenuItems := c.menu.items.filter (·.restaurantId = some sourceRestaurantId)
  let c := sourceMenuItems.foldl (Cloning.cloneMenuItem targetRestaurantId) c
  let sourceModifierGroups := c.menu.groups.filter (·.restaurantId = some sourceRestaurantId)
  (sourceModifierGroups.foldl (Cloning.cloneModifierGroup targetRestaurantId) c).menu

def cloneMenuToRestaurant (businessId sourceRestaurantId targetRestaurantId nextId : Id) (menu : Menu) : Menu :=
  if businessHasCanonicalMenu menu businessId then
    seedLocationOverridesFromSource businessId sourceRestaurantId targetRestaurantId menu
  else cloneMenuDocumentsToRestaurant sourceRestaurantId targetRestaurantId nextId menu

/-! ## The same menu -/

/-- The same but for the ids and the location. -/
def ResolvedCategory.SameAs (categoryId : Id → Id) (source target : ResolvedCategory) : Prop :=
  target = { source with id := categoryId source.id, restaurantId := target.restaurantId }

def ResolvedMenuItem.SameAs (categoryId menuItemId : Id → Id) (source target : ResolvedMenuItem) : Prop :=
  target = { source with
    id := menuItemId source.id, categoryId := categoryId source.categoryId, restaurantId := target.restaurantId }

def ResolvedModifierOption.SameAs (source target : ResolvedModifierOption) : Prop := target = { source with id := target.id }

structure ResolvedModifierGroup.SameAs (menuItemId : Id → Id) (source target : ResolvedModifierGroup) : Prop where
  fields : target = { source with
    id := target.id, menuItemId := menuItemId source.menuItemId, restaurantId := target.restaurantId, options := target.options }
  options : List.Forall₂ ResolvedModifierOption.SameAs source.options target.options

namespace ResolvedMenu

structure SameAs (categoryId menuItemId : Id → Id) (source target : ResolvedMenu) : Prop where
  categories : List.Forall₂ (ResolvedCategory.SameAs categoryId) source.categories target.categories
  items : List.Forall₂ (ResolvedMenuItem.SameAs categoryId menuItemId) source.items target.items
  modifierGroups : List.Forall₂ (ResolvedModifierGroup.SameAs menuItemId) source.modifierGroups target.modifierGroups

/-- Both menus list the same, the items of each of the categories `ids` in the same
order. -/
structure SameByCategory (ids : List Id) (categoryId menuItemId : Id → Id) (source target : ResolvedMenu) : Prop where
  categories : List.Forall₂ (ResolvedCategory.SameAs categoryId) source.categories target.categories
  items : ∀ id ∈ ids, List.Forall₂ (ResolvedMenuItem.SameAs categoryId menuItemId)
    (source.items.filter (·.categoryId = id)) (target.items.filter (·.categoryId = categoryId id))
  inCategory : ∀ item ∈ target.items, ∃ id ∈ ids, item.categoryId = categoryId id
  modifierGroups : List.Forall₂ (ResolvedModifierGroup.SameAs menuItemId) source.modifierGroups target.modifierGroups

end ResolvedMenu

namespace Menu

def categoriesOf (menu : Menu) (restaurantId : Id) : List Category := menu.categories.filter (·.restaurantId = some restaurantId)

def itemsOf (menu : Menu) (restaurantId : Id) : List MenuItem := menu.items.filter (·.restaurantId = some restaurantId)

def groupsOf (menu : Menu) (restaurantId : Id) : List ModifierGroup := menu.groups.filter (·.restaurantId = some restaurantId)

def withoutOrphans (menu : Menu) (restaurantId : Id) : Menu :=
  let items := menu.items.filter fun item =>
    item.restaurantId ≠ some restaurantId || (menu.categoriesOf restaurantId).any (·.id = item.categoryId)
  { menu with
    items := items
    groups := menu.groups.filter fun group =>
      group.restaurantId ≠ some restaurantId || items.any fun item => item.restaurantId = some restaurantId && item.id = group.menuItemId }

structure IsNew (menu : Menu) (locationId : Id) : Prop where
  categories : ∀ doc ∈ menu.categories, doc.restaurantId ≠ some locationId
  items : ∀ doc ∈ menu.items, doc.restaurantId ≠ some locationId
  groups : ∀ doc ∈ menu.groups, doc.restaurantId ≠ some locationId
  categoryOverrides : ∀ o ∈ menu.categoryOverrides, o.locationId ≠ locationId
  itemOverrides : ∀ o ∈ menu.itemOverrides, o.locationId ≠ locationId
  groupOverrides : ∀ o ∈ menu.groupOverrides, o.locationId ≠ locationId

def businessOf (menu : Menu) (locationId : Id) : Option Id := (menu.restaurants.find? (·.id = locationId)).bind (·.businessId)

end Menu

/-! ## Ids of the copies -/

section Ids

variable {α : Type} {key : α → Id} {size : α → Nat} {start : Nat} {l : List α}

/-- `idMap` after the elements of `l` are copied. -/
def idMap (key : α → Id) (size : α → Nat) (start : Nat) (l : List α) : List (Id × Id) :=
  (numbered size start l).map fun p => (key p.1, p.2)

theorem numbered_inj (hNodup : (l.map key).Nodup) {p q : α × Nat} (hMem : p ∈ numbered size start l) (hMem' : q ∈ numbered size start l)
    (hKey : key p.1 = key q.1) : p = q := by
  have hKeys : ((numbered size start l).map fun p => key p.1).Nodup := by
    have hMap : ((numbered size start l).map fun p => key p.1) = ((numbered size start l).map Prod.fst).map key := by
      rw [List.map_map]
      rfl
    rw [hMap, numbered_map_fst]
    exact hNodup
  exact List.inj_on_of_nodup_map hKeys hMem hMem' hKey

theorem get_idMap (hNodup : (l.map key).Nodup) {p : α × Nat} (hMem : p ∈ numbered size start l) :
    Cloning.get (idMap key size start l) (key p.1) = some p.2 := by
  have hGet : mapGet Prod.fst (idMap key size start l) (key p.1) = some (key p.1, p.2) := by
    refine mapGet_of_unique (List.mem_map.mpr ⟨p, hMem, rfl⟩) rfl fun e hMemE hKeyE => ?_
    obtain ⟨q, hMemQ, rfl⟩ := List.mem_map.mp hMemE
    rw [numbered_inj hNodup hMemQ hMem hKeyE]
  rw [Cloning.get, hGet, Option.map_some]

theorem get_idMap_isSome {id : Id} : (Cloning.get (idMap key size start l) id).isSome = l.any fun a => key a = id := by
  have hFst (a : α) : a ∈ l ↔ ∃ p ∈ numbered size start l, p.1 = a := by
    rw [← List.mem_map, numbered_map_fst]
  rw [Bool.eq_iff_iff, Cloning.get, Option.isSome_map, mapGet_isSome, List.any_eq_true]
  constructor
  · rintro ⟨e, hMem, rfl⟩
    obtain ⟨p, hNumbered, rfl⟩ := List.mem_map.mp hMem
    exact ⟨p.1, (hFst p.1).mpr ⟨p, hNumbered, rfl⟩, decide_eq_true rfl⟩
  · rintro ⟨a, hMem, hKey⟩
    obtain ⟨p, hNumbered, rfl⟩ := (hFst a).mp hMem
    exact ⟨_, List.mem_map.mpr ⟨p, hNumbered, rfl⟩, of_decide_eq_true hKey⟩

def newId (idMap : List (Id × Id)) (id : Id) : Id := (Cloning.get idMap id).getD 0

theorem newId_numbered (hNodup : (l.map key).Nodup) {p : α × Nat} (hMem : p ∈ numbered size start l) :
    newId (idMap key size start l) (key p.1) = p.2 := by
  rw [newId, get_idMap hNodup hMem, Option.getD_some]

theorem newId_injOn (hNodup : (l.map key).Nodup) (hSize : ∀ a, 0 < size a) :
    Set.InjOn (newId (idMap key size start l)) {id | id ∈ l.map key} := by
  intro id hMem id' hMem' hEq
  have hKeys : (l.map key) = (numbered size start l).map fun p => key p.1 := by
    conv_lhs => rw [← @numbered_map_fst _ size start l]
    rw [List.map_map]
    rfl
  rw [Set.mem_ofPred_eq, hKeys, List.mem_map] at hMem hMem'
  obtain ⟨p, hNumbered, rfl⟩ := hMem
  obtain ⟨q, hNumbered', rfl⟩ := hMem'
  rw [newId_numbered hNodup hNumbered, newId_numbered hNodup hNumbered'] at hEq
  have hDistinct : ((numbered size start l).map Prod.snd).Nodup :=
    List.pairwise_map.mpr ((numbered_increasing hSize).imp fun hLt => Nat.ne_of_lt hLt)
  rw [List.inj_on_of_nodup_map hDistinct hNumbered hNumbered' hEq]

end Ids

/-! ## What the loops leave -/

namespace Cloning

variable {targetRestaurantId : Id}

theorem foldl_cloneCategory (l : List Category) (c : Cloning) :
    l.foldl (cloneCategory targetRestaurantId) c = { c with
      menu := { c.menu with
        categories := c.menu.categories ++ (numbered (fun _ => 1) c.nextId l).map fun p => p.1.clone targetRestaurantId p.2 }
      nextId := c.nextId + l.length
      categoryIdMap := c.categoryIdMap ++ idMap (·.id) (fun _ => 1) c.nextId l } := by
  induction l generalizing c with
  | nil => simp [numbered, idMap]
  | cons source l ih =>
    rw [List.foldl_cons, ih]
    simp [cloneCategory, numbered, idMap]
    exact Nat.add_right_comm _ _ _

theorem foldl_cloneMenuItem (l : List MenuItem) (c : Cloning) :
    l.foldl (cloneMenuItem targetRestaurantId) c = { c with
      menu := { c.menu with
        items := c.menu.items ++
          (numbered (fun _ => 1) c.nextId (l.filter fun source => (get c.categoryIdMap source.categoryId).isSome)).map fun p =>
            p.1.clone targetRestaurantId (newId c.categoryIdMap p.1.categoryId) p.2 }
      nextId := c.nextId + (l.filter fun source => (get c.categoryIdMap source.categoryId).isSome).length
      menuItemIdMap := c.menuItemIdMap ++
        idMap (·.id) (fun _ => 1) c.nextId (l.filter fun source => (get c.categoryIdMap source.categoryId).isSome) } := by
  induction l generalizing c with
  | nil => simp [numbered, idMap]
  | cons source l ih =>
    rw [List.foldl_cons, ih]
    cases hGet : get c.categoryIdMap source.categoryId with
    | none => simp [cloneMenuItem, hGet]
    | some targetCategoryId =>
      simp [cloneMenuItem, hGet, numbered, idMap, newId]
      exact Nat.add_right_comm _ _ _

theorem foldl_cloneModifierGroup (l : List ModifierGroup) (c : Cloning) :
    (l.foldl (cloneModifierGroup targetRestaurantId) c).menu = { c.menu with
      groups := c.menu.groups ++
        (numbered (fun group => 1 + group.options.length) c.nextId
          (l.filter fun source => (get c.menuItemIdMap source.menuItemId).isSome)).map fun p =>
            p.1.clone targetRestaurantId (newId c.menuItemIdMap p.1.menuItemId) p.2 } := by
  induction l generalizing c with
  | nil => simp [numbered]
  | cons source l ih =>
    rw [List.foldl_cons, ih]
    cases hGet : get c.menuItemIdMap source.menuItemId with
    | none => simp [cloneModifierGroup, hGet]
    | some targetMenuItemId => simp [cloneModifierGroup, hGet, numbered, newId, Nat.add_assoc]

end Cloning

section Documents

variable {menu : Menu} {source target nextId : Id}

def copiedCategories (menu : Menu) (source nextId : Id) : List (Category × Id) :=
  numbered (fun _ => 1) nextId (menu.categoriesOf source)

def categoryIdMap (menu : Menu) (source nextId : Id) : List (Id × Id) :=
  idMap (·.id) (fun _ => 1) nextId (menu.categoriesOf source)

def copiedItems (menu : Menu) (source nextId : Id) : List (MenuItem × Id) :=
  numbered (fun _ => 1) (nextId + (menu.categoriesOf source).length) ((menu.withoutOrphans source).itemsOf source)

def menuItemIdMap (menu : Menu) (source nextId : Id) : List (Id × Id) :=
  idMap (·.id) (fun _ => 1) (nextId + (menu.categoriesOf source).length) ((menu.withoutOrphans source).itemsOf source)

def copiedGroups (menu : Menu) (source nextId : Id) : List (ModifierGroup × Id) :=
  numbered (fun group => 1 + group.options.length)
    (nextId + (menu.categoriesOf source).length + ((menu.withoutOrphans source).itemsOf source).length)
    ((menu.withoutOrphans source).groupsOf source)

theorem itemsOf_withoutOrphans : (menu.withoutOrphans source).itemsOf source =
    (menu.itemsOf source).filter fun item => (Cloning.get (categoryIdMap menu source nextId) item.categoryId).isSome := by
  rw [Menu.itemsOf, Menu.itemsOf, Menu.withoutOrphans, List.filter_filter, List.filter_filter]
  refine List.filter_congr fun item _ => ?_
  rw [categoryIdMap, get_idMap_isSome]
  by_cases hOf : item.restaurantId = some source <;> simp [hOf]

theorem groupsOf_withoutOrphans : (menu.withoutOrphans source).groupsOf source =
    (menu.groupsOf source).filter fun group => (Cloning.get (menuItemIdMap menu source nextId) group.menuItemId).isSome := by
  rw [Menu.groupsOf, Menu.groupsOf, Menu.withoutOrphans, List.filter_filter, List.filter_filter]
  refine List.filter_congr fun group _ => ?_
  rw [menuItemIdMap, get_idMap_isSome, Menu.itemsOf, List.any_filter]
  by_cases hOf : group.restaurantId = some source
  · simp only [Menu.withoutOrphans, List.any_filter, hOf, ne_eq, not_true_eq_false, decide_false, Bool.false_or, decide_true,
      Bool.and_true]
    refine congrArg menu.items.any (funext fun item => ?_)
    cases decide (item.restaurantId = some source) <;> simp
  · simp [hOf]

theorem cloneMenuDocumentsToRestaurant_eq : cloneMenuDocumentsToRestaurant source target nextId menu = { menu with
    categories := menu.categories ++ (copiedCategories menu source nextId).map fun p => p.1.clone target p.2
    items := menu.items ++ (copiedItems menu source nextId).map fun p =>
      p.1.clone target (newId (categoryIdMap menu source nextId) p.1.categoryId) p.2
    groups := menu.groups ++ (copiedGroups menu source nextId).map fun p =>
      p.1.clone target (newId (menuItemIdMap menu source nextId) p.1.menuItemId) p.2 } := by
  have hItems := @itemsOf_withoutOrphans menu source nextId
  have hGroups := @groupsOf_withoutOrphans menu source nextId
  unfold menuItemIdMap at hGroups
  rw [hItems] at hGroups
  rw [cloneMenuDocumentsToRestaurant, Cloning.foldl_cloneCategory, Cloning.foldl_cloneMenuItem, Cloning.foldl_cloneModifierGroup]
  simp only [List.nil_append, copiedCategories, copiedItems, copiedGroups, menuItemIdMap, hItems, hGroups]
  rfl

end Documents

/-! ## The copied documents are listed alike -/

theorem filter_append_new {α ν : Type} {l : List α} {N : List ν} {f : ν → α} {p : α → Bool} (hNone : ∀ a ∈ l, p a = false)
    (hAll : ∀ x, p (f x) = true) : (l ++ N.map f).filter p = N.map f := by
  have hOld : l.filter p = [] := List.filter_eq_nil_iff.mpr fun a hMem => by simp [hNone a hMem]
  have hCopies : (N.map f).filter p = N.map f := by
    refine List.filter_eq_self.mpr fun a hMem => ?_
    obtain ⟨x, -, rfl⟩ := List.mem_map.mp hMem
    exact hAll x
  rw [List.filter_append, hOld, hCopies, List.nil_append]

theorem filter_append_other {α ν : Type} {l : List α} {N : List ν} {f : ν → α} {p : α → Bool} (hNone : ∀ x, p (f x) = false) :
    (l ++ N.map f).filter p = l.filter p := by
  have hCopies : (N.map f).filter p = [] := by
    refine List.filter_eq_nil_iff.mpr fun a hMem => ?_
    obtain ⟨x, -, rfl⟩ := List.mem_map.mp hMem
    simp [hNone x]
  rw [List.filter_append, hCopies, List.append_nil]

theorem options_clone (id : Id) (options : List ModifierOption) : List.Forall₂ ResolvedModifierOption.SameAs
    ((options.map ModifierOption.toJSON).filter (·.isActive))
    (((options.mapIdx fun i opt => opt.clone (id + i)).map ModifierOption.toJSON).filter (·.isActive)) := by
  induction options generalizing id with
  | nil => exact .nil
  | cons option options ih =>
    have hRest := ih (id + 1)
    have hShift : (fun (i : Nat) (opt : ModifierOption) => opt.clone (id + 1 + i)) = fun i opt => opt.clone (id + (i + 1)) := by
      funext i opt
      rw [Nat.add_assoc, Nat.add_comm 1 i]
    rw [hShift] at hRest
    rw [List.mapIdx_cons, List.map_cons, List.map_cons, List.filter_cons, List.filter_cons]
    cases hActive : option.isActive with
    | true => simpa [ModifierOption.toJSON, ModifierOption.clone, hActive, ResolvedModifierOption.SameAs] using hRest
    | false => simpa [ModifierOption.toJSON, ModifierOption.clone, hActive] using hRest

section Listed

variable {menu : Menu} {source target nextId : Id}

theorem mem_itemsOf_withoutOrphans {item : MenuItem} (h : item ∈ (menu.withoutOrphans source).itemsOf source) :
    item ∈ menu.items ∧ item.categoryId ∈ (menu.categoriesOf source).map (·.id) := by
  obtain ⟨hMem, hOf⟩ := List.mem_filter.mp h
  obtain ⟨hStored, hKept⟩ := List.mem_filter.mp hMem
  rw [of_decide_eq_true hOf] at hKept
  simp only [ne_eq, not_true_eq_false, decide_false, Bool.false_or, List.any_eq_true, decide_eq_true_eq] at hKept
  exact ⟨hStored, List.mem_map.mpr hKept⟩

theorem nodup_categoriesOf (hIds : (menu.categories.map (·.id)).Nodup) : ((menu.categoriesOf source).map (·.id)).Nodup :=
  hIds.sublist (List.filter_sublist.map _)

theorem nodup_itemsOf (hIds : menu.IdsUnique) : (((menu.withoutOrphans source).itemsOf source).map (·.id)).Nodup :=
  hIds.items.sublist ((List.filter_sublist.trans List.filter_sublist).map _)

theorem legacy_clone (hNew : menu.IsNew target) :
    loadLegacyPublicMenu (cloneMenuDocumentsToRestaurant source target nextId menu) target =
      { items := (sorted compareItemDocs (((copiedItems menu source nextId).map fun p =>
          p.1.clone target (newId (categoryIdMap menu source nextId) p.1.categoryId) p.2).filter (·.isAvailable))).map
            (MenuItem.toJSON target)
        categories := (sorted (compareByOrder (·.sortOrder) (·.name)) (((copiedCategories menu source nextId).map fun p =>
          p.1.clone target p.2).filter (·.isActive))).map (Category.toJSON target)
        modifierGroups := (sorted (compareByOrder (·.sortOrder) (·.name)) (((copiedGroups menu source nextId).map fun p =>
          p.1.clone target (newId (menuItemIdMap menu source nextId) p.1.menuItemId) p.2).filter (·.isActive))).map fun doc =>
            (doc.toJSON target).withoutHidden } := by
  rw [loadLegacyPublicMenu, cloneMenuDocumentsToRestaurant_eq]
  rw [filter_append_new (fun doc hMem => decide_eq_false (hNew.items doc hMem)) fun _ => decide_eq_true rfl,
    filter_append_new (fun doc hMem => decide_eq_false (hNew.categories doc hMem)) fun _ => decide_eq_true rfl,
    filter_append_new (fun doc hMem => decide_eq_false (hNew.groups doc hMem)) fun _ => decide_eq_true rfl]

theorem legacy_source : loadLegacyPublicMenu (menu.withoutOrphans source) source =
    { items := (sorted compareItemDocs (((copiedItems menu source nextId).map Prod.fst).filter (·.isAvailable))).map (MenuItem.toJSON source)
      categories := (sorted (compareByOrder (·.sortOrder) (·.name))
        (((copiedCategories menu source nextId).map Prod.fst).filter (·.isActive))).map (Category.toJSON source)
      modifierGroups := (sorted (compareByOrder (·.sortOrder) (·.name))
        (((copiedGroups menu source nextId).map Prod.fst).filter (·.isActive))).map fun doc => (doc.toJSON source).withoutHidden } := by
  rw [copiedItems, copiedCategories, copiedGroups, numbered_map_fst, numbered_map_fst, numbered_map_fst]
  rfl

theorem clone_categories (hIds : (menu.categories.map (·.id)).Nodup) (hNew : menu.IsNew target) :
    List.Forall₂ (ResolvedCategory.SameAs (newId (categoryIdMap menu source nextId)))
      (loadLegacyPublicMenu (menu.withoutOrphans source) source).categories
      (loadLegacyPublicMenu (cloneMenuDocumentsToRestaurant source target nextId menu) target).categories := by
  rw [legacy_clone hNew, @legacy_source menu source nextId]
  refine forall₂_listed (fun _ _ => rfl) (fun _ _ _ _ => rfl) fun p hMem => ?_
  have hId := newId_numbered (nodup_categoriesOf hIds) hMem
  simp only [ResolvedCategory.SameAs, Category.toJSON, Category.clone, categoryIdMap, hId]

theorem clone_modifierGroups (hNew : menu.IsNew target) :
    List.Forall₂ (ResolvedModifierGroup.SameAs (newId (menuItemIdMap menu source nextId)))
      (loadLegacyPublicMenu (menu.withoutOrphans source) source).modifierGroups
      (loadLegacyPublicMenu (cloneMenuDocumentsToRestaurant source target nextId menu) target).modifierGroups := by
  rw [legacy_clone hNew, @legacy_source menu source nextId]
  exact forall₂_listed (fun _ _ => rfl) (fun _ _ _ _ => rfl) fun p hMem => ⟨rfl, options_clone (p.2 + 1) p.1.options⟩

theorem toJSON_clone (hIds : menu.IdsUnique) {p : MenuItem × Id} (hMem : p ∈ copiedItems menu source nextId) :
    (MenuItem.toJSON source p.1).SameAs (newId (categoryIdMap menu source nextId)) (newId (menuItemIdMap menu source nextId))
      (MenuItem.toJSON target (p.1.clone target (newId (categoryIdMap menu source nextId) p.1.categoryId) p.2)) := by
  have hId := newId_numbered (nodup_itemsOf hIds) hMem
  simp only [ResolvedMenuItem.SameAs, MenuItem.toJSON, MenuItem.clone, menuItemIdMap, hId]

theorem mem_copiedItems {p : MenuItem × Id} (h : p ∈ copiedItems menu source nextId) :
    p.1.categoryId ∈ (menu.categoriesOf source).map (·.id) := by
  refine (mem_itemsOf_withoutOrphans ?_).2
  rw [← @numbered_map_fst _ (fun _ => 1) (nextId + (menu.categoriesOf source).length) ((menu.withoutOrphans source).itemsOf source)]
  exact List.mem_map_of_mem h

instance : Std.TransCmp compareItemDocs := by
  unfold compareItemDocs compareByOrder
  infer_instance

theorem filter_listed_items {restaurantId categoryId : Id} {docs : List MenuItem} :
    ((sorted compareItemDocs (docs.filter (·.isAvailable))).map (MenuItem.toJSON restaurantId)).filter (·.categoryId = categoryId) =
      (sorted compareItemDocs ((docs.filter (·.categoryId = categoryId)).filter (·.isAvailable))).map (MenuItem.toJSON restaurantId) := by
  rw [List.filter_map]
  refine congrArg (List.map _) ?_
  have hComm : (docs.filter (·.isAvailable)).filter (·.categoryId = categoryId) =
      (docs.filter (·.categoryId = categoryId)).filter (·.isAvailable) := by
    rw [List.filter_filter, List.filter_filter]
    simp only [Bool.and_comm]
  rw [← hComm]
  exact filter_sorted _ _

theorem clone_items_of (hCategoryIds : (menu.categories.map (·.id)).Nodup) (hIds : menu.IdsUnique) (hNew : menu.IsNew target) {id : Id}
    (hMem : id ∈ (menu.categoriesOf source).map (·.id)) :
    List.Forall₂ (ResolvedMenuItem.SameAs (newId (categoryIdMap menu source nextId)) (newId (menuItemIdMap menu source nextId)))
      ((loadLegacyPublicMenu (menu.withoutOrphans source) source).items.filter (·.categoryId = id))
      ((loadLegacyPublicMenu (cloneMenuDocumentsToRestaurant source target nextId menu) target).items.filter
        (·.categoryId = newId (categoryIdMap menu source nextId) id)) := by
  rw [legacy_clone hNew, @legacy_source menu source nextId, filter_listed_items, filter_listed_items]
  have hInj : Set.InjOn (newId (categoryIdMap menu source nextId)) {id | id ∈ (menu.categoriesOf source).map (·.id)} :=
    newId_injOn (nodup_categoriesOf hCategoryIds) fun _ => Nat.one_pos
  have hSource : ((copiedItems menu source nextId).map Prod.fst).filter (·.categoryId = id) =
      ((copiedItems menu source nextId).filter fun p => p.1.categoryId = id).map Prod.fst := by
    rw [List.filter_map]
    rfl
  have hTarget : ((copiedItems menu source nextId).map fun p =>
        p.1.clone target (newId (categoryIdMap menu source nextId) p.1.categoryId) p.2).filter
          (·.categoryId = newId (categoryIdMap menu source nextId) id) =
      ((copiedItems menu source nextId).filter fun p => p.1.categoryId = id).map fun p =>
        p.1.clone target (newId (categoryIdMap menu source nextId) p.1.categoryId) p.2 := by
    rw [List.filter_map]
    refine congrArg (List.map _) (List.filter_congr fun p hMemP => decide_eq_decide.mpr ?_)
    exact ⟨fun hSame => hInj (mem_copiedItems hMemP) hMem hSame, fun hSame => congrArg (newId _) hSame⟩
  rw [hSource, hTarget]
  refine forall₂_listed (fun _ _ => rfl) (fun p hMemP q hMemQ => ?_) fun p hMemP => toJSON_clone hIds (List.mem_of_mem_filter hMemP)
  have hp : p.1.categoryId = id := of_decide_eq_true (List.mem_filter.mp hMemP).2
  have hq : q.1.categoryId = id := of_decide_eq_true (List.mem_filter.mp hMemQ).2
  simp only [compareItemDocs, compareLex, compareOn, MenuItem.clone, hp, hq, compareByOrder, Std.ReflCmp.compare_self]

theorem compare_newId (hIncreasing : (menu.categoriesOf source).Pairwise fun a b => a.id < b.id) {a b : Id}
    (hMem : a ∈ (menu.categoriesOf source).map (·.id)) (hMem' : b ∈ (menu.categoriesOf source).map (·.id)) :
    compare a b = compare (newId (categoryIdMap menu source nextId) a) (newId (categoryIdMap menu source nextId) b) := by
  have hNodup : ((menu.categoriesOf source).map (·.id)).Nodup :=
    List.pairwise_map.mpr (hIncreasing.imp fun hLt => Nat.ne_of_lt hLt)
  have hFst : menu.categoriesOf source = (copiedCategories menu source nextId).map Prod.fst := numbered_map_fst.symm
  have hKeys : (copiedCategories menu source nextId).Pairwise fun p q => p.1.id < q.1.id := by
    rw [hFst, List.pairwise_map] at hIncreasing
    exact hIncreasing
  have hNumbers : (copiedCategories menu source nextId).Pairwise fun p q => p.2 < q.2 := numbered_increasing fun _ => Nat.one_pos
  have hAlike : ∀ p ∈ copiedCategories menu source nextId, ∀ q ∈ copiedCategories menu source nextId,
      compare p.1.id q.1.id = compare p.2 q.2 := by
    have hBoth := hKeys.and hNumbers
    intro p hMemP q hMemQ
    refine List.Pairwise.forall_of_forall_of_flip (R := fun p q : Category × Id => compare p.1.id q.1.id = compare p.2 q.2)
      (fun p _ => ?_) (hBoth.imp fun h => ?_) (hBoth.imp fun h => ?_) hMemP hMemQ
    · exact (Nat.compare_eq_eq.mpr rfl).trans (Nat.compare_eq_eq.mpr rfl).symm
    · rw [Nat.compare_eq_lt.mpr h.1, Nat.compare_eq_lt.mpr h.2]
    · exact (Nat.compare_eq_gt.mpr h.1).trans (Nat.compare_eq_gt.mpr h.2).symm
  rw [hFst, List.map_map, List.mem_map] at hMem hMem'
  obtain ⟨p, hNumbered, rfl⟩ := hMem
  obtain ⟨q, hNumbered', rfl⟩ := hMem'
  rw [Function.comp_apply, Function.comp_apply, categoryIdMap, newId_numbered hNodup hNumbered, newId_numbered hNodup hNumbered']
  exact hAlike p hNumbered q hNumbered'

theorem clone_items (hIds : menu.IdsUnique) (hNew : menu.IsNew target)
    (hIncreasing : (menu.categoriesOf source).Pairwise fun a b => a.id < b.id) :
    List.Forall₂ (ResolvedMenuItem.SameAs (newId (categoryIdMap menu source nextId)) (newId (menuItemIdMap menu source nextId)))
      (loadLegacyPublicMenu (menu.withoutOrphans source) source).items
      (loadLegacyPublicMenu (cloneMenuDocumentsToRestaurant source target nextId menu) target).items := by
  rw [legacy_clone hNew, @legacy_source menu source nextId]
  refine forall₂_listed (fun _ _ => rfl) (fun p hMem q hMem' => ?_) fun p hMem => toJSON_clone hIds hMem
  have hCompare := @compare_newId menu source nextId hIncreasing _ _ (mem_copiedItems hMem) (mem_copiedItems hMem')
  simp only [compareItemDocs, compareLex, compareOn, MenuItem.clone, compareByOrder, hCompare]

end Listed

/-! ## The overrides are resolved alike -/

section Seeded

variable {locale : Locale} {menu : Menu} {businessId source target : Id}

theorem seeded_itemOverride (hNew : menu.IsNew target) {id : Id} :
    (seedLocationOverridesFromSource businessId source target menu).itemOverride target id =
      (menu.itemOverride source id).map fun o => { o with businessId := businessId, locationId := target } := by
  rw [Menu.itemOverride, seedLocationOverridesFromSource,
    filter_append_new (fun o hMem => decide_eq_false (hNew.itemOverrides o hMem)) fun _ => decide_eq_true rfl]
  exact mapGet_map fun _ => rfl

theorem seeded_categoryOverride (hNew : menu.IsNew target) {id : Id} :
    (seedLocationOverridesFromSource businessId source target menu).categoryOverride target id =
      (menu.categoryOverride source id).map fun o => { o with businessId := businessId, locationId := target } := by
  rw [Menu.categoryOverride, seedLocationOverridesFromSource,
    filter_append_new (fun o hMem => decide_eq_false (hNew.categoryOverrides o hMem)) fun _ => decide_eq_true rfl]
  exact mapGet_map fun _ => rfl

theorem seeded_groupOverride (hNew : menu.IsNew target) {id : Id} :
    (seedLocationOverridesFromSource businessId source target menu).groupOverride target id =
      (menu.groupOverride source id).map fun o => { o with businessId := businessId, locationId := target } := by
  rw [Menu.groupOverride, seedLocationOverridesFromSource,
    filter_append_new (fun o hMem => decide_eq_false (hNew.groupOverrides o hMem)) fun _ => decide_eq_true rfl]
  exact mapGet_map fun _ => rfl

theorem seeded_items (hNew : menu.IsNew target) : List.Forall₂ (ResolvedMenuItem.SameAs id id)
    (resolveMenuForLocation locale menu businessId source false).items
    (resolveMenuForLocation locale (seedLocationOverridesFromSource businessId source target menu) businessId target false).items := by
  refine forall₂_changed (c := fun item : ResolvedMenuItem => { item with restaurantId := target }) (fun item => ?_) (fun _ => rfl) (fun _ _ => rfl)
    fun _ => rfl
  rw [seeded_itemOverride hNew, MenuItem.resolve, MenuItem.resolve]
  cases menu.itemOverride source item.id <;> rfl

theorem seeded_categories (hNew : menu.IsNew target) : List.Forall₂ (ResolvedCategory.SameAs id)
    (resolveMenuForLocation locale menu businessId source false).categories
    (resolveMenuForLocation locale (seedLocationOverridesFromSource businessId source target menu) businessId target false).categories := by
  refine forall₂_changed (c := fun category : ResolvedCategory => { category with restaurantId := target }) (fun category => ?_) (fun _ => rfl)
    (fun _ _ => rfl) fun _ => rfl
  rw [seeded_categoryOverride hNew, Category.resolve, Category.resolve]
  cases menu.categoryOverride source category.id <;> rfl

theorem seeded_modifierGroups (hNew : menu.IsNew target) : List.Forall₂ (ResolvedModifierGroup.SameAs id)
    (resolveMenuForLocation locale menu businessId source false).modifierGroups
    (resolveMenuForLocation locale (seedLocationOverridesFromSource businessId source target menu) businessId target false).modifierGroups := by
  refine forall₂_changed (c := fun group : ResolvedModifierGroup => { group with restaurantId := target }) (fun group => ?_) (fun _ => rfl)
    (fun _ _ => rfl) fun group => ⟨rfl, List.forall₂_same.mpr fun _ _ => rfl⟩
  rw [seeded_groupOverride hNew, ModifierGroup.resolve, ModifierGroup.resolve]
  cases menu.groupOverride source group.id <;> rfl

end Seeded

/-! ## The clone -/

section Cloned

variable {locale : Locale} {menu : Menu} {businessId source target nextId : Id}

theorem publicMenu_of_business (h : menu.businessOf source = some businessId) : publicMenu locale menu source =
    if businessHasCanonicalMenu menu businessId then resolveMenuForLocation locale menu businessId source false
    else loadLegacyPublicMenu menu source := by
  have hResolved : resolveCanonicalBusinessId menu source =
      if businessHasCanonicalMenu menu businessId then some businessId else none := by
    rw [resolveCanonicalBusinessId]
    change (menu.businessOf source).filter _ = _
    rw [h, Option.filter_some]
  rw [publicMenu, hResolved]
  cases businessHasCanonicalMenu menu businessId <;> rfl

theorem businessHasCanonicalMenu_documents :
    businessHasCanonicalMenu (cloneMenuDocumentsToRestaurant source target nextId menu) businessId =
      businessHasCanonicalMenu menu businessId := by
  rw [cloneMenuDocumentsToRestaurant_eq, businessHasCanonicalMenu, businessHasCanonicalMenu, List.any_append, List.any_map]
  simp [Function.comp_def, MenuItem.clone]

theorem businessOf_documents {locationId : Id} :
    (cloneMenuDocumentsToRestaurant source target nextId menu).businessOf locationId = menu.businessOf locationId := by
  rw [cloneMenuDocumentsToRestaurant_eq]
  rfl

theorem resolve_source (hNe : source ≠ target) :
    resolveMenuForLocation locale (seedLocationOverridesFromSource businessId source target menu) businessId source false =
      resolveMenuForLocation locale menu businessId source false := by
  have hItems : (seedLocationOverridesFromSource businessId source target menu).itemOverrides.filter (·.locationId = source) =
      menu.itemOverrides.filter (·.locationId = source) := filter_append_other fun _ => decide_eq_false hNe.symm
  have hCategories : (seedLocationOverridesFromSource businessId source target menu).categoryOverrides.filter (·.locationId = source) =
      menu.categoryOverrides.filter (·.locationId = source) := filter_append_other fun _ => decide_eq_false hNe.symm
  have hGroups : (seedLocationOverridesFromSource businessId source target menu).groupOverrides.filter (·.locationId = source) =
      menu.groupOverrides.filter (·.locationId = source) := filter_append_other fun _ => decide_eq_false hNe.symm
  simp only [resolveMenuForLocation, Menu.itemOverride, Menu.categoryOverride, Menu.groupOverride, hItems, hCategories, hGroups]
  rfl

theorem legacy_source_unchanged (hNe : source ≠ target) :
    loadLegacyPublicMenu (cloneMenuDocumentsToRestaurant source target nextId menu) source = loadLegacyPublicMenu menu source := by
  have hOther : ¬some target = some source := fun hEq => hNe (Option.some.inj hEq).symm
  have hItems : (cloneMenuDocumentsToRestaurant source target nextId menu).items.filter (·.restaurantId = some source) =
      menu.items.filter (·.restaurantId = some source) := by
    rw [cloneMenuDocumentsToRestaurant_eq]
    exact filter_append_other fun _ => decide_eq_false hOther
  have hCategories : (cloneMenuDocumentsToRestaurant source target nextId menu).categories.filter (·.restaurantId = some source) =
      menu.categories.filter (·.restaurantId = some source) := by
    rw [cloneMenuDocumentsToRestaurant_eq]
    exact filter_append_other fun _ => decide_eq_false hOther
  have hGroups : (cloneMenuDocumentsToRestaurant source target nextId menu).groups.filter (·.restaurantId = some source) =
      menu.groups.filter (·.restaurantId = some source) := by
    rw [cloneMenuDocumentsToRestaurant_eq]
    exact filter_append_other fun _ => decide_eq_false hOther
  rw [loadLegacyPublicMenu, hItems, hCategories, hGroups, loadLegacyPublicMenu]

/-- The cloned location lists what its source lists, but for what is left behind:
items without a category of the source and groups without one of its items. The
copies of the categories follow one another as their sources are found, and so
do the items of different categories. -/
theorem cloneMenuToRestaurant_publicMenu (hNe : source ≠ target) (hSource : menu.businessOf source = some businessId)
    (hTarget : menu.businessOf target = some businessId) (hNew : menu.IsNew target)
    (hCategoryIds : (menu.categories.map (·.id)).Nodup) (hIds : menu.IdsUnique) :
    publicMenu locale (cloneMenuToRestaurant businessId source target nextId menu) source = publicMenu locale menu source ∧
      (businessHasCanonicalMenu menu businessId = true → (publicMenu locale menu source).SameAs id id
        (publicMenu locale (cloneMenuToRestaurant businessId source target nextId menu) target)) ∧
      (businessHasCanonicalMenu menu businessId = false → ∃ categoryId menuItemId : Id → Id,
        Set.InjOn categoryId {id | id ∈ (menu.categoriesOf source).map (·.id)} ∧
        (publicMenu locale (menu.withoutOrphans source) source).SameByCategory ((menu.categoriesOf source).map (·.id)) categoryId menuItemId
          (publicMenu locale (cloneMenuToRestaurant businessId source target nextId menu) target) ∧
        ((menu.categoriesOf source).Pairwise (fun a b => a.id < b.id) →
          (publicMenu locale (menu.withoutOrphans source) source).SameAs categoryId menuItemId
            (publicMenu locale (cloneMenuToRestaurant businessId source target nextId menu) target))) := by
  unfold cloneMenuToRestaurant
  cases hCanonical : businessHasCanonicalMenu menu businessId with
  | true =>
    have hSeeded : businessHasCanonicalMenu (seedLocationOverridesFromSource businessId source target menu) businessId = true := hCanonical
    have hSource' : (seedLocationOverridesFromSource businessId source target menu).businessOf source = some businessId := hSource
    have hTarget' : (seedLocationOverridesFromSource businessId source target menu).businessOf target = some businessId := hTarget
    rw [if_pos rfl, publicMenu_of_business hSource', publicMenu_of_business hTarget', publicMenu_of_business hSource, hSeeded, hCanonical,
      if_pos rfl, if_pos rfl, if_pos rfl]
    refine ⟨resolve_source hNe, fun _ => ⟨seeded_categories hNew, seeded_items hNew, seeded_modifierGroups hNew⟩, fun hFalse => ?_⟩
    cases hFalse
  | false =>
    have hCloned := (@businessHasCanonicalMenu_documents menu businessId source target nextId).trans hCanonical
    have hSource' := (@businessOf_documents menu source target nextId source).trans hSource
    have hTarget' := (@businessOf_documents menu source target nextId target).trans hTarget
    have hOrphans : businessHasCanonicalMenu (menu.withoutOrphans source) businessId = false :=
      List.any_eq_false.mpr fun item hMem => List.any_eq_false.mp hCanonical item (List.mem_of_mem_filter hMem)
    have hSourceOrphans : (menu.withoutOrphans source).businessOf source = some businessId := hSource
    rw [if_neg Bool.false_ne_true, publicMenu_of_business hSource', publicMenu_of_business hTarget', publicMenu_of_business hSource,
      publicMenu_of_business hSourceOrphans, hCloned, hCanonical, hOrphans, if_neg Bool.false_ne_true, if_neg Bool.false_ne_true,
      if_neg Bool.false_ne_true, if_neg Bool.false_ne_true]
    refine ⟨legacy_source_unchanged hNe, fun hTrue => ?_, fun _ => ?_⟩
    · cases hTrue
    · refine ⟨newId (categoryIdMap menu source nextId), newId (menuItemIdMap menu source nextId),
        newId_injOn (nodup_categoriesOf hCategoryIds) fun _ => Nat.one_pos, ?_, fun hIncreasing => ?_⟩
      · refine ⟨clone_categories hCategoryIds hNew, fun id hMem => clone_items_of hCategoryIds hIds hNew hMem, fun item hMem => ?_,
          clone_modifierGroups hNew⟩
        rw [legacy_clone hNew] at hMem
        obtain ⟨doc, hDoc, rfl⟩ := List.mem_map.mp hMem
        obtain ⟨p, hCopied, rfl⟩ := List.mem_map.mp (List.mem_of_mem_filter (mem_sorted.mp hDoc))
        exact ⟨p.1.categoryId, mem_copiedItems hCopied, rfl⟩
      · exact ⟨clone_categories hCategoryIds hNew, clone_items hIds hNew hIncreasing, clone_modifierGroups hNew⟩

end Cloned

/-! ### A bakery opens a second location -/

namespace Bakery

def rye : MenuItem := { id := 20, restaurantId := some 1, categoryId := 10, name := "Rye".toList, price := 4 }

def tart : MenuItem := { id := 21, restaurantId := some 1, categoryId := 11, name := "Tart".toList, price := 6 }

def whipped : ModifierOption := { id := 31, name := "Whipped".toList, priceAdjustment := 1 }

def menu : Menu where
  restaurants := [{ id := 1, businessId := some 9 }, { id := 2, businessId := some 9 }]
  categories := [
    { id := 10, restaurantId := some 1, name := "Bread".toList, sortOrder := 2 },
    { id := 11, restaurantId := some 1, name := "Cakes".toList, sortOrder := 1 }]
  items := [rye, tart]
  groups := [
    { id := 30, restaurantId := some 1, menuItemId := 21, name := "Cream".toList, options := [whipped] }]

theorem isNew : menu.IsNew 2 := ⟨by decide, by decide, by decide, by decide, by decide, by decide⟩

theorem idsUnique : menu.IdsUnique := ⟨by decide, by decide, by decide⟩

theorem second_location_lists_menu : ∃ categoryId menuItemId : Id → Id, (publicMenu {} (menu.withoutOrphans 1) 1).SameAs categoryId menuItemId
    (publicMenu {} (cloneMenuToRestaurant 9 1 2 100 menu) 2) := by
  have hNe : (1 : Id) ≠ 2 := by decide
  obtain ⟨-, -, hDocuments⟩ := @cloneMenuToRestaurant_publicMenu {} menu 9 1 2 100 hNe rfl rfl isNew (by decide) idsUnique
  obtain ⟨categoryId, menuItemId, -, -, hSame⟩ := hDocuments (by decide)
  exact ⟨categoryId, menuItemId, hSame (by decide)⟩

def tartless : Menu := { menu with items := menu.items.filter (·.id ≠ 21) }

def cakesFirst : Menu := { menu with categories := menu.categories.reverse }

theorem cakesFirst_items : (publicMenu {} cakesFirst 1).items.map (·.name) = ["Rye".toList, "Tart".toList] := by
  change ((sorted compareItemDocs [rye, tart]).map (MenuItem.toJSON 1)).map (·.name) = _
  rw [sorted_pair]
  decide

theorem cakesFirst_cloned_items :
    (publicMenu {} (cloneMenuToRestaurant 9 1 2 100 cakesFirst) 2).items.map (·.name) = ["Tart".toList, "Rye".toList] := by
  change ((sorted compareItemDocs [rye.clone 2 101 102, tart.clone 2 100 103]).map (MenuItem.toJSON 2)).map (·.name) = _
  rw [sorted_pair]
  decide

def ClonesAlike (menu : Menu) : Prop :=
  ∀ (locale : Locale) (businessId source target nextId : Id), source ≠ target → menu.businessOf source = some businessId →
    menu.businessOf target = some businessId → menu.IsNew target → (menu.categories.map (·.id)).Nodup → menu.IdsUnique →
    ∃ categoryId menuItemId : Id → Id, (publicMenu locale menu source).SameAs categoryId menuItemId
      (publicMenu locale (cloneMenuToRestaurant businessId source target nextId menu) target)

theorem names_of_sameAs {categoryId menuItemId : Id → Id} {listed cloned : ResolvedMenu} (h : listed.SameAs categoryId menuItemId cloned) :
    listed.items.map (·.name) = cloned.items.map (·.name) := by
  rw [← List.forall₂_eq_eq_eq, List.forall₂_map_left_iff, List.forall₂_map_right_iff]
  exact h.items.imp fun source target hSame => by rw [hSame]

/-- A group without its item is not cloned, and the new ids order the items of
different categories anew. -/
theorem second_location_lists_other_menu : ¬ ClonesAlike tartless ∧ ¬ ClonesAlike cakesFirst := by
  have hNe : (1 : Id) ≠ 2 := by decide
  constructor
  · intro hClaim
    obtain ⟨categoryId, menuItemId, hSame⟩ := hClaim {} 9 1 2 100 hNe rfl rfl
      ⟨by decide, by decide, by decide, by decide, by decide, by decide⟩ (by decide) ⟨by decide, by decide, by decide⟩
    have hLength := hSame.modifierGroups.length_eq
    have hSource : (publicMenu {} tartless 1).modifierGroups.length = 1 := by decide +kernel
    have hTarget : (publicMenu {} (cloneMenuToRestaurant 9 1 2 100 tartless) 2).modifierGroups.length = 0 := by decide +kernel
    rw [hSource, hTarget] at hLength
    cases hLength
  · intro hClaim
    obtain ⟨categoryId, menuItemId, hSame⟩ := hClaim {} 9 1 2 100 hNe rfl rfl
      ⟨by decide, by decide, by decide, by decide, by decide, by decide⟩ (by decide) ⟨by decide, by decide, by decide⟩
    have hNames := names_of_sameAs hSame
    rw [cakesFirst_items, cakesFirst_cloned_items] at hNames
    exact absurd hNames (by decide)

end Bakery

end RestaurantOs.Menus
