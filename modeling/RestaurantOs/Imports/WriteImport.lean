import RestaurantOs.Imports.ResolveImport

/-!
# Writing an import

The one transaction of an import: it creates the planned categories, items and
modifier groups and changes the matched items, or fails and changes nothing.
-/

namespace RestaurantOs.MenuImport

open Menus

structure MenuImportReport where
  totalRows : Nat
  created : Nat
  updated : Nat
  skipped : Nat
  errors : Nat
  categoriesCreated : Nat
  modifierGroupsCreated : Nat
  modifierOptionsCreated : Nat
  deriving DecidableEq

/-! ## Ids -/

def mentionedIds (menu : Menu) (resolved : ResolvedImport) : List Id :=
  menu.categories.map (·.id) ++ menu.items.map (·.id) ++ menu.items.map (·.categoryId) ++ menu.groups.map (·.id) ++
    menu.groups.map (·.menuItemId) ++ resolved.existingCategories.map (·.2)

/-- A new document's id is none that is mentioned: they are numbered from
here. -/
def freshId (menu : Menu) (resolved : ResolvedImport) : Id := (mentionedIds menu resolved).foldr max 0 + 1

theorem lt_freshId {menu : Menu} {resolved : ResolvedImport} {id : Id} (h : id ∈ mentionedIds menu resolved) :
    id < freshId menu resolved := by
  unfold freshId
  refine Nat.lt_succ_of_le ?_
  generalize mentionedIds menu resolved = ids at h
  induction ids with
  | nil => cases h
  | cons i ids ih =>
    rw [List.foldr_cons]
    rcases List.mem_cons.mp h with rfl | hMem
    · exact Nat.le_max_left _ _
    · exact (ih hMem).trans (Nat.le_max_right _ _)

/-! ## The documents' validators -/

def hasText (t : Text) : Bool := trim t ≠ []

def MenuImportModifierOptionPreview.valid (option : MenuImportModifierOptionPreview) : Bool :=
  hasText option.name && decide (0 ≤ option.priceAdjustment)

def MenuImportModifierGroupPreview.valid (group : MenuImportModifierGroupPreview) : Bool :=
  hasText group.name && decide (1 ≤ group.maxSelect) && !group.options.isEmpty && group.options.all (·.valid)

def NormalizedImportRow.validItem (row : NormalizedImportRow) : Bool :=
  hasText row.itemName && row.price.any fun price => decide (0 ≤ price)

def updateValid (row : MenuImportPreviewRow) : Bool := row.row.price.all fun price => decide (0 ≤ price)

/-! ## The transaction -/

def toCreate (resolved : ResolvedImport) : List MenuImportPreviewRow := resolved.rows.filter (·.action = .create)

def toReplace (resolved : ResolvedImport) : List MenuImportPreviewRow :=
  resolved.rows.filter fun r => r.action = .update && r.matchedItemId.isSome

def toMerge (resolved : ResolvedImport) : List MenuImportPreviewRow :=
  resolved.rows.filter fun r => r.action = .merge && r.matchedItemId.isSome

def categoriesToCreate (lower : Text → Text) (resolved : ResolvedImport) : List Text :=
  firstByKey (normalizeKey lower) []
    (((toCreate resolved).map (·.row.categoryName)).filter fun name =>
      (resolved.existingCategoryIdByName (normalizeKey lower name)).isNone)

section Documents

variable (scope : ImportScope)

def newCategory (id : Id) (sortOrder : Nat) (name : Text) : Category where
  id := id
  restaurantId := if scope.canonicalBusinessId.isNone then some scope.restaurantId else none
  businessId := scope.canonicalBusinessId
  name := trim name
  sortOrder := sortOrder

def newItem (id categoryId : Id) (row : MenuImportPreviewRow) : MenuItem where
  id := id
  restaurantId := if scope.canonicalBusinessId.isNone then some scope.restaurantId else none
  businessId := scope.canonicalBusinessId
  categoryId := categoryId
  name := trim row.row.itemName
  description := row.row.description.getD []
  price := row.row.price.getD 0
  imageUrl := row.row.imageUrl
  isAvailable := row.row.isAvailable
  sortOrder := row.sortOrder

def newGroup (id menuItemId : Id) (group : MenuImportModifierGroupPreview) : ModifierGroup where
  id := id
  restaurantId := if scope.canonicalBusinessId.isNone then some scope.restaurantId else none
  businessId := scope.canonicalBusinessId
  menuItemId := menuItemId
  name := trim group.name
  minSelect := group.minSelect
  maxSelect := group.maxSelect
  options := group.options.mapIdx fun i o => { id := id + i, name := trim o.name, priceAdjustment := o.priceAdjustment }

end Documents

/-- The categories created, numbered from `fresh`. -/
def newCategories (lower : Text → Text) (scope : ImportScope) (resolved : ResolvedImport) (fresh : Id) : List Category :=
  (categoriesToCreate lower resolved).mapIdx fun i name => newCategory scope (fresh + i) i name

/-- `categoryIdByName.get(normalizeKey(name))`: a created category's id is set
over an existing one's. -/
def categoryIdByName (lower : Text → Text) (resolved : ResolvedImport) (fresh : Id) (name : Text) : Option Id :=
  let key := normalizeKey lower name
  match (categoriesToCreate lower resolved).findIdx? fun n => normalizeKey lower n = key with
  | some i => some (fresh + i)
  | none => resolved.existingCategoryIdByName key

def newItems (lower : Text → Text) (scope : ImportScope) (resolved : ResolvedImport) (fresh : Id) : List MenuItem :=
  (toCreate resolved).mapIdx fun i row =>
    newItem scope (fresh + (categoriesToCreate lower resolved).length + i)
      ((categoryIdByName lower resolved fresh row.row.categoryName).getD 0) row

def plannedGroups (lower : Text → Text) (resolved : ResolvedImport) (fresh : Id) : List (Id × MenuImportModifierGroupPreview) :=
  ((toCreate resolved).mapIdx fun i row =>
    row.row.modifierGroups.map fun g => (fresh + (categoriesToCreate lower resolved).length + i, g)).flatten

/-- The options of the groups before the `i`th get ids too. -/
def newGroups (lower : Text → Text) (scope : ImportScope) (resolved : ResolvedImport) (fresh : Id) : List ModifierGroup :=
  let groups := plannedGroups lower resolved fresh
  let base := fresh + (categoriesToCreate lower resolved).length + (toCreate resolved).length
  groups.mapIdx fun i g => newGroup scope (base + i + ((groups.take i).map (·.2.options.length)).sum) g.1 g.2

def replaceItem (row : MenuImportPreviewRow) (item : MenuItem) : MenuItem :=
  { item with
    price := row.row.price.getD item.price
    description := row.row.description.getD []
    isAvailable := row.row.isAvailable
    sortOrder := row.sortOrder
    imageUrl := (row.row.imageUrl.filter (· ≠ [])).or item.imageUrl }

/-- Only what the matched item had empty is set. -/
def mergeItem (row : MenuImportPreviewRow) (item : MenuItem) : MenuItem :=
  { item with
    description :=
      if (row.previousValues.elim [] (·.description)) = [] then ((row.row.description.filter (· ≠ [])).getD item.description)
      else item.description
    imageUrl :=
      if ((row.previousValues.bind (·.imageUrl)).filter (· ≠ [])).isNone then (row.row.imageUrl.filter (· ≠ [])).or item.imageUrl
      else item.imageUrl }

/-- `updateOne({ _id: row.matchedItemId }, …)` for each of the rows. -/
def updateItems (change : MenuImportPreviewRow → MenuItem → MenuItem) (rows : List MenuImportPreviewRow) (items : List MenuItem) :
    List MenuItem :=
  rows.foldl (fun items row => items.map fun item => if row.matchedItemId = some item.id then change row item else item) items

theorem map_updateItems {β : Type} {change : MenuImportPreviewRow → MenuItem → MenuItem} {key : MenuItem → β}
    (hKeep : ∀ row item, key (change row item) = key item) {rows : List MenuImportPreviewRow} {items : List MenuItem} :
    (updateItems change rows items).map key = items.map key := by
  unfold updateItems
  induction rows generalizing items with
  | nil => rfl
  | cons row rows ih =>
    rw [List.foldl_cons, ih, List.map_map]
    refine List.map_congr_left fun item _ => ?_
    rw [Function.comp_apply]
    split
    · exact hKeep row item
    · rfl

def passesValidators (lower : Text → Text) (resolved : ResolvedImport) : Bool :=
  (categoriesToCreate lower resolved).all hasText &&
    ((toCreate resolved).all fun row =>
      row.row.validItem && (categoryIdByName lower resolved 0 row.row.categoryName).isSome && row.row.modifierGroups.all (·.valid)) &&
    (toReplace resolved).all updateValid

def writtenMenu (lower : Text → Text) (menu : Menu) (scope : ImportScope) (resolved : ResolvedImport) : Menu :=
  let fresh := freshId menu resolved
  { menu with
    categories := menu.categories ++ newCategories lower scope resolved fresh
    items :=
      updateItems mergeItem (toMerge resolved)
        (updateItems replaceItem (toReplace resolved) (menu.items ++ newItems lower scope resolved fresh))
    groups := menu.groups ++ newGroups lower scope resolved fresh }

def importReport (lower : Text → Text) (resolved : ResolvedImport) : MenuImportReport where
  totalRows := resolved.rows.length
  created := (toCreate resolved).length
  updated := (toReplace resolved).length + (toMerge resolved).length
  skipped := resolved.rows.countP (·.action = .skip)
  errors := resolved.rows.countP (·.action = .error)
  categoriesCreated := (categoriesToCreate lower resolved).length
  modifierGroupsCreated := ((toCreate resolved).map (·.row.modifierGroups.length)).sum
  modifierOptionsCreated := ((toCreate resolved).map fun r => (r.row.modifierGroups.map (·.options.length)).sum).sum

def writeResolvedImport (lower : Text → Text) (menu : Menu) (scope : ImportScope) (resolved : ResolvedImport) :
    Except Err (MenuImportReport × Menu) :=
  if passesValidators lower resolved then .ok (importReport lower resolved, writtenMenu lower menu scope resolved)
  else .error (.other "ValidationError")

end RestaurantOs.MenuImport
