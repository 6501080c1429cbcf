import RestaurantOs.Async.Translate
import RestaurantOs.Imports.Overlaps
import RestaurantOs.Menus.ItemEdits

/-!
# Requests that edit and list a menu

The endpoints of a restaurant's and of a business's menu, the overrides of a
location, the imports, and the public listing with its cache. An edit checks what
it refers to, writes one document and drops the listings that it affects.
-/

namespace RestaurantOs.MenuEdits

export Payments (Id Time ApiError Err RestaurantStatus)

open Async Prog Menus
open MenuImport (ImportScope ImportRequest Answer)

def MENU_CACHE_TTL_MS : Time := 60 * 1000

/-- Whose documents an endpoint works on. -/
inductive Scope
  | restaurant (id : Id)
  | business (id : Id)
  deriving DecidableEq

/-- The filter `{ restaurantId }` or `{ businessId }`. -/
def Scope.has : Scope → Option Id → Option Id → Bool
  | business id, businessId, _ => businessId = some id
  | restaurant id, _, restaurantId => restaurantId = some id

def Scope.restaurantId : Scope → Option Id
  | restaurant id => some id
  | business _ => none

def Scope.businessId : Scope → Option Id
  | restaurant _ => none
  | business id => some id

def scopeOf (scope : ImportScope) : Scope := scope.canonicalBusinessId.elim (.restaurant scope.restaurantId) .business

/-! ## Inputs -/

structure CategoryInput where
  name : Text
  description : Option Text := none
  sortOrder : Nat := 0
  isActive : Option Bool := none

structure UpdateCategoryInput where
  name : Option Text := none
  description : Option Text := none
  sortOrder : Option Nat := none
  isActive : Option Bool := none
  deriving DecidableEq

structure ModifierOptionInput where
  name : Text
  priceAdjustment : ℚ
  isActive : Option Bool := none
  sortOrder : Nat := 0

structure ModifierGroupInput where
  name : Text
  minSelect : Nat := 0
  maxSelect : Nat := 1
  isActive : Option Bool := none
  sortOrder : Nat := 0
  options : List ModifierOptionInput
  limits : minSelect ≤ maxSelect := by decide
  someOption : options ≠ [] := by decide

structure UpdateModifierGroupInput where
  name : Option Text := none
  minSelect : Option Nat := none
  maxSelect : Option Nat := none
  isActive : Option Bool := none
  sortOrder : Option Nat := none
  options : Option (List ModifierOptionInput) := none
  limits : ∀ min ∈ minSelect, ∀ max ∈ maxSelect, min ≤ max := by decide
  someOption : options ≠ some [] := by decide

structure CategoryOverrideInput where
  isActive : Option Bool := none
  sortOrderOverride : Option Nat := none
  deriving DecidableEq

structure MenuItemOverrideInput where
  isAvailable : Option Bool := none
  priceOverride : Option ℚ := none
  sortOrderOverride : Option Nat := none
  deriving DecidableEq

structure ModifierGroupOverrideInput where
  isActive : Option Bool := none
  optionOverrides : Option (List ModifierOptionOverride) := none
  deriving DecidableEq

/-! ## Documents -/

def CategoryInput.doc (body : CategoryInput) (scope : Scope) (id : Id) : Category where
  id := id
  restaurantId := scope.restaurantId
  businessId := scope.businessId
  name := MenuImport.trim body.name
  description := body.description
  sortOrder := body.sortOrder
  isActive := body.isActive.getD true

def UpdateCategoryInput.set (updates : UpdateCategoryInput) (category : Category) : Category :=
  { category with
    name := (updates.name.map MenuImport.trim).getD category.name
    description := updates.description.or category.description
    sortOrder := (updates.sortOrder.map Int.ofNat).getD category.sortOrder
    isActive := updates.isActive.getD category.isActive }

/-- The options get ids from `optionId` on. -/
def optionDocs (optionId : Id) (options : List ModifierOptionInput) : List ModifierOption :=
  options.mapIdx fun i option =>
    { id := optionId + i
      name := MenuImport.trim option.name
      priceAdjustment := option.priceAdjustment
      isActive := option.isActive.getD true
      sortOrder := option.sortOrder }

def ModifierGroupInput.doc (body : ModifierGroupInput) (scope : Scope) (menuItemId id optionId : Id) : ModifierGroup where
  id := id
  restaurantId := scope.restaurantId
  businessId := scope.businessId
  menuItemId := menuItemId
  name := MenuImport.trim body.name
  minSelect := body.minSelect
  maxSelect := body.maxSelect
  isActive := body.isActive.getD true
  sortOrder := body.sortOrder
  options := optionDocs optionId body.options

/-- `{ $set: updates }` of a modifier group. -/
structure GroupUpdates where
  name : Option Text := none
  minSelect : Option Nat := none
  maxSelect : Option Nat := none
  isActive : Option Bool := none
  sortOrder : Option Nat := none
  options : Option (List ModifierOption) := none
  deriving DecidableEq

def UpdateModifierGroupInput.updates (body : UpdateModifierGroupInput) (optionId : Id) : GroupUpdates where
  name := body.name.map MenuImport.trim
  minSelect := body.minSelect
  maxSelect := body.maxSelect
  isActive := body.isActive
  sortOrder := body.sortOrder
  options := body.options.map (optionDocs optionId)

def GroupUpdates.set (updates : GroupUpdates) (group : ModifierGroup) : ModifierGroup :=
  { group with
    name := updates.name.getD group.name
    minSelect := updates.minSelect.getD group.minSelect
    maxSelect := updates.maxSelect.getD group.maxSelect
    isActive := updates.isActive.getD group.isActive
    sortOrder := (updates.sortOrder.map Int.ofNat).getD group.sortOrder
    options := updates.options.getD group.options }

def CategoryOverrideInput.set (body : CategoryOverrideInput) (o : CategoryLocationOverride) : CategoryLocationOverride :=
  { o with
    isActive := body.isActive.or o.isActive
    sortOrderOverride := (body.sortOrderOverride.map Int.ofNat).or o.sortOrderOverride }

def MenuItemOverrideInput.set (body : MenuItemOverrideInput) (o : MenuItemLocationOverride) : MenuItemLocationOverride :=
  { o with
    isAvailable := body.isAvailable.or o.isAvailable
    priceOverride := body.priceOverride.or o.priceOverride
    sortOrderOverride := (body.sortOrderOverride.map Int.ofNat).or o.sortOrderOverride }

def ModifierGroupOverrideInput.set (body : ModifierGroupOverrideInput) (o : ModifierGroupLocationOverride) : ModifierGroupLocationOverride :=
  { o with
    isActive := body.isActive.or o.isActive
    optionOverrides := body.optionOverrides.getD o.optionOverrides }

/-! ## Writes -/

/-- `create`: an `_id` is given once. -/
def insertDoc {α : Type} (idOf : α → Id) (doc : α) (docs : List α) : Except Err (List α) :=
  if docs.any (idOf · = idOf doc) then .error .duplicateKey else .ok (docs ++ [doc])

/-- `findOneAndUpdate` or `findOneAndDelete`, with what the endpoint throws where it finds nothing. -/
def changeFound {α : Type} (found : α → Bool) (change : List α → List α) (message : String) (docs : List α) : Except Err (List α) :=
  if docs.any found then .ok (change docs) else .error (.api (.notFound message))

/-- An upsert by the fields that `same` compares. -/
def upsert {α : Type} (same : α → Bool) (fresh : α) (set : α → α) (docs : List α) : List α :=
  if docs.any same then Tables.update same set docs else docs ++ [set fresh]

inductive Write
  | createItem (doc : MenuItem)
  | updateItem (scope : Scope) (id : Id) (updates : UpdateMenuItemInput)
  | deleteItem (scope : Scope) (id : Id)
  | createCategory (doc : Category)
  | updateCategory (scope : Scope) (id : Id) (updates : UpdateCategoryInput)
  | deleteCategory (scope : Scope) (id : Id)
  | createGroup (doc : ModifierGroup)
  | updateGroup (scope : Scope) (menuItemId id : Id) (updates : GroupUpdates)
  | deleteGroup (scope : Scope) (menuItemId id : Id)
  | putCategoryOverride (businessId locationId categoryId : Id) (body : CategoryOverrideInput)
  | deleteCategoryOverride (locationId categoryId : Id)
  | putItemOverride (businessId locationId menuItemId : Id) (body : MenuItemOverrideInput)
  | deleteItemOverride (locationId menuItemId : Id)
  | putGroupOverride (businessId locationId modifierGroupId : Id) (body : ModifierGroupOverrideInput)
  | deleteGroupOverride (locationId modifierGroupId : Id)

def Scope.foundCategory (scope : Scope) (id : Id) (category : Category) : Bool :=
  category.id = id && scope.has category.businessId category.restaurantId

def Scope.foundItem (scope : Scope) (id : Id) (item : MenuItem) : Bool := item.id = id && scope.has item.businessId item.restaurantId

def Scope.foundGroup (scope : Scope) (menuItemId id : Id) (group : ModifierGroup) : Bool :=
  group.id = id && group.menuItemId = menuItemId && scope.has group.businessId group.restaurantId

/-- `updateOne`-style operators change the one document of the id. -/
def Write.apply : Write → Menu → Except Err Menu
  | createItem doc, menu => menu.createItem doc
  | updateItem scope id updates, menu => menu.updateItem (fun item => scope.has item.businessId item.restaurantId) id updates
  | deleteItem scope id, menu => menu.deleteItem (fun item => scope.has item.businessId item.restaurantId) id
  | createCategory doc, menu => do
    let categories ← insertDoc (·.id) doc menu.categories
    pure { menu with categories }
  | updateCategory scope id updates, menu => do
    let categories ← changeFound (scope.foundCategory id) (Tables.update (scope.foundCategory id) updates.set) "Category not found"
      menu.categories
    pure { menu with categories }
  | deleteCategory scope id, menu => do
    let categories ← changeFound (scope.foundCategory id) (List.filter fun category => !scope.foundCategory id category)
      "Category not found" menu.categories
    pure { menu with categories }
  | createGroup doc, menu => do
    let groups ← insertDoc (·.id) doc menu.groups
    pure { menu with groups }
  | updateGroup scope menuItemId id updates, menu => do
    let groups ← changeFound (scope.foundGroup menuItemId id) (Tables.update (scope.foundGroup menuItemId id) updates.set)
      "Modifier group not found" menu.groups
    pure { menu with groups }
  | deleteGroup scope menuItemId id, menu => do
    let groups ← changeFound (scope.foundGroup menuItemId id) (List.filter fun group => !scope.foundGroup menuItemId id group)
      "Modifier group not found" menu.groups
    pure { menu with groups }
  | putCategoryOverride businessId locationId categoryId body, menu =>
    .ok { menu with
      categoryOverrides := upsert (fun o => o.locationId = locationId && o.categoryId = categoryId) { businessId, locationId, categoryId }
        (fun o => { body.set o with businessId }) menu.categoryOverrides }
  | deleteCategoryOverride locationId categoryId, menu =>
    .ok { menu with
      categoryOverrides := menu.categoryOverrides.filter fun o => !(o.locationId = locationId && o.categoryId = categoryId) }
  | putItemOverride businessId locationId menuItemId body, menu =>
    .ok { menu with
      itemOverrides := upsert (fun o => o.locationId = locationId && o.menuItemId = menuItemId) { businessId, locationId, menuItemId }
        (fun o => { body.set o with businessId }) menu.itemOverrides }
  | deleteItemOverride locationId menuItemId, menu =>
    .ok { menu with
      itemOverrides := menu.itemOverrides.filter fun o => !(o.locationId = locationId && o.menuItemId = menuItemId) }
  | putGroupOverride businessId locationId modifierGroupId body, menu =>
    .ok { menu with
      groupOverrides :=
        upsert (fun o => o.locationId = locationId && o.modifierGroupId = modifierGroupId) { businessId, locationId, modifierGroupId }
          (fun o => { body.set o with businessId }) menu.groupOverrides }
  | deleteGroupOverride locationId modifierGroupId, menu =>
    .ok { menu with
      groupOverrides := menu.groupOverrides.filter fun o => !(o.locationId = locationId && o.modifierGroupId = modifierGroupId) }

/-! ## The store -/

/-- `asOf` is how many writes had changed the location's menu when its reading began. -/
structure Listing where
  menu : ResolvedMenu
  asOf : Nat
  deriving DecidableEq

structure CacheEntry where
  locationId : Id
  listing : Listing
  expiresAt : Time
  deriving DecidableEq

/-- `log` has the scope of every write, the newest first. -/
structure World where
  imports : MenuImport.World := {}
  statuses : List (Id × RestaurantStatus) := []
  cache : List CacheEntry := []
  log : List Scope := []

namespace World

def menu (w : World) : Menu := w.imports.menu

def withMenu (w : World) (menu : Menu) : World := { w with imports := { w.imports with menu } }

end World

def Scope.affects (scope : Scope) (restaurants : List Restaurant) (locationId : Id) : Bool :=
  match scope with
  | restaurant id => id = locationId
  | business id => restaurants.any fun r => r.id = locationId && r.businessId = some id

def World.writes (w : World) (locationId : Id) : Nat := (w.log.filter (·.affects w.menu.restaurants locationId)).length

structure Lookup where
  hit : Option Listing
  writes : Nat

structure Limits where
  minSelect : Nat
  maxSelect : Nat

/-- `imports` are the operations of an import. The filters of the reads of a listing
are applied when it is put together. -/
inductive Op
  | imports (o : MenuImport.Op)
  | findBusinessOf (restaurantId : Id)
  | findStatus (restaurantId : Id)
  | hasCanonicalMenu (businessId : Id)
  | categoryExists (scope : Scope) (id : Id)
  | itemExists (scope : Scope) (id : Id)
  | countItems (scope : Scope) (categoryId : Id)
  | findLimits (scope : Scope) (menuItemId id : Id)
  | findGroup (businessId menuItemId id : Id)
  | write (scope : Scope) (change : Write)
  | findLocations (businessId : Id)
  | del (locationIds : List Id)
  | get (locationId : Id)
  | set (locationId : Id) (listing : Listing)
  | readItems
  | readCategories
  | readGroups
  | readCategoryOverrides
  | readItemOverrides
  | readGroupOverrides

@[reducible] def Op.Resp : Op → Type
  | imports o => o.Resp
  | findBusinessOf _ => Option Id
  | findStatus _ => Option RestaurantStatus
  | hasCanonicalMenu _ | categoryExists _ _ | itemExists _ _ => Bool
  | countItems _ _ => Nat
  | findLimits _ _ _ => Option Limits
  | findGroup _ _ _ => Option ModifierGroup
  | findLocations _ => List Id
  | get _ => Lookup
  | readItems => List MenuItem
  | readCategories => List Category
  | readGroups => List ModifierGroup
  | readCategoryOverrides => List CategoryLocationOverride
  | readItemOverrides => List MenuItemLocationOverride
  | readGroupOverrides => List ModifierGroupLocationOverride
  | write _ _ | del _ | set _ _ => Unit

def World.write (w : World) (scope : Scope) (change : Write) : Except Err Unit × World :=
  match change.apply w.menu with
  | .ok menu => (.ok (), { w.withMenu menu with log := scope :: w.log })
  | .error err => (.error err, w)

def World.logImport (w : World) {α : Type} (r : Except Err α) : MenuImport.Op → World
  | .transaction scope _ => if r.isOk then { w with log := scopeOf scope :: w.log } else w
  | _ => w

def Op.run : (op : Op) → World → Except Err op.Resp × World
  | imports _, w => (.error .nullDocument, w)
  | findBusinessOf restaurantId, w => (.ok ((w.menu.restaurants.find? (·.id = restaurantId)).bind (·.businessId)), w)
  | findStatus restaurantId, w =>
    (.ok ((w.menu.restaurants.find? (·.id = restaurantId)).map fun _ => (w.statuses.lookup restaurantId).getD .pending), w)
  | hasCanonicalMenu businessId, w => (.ok (businessHasCanonicalMenu w.menu businessId), w)
  | categoryExists scope id, w => (.ok (w.menu.categories.any (scope.foundCategory id)), w)
  | itemExists scope id, w => (.ok (w.menu.items.any (scope.foundItem id)), w)
  | countItems scope categoryId, w =>
    (.ok (w.menu.items.countP fun item => scope.has item.businessId item.restaurantId && item.categoryId = categoryId), w)
  | findLimits scope menuItemId id, w =>
    (.ok ((w.menu.groups.find? (scope.foundGroup menuItemId id)).map fun group => ⟨group.minSelect, group.maxSelect⟩), w)
  | findGroup businessId menuItemId id, w => (.ok (w.menu.groups.find? ((Scope.business businessId).foundGroup menuItemId id)), w)
  | write scope change, w => w.write scope change
  | findLocations businessId, w => (.ok ((w.menu.restaurants.filter (·.businessId = some businessId)).map (·.id)), w)
  | del locationIds, w => (.ok (), { w with cache := w.cache.filter fun entry => !locationIds.contains entry.locationId })
  | get locationId, w =>
    (.ok
      { hit := (w.cache.find? fun entry => entry.locationId = locationId && w.imports.now < entry.expiresAt).map (·.listing)
        writes := w.writes locationId }, w)
  | set locationId listing, w =>
    (.ok (), { w with
      cache := { locationId, listing, expiresAt := w.imports.now + MENU_CACHE_TTL_MS } :: w.cache.filter (·.locationId ≠ locationId) })
  | readItems, w => (.ok w.menu.items, w)
  | readCategories, w => (.ok w.menu.categories, w)
  | readGroups, w => (.ok w.menu.groups, w)
  | readCategoryOverrides, w => (.ok w.menu.categoryOverrides, w)
  | readItemOverrides, w => (.ok w.menu.itemOverrides, w)
  | readGroupOverrides, w => (.ok w.menu.groupOverrides, w)

/-- Any call may throw, without an effect. -/
def Op.perform (lower : Text → Text) (op : Op) (a : Answer) (w : World) : Except Err op.Resp × World :=
  match op with
  | imports o =>
    let (r, imported) := o.perform lower a w.imports
    (r, { w with imports := imported }.logImport r o)
  | op =>
    match a.fault with
    | some text => (.error (.other text), w)
    | none => op.run w

def advance (e : MenuImport.Event) (w : World) : World := { w with imports := e.advance w.imports }

@[reducible] def store (lower : Text → Text) : Store Op Op.Resp Err World Answer MenuImport.Event := ⟨Op.perform lower, advance⟩

abbrev Promise (α : Type) := Prog Op Op.Resp Err α

def throwApi {α : Type} (error : ApiError) : Promise α := .raise (.api error)

/-! ## Around a write -/

def resolveCanonicalBusinessId (restaurantId : Id) : Promise (Option Id) := do
  let businessId : Option Id ← .call (Op.findBusinessOf restaurantId)
  match businessId with
  | none => pure none
  | some businessId => do
    let canonical : Bool ← .call (Op.hasCanonicalMenu businessId)
    pure (if canonical then some businessId else none)

/-- The endpoints of a restaurant start with `assertMenuNotMigrated`. -/
def gate : Scope → Promise Unit
  | .restaurant restaurantId => do
    let canonicalBusinessId ← resolveCanonicalBusinessId restaurantId
    if canonicalBusinessId.isSome then
      throwApi (gone "This restaurant's menu is now managed at the business level. Use /businesses/:businessId/... instead.")
    else pure ()
  | .business _ => pure ()

/-- `invalidateMenuCache`, `invalidateMenuCacheForBusiness` -/
def invalidate : Scope → Promise Unit
  | .restaurant restaurantId => .call (Op.del [restaurantId])
  | .business businessId => do
    let locations : List Id ← .call (Op.findLocations businessId)
    if locations = [] then pure () else .call (Op.del locations)

def commit (scope : Scope) (change : Write) : Promise Unit := do
  .call (Op.write scope change)
  invalidate scope

def edit (scope : Scope) (check : Promise Unit) (change : Write) : Promise Unit := do
  gate scope
  check
  commit scope change

/-! ## Items -/

def assertCategoryIn (scope : Scope) (categoryId : Id) : Promise Unit := do
  let exists' : Bool ← .call (Op.categoryExists scope categoryId)
  if exists' then pure ()
  else
    match scope with
    | .restaurant _ => throwApi (.badRequest "categoryId does not reference a category on this restaurant")
    | .business _ => throwApi (.badRequest "categoryId does not reference a category on this business")

def createItemIn (scope : Scope) (newId : Id) (body : MenuItemInput) : Promise Unit :=
  edit scope (assertCategoryIn scope body.categoryId) (.createItem (body.doc newId scope.restaurantId scope.businessId))

def updateItemIn (scope : Scope) (id : Id) (updates : UpdateMenuItemInput) : Promise Unit :=
  edit scope (updates.categoryId.elim (pure ()) (assertCategoryIn scope)) (.updateItem scope id updates)

def deleteItemIn (scope : Scope) (id : Id) : Promise Unit := edit scope (pure ()) (.deleteItem scope id)

def createMenuItem (restaurantId newId : Id) (body : MenuItemInput) : Promise Unit := createItemIn (.restaurant restaurantId) newId body

def updateMenuItem (restaurantId id : Id) (updates : UpdateMenuItemInput) : Promise Unit := updateItemIn (.restaurant restaurantId) id updates

def deleteMenuItem (restaurantId id : Id) : Promise Unit := deleteItemIn (.restaurant restaurantId) id

def createCanonicalMenuItem (businessId newId : Id) (body : MenuItemInput) : Promise Unit := createItemIn (.business businessId) newId body

def updateCanonicalMenuItem (businessId id : Id) (updates : UpdateMenuItemInput) : Promise Unit := updateItemIn (.business businessId) id updates

def deleteCanonicalMenuItem (businessId id : Id) : Promise Unit := deleteItemIn (.business businessId) id

/-! ## Categories -/

def createCategoryIn (scope : Scope) (newId : Id) (body : CategoryInput) : Promise Unit :=
  edit scope (pure ()) (.createCategory (body.doc scope newId))

def updateCategoryIn (scope : Scope) (id : Id) (updates : UpdateCategoryInput) : Promise Unit :=
  edit scope (pure ()) (.updateCategory scope id updates)

def assertNoItems (scope : Scope) (categoryId : Id) : Promise Unit := do
  let itemCount : Nat ← .call (Op.countItems scope categoryId)
  if itemCount > 0 then throwApi (.conflict "Move or delete this category's menu items before deleting it") else pure ()

def deleteCategoryIn (scope : Scope) (id : Id) : Promise Unit := edit scope (assertNoItems scope id) (.deleteCategory scope id)

def createCategory (restaurantId newId : Id) (body : CategoryInput) : Promise Unit := createCategoryIn (.restaurant restaurantId) newId body

def updateCategory (restaurantId id : Id) (updates : UpdateCategoryInput) : Promise Unit :=
  updateCategoryIn (.restaurant restaurantId) id updates

def deleteCategory (restaurantId id : Id) : Promise Unit := deleteCategoryIn (.restaurant restaurantId) id

def createCanonicalCategory (businessId newId : Id) (body : CategoryInput) : Promise Unit := createCategoryIn (.business businessId) newId body

def updateCanonicalCategory (businessId id : Id) (updates : UpdateCategoryInput) : Promise Unit :=
  updateCategoryIn (.business businessId) id updates

def deleteCanonicalCategory (businessId id : Id) : Promise Unit := deleteCategoryIn (.business businessId) id

/-! ## Modifier groups -/

def assertMenuItemIn (scope : Scope) (menuItemId : Id) : Promise Unit := do
  let exists' : Bool ← .call (Op.itemExists scope menuItemId)
  if exists' then pure () else throwApi (.notFound "Menu item not found")

def createGroupIn (scope : Scope) (menuItemId newId optionId : Id) (body : ModifierGroupInput) : Promise Unit :=
  edit scope (assertMenuItemIn scope menuItemId) (.createGroup (body.doc scope menuItemId newId optionId))

def assertLimits (scope : Scope) (menuItemId id : Id) (updates : UpdateModifierGroupInput) : Promise Unit :=
  if updates.minSelect.isSome || updates.maxSelect.isSome then do
    let existing : Option Limits ← .call (Op.findLimits scope menuItemId id)
    match existing with
    | none => throwApi (.notFound "Modifier group not found")
    | some existing =>
      if updates.maxSelect.getD existing.maxSelect < updates.minSelect.getD existing.minSelect then
        throwApi (.badRequest "minSelect cannot be greater than maxSelect")
      else pure ()
  else pure ()

def updateGroupIn (scope : Scope) (menuItemId id optionId : Id) (updates : UpdateModifierGroupInput) : Promise Unit :=
  edit scope (assertLimits scope menuItemId id updates) (.updateGroup scope menuItemId id (updates.updates optionId))

def deleteGroupIn (scope : Scope) (menuItemId id : Id) : Promise Unit := edit scope (pure ()) (.deleteGroup scope menuItemId id)

def createModifierGroup (restaurantId menuItemId newId optionId : Id) (body : ModifierGroupInput) : Promise Unit :=
  createGroupIn (.restaurant restaurantId) menuItemId newId optionId body

def updateModifierGroup (restaurantId menuItemId id optionId : Id) (updates : UpdateModifierGroupInput) : Promise Unit :=
  updateGroupIn (.restaurant restaurantId) menuItemId id optionId updates

def deleteModifierGroup (restaurantId menuItemId id : Id) : Promise Unit := deleteGroupIn (.restaurant restaurantId) menuItemId id

def createCanonicalModifierGroup (businessId menuItemId newId optionId : Id) (body : ModifierGroupInput) : Promise Unit :=
  createGroupIn (.business businessId) menuItemId newId optionId body

def updateCanonicalModifierGroup (businessId menuItemId id optionId : Id) (updates : UpdateModifierGroupInput) : Promise Unit :=
  updateGroupIn (.business businessId) menuItemId id optionId updates

def deleteCanonicalModifierGroup (businessId menuItemId id : Id) : Promise Unit := deleteGroupIn (.business businessId) menuItemId id

/-! ## Overrides of a location -/

def findBusinessOrThrow (restaurantId : Id) (message : String) : Promise Id := do
  let businessId : Option Id ← .call (Op.findBusinessOf restaurantId)
  match businessId with
  | none => throwApi (.notFound message)
  | some businessId => pure businessId

def putCategoryOverride (restaurantId id : Id) (body : CategoryOverrideInput) : Promise Unit := do
  let businessId ← findBusinessOrThrow restaurantId "Category not found"
  let category : Bool ← .call (Op.categoryExists (.business businessId) id)
  if !category then throwApi (.notFound "Category not found")
  else commit (.restaurant restaurantId) (.putCategoryOverride businessId restaurantId id body)

def deleteCategoryOverride (restaurantId id : Id) : Promise Unit :=
  commit (.restaurant restaurantId) (.deleteCategoryOverride restaurantId id)

def putMenuItemOverride (restaurantId id : Id) (body : MenuItemOverrideInput) : Promise Unit := do
  let businessId ← findBusinessOrThrow restaurantId "Menu item not found"
  let item : Bool ← .call (Op.itemExists (.business businessId) id)
  if !item then throwApi (.notFound "Menu item not found")
  else commit (.restaurant restaurantId) (.putItemOverride businessId restaurantId id body)

def deleteMenuItemOverride (restaurantId id : Id) : Promise Unit :=
  commit (.restaurant restaurantId) (.deleteItemOverride restaurantId id)

def foreignOption (group : ModifierGroup) (body : ModifierGroupOverrideInput) : Option Id :=
  ((body.optionOverrides.getD []).map (·.optionId)).find? fun id => !group.options.any (·.id = id)

def putModifierGroupOverride (restaurantId menuItemId id : Id) (body : ModifierGroupOverrideInput) : Promise Unit := do
  let businessId ← findBusinessOrThrow restaurantId "Modifier group not found"
  let group : Option ModifierGroup ← .call (Op.findGroup businessId menuItemId id)
  match group with
  | none => throwApi (.notFound "Modifier group not found")
  | some group =>
    match foreignOption group body with
    | some optionId => throwApi (.badRequest s!"optionId {idText optionId} does not belong to this modifier group")
    | none => commit (.restaurant restaurantId) (.putGroupOverride businessId restaurantId id body)

def deleteModifierGroupOverride (restaurantId id : Id) : Promise Unit :=
  commit (.restaurant restaurantId) (.deleteGroupOverride restaurantId id)

/-! ## Imports -/

def importOp : (o : MenuImport.Op) → Promise o.Resp
  | .invalidateMenuCache scope => invalidate (scopeOf scope)
  | o => .call (Op.imports o)

def importMenu (env : MenuImport.Env) (request : ImportRequest) : Promise Unit := (request.program env).translate importOp

/-! ## Listing -/

def readMenuForLocation (locale : Menus.Locale) (businessId locationId : Id) : Promise ResolvedMenu := do
  let categories : List Category ← .call Op.readCategories
  let items : List MenuItem ← .call Op.readItems
  let groups : List ModifierGroup ← .call Op.readGroups
  let categoryOverrides : List CategoryLocationOverride ← .call Op.readCategoryOverrides
  let itemOverrides : List MenuItemLocationOverride ← .call Op.readItemOverrides
  let groupOverrides : List ModifierGroupLocationOverride ← .call Op.readGroupOverrides
  pure (resolveMenuForLocation locale { categories, items, groups, categoryOverrides, itemOverrides, groupOverrides }
    businessId locationId false)

def readLegacyMenu (restaurantId : Id) : Promise ResolvedMenu := do
  let items : List MenuItem ← .call Op.readItems
  let categories : List Category ← .call Op.readCategories
  let groups : List ModifierGroup ← .call Op.readGroups
  pure (loadLegacyPublicMenu { categories, items, groups } restaurantId)

def listMenu (locale : Menus.Locale) (restaurantId : Id) (callerCanPreview : Bool) : Promise Listing := do
  let status : Option RestaurantStatus ← .call (Op.findStatus restaurantId)
  if status.all fun status => status ≠ .active && !callerCanPreview then throwApi (.notFound "Restaurant not found")
  else
    let lookup : Lookup ← .call (Op.get restaurantId)
    match lookup.hit with
    | some listing => pure listing
    | none => do
      let canonicalBusinessId ← resolveCanonicalBusinessId restaurantId
      let menu ← canonicalBusinessId.elim (readLegacyMenu restaurantId) (readMenuForLocation locale · restaurantId)
      .call (Op.set restaurantId { menu, asOf := lookup.writes })
      pure { menu, asOf := lookup.writes }

/-! ## Requests -/

structure Env extends MenuImport.Env where
  locale : Menus.Locale := {}

inductive Edit
  | createItem (scope : Scope) (newId : Id) (body : MenuItemInput)
  | updateItem (scope : Scope) (id : Id) (updates : UpdateMenuItemInput)
  | deleteItem (scope : Scope) (id : Id)
  | createCategory (scope : Scope) (newId : Id) (body : CategoryInput)
  | updateCategory (scope : Scope) (id : Id) (updates : UpdateCategoryInput)
  | deleteCategory (scope : Scope) (id : Id)
  | createGroup (scope : Scope) (menuItemId newId optionId : Id) (body : ModifierGroupInput)
  | updateGroup (scope : Scope) (menuItemId id optionId : Id) (updates : UpdateModifierGroupInput)
  | deleteGroup (scope : Scope) (menuItemId id : Id)
  | putCategoryOverride (restaurantId id : Id) (body : CategoryOverrideInput)
  | deleteCategoryOverride (restaurantId id : Id)
  | putMenuItemOverride (restaurantId id : Id) (body : MenuItemOverrideInput)
  | deleteMenuItemOverride (restaurantId id : Id)
  | putModifierGroupOverride (restaurantId menuItemId id : Id) (body : ModifierGroupOverrideInput)
  | deleteModifierGroupOverride (restaurantId id : Id)
  | imports (request : ImportRequest)

def Edit.program (env : Env) : Edit → Promise Unit
  | createItem scope newId body => createItemIn scope newId body
  | updateItem scope id updates => updateItemIn scope id updates
  | deleteItem scope id => deleteItemIn scope id
  | createCategory scope newId body => createCategoryIn scope newId body
  | updateCategory scope id updates => updateCategoryIn scope id updates
  | deleteCategory scope id => deleteCategoryIn scope id
  | createGroup scope menuItemId newId optionId body => createGroupIn scope menuItemId newId optionId body
  | updateGroup scope menuItemId id optionId updates => updateGroupIn scope menuItemId id optionId updates
  | deleteGroup scope menuItemId id => deleteGroupIn scope menuItemId id
  | putCategoryOverride restaurantId id body => MenuEdits.putCategoryOverride restaurantId id body
  | deleteCategoryOverride restaurantId id => MenuEdits.deleteCategoryOverride restaurantId id
  | putMenuItemOverride restaurantId id body => MenuEdits.putMenuItemOverride restaurantId id body
  | deleteMenuItemOverride restaurantId id => MenuEdits.deleteMenuItemOverride restaurantId id
  | putModifierGroupOverride restaurantId menuItemId id body => MenuEdits.putModifierGroupOverride restaurantId menuItemId id body
  | deleteModifierGroupOverride restaurantId id => MenuEdits.deleteModifierGroupOverride restaurantId id
  | imports request => importMenu env.toEnv request

inductive Request
  | edit (request : Edit)
  | list (restaurantId : Id) (callerCanPreview : Bool)

def Request.program (env : Env) : Request → Promise (Option Listing)
  | edit request => do
    request.program env
    pure none
  | list restaurantId callerCanPreview => do
    let listing ← listMenu env.locale restaurantId callerCanPreview
    pure (some listing)

abbrev State := Config Op Op.Resp Err World (Option Listing)

def State.start (env : Env) (w : World) (requests : List Request) : State := Config.initial w (requests.map (Request.program env))

end RestaurantOs.MenuEdits
