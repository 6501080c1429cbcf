import RestaurantOs.Imports.Texts
import RestaurantOs.Menus.Clone

/-!
# Edits of one item

The endpoints that create, change and delete one menu item. Whether a location
lists the business's documents or its own is found anew from whether the business
has an item, so that its first item hides the locations' own.
-/

namespace RestaurantOs.Menus

open Sorting

def gone (message : String) : ApiError := ⟨410, "MENU_MIGRATED", message⟩

structure MenuItemInput where
  categoryId : Id
  name : Text
  description : Option Text := none
  price : ℚ
  imageUrl : Option Text := none
  isAvailable : Option Bool := none
  sortOrder : Int := 0

structure UpdateMenuItemInput where
  categoryId : Option Id := none
  name : Option Text := none
  description : Option Text := none
  price : Option ℚ := none
  imageUrl : Option Text := none
  isAvailable : Option Bool := none
  sortOrder : Option Int := none

/-- The document as the model's defaults and setters leave it. -/
def MenuItemInput.doc (id : Id) (restaurantId businessId : Option Id) (body : MenuItemInput) : MenuItem where
  id := id
  restaurantId := restaurantId
  businessId := businessId
  categoryId := body.categoryId
  name := MenuImport.trim body.name
  description := body.description.getD []
  price := body.price
  imageUrl := body.imageUrl
  isAvailable := body.isAvailable.getD true
  sortOrder := body.sortOrder

/-- `{ $set: updates }` -/
def UpdateMenuItemInput.set (updates : UpdateMenuItemInput) (item : MenuItem) : MenuItem :=
  { item with
    categoryId := updates.categoryId.getD item.categoryId
    name := (updates.name.map MenuImport.trim).getD item.name
    description := updates.description.getD item.description
    price := updates.price.getD item.price
    imageUrl := updates.imageUrl.or item.imageUrl
    isAvailable := updates.isAvailable.getD item.isAvailable
    sortOrder := updates.sortOrder.getD item.sortOrder }

def assertMenuNotMigrated (menu : Menu) (restaurantId : Id) : Except Err Unit :=
  match resolveCanonicalBusinessId menu restaurantId with
  | some _ =>
    .error (.api (gone "This restaurant's menu is now managed at the business level. Use /businesses/:businessId/... instead."))
  | none => .ok ()

def assertCategoryInRestaurant (menu : Menu) (restaurantId categoryId : Id) : Except Err Unit :=
  if menu.categories.any fun c => c.id = categoryId && c.restaurantId = some restaurantId then .ok ()
  else .error (.api (.badRequest "categoryId does not reference a category on this restaurant"))

def assertCategoryInBusiness (menu : Menu) (businessId categoryId : Id) : Except Err Unit :=
  if menu.categories.any fun c => c.id = categoryId && c.businessId = some businessId then .ok ()
  else .error (.api (.badRequest "categoryId does not reference a category on this business"))

namespace Menu

/-- `MenuItem.create`: an `_id` is given once. -/
def createItem (menu : Menu) (doc : MenuItem) : Except Err Menu :=
  if menu.items.any (·.id = doc.id) then .error .duplicateKey else .ok { menu with items := menu.items ++ [doc] }

/-- `MenuItem.findOneAndUpdate({ _id: id, ... }, { $set: updates })` -/
def updateItem (menu : Menu) (inScope : MenuItem → Bool) (id : Id) (updates : UpdateMenuItemInput) : Except Err Menu :=
  if menu.items.any fun d => d.id = id && inScope d then
    .ok { menu with items := menu.items.map fun d => if d.id = id ∧ inScope d = true then updates.set d else d }
  else .error (.api (.notFound "Menu item not found"))

/-- `MenuItem.findOneAndDelete({ _id: id, ... })` -/
def deleteItem (menu : Menu) (inScope : MenuItem → Bool) (id : Id) : Except Err Menu :=
  if menu.items.any fun d => d.id = id && inScope d then
    .ok { menu with items := menu.items.filter fun d => !(d.id = id && inScope d) }
  else .error (.api (.notFound "Menu item not found"))

end Menu

def createMenuItem (restaurantId newId : Id) (body : MenuItemInput) (menu : Menu) : Except Err Menu := do
  assertMenuNotMigrated menu restaurantId
  assertCategoryInRestaurant menu restaurantId body.categoryId
  menu.createItem (body.doc newId (some restaurantId) none)

def updateMenuItem (restaurantId id : Id) (updates : UpdateMenuItemInput) (menu : Menu) : Except Err Menu := do
  assertMenuNotMigrated menu restaurantId
  updates.categoryId.forM (assertCategoryInRestaurant menu restaurantId)
  menu.updateItem (·.restaurantId = some restaurantId) id updates

def deleteMenuItem (restaurantId id : Id) (menu : Menu) : Except Err Menu := do
  assertMenuNotMigrated menu restaurantId
  menu.deleteItem (·.restaurantId = some restaurantId) id

def createCanonicalMenuItem (businessId newId : Id) (body : MenuItemInput) (menu : Menu) : Except Err Menu := do
  assertCategoryInBusiness menu businessId body.categoryId
  menu.createItem (body.doc newId none (some businessId))

def updateCanonicalMenuItem (businessId id : Id) (updates : UpdateMenuItemInput) (menu : Menu) : Except Err Menu := do
  updates.categoryId.forM (assertCategoryInBusiness menu businessId)
  menu.updateItem (·.businessId = some businessId) id updates

def deleteCanonicalMenuItem (businessId id : Id) (menu : Menu) : Except Err Menu :=
  menu.deleteItem (·.businessId = some businessId) id

/-! ## One edit -/

inductive ItemEdit
  | create (restaurantId newId : Id) (body : MenuItemInput)
  | update (restaurantId id : Id) (updates : UpdateMenuItemInput)
  | delete (restaurantId id : Id)
  | createCanonical (businessId newId : Id) (body : MenuItemInput)
  | updateCanonical (businessId id : Id) (updates : UpdateMenuItemInput)
  | deleteCanonical (businessId id : Id)

namespace ItemEdit

def perform : ItemEdit → Menu → Except Err Menu
  | create restaurantId newId body => createMenuItem restaurantId newId body
  | update restaurantId id updates => updateMenuItem restaurantId id updates
  | delete restaurantId id => deleteMenuItem restaurantId id
  | createCanonical businessId newId body => createCanonicalMenuItem businessId newId body
  | updateCanonical businessId id updates => updateCanonicalMenuItem businessId id updates
  | deleteCanonical businessId id => deleteCanonicalMenuItem businessId id

def itemId : ItemEdit → Id
  | create _ id _ | update _ id _ | delete _ id | createCanonical _ id _ | updateCanonical _ id _ | deleteCanonical _ id => id

def AtLocation (menu : Menu) (locationId : Id) : ItemEdit → Prop
  | create restaurantId _ _ | update restaurantId _ _ | delete restaurantId _ =>
    locationId = restaurantId ∨ ∃ businessId, menu.businessOf restaurantId = some businessId ∧ menu.businessOf locationId = some businessId
  | createCanonical businessId _ _ | updateCanonical businessId _ _ | deleteCanonical businessId _ =>
    menu.businessOf locationId = some businessId

end ItemEdit

namespace ResolvedMenu

def others (listed : ResolvedMenu) (id : Id) : List ResolvedMenuItem := listed.items.filter (·.id ≠ id)

/-- Both menus list the same items but `id`, of the same category and with the
same modifier groups. -/
structure SameBut (id : Id) (before after : ResolvedMenu) : Prop where
  items : (before.others id).Perm (after.others id)
  categories : ∀ item ∈ before.others id,
    after.categories.filter (·.id = item.categoryId) = before.categories.filter (·.id = item.categoryId)
  modifierGroups : ∀ item ∈ before.others id,
    after.modifierGroups.filter (·.menuItemId = item.id) = before.modifierGroups.filter (·.menuItemId = item.id)

end ResolvedMenu

namespace Menu

def hasOther (menu : Menu) (businessId id : Id) : Bool := menu.items.any fun d => d.businessId = some businessId && d.id ≠ id

/-- The location has an item of its own besides `id` to offer. -/
def offersOwn (menu : Menu) (locationId id : Id) : Bool :=
  menu.items.any fun d => d.restaurantId = some locationId && d.isAvailable && d.id ≠ id

end Menu

def ItemEdit.KeepsScope (menu : Menu) : ItemEdit → Prop
  | createCanonical businessId id _ | deleteCanonical businessId id =>
    menu.hasOther businessId id = true ∨
      ∀ locationId, menu.businessOf locationId = some businessId → menu.offersOwn locationId id = false
  | _ => True

/-! ## What an edit leaves -/

/-- Only items change, and of these only `id`. -/
def EditsOnly (id : Id) (menu menu' : Menu) : Prop :=
  ∃ items, items.filter (·.id ≠ id) = menu.items.filter (·.id ≠ id) ∧ menu' = { menu with items := items }

section Writes

variable {menu menu' : Menu} {inScope : MenuItem → Bool} {id : Id} {updates : UpdateMenuItemInput} {doc : MenuItem}

theorem createItem_eq_ok : menu.createItem doc = .ok menu' ↔
    (∀ d ∈ menu.items, d.id ≠ doc.id) ∧ menu' = { menu with items := menu.items ++ [doc] } := by
  unfold Menu.createItem
  split
  · rename_i hUsed
    obtain ⟨d, hMem, hId⟩ := List.any_eq_true.mp hUsed
    constructor
    · intro h
      cases h
    · rintro ⟨hNew, -⟩
      exact absurd (of_decide_eq_true hId) (hNew d hMem)
  · rename_i hUsed
    constructor
    · intro h
      cases h
      refine ⟨fun d hMem hId => hUsed ?_, rfl⟩
      exact List.any_eq_true.mpr ⟨d, hMem, decide_eq_true hId⟩
    · rintro ⟨-, rfl⟩
      rfl

theorem updateItem_eq_ok (h : menu.updateItem inScope id updates = .ok menu') :
    (∃ d ∈ menu.items, d.id = id ∧ inScope d = true) ∧
      menu' = { menu with items := menu.items.map fun d => if d.id = id ∧ inScope d = true then updates.set d else d } := by
  unfold Menu.updateItem at h
  split at h
  · rename_i hFound
    cases h
    obtain ⟨d, hMem, hBoth⟩ := List.any_eq_true.mp hFound
    rw [Bool.and_eq_true, decide_eq_true_eq] at hBoth
    exact ⟨⟨d, hMem, hBoth⟩, rfl⟩
  · cases h

theorem deleteItem_eq_ok (h : menu.deleteItem inScope id = .ok menu') :
    (∃ d ∈ menu.items, d.id = id ∧ inScope d = true) ∧
      menu' = { menu with items := menu.items.filter fun d => !(d.id = id && inScope d) } := by
  unfold Menu.deleteItem at h
  split at h
  · rename_i hFound
    cases h
    obtain ⟨d, hMem, hBoth⟩ := List.any_eq_true.mp hFound
    rw [Bool.and_eq_true, decide_eq_true_eq] at hBoth
    exact ⟨⟨d, hMem, hBoth⟩, rfl⟩
  · cases h

theorem createItem_editsOnly (h : menu.createItem doc = .ok menu') : EditsOnly doc.id menu menu' := by
  obtain ⟨-, rfl⟩ := (createItem_eq_ok).mp h
  refine ⟨_, ?_, rfl⟩
  rw [List.filter_append]
  simp

theorem updateItem_editsOnly (h : menu.updateItem inScope id updates = .ok menu') : EditsOnly id menu menu' := by
  obtain ⟨-, rfl⟩ := updateItem_eq_ok h
  refine ⟨_, ?_, rfl⟩
  induction menu.items with
  | nil => rfl
  | cons d l ih =>
    rw [List.map_cons, List.filter_cons, List.filter_cons, ih]
    by_cases hId : d.id = id
    · by_cases hScope : inScope d = true
      · simp [hId, hScope, UpdateMenuItemInput.set]
      · simp [hId, hScope]
    · simp [hId]

theorem deleteItem_editsOnly (h : menu.deleteItem inScope id = .ok menu') : EditsOnly id menu menu' := by
  obtain ⟨-, rfl⟩ := deleteItem_eq_ok h
  refine ⟨_, ?_, rfl⟩
  rw [List.filter_filter]
  refine List.filter_congr fun d _ => ?_
  by_cases hId : d.id = id <;> simp [hId]

end Writes

/-! ## What a location lists -/

section Listed

variable {locale : Locale} {menu menu' : Menu} {businessId locationId id : Id}

theorem others_canonical : ((resolveMenuForLocation locale menu businessId locationId false).others id).Perm
    ((((menu.items.filter (·.id ≠ id)).filter (·.businessId = some businessId)).map fun item =>
      item.resolve locationId (menu.itemOverride locationId item.id)).filter (·.isAvailable)) := by
  have hPerm := (List.mergeSort_perm (((menu.items.filter (·.businessId = some businessId)).map fun item =>
    item.resolve locationId (menu.itemOverride locationId item.id)).filter fun item => false || item.isAvailable)
      (compareItems locale)).filter (·.id ≠ id)
  refine hPerm.trans (List.Perm.of_eq ?_)
  simp only [List.filter_map, List.filter_filter, Function.comp_def, Bool.false_or]
  refine congrArg _ (List.filter_congr fun item _ => ?_)
  rw [Bool.eq_iff_iff]
  simp only [MenuItem.resolve, Bool.and_eq_true]
  tauto

theorem others_legacy : ((loadLegacyPublicMenu menu locationId).others id).Perm
    (((menu.items.filter (·.id ≠ id)).filter fun d => d.restaurantId = some locationId && d.isAvailable).map
      (MenuItem.toJSON locationId)) := by
  have hPerm := ((List.mergeSort_perm ((menu.items.filter (·.restaurantId = some locationId)).filter (·.isAvailable))
    fun a b => (compareItemDocs a b).isLE).map (MenuItem.toJSON locationId)).filter (·.id ≠ id)
  refine hPerm.trans (List.Perm.of_eq ?_)
  simp only [List.filter_map, List.filter_filter, Function.comp_def]
  refine congrArg _ (List.filter_congr fun item _ => ?_)
  rw [Bool.eq_iff_iff]
  simp only [MenuItem.toJSON, Bool.and_eq_true]
  tauto

theorem sameBut_canonical (h : EditsOnly id menu menu') : (resolveMenuForLocation locale menu businessId locationId false).SameBut id
    (resolveMenuForLocation locale menu' businessId locationId false) := by
  obtain ⟨items, hOthers, rfl⟩ := h
  refine ⟨List.Perm.trans others_canonical (List.Perm.trans (List.Perm.of_eq ?_) (List.Perm.symm others_canonical)), fun _ _ => rfl,
    fun _ _ => rfl⟩
  dsimp only
  rw [hOthers]
  rfl

theorem sameBut_legacy (h : EditsOnly id menu menu') :
    (loadLegacyPublicMenu menu locationId).SameBut id (loadLegacyPublicMenu menu' locationId) := by
  obtain ⟨items, hOthers, rfl⟩ := h
  refine ⟨List.Perm.trans others_legacy (List.Perm.trans (List.Perm.of_eq ?_) (List.Perm.symm others_legacy)), fun _ _ => rfl,
    fun _ _ => rfl⟩
  dsimp only
  rw [hOthers]

theorem sameBut_of_scope (h : EditsOnly id menu menu')
    (hScope : resolveCanonicalBusinessId menu' locationId = resolveCanonicalBusinessId menu locationId) :
    (publicMenu locale menu locationId).SameBut id (publicMenu locale menu' locationId) := by
  unfold publicMenu
  rw [hScope]
  cases resolveCanonicalBusinessId menu locationId with
  | some businessId => exact sameBut_canonical h
  | none => exact sameBut_legacy h

theorem others_canonical_eq_nil (h : menu.hasOther businessId id = false) :
    (resolveMenuForLocation locale menu businessId locationId false).others id = [] := by
  refine (List.Perm.trans others_canonical (List.Perm.of_eq ?_)).eq_nil
  have hNone : (menu.items.filter (·.id ≠ id)).filter (·.businessId = some businessId) = [] := by
    rw [List.filter_filter, List.filter_eq_nil_iff]
    intro d hMem hBoth
    exact Bool.false_ne_true (h.symm.trans (List.any_eq_true.mpr ⟨d, hMem, hBoth⟩))
  rw [hNone]
  rfl

theorem others_legacy_eq_nil : (loadLegacyPublicMenu menu locationId).others id = [] ↔ menu.offersOwn locationId id = false := by
  rw [← List.perm_nil, List.Perm.congr_left others_legacy, List.perm_nil, List.map_eq_nil_iff, List.filter_filter, List.filter_eq_nil_iff,
    Menu.offersOwn, List.any_eq_false]

end Listed

/-! ## Which documents a location lists -/

section Scope

variable {locale : Locale} {menu menu' : Menu} {businessId locationId id : Id}

theorem businessOf_of_editsOnly (h : EditsOnly id menu menu') : menu'.businessOf locationId = menu.businessOf locationId := by
  obtain ⟨_, -, rfl⟩ := h
  rfl

theorem hasOther_of_editsOnly (h : EditsOnly id menu menu') : menu'.hasOther businessId id = menu.hasOther businessId id := by
  obtain ⟨items, hOthers, rfl⟩ := h
  have hFilter : ∀ l : List MenuItem, (l.any fun d => d.businessId = some businessId && d.id ≠ id) =
      (l.filter (·.id ≠ id)).any fun d => d.businessId = some businessId := by
    intro l
    rw [List.any_filter]
    simp only [Bool.and_comm]
  rw [Menu.hasOther, Menu.hasOther, hFilter, hFilter, hOthers]

theorem offersOwn_of_editsOnly (h : EditsOnly id menu menu') : menu'.offersOwn locationId id = menu.offersOwn locationId id := by
  obtain ⟨items, hOthers, rfl⟩ := h
  have hFilter : ∀ l : List MenuItem, (l.any fun d => d.restaurantId = some locationId && d.isAvailable && d.id ≠ id) =
      (l.filter (·.id ≠ id)).any fun d => d.restaurantId = some locationId && d.isAvailable := by
    intro l
    rw [List.any_filter]
    simp only [Bool.and_comm]
  rw [Menu.offersOwn, Menu.offersOwn, hFilter, hFilter, hOthers]

theorem resolve_of_business (h : menu.businessOf locationId = some businessId) : resolveCanonicalBusinessId menu locationId =
    if businessHasCanonicalMenu menu businessId then some businessId else none := by
  change (menu.businessOf locationId).filter _ = _
  rw [h, Option.filter_some]

theorem sameBut_of_canonical (h : EditsOnly id menu menu') (hBusiness : menu.businessOf locationId = some businessId)
    (hSame : businessHasCanonicalMenu menu' businessId = businessHasCanonicalMenu menu businessId) :
    (publicMenu locale menu locationId).SameBut id (publicMenu locale menu' locationId) := by
  refine sameBut_of_scope h ?_
  rw [resolve_of_business hBusiness, resolve_of_business ((businessOf_of_editsOnly h).trans hBusiness), hSame]

theorem sameBut_iff_of_switch (h : EditsOnly id menu menu') (hBusiness : menu.businessOf locationId = some businessId)
    (hOther : menu.hasOther businessId id = false)
    (hSwitch : businessHasCanonicalMenu menu' businessId = !businessHasCanonicalMenu menu businessId) :
    (publicMenu locale menu locationId).SameBut id (publicMenu locale menu' locationId) ↔ menu.offersOwn locationId id = false := by
  have hOther' : menu'.hasOther businessId id = false := (hasOther_of_editsOnly h).trans hOther
  have hNil : ∀ before after : ResolvedMenu, before.others id = [] ∨ after.others id = [] →
      (before.SameBut id after ↔ before.others id = [] ∧ after.others id = []) := by
    intro before after hEither
    constructor
    · intro hSame
      cases hEither with
      | inl hBefore => exact ⟨hBefore, (hBefore ▸ hSame.items).nil_eq.symm⟩
      | inr hAfter => exact ⟨(hAfter ▸ hSame.items).eq_nil, hAfter⟩
    · rintro ⟨hBefore, hAfter⟩
      refine ⟨?_, ?_, ?_⟩ <;> rw [hBefore]
      · rw [hAfter]
      · simp
      · simp
  rw [publicMenu_of_business hBusiness, publicMenu_of_business ((businessOf_of_editsOnly h).trans hBusiness), hSwitch]
  cases businessHasCanonicalMenu menu businessId with
  | true =>
    have hCanonical : (resolveMenuForLocation locale menu businessId locationId false).others id = [] := others_canonical_eq_nil hOther
    rw [if_pos rfl, if_neg (by decide), hNil _ _ (Or.inl hCanonical), others_legacy_eq_nil, offersOwn_of_editsOnly h]
    exact and_iff_right hCanonical
  | false =>
    have hCanonical : (resolveMenuForLocation locale menu' businessId locationId false).others id = [] := others_canonical_eq_nil hOther'
    rw [if_neg (by decide), if_pos (by decide), hNil _ _ (Or.inr hCanonical), others_legacy_eq_nil]
    exact and_iff_left hCanonical

end Scope

/-! ## Accepted edits -/

section Accepted

variable {menu menu' : Menu}

theorem of_checked {check : Except Err Unit} {next : Except Err Menu} (h : (check >>= fun _ => next) = .ok menu') :
    check = .ok () ∧ next = .ok menu' := by
  cases check with
  | error => cases h
  | ok => exact ⟨rfl, h⟩

theorem not_migrated {restaurantId : Id} (h : assertMenuNotMigrated menu restaurantId = .ok ()) :
    resolveCanonicalBusinessId menu restaurantId = none := by
  unfold assertMenuNotMigrated at h
  split at h
  · cases h
  · assumption

theorem perform_editsOnly {edit : ItemEdit} (h : edit.perform menu = .ok menu') : EditsOnly edit.itemId menu menu' := by
  cases edit with
  | create restaurantId newId body => exact createItem_editsOnly (of_checked (of_checked h).2).2
  | update restaurantId id updates => exact updateItem_editsOnly (of_checked (of_checked h).2).2
  | delete restaurantId id => exact deleteItem_editsOnly (of_checked h).2
  | createCanonical businessId newId body => exact createItem_editsOnly (of_checked h).2
  | updateCanonical businessId id updates => exact updateItem_editsOnly (of_checked h).2
  | deleteCanonical businessId id => exact deleteItem_editsOnly h

structure EditsOwn (restaurantId : Id) (menu menu' : Menu) : Prop where
  notMigrated : resolveCanonicalBusinessId menu restaurantId = none
  canonical : ∀ businessId, businessHasCanonicalMenu menu' businessId = true → businessHasCanonicalMenu menu businessId = true

theorem createMenuItem_editsOwn {restaurantId newId : Id} {body : MenuItemInput} (h : createMenuItem restaurantId newId body menu = .ok menu') :
    EditsOwn restaurantId menu menu' := by
  obtain ⟨hCheck, hNext⟩ := of_checked h
  obtain ⟨-, rfl⟩ := (createItem_eq_ok).mp (of_checked hNext).2
  refine ⟨not_migrated hCheck, fun businessId hCanonical => ?_⟩
  rw [businessHasCanonicalMenu, List.any_append, Bool.or_eq_true] at hCanonical
  cases hCanonical with
  | inl hBefore => exact hBefore
  | inr hNew => simp [MenuItemInput.doc] at hNew

theorem any_updateItem {inScope : MenuItem → Bool} {id businessId : Id} {updates : UpdateMenuItemInput} :
    ((menu.items.map fun d => if d.id = id ∧ inScope d = true then updates.set d else d).any (·.businessId = some businessId)) =
      businessHasCanonicalMenu menu businessId := by
  rw [List.any_map, businessHasCanonicalMenu]
  refine congrArg (List.any menu.items) (funext fun d => ?_)
  rw [Function.comp_apply]
  split <;> rfl

theorem updateMenuItem_editsOwn {restaurantId id : Id} {updates : UpdateMenuItemInput}
    (h : updateMenuItem restaurantId id updates menu = .ok menu') : EditsOwn restaurantId menu menu' := by
  obtain ⟨hCheck, hNext⟩ := of_checked h
  obtain ⟨-, rfl⟩ := updateItem_eq_ok (of_checked hNext).2
  exact ⟨not_migrated hCheck, fun businessId hCanonical => any_updateItem.symm.trans hCanonical⟩

theorem deleteMenuItem_editsOwn {restaurantId id : Id} (h : deleteMenuItem restaurantId id menu = .ok menu') :
    EditsOwn restaurantId menu menu' := by
  obtain ⟨hCheck, hNext⟩ := of_checked h
  obtain ⟨-, rfl⟩ := deleteItem_eq_ok hNext
  refine ⟨not_migrated hCheck, fun businessId hCanonical => ?_⟩
  obtain ⟨d, hMem, hBusiness⟩ := List.any_eq_true.mp hCanonical
  exact List.any_eq_true.mpr ⟨d, List.mem_of_mem_filter hMem, hBusiness⟩

theorem EditsOwn.sameBut {locale : Locale} {restaurantId locationId id : Id} (h : EditsOwn restaurantId menu menu')
    (hEdit : EditsOnly id menu menu') (hAt : locationId = restaurantId ∨
      ∃ businessId, menu.businessOf restaurantId = some businessId ∧ menu.businessOf locationId = some businessId) :
    (publicMenu locale menu locationId).SameBut id (publicMenu locale menu' locationId) := by
  have hBefore : resolveCanonicalBusinessId menu locationId = none := by
    cases hAt with
    | inl hSelf => exact hSelf ▸ h.notMigrated
    | inr hBoth =>
      obtain ⟨businessId, hRestaurant, hLocation⟩ := hBoth
      rw [resolve_of_business hLocation, ← resolve_of_business hRestaurant]
      exact h.notMigrated
  refine sameBut_of_scope hEdit ?_
  cases hBusiness : menu.businessOf locationId with
  | none =>
    have hNone (m : Menu) (hm : m.businessOf locationId = none) : resolveCanonicalBusinessId m locationId = none := by
      change (m.businessOf locationId).filter _ = none
      rw [hm]
      rfl
    rw [hNone menu hBusiness, hNone menu' ((businessOf_of_editsOnly hEdit).trans hBusiness)]
  | some businessId =>
    rw [hBefore, resolve_of_business ((businessOf_of_editsOnly hEdit).trans hBusiness)]
    refine if_neg fun hCanonical => ?_
    rw [resolve_of_business hBusiness, if_pos (h.canonical businessId hCanonical)] at hBefore
    cases hBefore

theorem businessHasCanonicalMenu_created {businessId newId : Id} {body : MenuItemInput}
    (h : createCanonicalMenuItem businessId newId body menu = .ok menu') :
    businessHasCanonicalMenu menu businessId = menu.hasOther businessId newId ∧ businessHasCanonicalMenu menu' businessId = true := by
  obtain ⟨hNew, rfl⟩ := (createItem_eq_ok).mp (of_checked h).2
  constructor
  · rw [businessHasCanonicalMenu, Menu.hasOther, Bool.eq_iff_iff, List.any_eq_true, List.any_eq_true]
    refine exists_congr fun d => and_congr_right fun hMem => ?_
    rw [Bool.and_eq_true]
    exact (and_iff_left (decide_eq_true (hNew d hMem))).symm
  · rw [businessHasCanonicalMenu, List.any_append]
    simp [MenuItemInput.doc]

theorem businessHasCanonicalMenu_deleted {businessId id : Id} (h : deleteCanonicalMenuItem businessId id menu = .ok menu') :
    businessHasCanonicalMenu menu businessId = true ∧ businessHasCanonicalMenu menu' businessId = menu.hasOther businessId id := by
  obtain ⟨⟨d, hMem, -, hBusiness⟩, rfl⟩ := deleteItem_eq_ok h
  refine ⟨List.any_eq_true.mpr ⟨d, hMem, hBusiness⟩, ?_⟩
  rw [businessHasCanonicalMenu, Menu.hasOther, List.any_filter]
  refine congrArg (List.any menu.items) (funext fun e => ?_)
  by_cases hId : e.id = id <;> by_cases hOf : e.businessId = some businessId <;> simp [hId, hOf]

theorem businessHasCanonicalMenu_updated {businessId id : Id} {updates : UpdateMenuItemInput}
    (h : updateCanonicalMenuItem businessId id updates menu = .ok menu') :
    businessHasCanonicalMenu menu' businessId = businessHasCanonicalMenu menu businessId := by
  obtain ⟨-, rfl⟩ := updateItem_eq_ok (of_checked h).2
  exact any_updateItem

end Accepted

/-- The locations list the other items as before just where the business's first
item hides none of them and its last one brings none back. -/
theorem edit_keeps_other_items {locale : Locale} {menu menu' : Menu} {edit : ItemEdit} (hAccepted : edit.perform menu = .ok menu') :
    (∀ locationId, edit.AtLocation menu locationId →
      (publicMenu locale menu locationId).SameBut edit.itemId (publicMenu locale menu' locationId)) ↔ edit.KeepsScope menu := by
  have hEdit := perform_editsOnly hAccepted
  -- Creating and deleting are alike: the other documents decide.
  have hSwitches : ∀ businessId, (menu.hasOther businessId edit.itemId = true →
        businessHasCanonicalMenu menu' businessId = businessHasCanonicalMenu menu businessId) →
      (menu.hasOther businessId edit.itemId = false →
        businessHasCanonicalMenu menu' businessId = !businessHasCanonicalMenu menu businessId) →
      ((∀ locationId, menu.businessOf locationId = some businessId →
        (publicMenu locale menu locationId).SameBut edit.itemId (publicMenu locale menu' locationId)) ↔
        menu.hasOther businessId edit.itemId = true ∨
          ∀ locationId, menu.businessOf locationId = some businessId → menu.offersOwn locationId edit.itemId = false) := by
    intro businessId hKeeps hTurns
    cases hOther : menu.hasOther businessId edit.itemId with
    | true =>
      refine iff_of_true (fun locationId hBusiness => ?_) (Or.inl rfl)
      exact sameBut_of_canonical hEdit hBusiness (hKeeps hOther)
    | false =>
      rw [or_iff_right (by decide)]
      exact forall₂_congr fun locationId hBusiness => sameBut_iff_of_switch hEdit hBusiness hOther (hTurns hOther)
  cases edit with
  | create restaurantId newId body =>
    exact iff_of_true (fun locationId hAt => (createMenuItem_editsOwn hAccepted).sameBut hEdit hAt) trivial
  | update restaurantId id updates =>
    exact iff_of_true (fun locationId hAt => (updateMenuItem_editsOwn hAccepted).sameBut hEdit hAt) trivial
  | delete restaurantId id =>
    exact iff_of_true (fun locationId hAt => (deleteMenuItem_editsOwn hAccepted).sameBut hEdit hAt) trivial
  | createCanonical businessId newId body =>
    obtain ⟨hBefore, hAfter⟩ := businessHasCanonicalMenu_created hAccepted
    refine hSwitches businessId (fun hOther => ?_) (fun hOther => ?_)
    · rw [hAfter, hBefore]
      exact hOther.symm
    · have hOther' : menu.hasOther businessId newId = false := hOther
      rw [hAfter, hBefore, hOther']
      rfl
  | updateCanonical businessId id updates =>
    refine iff_of_true (fun locationId hAt => ?_) trivial
    exact sameBut_of_canonical hEdit hAt (businessHasCanonicalMenu_updated hAccepted)
  | deleteCanonical businessId id =>
    obtain ⟨hBefore, hAfter⟩ := businessHasCanonicalMenu_deleted hAccepted
    refine hSwitches businessId (fun hOther => ?_) (fun hOther => ?_)
    · rw [hAfter, hBefore]
      exact hOther
    · have hOther' : menu.hasOther businessId id = false := hOther
      rw [hAfter, hBefore, hOther']
      rfl

namespace Bakery

def cake : MenuItemInput where
  categoryId := 50
  name := "Cake".toList
  price := 9

def twoScopes : Menu :=
  { menu with categories := menu.categories ++ [{ id := 50, businessId := some 9, name := "All shops".toList }] }

/-- A second item of the business changes nothing of the first. -/
theorem second_cake_keeps_first : ∃ menu₁ menu₂ : Menu, createCanonicalMenuItem 9 60 cake twoScopes = .ok menu₁ ∧
    createCanonicalMenuItem 9 61 cake menu₁ = .ok menu₂ ∧ (publicMenu {} menu₁ 1).SameBut 61 (publicMenu {} menu₂ 1) := by
  have hSecond : ∃ menu₁ menu₂ : Menu, createCanonicalMenuItem 9 60 cake twoScopes = .ok menu₁ ∧
      createCanonicalMenuItem 9 61 cake menu₁ = .ok menu₂ ∧ menu₁.hasOther 9 61 = true ∧ menu₁.businessOf 1 = some 9 :=
    ⟨_, _, rfl, rfl, rfl, rfl⟩
  obtain ⟨menu₁, menu₂, hFirst, hAccepted, hOther, hBusiness⟩ := hSecond
  have hEdit : (ItemEdit.createCanonical 9 61 cake).perform menu₁ = .ok menu₂ := hAccepted
  exact ⟨menu₁, menu₂, hFirst, hAccepted, (edit_keeps_other_items hEdit).mpr (Or.inl hOther) 1 hBusiness⟩

/-- The first one hides the bread. -/
theorem first_cake_hides_bread : ¬ ∀ (locale : Locale) (menu menu' : Menu) (edit : ItemEdit), edit.perform menu = .ok menu' →
    ∀ locationId, edit.AtLocation menu locationId →
      (publicMenu locale menu locationId).SameBut edit.itemId (publicMenu locale menu' locationId) := by
  intro hClaim
  have hFirst : ∃ menu' : Menu, (ItemEdit.createCanonical 9 60 cake).perform { twoScopes with items := [rye] } = .ok menu' ∧
      (publicMenu {} { twoScopes with items := [rye] } 1).others 60 = [rye.toJSON 1] ∧ (publicMenu {} menu' 1).others 60 = [] :=
    ⟨_, rfl, by decide +kernel, by decide +kernel⟩
  obtain ⟨menu', hAccepted, hBefore, hAfter⟩ := hFirst
  have hSame := hClaim {} _ menu' _ hAccepted 1 rfl
  have hItems := hSame.items
  rw [ItemEdit.itemId, hBefore, hAfter] at hItems
  exact absurd hItems.length_eq (by decide)

end Bakery

end RestaurantOs.Menus
