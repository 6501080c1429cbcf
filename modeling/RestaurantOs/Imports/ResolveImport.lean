import RestaurantOs.Imports.NormalizeRows

/-!
# The plan of an import

What each row of an import is to do to the menu, decided on the categories and
items read from it.
-/

namespace RestaurantOs.MenuImport

open Menus

structure ImportScope where
  restaurantId : Id
  canonicalBusinessId : Option Id := none
  deriving DecidableEq

def ImportScope.has (scope : ImportScope) (businessId restaurantId : Option Id) : Bool :=
  match scope.canonicalBusinessId with
  | some business => businessId = some business
  | none => restaurantId = some scope.restaurantId

inductive MenuImportRowAction
  | create | update | skip | error | merge
  deriving DecidableEq

inductive DuplicateStrategy
  | skip | update
  deriving DecidableEq

structure PreviousValues where
  price : ℚ
  description : Text
  isAvailable : Bool
  sortOrder : Int
  imageUrl : Option Text
  deriving DecidableEq

structure MenuImportPreviewRow where
  row : NormalizedImportRow
  sortOrder : Nat
  action : MenuImportRowAction
  matchedItemId : Option Id := none
  previousValues : Option PreviousValues := none
  deriving DecidableEq

inductive CategoryStatus
  | existing | new
  deriving DecidableEq

structure MenuImportCategorySummary where
  name : Text
  status : CategoryStatus
  itemCount : Nat
  deriving DecidableEq

structure ResolvedImport where
  rows : List MenuImportPreviewRow
  categories : List MenuImportCategorySummary
  categoriesToCreate : List Text
  /-- `new Map(existingCategories.map((c) => [normalizeKey(c.name), c.id]))` -/
  existingCategories : List (Text × Id)
  deriving DecidableEq

def ResolvedImport.existingCategoryIdByName (resolved : ResolvedImport) (key : Text) : Option Id :=
  (mapGet (·.1) resolved.existingCategories key).map (·.2)

def firstByKey {α κ : Type} [DecidableEq κ] (key : α → κ) : List κ → List α → List α
  | _, [] => []
  | seen, a :: l => if seen.contains (key a) then firstByKey key seen l else a :: firstByKey key (key a :: seen) l

section FirstByKey

variable {α κ : Type} [DecidableEq κ] {key : α → κ} {l : List α} {seen : List κ}

theorem firstByKey_subset : firstByKey key seen l ⊆ l := by
  induction l generalizing seen with
  | nil => exact List.Subset.refl _
  | cons a l ih =>
    rw [firstByKey]
    split
    · exact fun b hb => List.mem_cons_of_mem a (ih hb)
    · exact List.cons_subset_cons a ih

theorem mem_map_firstByKey {k : κ} : k ∈ (firstByKey key seen l).map key ↔ k ∈ l.map key ∧ k ∉ seen := by
  induction l generalizing seen with
  | nil =>
    constructor
    · rintro ⟨⟩
    · rintro ⟨⟨⟩, -⟩
  | cons a l ih =>
    rw [firstByKey]
    split
    · rename_i hSeen
      rw [List.contains_iff_mem] at hSeen
      rw [ih, List.map_cons, List.mem_cons]
      constructor
      · rintro ⟨hMem, hNew⟩
        exact ⟨.inr hMem, hNew⟩
      · rintro ⟨rfl | hMem, hNew⟩
        · exact absurd hSeen hNew
        · exact ⟨hMem, hNew⟩
    · rename_i hNew
      rw [List.contains_iff_mem] at hNew
      rw [List.map_cons, List.mem_cons, ih, List.map_cons, List.mem_cons, List.mem_cons, not_or]
      constructor
      · rintro (rfl | ⟨hMem, -, hk⟩)
        · exact ⟨.inl rfl, hNew⟩
        · exact ⟨.inr hMem, hk⟩
      · rintro ⟨rfl | hMem, hk⟩
        · exact .inl rfl
        · by_cases hEq : k = key a
          · exact .inl hEq
          · exact .inr ⟨hMem, hEq, hk⟩

theorem nodup_map_firstByKey : ((firstByKey key seen l).map key).Nodup := by
  induction l generalizing seen with
  | nil => exact List.nodup_nil
  | cons a l ih =>
    rw [firstByKey]
    split
    · exact ih
    · rw [List.map_cons, List.nodup_cons]
      refine ⟨fun hMem => ?_, ih⟩
      exact ((mem_map_firstByKey).mp hMem).2 List.mem_cons_self

end FirstByKey

/-! ## Repeats in the file -/

def fileKey (lower : Text → Text) (row : NormalizedImportRow) : Text :=
  normalizeKey lower row.categoryName ++ "::".toList ++ normalizeKey lower row.itemName

def NormalizedImportRow.named (row : NormalizedImportRow) : Bool := row.categoryName ≠ [] && row.itemName ≠ []

/-- `seenInFile` holds the keys with their first row's number. -/
def markDuplicates (lower : Text → Text) : List (Text × Nat) → List NormalizedImportRow → List NormalizedImportRow
  | _, [] => []
  | seenInFile, row :: rows =>
    if row.named then
      match seenInFile.find? (·.1 = fileKey lower row) with
      | none => row :: markDuplicates lower ((fileKey lower row, row.rowNumber) :: seenInFile) rows
      | some (_, firstRow) =>
        row.flag s!"Duplicate item \"{textString row.itemName}\" in category \"{textString row.categoryName}\" (already on row {firstRow})." none ::
          markDuplicates lower seenInFile rows
    else row :: markDuplicates lower seenInFile rows

/-! ## Categories, items and positions -/

def orderedCategoryNames (lower : Text → Text) (rows : List NormalizedImportRow) : List Text :=
  firstByKey (normalizeKey lower) [] ((rows.map (·.categoryName)).filter (· ≠ []))

/-- `existingByNormalizedName.get(normalizeKey(name))`, `categories` being what
was read. -/
def existingCategory? (lower : Text → Text) (categories : List Category) (name : Text) : Option Category :=
  mapGet (fun c => normalizeKey lower c.name) categories (normalizeKey lower name)

def existingCategoryIds (lower : Text → Text) (categories : List Category) (rows : List NormalizedImportRow) : List Id :=
  (orderedCategoryNames lower rows).filterMap fun name => (existingCategory? lower categories name).map (·.id)

/-- The item of the row's category under the row's item name, `items` being
what was read. -/
def matchedItem? (lower : Text → Text) (categories : List Category) (items : List MenuItem) (row : NormalizedImportRow) :
    Option MenuItem :=
  (existingCategory? lower categories row.categoryName).bind fun category =>
    mapGet (fun item => (item.categoryId, normalizeKey lower item.name)) items (category.id, normalizeKey lower row.itemName)

abbrev SortOrders := Text → Option Nat

def SortOrders.set (orders : SortOrders) (key : Text) (next : Nat) : SortOrders := fun k => if k = key then some next else orders k

def nextSortOrders (lower : Text → Text) (rows : List NormalizedImportRow) : SortOrders :=
  rows.foldl (fun (orders : SortOrders) row =>
    match row.sortOrder with
    | some sortOrder =>
      if row.categoryName = [] then orders
      else
        let key := normalizeKey lower row.categoryName
        orders.set key (((orders key).elim sortOrder (max · sortOrder)) + 1)
    | none => orders) fun _ => none

def positionRow (lower : Text → Text) (orders : SortOrders) (row : NormalizedImportRow) : Nat × SortOrders :=
  match row.sortOrder with
  | some sortOrder => (sortOrder, orders)
  | none =>
    if row.categoryName = [] then (0, orders)
    else
      let key := normalizeKey lower row.categoryName
      ((orders key).getD 0, orders.set key ((orders key).getD 0 + 1))

def PreviousValues.ofItem (item : MenuItem) : PreviousValues where
  price := item.price
  description := item.description
  isAvailable := item.isAvailable
  sortOrder := item.sortOrder
  imageUrl := item.imageUrl

def resolveRow (strategy : DuplicateStrategy) (sortOrder : Nat) (row : NormalizedImportRow) : Option MenuItem → MenuImportPreviewRow
  | some matched =>
    if row.issues ≠ [] then { row, sortOrder, action := .error }
    else
      { row
        sortOrder
        action := if strategy = .update then .update else .skip
        matchedItemId := some matched.id
        previousValues := some (.ofItem matched) }
  | none => { row, sortOrder, action := if row.issues ≠ [] then .error else .create }

def resolveRows (lower : Text → Text) (categories : List Category) (items : List MenuItem) (strategy : DuplicateStrategy) :
    SortOrders → List NormalizedImportRow → List MenuImportPreviewRow
  | _, [] => []
  | orders, row :: rows =>
    let (sortOrder, orders) := positionRow lower orders row
    resolveRow strategy sortOrder row (matchedItem? lower categories items row) ::
      resolveRows lower categories items strategy orders rows

def createdKeys (lower : Text → Text) (rows : List MenuImportPreviewRow) : List Text :=
  (rows.filter (·.action = .create)).map fun r => normalizeKey lower r.row.categoryName

/-- `resolveImport`, its two reads having answered `categories` and `items`. -/
def planImport (lower : Text → Text) (categories : List Category) (items : List MenuItem) (strategy : DuplicateStrategy)
    (normalized : List NormalizedImportRow) : ResolvedImport :=
  let marked := markDuplicates lower [] normalized
  let rows := resolveRows lower categories items strategy (nextSortOrders lower marked) marked
  let names := orderedCategoryNames lower marked
  let isExisting := fun name => (existingCategory? lower categories name).isSome
  let isNeeded := fun name => (createdKeys lower rows).contains (normalizeKey lower name)
  { rows
    categories := (names.filter fun name => isExisting name || isNeeded name).map fun name =>
      { name
        status := if isExisting name then .existing else .new
        itemCount := marked.countP (·.categoryName = name) }
    categoriesToCreate := names.filter fun name => !isExisting name && isNeeded name
    existingCategories := categories.map fun c => (normalizeKey lower c.name, c.id) }

/-! ## The reads -/

def loadExistingCategories (menu : Menu) (scope : ImportScope) : List Category :=
  menu.categories.filter fun c => scope.has c.businessId c.restaurantId

def loadExistingItems (menu : Menu) (scope : ImportScope) (categoryIds : List Id) : List MenuItem :=
  menu.items.filter fun item => scope.has item.businessId item.restaurantId && categoryIds.contains item.categoryId

/-- `resolveImport` on a menu that does not change meanwhile. -/
def resolveImport (env : Env) (menu : Menu) (normalized : List NormalizedImportRow) (scope : ImportScope) (strategy : DuplicateStrategy) :
    ResolvedImport :=
  let categories := loadExistingCategories menu scope
  let items := loadExistingItems menu scope (existingCategoryIds env.lower categories normalized)
  planImport env.lower categories items strategy normalized

end RestaurantOs.MenuImport
