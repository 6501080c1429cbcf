import RestaurantOs.Imports.Sheets
import RestaurantOs.Menus.OrderPricing

/-!
# Normalized rows

A sheet's rows are read one by one. A row with a category or an item name
starts an item, a row with modifier data only adds to the item before it.
-/

namespace RestaurantOs.MenuImport

open Menus

structure MenuImportModifierOptionPreview where
  name : Text
  priceAdjustment : ℚ
  deriving DecidableEq

structure MenuImportModifierGroupPreview where
  name : Text
  minSelect : Nat
  maxSelect : Nat
  options : List MenuImportModifierOptionPreview
  deriving DecidableEq

structure MenuImportRowIssue where
  field : Option MenuImportFieldKey := none
  message : String
  deriving DecidableEq

structure NormalizedImportRow where
  rowNumber : Nat
  categoryName : Text
  itemName : Text
  description : Option Text := none
  price : Option ℚ := none
  isAvailable : Bool := true
  sortOrder : Option Nat := none
  imageUrl : Option Text := none
  modifierGroups : List MenuImportModifierGroupPreview := []
  issues : List MenuImportRowIssue := []
  deriving DecidableEq

structure RawLine where
  rowNumber : Nat
  values : MenuImportFieldKey → Option Text

/-- `(line.values[field] ?? "").trim()` -/
def RawLine.cell (line : RawLine) (field : MenuImportFieldKey) : Text := trim ((line.values field).getD [])

def extractLines (rows : List SheetRow) (fieldToColumn : MenuImportFieldKey → Option Text) : List RawLine :=
  rows.zipIdx.map fun row =>
    { rowNumber := row.2 + 1
      values := fun field => (fieldToColumn field).map fun column => ((mapGet (·.1) row.1 column).map (·.2)).getD [] }

namespace NormalizedImportRow

def flag (row : NormalizedImportRow) (message : String) (field : Option MenuImportFieldKey) : NormalizedImportRow :=
  { row with issues := row.issues ++ [{ field, message }] }

/-- The map of the row's groups by their name in lower case holds exactly its
groups, so it is read off them. -/
def groupNamed (lower : Text → Text) (row : NormalizedImportRow) (groupName : Text) : Option MenuImportModifierGroupPreview :=
  row.modifierGroups.find? fun g => lower g.name = lower groupName

def addOption (lower : Text → Text) (row : NormalizedImportRow) (group : MenuImportModifierGroupPreview)
    (option : MenuImportModifierOptionPreview) : NormalizedImportRow :=
  if (row.groupNamed lower group.name).isSome then
    { row with modifierGroups := row.modifierGroups.map fun g =>
        if lower g.name = lower group.name then { g with options := g.options ++ [option] } else g }
  else { row with modifierGroups := row.modifierGroups ++ [{ group with options := [option] }] }

end NormalizedImportRow

def selectLimits (line : RawLine) (groupName : Text) : Except String (Nat × Nat) :=
  let minRaw := line.cell .modifierMinSelect
  let maxRaw := line.cell .modifierMaxSelect
  match (if minRaw = [] then some 0 else normalizeSortOrder minRaw), (if maxRaw = [] then some 1 else normalizeSortOrder maxRaw) with
  | some min, some max =>
    if max < min then
      .error s!"Row {line.rowNumber}: modifier group \"{textString groupName}\" has min select greater than max select."
    else .ok (min, max)
  | _, _ => .error s!"Row {line.rowNumber}: modifier min/max select must be whole numbers."

def modifierPrice (line : RawLine) : Except String ℚ :=
  let priceRaw := line.cell .modifierPrice
  if priceRaw = [] then .ok 0
  else
    match normalizePrice priceRaw with
    | some price => .ok price
    | none => .error s!"Row {line.rowNumber}: modifier price \"{textString priceRaw}\" is not valid."

def appendModifierLine (lower : Text → Text) (target : NormalizedImportRow) (line : RawLine) : NormalizedImportRow :=
  let groupName := collapseWhitespace (line.cell .modifierGroupName)
  let optionName := collapseWhitespace (line.cell .modifierOptionName)
  if groupName = [] ∨ optionName = [] then
    target.flag s!"Row {line.rowNumber}: a modifier row needs both a group name and an option name." none
  else
    match modifierPrice line with
    | .error message => target.flag message none
    | .ok priceAdjustment =>
      match target.groupNamed lower groupName with
      | some group =>
        if group.options.any fun o => lower o.name = lower optionName then
          target.flag
            s!"Row {line.rowNumber}: duplicate modifier option \"{textString optionName}\" in group \"{textString groupName}\"." none
        else target.addOption lower group { name := optionName, priceAdjustment }
      | none =>
        match selectLimits line groupName with
        | .error message => target.flag message none
        | .ok (minSelect, maxSelect) =>
          target.addOption lower { name := groupName, minSelect, maxSelect, options := [] } { name := optionName, priceAdjustment }

namespace NormalizedImportRow

def readPrice (line : RawLine) (row : NormalizedImportRow) : NormalizedImportRow :=
  let priceRaw := line.cell .price
  if priceRaw = [] then row.flag "Price is missing." (some .price)
  else
    match normalizePrice priceRaw with
    | some price => { row with price := some price }
    | none => row.flag s!"Price \"{textString priceRaw}\" is not valid." (some .price)

def readAvailability (lower : Text → Text) (line : RawLine) (row : NormalizedImportRow) : NormalizedImportRow :=
  let availableRaw := line.cell .isAvailable
  if availableRaw = [] then row
  else
    match normalizeBoolean lower availableRaw with
    | some isAvailable => { row with isAvailable }
    | none =>
      row.flag s!"Availability \"{textString availableRaw}\" is not valid — use true/false or yes/no." (some .isAvailable)

def readSortOrder (line : RawLine) (row : NormalizedImportRow) : NormalizedImportRow :=
  let sortOrderRaw := line.cell .sortOrder
  if sortOrderRaw = [] then row
  else
    match normalizeSortOrder sortOrderRaw with
    | some sortOrder => { row with sortOrder := some sortOrder }
    | none => row.flag s!"Sort order \"{textString sortOrderRaw}\" is not a valid whole number." (some .sortOrder)

end NormalizedImportRow

/-- `groupName || optionName` -/
def RawLine.hasModifierData (line : RawLine) : Bool := line.cell .modifierGroupName ≠ [] || line.cell .modifierOptionName ≠ []

def nameRow (line : RawLine) : NormalizedImportRow where
  rowNumber := line.rowNumber
  categoryName := collapseWhitespace (line.cell .categoryName)
  itemName := collapseWhitespace (line.cell .itemName)
  description := (line.values .description).bind fun raw => if trim raw = [] then none else some (trim raw)
  imageUrl := if line.cell .imageUrl = [] then none else some (line.cell .imageUrl)
  issues :=
    (if line.cell .categoryName = [] then [{ field := some .categoryName, message := "Category is missing." }] else []) ++
      if line.cell .itemName = [] then [{ field := some .itemName, message := "Item name is missing." }] else []

def itemRow (lower : Text → Text) (line : RawLine) : NormalizedImportRow :=
  let row := (((nameRow line).readPrice line).readAvailability lower line).readSortOrder line
  if line.hasModifierData then appendModifierLine lower row line else row

abbrev RowsSoFar := List NormalizedImportRow × Option NormalizedImportRow

def normalizeLine (lower : Text → Text) (sofar : RowsSoFar) (line : RawLine) : RowsSoFar :=
  if line.cell .categoryName = [] ∧ line.cell .itemName = [] then
    if line.hasModifierData then
      match sofar.2 with
      | some current => (sofar.1, some (appendModifierLine lower current line))
      | none =>
        (sofar.1 ++ [{
          rowNumber := line.rowNumber
          categoryName := []
          itemName := []
          issues := [{
            message := "Modifier data with no preceding item — add a category and item name first, or remove this row." }] }],
          none)
    else sofar
  else (sofar.1 ++ sofar.2.toList, some (itemRow lower line))

def normalizeRows (env : Env) (sheet : ParsedSheet) (mapping : MenuImportColumnMapping) : List NormalizedImportRow :=
  let sofar := (extractLines sheet.rows (buildFieldToColumn mapping)).foldl (normalizeLine env.lower) ([], none)
  sofar.1 ++ sofar.2.toList

end RestaurantOs.MenuImport
