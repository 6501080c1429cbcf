import RestaurantOs.Imports.Texts

/-!
# Uploaded sheets

The rows of an uploaded file and the mapping of its columns to the fields of
an item. What the CSV and Excel libraries make of the bytes is given.
-/

namespace RestaurantOs.MenuImport

open Menus

abbrev Buffer := List UInt8

inductive MenuImportFileKind
  | csv | xlsx
  deriving DecidableEq

inductive MenuImportFieldKey
  | categoryName | itemName | description | price | isAvailable | sortOrder | imageUrl
  | modifierGroupName | modifierOptionName | modifierPrice | modifierMinSelect | modifierMaxSelect
  deriving DecidableEq

namespace MenuImportFieldKey

def text : MenuImportFieldKey → String
  | categoryName => "categoryName"
  | itemName => "itemName"
  | description => "description"
  | price => "price"
  | isAvailable => "isAvailable"
  | sortOrder => "sortOrder"
  | imageUrl => "imageUrl"
  | modifierGroupName => "modifierGroupName"
  | modifierOptionName => "modifierOptionName"
  | modifierPrice => "modifierPrice"
  | modifierMinSelect => "modifierMinSelect"
  | modifierMaxSelect => "modifierMaxSelect"

end MenuImportFieldKey

/-- `Papa.parse` of the text of a file: its first error and its cells. -/
structure CsvCells where
  error : Option String := none
  data : List (List Text) := []

structure Worksheet where
  name : Text
  cells : List (List Text)

/-- `lower` is `.toLowerCase()`; an unreadable workbook is the library's
message. -/
structure Env where
  lower : Text → Text
  readCsv : Buffer → CsvCells := fun _ => {}
  readXlsx : Buffer → Except String (List Worksheet) := fun _ => .ok []

abbrev SheetRow := List (Text × Text)

structure ParsedSheet where
  headers : List Text
  rows : List SheetRow
  extraSheetsIgnored : List Text

def MAX_ROWS : Nat := 5000

def rowsFromMatrix (headers : List Text) (matrix : List (List Text)) : List SheetRow :=
  (matrix.filter fun row => row.any fun cell => trim cell ≠ []).map fun row =>
    headers.zipIdx.map fun header => (header.1, trim (row.getD header.2 []))

def parseMatrix (noRows noHeaders : String) (extraSheetsIgnored : List Text) : List (List Text) → Except Err ParsedSheet
  | [] => .error (.api (.badRequest noRows))
  | header :: matrix =>
    let headers := header.map trim
    if headers.all (· = []) then .error (.api (.badRequest noHeaders))
    else if MAX_ROWS < matrix.length then
      .error (.api (.badRequest s!"This file has more than {MAX_ROWS} rows — split it into smaller imports."))
    else .ok { headers, rows := rowsFromMatrix headers matrix, extraSheetsIgnored }

def parseCsv (env : Env) (buffer : Buffer) : Except Err ParsedSheet :=
  match (env.readCsv buffer).error, (env.readCsv buffer).data with
  | some message, [] => .error (.api (.badRequest s!"Could not parse this CSV file: {message}"))
  | _, matrix => parseMatrix "This CSV file has no rows." "This CSV file's header row is empty." [] matrix

def parseXlsx (env : Env) (buffer : Buffer) : Except Err ParsedSheet :=
  match env.readXlsx buffer with
  | .error message => .error (.api (.badRequest s!"Could not read this Excel file: {message}"))
  | .ok [] => .error (.api (.badRequest "This Excel file has no sheets."))
  | .ok (sheet :: rest) =>
    parseMatrix "This Excel file's first sheet has no rows." "This Excel file's header row is empty." (rest.map (·.name))
      sheet.cells

def parseUploadedSheet (env : Env) (buffer : Buffer) : MenuImportFileKind → Except Err ParsedSheet
  | .csv => parseCsv env buffer
  | .xlsx => parseXlsx env buffer

/-! ## Column mapping -/

abbrev MenuImportColumnMapping := List (Text × Option MenuImportFieldKey)

def MenuImportColumnMapping.assign (mapping : MenuImportColumnMapping) (header : Text) (field : Option MenuImportFieldKey) :
    MenuImportColumnMapping :=
  if mapping.any (·.1 = header) then mapping.map fun e => if e.1 = header then (header, field) else e
  else mapping ++ [(header, field)]

def arrayIndex? (name : Text) : Option Nat :=
  if name ≠ [] ∧ name.all isDigit ∧ (name = ['0'] ∨ name.head? ≠ some '0') ∧ digitsValue name < 2 ^ 32 - 1 then
    some (digitsValue name)
  else none

/-- `Object.entries` -/
def MenuImportColumnMapping.entries (mapping : MenuImportColumnMapping) : MenuImportColumnMapping :=
  ((mapping.filter fun e => (arrayIndex? e.1).isSome).mergeSort fun a b => (arrayIndex? a.1).getD 0 ≤ (arrayIndex? b.1).getD 0) ++
    mapping.filter fun e => (arrayIndex? e.1).isNone

def isAlphanumeric (c : Char) : Bool := ('a' ≤ c && c ≤ 'z') || isDigit c

def normalizeHeader (lower : Text → Text) (header : Text) : Text := (lower (trim header)).filter isAlphanumeric

def FIELD_ALIASES : List (MenuImportFieldKey × List String) := [
  (.categoryName, ["category", "categoryname", "section", "menusection"]),
  (.itemName, ["itemname", "item", "name", "productname", "title", "menuitem", "menuitemname"]),
  (.description, ["description", "desc", "details", "itemdescription"]),
  (.price, ["price", "cost", "itemprice", "amount"]),
  (.isAvailable, ["available", "isavailable", "availability", "instock", "active"]),
  (.sortOrder, ["sortorder", "order", "sort", "position", "displayorder"]),
  (.imageUrl, ["image", "imageurl", "photo", "picture", "img", "imagereference"]),
  (.modifierGroupName, ["modifiergroup", "modifiergroupname", "optiongroup", "variantgroup"]),
  (.modifierOptionName, ["modifieroption", "modifieroptionname", "optionname", "variantname"]),
  (.modifierPrice, ["modifierprice", "optionprice", "modifieramount", "variantprice"]),
  (.modifierMinSelect, ["modifiermin", "modifierminselect", "minselect", "min"]),
  (.modifierMaxSelect, ["modifiermax", "modifiermaxselect", "maxselect", "max"])]

/-- `ALIAS_TO_FIELD.get(alias)`; the aliases are all different. -/
def fieldOfAlias (name : Text) : Option MenuImportFieldKey :=
  (FIELD_ALIASES.find? fun e => e.2.any (·.toList = name)).map (·.1)

def suggestColumnMapping (env : Env) (headers : List Text) : MenuImportColumnMapping :=
  (headers.foldl (fun (mapping, claimed) header =>
    match fieldOfAlias (normalizeHeader env.lower header) with
    | some field =>
      if claimed.contains field then (mapping.assign header none, claimed)
      else (mapping.assign header (some field), field :: claimed)
    | none => (mapping.assign header none, claimed)) (([], []) : MenuImportColumnMapping × List MenuImportFieldKey)).1

def fieldOf (env : Env) (header : Text) : Option MenuImportFieldKey := fieldOfAlias (normalizeHeader env.lower header)

def suggestColumn (sofar : MenuImportColumnMapping × List MenuImportFieldKey) (column : Text × Option MenuImportFieldKey) :
    MenuImportColumnMapping × List MenuImportFieldKey :=
  match column.2 with
  | some field =>
    if sofar.2.contains field then (sofar.1.assign column.1 none, sofar.2)
    else (sofar.1.assign column.1 (some field), field :: sofar.2)
  | none => (sofar.1.assign column.1 none, sofar.2)

theorem suggestColumnMapping_eq {env : Env} {headers : List Text} :
    suggestColumnMapping env headers = ((headers.map fun header => (header, fieldOf env header)).foldl suggestColumn ([], [])).1 := by
  rw [List.foldl_map]
  rfl

theorem fieldOfAlias_toList (name : String) : fieldOfAlias name.toList = (FIELD_ALIASES.find? fun e => e.2.any (· = name)).map (·.1) := by
  simp only [fieldOfAlias, String.toList_inj]

def MENU_IMPORT_REQUIRED_FIELDS : List MenuImportFieldKey := [.categoryName, .itemName, .price]

def missingRequiredFields (mapping : MenuImportColumnMapping) : List MenuImportFieldKey :=
  MENU_IMPORT_REQUIRED_FIELDS.filter fun field => !mapping.any (·.2 = some field)

def joinFields (fields : List MenuImportFieldKey) : String := String.intercalate ", " (fields.map (·.text))

def appliedMapping (env : Env) (headers : List Text) (requested : MenuImportColumnMapping) : MenuImportColumnMapping :=
  headers.foldl (fun mapping header =>
    match mapGet (·.1) requested header with
    | some e => mapping.assign header e.2
    | none => mapping) (suggestColumnMapping env headers)

def buildFieldToColumn (mapping : MenuImportColumnMapping) (field : MenuImportFieldKey) : Option Text :=
  (mapGet (·.2) mapping.entries (some field)).map (·.1)

end RestaurantOs.MenuImport
