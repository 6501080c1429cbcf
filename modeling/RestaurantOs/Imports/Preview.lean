import RestaurantOs.Imports.WriteImport
import RestaurantOs.Data.Traversals

/-!
# Preview and commit

The preview of an import and its commit read the same plan and count on their
own. They agree where no row that matches an item has modifier groups and
every group that would be created may be selected from.
-/

namespace RestaurantOs.MenuImport

open Menus

structure MenuImportSummary where
  totalRows : Nat
  toCreate : Nat
  toUpdate : Nat
  toSkip : Nat
  rowsWithErrors : Nat
  newCategories : Nat
  existingCategories : Nat
  modifierGroups : Nat
  modifierOptions : Nat
  deriving DecidableEq

structure MenuImportPreviewResponse where
  fileName : Text
  headers : List Text
  suggestedMapping : MenuImportColumnMapping
  appliedMapping : MenuImportColumnMapping
  unmappedRequiredFields : List MenuImportFieldKey
  rows : List MenuImportPreviewRow
  categories : List MenuImportCategorySummary
  summary : MenuImportSummary
  extraSheetsIgnored : List Text

def summarize (preview : ResolvedImport) : MenuImportSummary where
  totalRows := preview.rows.length
  toCreate := preview.rows.countP (·.action = .create)
  toUpdate := preview.rows.countP (·.action = .update)
  toSkip := preview.rows.countP (·.action = .skip)
  rowsWithErrors := preview.rows.countP fun r => r.action ≠ .create && r.action ≠ .update && r.action ≠ .skip
  newCategories := preview.categories.countP (·.status = .new)
  existingCategories := preview.categories.countP (·.status = .existing)
  modifierGroups := ((preview.rows.filter (·.action ≠ .error)).map (·.row.modifierGroups.length)).sum
  modifierOptions := ((preview.rows.filter (·.action ≠ .error)).map fun r => (r.row.modifierGroups.map (·.options.length)).sum).sum

def buildPreview (env : Env) (menu : Menu) (fileName : Text) (buffer : Buffer) (kind : MenuImportFileKind)
    (requestedMapping : Option MenuImportColumnMapping) (scope : ImportScope) (duplicateStrategy : DuplicateStrategy) :
    Except Err MenuImportPreviewResponse := do
  let sheet ← parseUploadedSheet env buffer kind
  let mapping := appliedMapping env sheet.headers (requestedMapping.getD [])
  let unmapped := missingRequiredFields mapping
  if unmapped ≠ [] then
    .ok {
      fileName
      headers := sheet.headers
      suggestedMapping := suggestColumnMapping env sheet.headers
      appliedMapping := mapping
      unmappedRequiredFields := unmapped
      rows := []
      categories := []
      summary := ⟨0, 0, 0, 0, 0, 0, 0, 0, 0⟩
      extraSheetsIgnored := sheet.extraSheetsIgnored }
  else
    let resolved := resolveImport env menu (normalizeRows env sheet mapping) scope duplicateStrategy
    .ok {
      fileName
      headers := sheet.headers
      suggestedMapping := suggestColumnMapping env sheet.headers
      appliedMapping := mapping
      unmappedRequiredFields := []
      rows := resolved.rows
      categories := resolved.categories
      summary := summarize resolved
      extraSheetsIgnored := sheet.extraSheetsIgnored }

def commitImport (env : Env) (menu : Menu) (buffer : Buffer) (kind : MenuImportFileKind) (requestedMapping : MenuImportColumnMapping)
    (scope : ImportScope) (duplicateStrategy : DuplicateStrategy) : Except Err (MenuImportReport × Menu) := do
  let sheet ← parseUploadedSheet env buffer kind
  let mapping := appliedMapping env sheet.headers requestedMapping
  let unmapped := missingRequiredFields mapping
  if unmapped ≠ [] then
    .error (.api (.badRequest s!"This mapping is missing required fields: {joinFields unmapped}."))
  else
    let resolved := resolveImport env menu (normalizeRows env sheet mapping) scope duplicateStrategy
    writeResolvedImport env.lower menu scope resolved

theorem commitImport_of_sheet {env : Env} {menu : Menu} {buffer : Buffer} {kind : MenuImportFileKind} {mapping : MenuImportColumnMapping}
    {scope : ImportScope} {strategy : DuplicateStrategy} {sheet : ParsedSheet} (hSheet : parseUploadedSheet env buffer kind = .ok sheet)
    (hMapped : ¬ missingRequiredFields (appliedMapping env sheet.headers mapping) ≠ []) :
    commitImport env menu buffer kind mapping scope strategy = writeResolvedImport env.lower menu scope
      (resolveImport env menu (normalizeRows env sheet (appliedMapping env sheet.headers mapping)) scope strategy) := by
  rw [commitImport, hSheet]
  change (if missingRequiredFields (appliedMapping env sheet.headers mapping) ≠ [] then _ else _) = _
  rw [if_neg hMapped]

/-! ## What a normalized row is known to hold -/

structure NormalizedImportRow.Sound (row : NormalizedImportRow) : Prop where
  category : row.issues = [] → hasText row.categoryName = true
  item : row.issues = [] → row.validItem = true
  groups : ∀ g ∈ row.modifierGroups, hasText g.name = true ∧ g.options ≠ [] ∧ ∀ o ∈ g.options, o.valid = true

theorem hasText_collapseWhitespace {t : Text} : hasText (collapseWhitespace t) = true ↔ trim t ≠ [] := by
  rw [hasText, decide_eq_true_eq, ne_eq, trim_collapseWhitespace_eq_nil]

theorem trim_cell {line : RawLine} {field : MenuImportFieldKey} : trim (line.cell field) = line.cell field := trim_trim

section Sound

variable {lower : Text → Text} {row : NormalizedImportRow} {line : RawLine}

theorem issues_flag {message : String} {field : Option MenuImportFieldKey} : (row.flag message field).issues ≠ [] := by
  rw [NormalizedImportRow.flag]
  exact List.append_ne_nil_of_right_ne_nil _ (List.cons_ne_nil _ _)

theorem sound_flag {message : String} {field : Option MenuImportFieldKey}
    (hGroups : ∀ g ∈ row.modifierGroups, hasText g.name = true ∧ g.options ≠ [] ∧ ∀ o ∈ g.options, o.valid = true) :
    (row.flag message field).Sound :=
  ⟨fun h => absurd h issues_flag, fun h => absurd h issues_flag, hGroups⟩

theorem sound_addOption (h : row.Sound) {group : MenuImportModifierGroupPreview} {option : MenuImportModifierOptionPreview}
    (hGroup : hasText group.name = true) (hOption : option.valid = true) : (row.addOption lower group option).Sound := by
  unfold NormalizedImportRow.addOption
  split
  · refine ⟨h.category, h.item, fun g hMem => ?_⟩
    obtain ⟨g, hOld, rfl⟩ := List.mem_map.mp hMem
    obtain ⟨hName, hNonempty, hOptions⟩ := h.groups g hOld
    split
    · refine ⟨hName, List.append_ne_nil_of_right_ne_nil _ (List.cons_ne_nil _ _), fun o ho => ?_⟩
      rcases List.mem_append.mp ho with ho | ho
      · exact hOptions o ho
      · rw [List.mem_singleton.mp ho]
        exact hOption
    · exact ⟨hName, hNonempty, hOptions⟩
  · refine ⟨h.category, h.item, fun g hMem => ?_⟩
    rcases List.mem_append.mp hMem with hMem | hMem
    · exact h.groups g hMem
    · rw [List.mem_singleton.mp hMem]
      refine ⟨hGroup, List.cons_ne_nil _ _, fun o ho => ?_⟩
      rw [List.mem_singleton.mp ho]
      exact hOption

theorem modifierPrice_nonneg {price : ℚ} (h : modifierPrice line = .ok price) : 0 ≤ price := by
  unfold modifierPrice at h
  dsimp only at h
  split at h
  · cases h
    exact le_refl _
  · split at h
    · rename_i hPrice
      cases h
      exact normalizePrice_nonneg hPrice
    · cases h

theorem sound_appendModifierLine (h : row.Sound) : (appendModifierLine lower row line).Sound := by
  unfold appendModifierLine
  dsimp only
  split
  · exact sound_flag h.groups
  · rename_i hNames
    rw [not_or] at hNames
    have hGroup : hasText (collapseWhitespace (line.cell .modifierGroupName)) = true :=
      (hasText_collapseWhitespace).mpr fun hNil => hNames.1 (collapseWhitespace_eq_nil.mpr hNil)
    have hOption : hasText (collapseWhitespace (line.cell .modifierOptionName)) = true :=
      (hasText_collapseWhitespace).mpr fun hNil => hNames.2 (collapseWhitespace_eq_nil.mpr hNil)
    split
    · exact sound_flag h.groups
    · rename_i price hPrice
      have hValid : MenuImportModifierOptionPreview.valid
          { name := collapseWhitespace (line.cell .modifierOptionName), priceAdjustment := price } = true := by
        rw [MenuImportModifierOptionPreview.valid, hOption, Bool.true_and, decide_eq_true_eq]
        exact modifierPrice_nonneg hPrice
      split
      · rename_i group hFound
        split
        · exact sound_flag h.groups
        · exact sound_addOption h (h.groups group (List.mem_of_find?_eq_some hFound)).1 hValid
      · split
        · exact sound_flag h.groups
        · exact sound_addOption h hGroup hValid

theorem named_nameRow (h : (nameRow line).issues = []) :
    hasText (nameRow line).categoryName = true ∧ hasText (nameRow line).itemName = true := by
  have hCells : line.cell .categoryName ≠ [] ∧ line.cell .itemName ≠ [] := by
    obtain ⟨hCategory, hItem⟩ := List.append_eq_nil_iff.mp h
    constructor
    · intro hNil
      rw [if_pos hNil] at hCategory
      cases hCategory
    · intro hNil
      rw [if_pos hNil] at hItem
      cases hItem
  constructor
  · refine (hasText_collapseWhitespace).mpr ?_
    rw [trim_cell]
    exact hCells.1
  · refine (hasText_collapseWhitespace).mpr ?_
    rw [trim_cell]
    exact hCells.2

theorem sound_readPrice (hGroups : row.modifierGroups = [])
    (hNames : row.issues = [] → hasText row.categoryName = true ∧ hasText row.itemName = true) : (row.readPrice line).Sound := by
  have hNone : ∀ g ∈ row.modifierGroups, hasText g.name = true ∧ g.options ≠ [] ∧ ∀ o ∈ g.options, o.valid = true := by
    intro g hMem
    rw [hGroups] at hMem
    cases hMem
  unfold NormalizedImportRow.readPrice
  dsimp only
  split
  · exact sound_flag hNone
  · split
    · rename_i price hPrice
      refine ⟨fun h => (hNames h).1, fun h => ?_, hNone⟩
      rw [NormalizedImportRow.validItem, (hNames h).2, Bool.true_and, Option.any_some, decide_eq_true_eq]
      exact normalizePrice_nonneg hPrice
    · exact sound_flag hNone

theorem sound_readAvailability (h : row.Sound) : (row.readAvailability lower line).Sound := by
  unfold NormalizedImportRow.readAvailability
  dsimp only
  split
  · exact h
  · split
    · exact ⟨h.category, h.item, h.groups⟩
    · exact sound_flag h.groups

theorem sound_readSortOrder (h : row.Sound) : (row.readSortOrder line).Sound := by
  unfold NormalizedImportRow.readSortOrder
  dsimp only
  split
  · exact h
  · split
    · exact ⟨h.category, h.item, h.groups⟩
    · exact sound_flag h.groups

theorem sound_itemRow : (itemRow lower line).Sound := by
  have hRow : ((((nameRow line).readPrice line).readAvailability lower line).readSortOrder line).Sound :=
    sound_readSortOrder (sound_readAvailability (sound_readPrice rfl named_nameRow))
  unfold itemRow
  dsimp only
  split
  · exact sound_appendModifierLine hRow
  · exact hRow

theorem sound_normalizeLine {sofar : RowsSoFar} (h : ∀ r ∈ sofar.1 ++ sofar.2.toList, r.Sound) :
    ∀ r ∈ (normalizeLine lower sofar line).1 ++ (normalizeLine lower sofar line).2.toList, r.Sound := by
  obtain ⟨before, current⟩ := sofar
  unfold normalizeLine
  dsimp only at h ⊢
  split
  · split
    · cases current with
      | some current =>
        intro r hMem
        rcases List.mem_append.mp hMem with hMem | hMem
        · exact h r (List.mem_append_left _ hMem)
        · rw [List.mem_singleton.mp hMem]
          exact sound_appendModifierLine (h current (List.mem_append_right _ (List.mem_singleton.mpr rfl)))
      | none =>
        intro r hMem
        rw [Option.toList_none, List.append_nil] at hMem
        rcases List.mem_append.mp hMem with hMem | hMem
        · exact h r (List.mem_append_left _ hMem)
        · rw [List.mem_singleton.mp hMem]
          refine ⟨fun hNil => absurd hNil (List.cons_ne_nil _ _), fun hNil => absurd hNil (List.cons_ne_nil _ _), fun g hg => ?_⟩
          cases hg
    · exact h
  · intro r hMem
    rcases List.mem_append.mp hMem with hMem | hMem
    · exact h r hMem
    · rw [List.mem_singleton.mp hMem]
      exact sound_itemRow

theorem sound_normalizeRows {env : Env} {sheet : ParsedSheet} {mapping : MenuImportColumnMapping}
    (hMem : row ∈ normalizeRows env sheet mapping) : row.Sound := by
  have hFold : ∀ (lines : List RawLine) (sofar : RowsSoFar), (∀ r ∈ sofar.1 ++ sofar.2.toList, r.Sound) →
      ∀ r ∈ (lines.foldl (normalizeLine env.lower) sofar).1 ++ (lines.foldl (normalizeLine env.lower) sofar).2.toList, r.Sound := by
    intro lines
    induction lines with
    | nil => exact fun sofar h => h
    | cons line lines ih => exact fun sofar h => ih _ (sound_normalizeLine h)
  refine hFold _ ([], none) (fun r hr => ?_) row hMem
  cases hr

theorem forall₂_markDuplicates {seen : List (Text × Nat)} {l : List NormalizedImportRow} :
    List.Forall₂ (fun row m => { m with issues := row.issues } = row) l (markDuplicates lower seen l) := by
  induction l generalizing seen with
  | nil => exact .nil
  | cons row l ih =>
    unfold markDuplicates
    split
    · split
      · exact .cons rfl ih
      · exact .cons rfl ih
    · exact .cons rfl ih

theorem sound_markDuplicates {seen : List (Text × Nat)} {rows : List NormalizedImportRow} (h : ∀ r ∈ rows, r.Sound)
    (hMem : row ∈ markDuplicates lower seen rows) : row.Sound := by
  induction rows generalizing seen with
  | nil => cases hMem
  | cons r rows ih =>
    rw [List.forall_mem_cons] at h
    unfold markDuplicates at hMem
    split at hMem
    · split at hMem
      · rcases List.mem_cons.mp hMem with rfl | hMem
        · exact h.1
        · exact ih h.2 hMem
      · rcases List.mem_cons.mp hMem with rfl | hMem
        · exact sound_flag h.1.groups
        · exact ih h.2 hMem
    · rcases List.mem_cons.mp hMem with rfl | hMem
      · exact h.1
      · exact ih h.2 hMem

end Sound

/-! ## What a plan is known to hold -/

section Plan

variable {lower : Text → Text} {categories : List Category} {items : List MenuItem} {strategy : DuplicateStrategy}
  {marked : List NormalizedImportRow} {orders : SortOrders}

theorem forall₂_resolveRows : List.Forall₂
    (fun row r => ∃ sortOrder, r = resolveRow strategy sortOrder row (matchedItem? lower categories items row)) marked
    (resolveRows lower categories items strategy orders marked) := by
  induction marked generalizing orders with
  | nil => exact .nil
  | cons row rows ih => exact .cons ⟨_, rfl⟩ ih

structure MenuImportPreviewRow.Planned (matched : Option MenuItem) (row : NormalizedImportRow) (r : MenuImportPreviewRow) : Prop where
  same : r.row = row
  error : r.action = .error ↔ row.issues ≠ []
  create : r.action = .create ↔ row.issues = [] ∧ matched = none
  merge : r.action ≠ .merge
  item : r.action = .update → r.matchedItemId.isSome = true

theorem planned_resolveRow {sortOrder : Nat} {row : NormalizedImportRow} {matched : Option MenuItem} :
    (resolveRow strategy sortOrder row matched).Planned matched row := by
  cases matched with
  | none =>
    by_cases hIssues : row.issues = []
    · constructor <;> simp [resolveRow, hIssues]
    · constructor <;> simp [resolveRow, hIssues]
  | some item =>
    by_cases hIssues : row.issues = []
    · cases strategy <;> constructor <;> simp [resolveRow, hIssues]
    · constructor <;> simp [resolveRow, hIssues]

theorem planned_resolveRows : List.Forall₂ (fun row r => r.Planned (matchedItem? lower categories items row) row) marked
    (resolveRows lower categories items strategy orders marked) := by
  refine (forall₂_resolveRows).imp fun row r h => ?_
  obtain ⟨sortOrder, rfl⟩ := h
  exact planned_resolveRow

theorem length_eq_of_keys {α κ : Type} [DecidableEq κ] {key : α → κ} {l m : List α} (hl : (l.map key).Nodup) (hm : (m.map key).Nodup)
    (h : ∀ k, k ∈ l.map key ↔ k ∈ m.map key) : l.length = m.length := by
  rw [← List.length_map key, ((List.perm_ext_iff_of_nodup hl hm).mpr h).length_eq, List.length_map]

theorem existingCategory?_congr {n m : Text} (h : normalizeKey lower n = normalizeKey lower m) :
    existingCategory? lower categories n = existingCategory? lower categories m := by
  rw [existingCategory?, h, existingCategory?]

theorem existingCategory?_isSome {name : Text} :
    ((planImport lower categories items strategy marked).existingCategoryIdByName (normalizeKey lower name)).isSome =
      (existingCategory? lower categories name).isSome := by
  rw [Bool.eq_iff_iff, ResolvedImport.existingCategoryIdByName, Option.isSome_map, existingCategory?, mapGet_isSome, mapGet_isSome]
  constructor
  · rintro ⟨e, hMem, hKey⟩
    obtain ⟨c, hc, rfl⟩ := List.mem_map.mp hMem
    exact ⟨c, hc, hKey⟩
  · rintro ⟨c, hc, hKey⟩
    exact ⟨_, List.mem_map_of_mem hc, hKey⟩

end Plan

section Agreement

variable {lower : Text → Text} {categories : List Category} {items : List MenuItem} {strategy : DuplicateStrategy}
  {normalized : List NormalizedImportRow}

theorem exists_planned {r : MenuImportPreviewRow} (hMem : r ∈ (planImport lower categories items strategy normalized).rows) :
    ∃ row ∈ markDuplicates lower [] normalized, r.Planned (matchedItem? lower categories items row) row :=
  Traversals.exists_of_forall₂ (planned_resolveRows).flip hMem

theorem sound_planned (hSound : ∀ row ∈ normalized, row.Sound) {r : MenuImportPreviewRow}
    (hMem : r ∈ (planImport lower categories items strategy normalized).rows) :
    r.row.Sound ∧ (r.action ≠ .error → r.row.issues = []) := by
  obtain ⟨row, hRow, hPlanned⟩ := exists_planned hMem
  rw [hPlanned.same]
  refine ⟨sound_markDuplicates hSound hRow, fun hAction => ?_⟩
  by_contra hIssues
  exact hAction (hPlanned.error.mpr hIssues)

theorem mem_toCreate {resolved : ResolvedImport} {r : MenuImportPreviewRow} :
    r ∈ toCreate resolved ↔ r ∈ resolved.rows ∧ r.action = .create := by
  rw [toCreate, List.mem_filter, decide_eq_true_eq]

theorem ne_nil_of_hasText {t : Text} (h : hasText t = true) : t ≠ [] := by
  rintro rfl
  cases h

theorem newCategories_eq (hSound : ∀ row ∈ normalized, row.Sound) :
    (summarize (planImport lower categories items strategy normalized)).newCategories =
      (categoriesToCreate lower (planImport lower categories items strategy normalized)).length := by
  have hCount : (summarize (planImport lower categories items strategy normalized)).newCategories =
      (planImport lower categories items strategy normalized).categoriesToCreate.length := by
    simp only [summarize, planImport, List.countP_map, List.countP_filter]
    rw [List.countP_eq_length_filter]
    congr 1
    refine List.filter_congr fun name _ => ?_
    cases hExisting : (existingCategory? lower categories name).isSome <;> simp [hExisting]
  rw [hCount]
  refine @length_eq_of_keys _ _ _ (normalizeKey lower) _ _ (nodup_map_firstByKey.sublist (List.filter_sublist.map _))
    nodup_map_firstByKey fun k => ?_
  rw [categoriesToCreate, mem_map_firstByKey, List.mem_map, List.mem_map]
  constructor
  · rintro ⟨name, hName, rfl⟩
    obtain ⟨-, hNew⟩ := List.mem_filter.mp hName
    rw [Bool.and_eq_true, List.contains_iff_mem] at hNew
    obtain ⟨r, hr, hKey⟩ := List.mem_map.mp hNew.2
    refine ⟨⟨r.row.categoryName, List.mem_filter.mpr ⟨List.mem_map_of_mem hr, ?_⟩, hKey⟩, List.not_mem_nil⟩
    rw [hKey, ← Option.not_isSome, existingCategory?_isSome]
    exact hNew.1
  · rintro ⟨⟨name, hName, rfl⟩, -⟩
    obtain ⟨hMem, hNone⟩ := List.mem_filter.mp hName
    obtain ⟨r, hr, rfl⟩ := List.mem_map.mp hMem
    obtain ⟨hRow, hCreate⟩ := (mem_toCreate).mp hr
    obtain ⟨row, hMarked, hPlanned⟩ := exists_planned hRow
    obtain ⟨hRowSound, hIssues⟩ := sound_planned hSound hRow
    have hCategory := hRowSound.category (hIssues (by rw [hCreate]; exact MenuImportRowAction.noConfusion))
    have hListed : normalizeKey lower r.row.categoryName ∈
        (orderedCategoryNames lower (markDuplicates lower [] normalized)).map (normalizeKey lower) := by
      refine mem_map_firstByKey.mpr ⟨List.mem_map_of_mem (List.mem_filter.mpr ⟨?_, ?_⟩), List.not_mem_nil⟩
      · rw [hPlanned.same]
        exact List.mem_map_of_mem hMarked
      · exact decide_eq_true (ne_nil_of_hasText hCategory)
    obtain ⟨n, hn, hKey⟩ := List.mem_map.mp hListed
    refine ⟨n, List.mem_filter.mpr ⟨hn, ?_⟩, hKey⟩
    rw [Bool.and_eq_true, List.contains_iff_mem]
    constructor
    · rw [← Option.not_isSome, existingCategory?_isSome, ← existingCategory?_congr hKey] at hNone
      exact hNone
    · rw [hKey]
      exact List.mem_map_of_mem hr

theorem categoryIdByName_isSome {resolved : ResolvedImport} {fresh : Id} {r : MenuImportPreviewRow} (hMem : r ∈ toCreate resolved) :
    (categoryIdByName lower resolved fresh r.row.categoryName).isSome = true := by
  unfold categoryIdByName
  dsimp only
  split
  · rfl
  · rename_i hNotCreated
    by_contra hMissing
    have hKey : normalizeKey lower r.row.categoryName ∈ (categoriesToCreate lower resolved).map (normalizeKey lower) := by
      refine mem_map_firstByKey.mpr ⟨List.mem_map_of_mem (List.mem_filter.mpr ⟨List.mem_map_of_mem hMem, ?_⟩), List.not_mem_nil⟩
      rw [← Option.not_isSome, Bool.not_eq_true']
      exact Bool.eq_false_iff.mpr hMissing
    obtain ⟨n, hn, hSame⟩ := List.mem_map.mp hKey
    exact absurd hSame (by simpa using List.findIdx?_eq_none_iff.mp hNotCreated n hn)

theorem passesValidators_iff (hSound : ∀ row ∈ normalized, row.Sound) :
    passesValidators lower (planImport lower categories items strategy normalized) = true ↔
      ∀ r ∈ (planImport lower categories items strategy normalized).rows, r.action = .create →
        ∀ g ∈ r.row.modifierGroups, 1 ≤ g.maxSelect := by
  have hOk : ∀ r ∈ (planImport lower categories items strategy normalized).rows, r.action ≠ .error →
      hasText r.row.categoryName = true ∧ r.row.validItem = true := by
    intro r hMem hAction
    obtain ⟨hRowSound, hIssues⟩ := sound_planned hSound hMem
    exact ⟨hRowSound.category (hIssues hAction), hRowSound.item (hIssues hAction)⟩
  have hCategories : (categoriesToCreate lower (planImport lower categories items strategy normalized)).all hasText = true := by
    rw [List.all_eq_true]
    intro name hName
    obtain ⟨r, hr, rfl⟩ := List.mem_map.mp (List.mem_filter.mp (firstByKey_subset hName)).1
    obtain ⟨hMem, hCreate⟩ := (mem_toCreate).mp hr
    exact (hOk r hMem (by rw [hCreate]; exact MenuImportRowAction.noConfusion)).1
  have hUpdates : (toReplace (planImport lower categories items strategy normalized)).all updateValid = true := by
    rw [List.all_eq_true]
    intro r hr
    obtain ⟨hMem, hUpdate⟩ := List.mem_filter.mp hr
    rw [Bool.and_eq_true, decide_eq_true_eq] at hUpdate
    have hItem := (hOk r hMem (by rw [hUpdate.1]; exact MenuImportRowAction.noConfusion)).2
    rw [NormalizedImportRow.validItem, Bool.and_eq_true] at hItem
    rw [updateValid]
    cases hPrice : r.row.price with
    | none => rfl
    | some price =>
      rw [hPrice] at hItem
      exact hItem.2
  rw [passesValidators, hCategories, hUpdates, Bool.true_and, Bool.and_true, List.all_eq_true]
  constructor
  · intro h r hMem hCreate g hg
    have hRow := h r ((mem_toCreate).mpr ⟨hMem, hCreate⟩)
    rw [Bool.and_eq_true] at hRow
    have hGroup := List.all_eq_true.mp hRow.2 g hg
    rw [MenuImportModifierGroupPreview.valid, Bool.and_eq_true, Bool.and_eq_true, Bool.and_eq_true] at hGroup
    exact of_decide_eq_true hGroup.1.1.2
  · intro h r hr
    obtain ⟨hMem, hCreate⟩ := (mem_toCreate).mp hr
    rw [Bool.and_eq_true, Bool.and_eq_true]
    refine ⟨⟨(hOk r hMem (by rw [hCreate]; exact MenuImportRowAction.noConfusion)).2, categoryIdByName_isSome hr⟩, ?_⟩
    rw [List.all_eq_true]
    intro g hg
    obtain ⟨hName, hNonempty, hOptions⟩ := (sound_planned hSound hMem).1.groups g hg
    rw [MenuImportModifierGroupPreview.valid, hName, decide_eq_true (h r hMem hCreate g hg), Bool.true_and, Bool.true_and,
      Bool.and_eq_true, List.all_eq_true]
    refine ⟨?_, hOptions⟩
    cases hList : g.options with
    | nil => exact absurd hList hNonempty
    | cons o l => rfl

structure MenuImportSummary.Kept (summary : MenuImportSummary) (menu : Menu) (result : MenuImportReport × Menu) : Prop where
  created : result.1.created = summary.toCreate
  updated : result.1.updated = summary.toUpdate
  skipped : result.1.skipped = summary.toSkip
  errors : result.1.errors = summary.rowsWithErrors
  categoriesCreated : result.1.categoriesCreated = summary.newCategories
  groupsReported : result.1.modifierGroupsCreated = summary.modifierGroups
  optionsReported : result.1.modifierOptionsCreated = summary.modifierOptions
  groups : result.2.groups.length = menu.groups.length + summary.modifierGroups
  options : (result.2.groups.map (·.options.length)).sum = (menu.groups.map (·.options.length)).sum + summary.modifierOptions

theorem sum_filter_split {α : Type} {p q : α → Bool} {w : α → Nat} {l : List α} (h : ∀ a ∈ l, p a = true → q a = true) :
    ((l.filter q).map w).sum = ((l.filter p).map w).sum + ((l.filter fun a => q a && !p a).map w).sum := by
  induction l with
  | nil => rfl
  | cons a l ih =>
    rw [List.forall_mem_cons] at h
    have hTail := ih h.2
    cases hq : q a with
    | false =>
      have hp : p a = false := by
        cases hp : p a with
        | false => rfl
        | true => exact absurd (h.1 hp) (by rw [hq]; exact Bool.false_ne_true)
      simp only [List.filter_cons, hq, hp, Bool.false_and, Bool.false_eq_true, if_false]
      exact hTail
    | true =>
      cases hp : p a with
      | false =>
        simp only [List.filter_cons, hq, hp, Bool.not_false, Bool.and_true, Bool.false_eq_true, if_false, if_true, List.map_cons,
          List.sum_cons]
        omega
      | true =>
        simp only [List.filter_cons, hq, hp, Bool.not_true, Bool.and_false, Bool.false_eq_true, if_false, if_true, List.map_cons,
          List.sum_cons]
        omega

theorem map_mapIdx_of {α β γ : Type} {f : Nat → α → β} {g : β → γ} {h : α → γ} (hEach : ∀ i a, g (f i a) = h a) {l : List α} :
    (l.mapIdx f).map g = l.map h := by
  have hFst := List.zipIdx_map_fst 0 l
  rw [List.mapIdx_eq_zipIdx_map, List.map_map]
  nth_rewrite 2 [← hFst]
  rw [List.map_map]
  exact List.map_congr_left fun e _ => hEach e.2 e.1

theorem length_plannedGroups {resolved : ResolvedImport} {fresh : Id} :
    (plannedGroups lower resolved fresh).length = (importReport lower resolved).modifierGroupsCreated := by
  rw [plannedGroups, List.length_flatten]
  refine congrArg List.sum (map_mapIdx_of fun i r => ?_)
  exact List.length_map _

theorem options_plannedGroups {resolved : ResolvedImport} {fresh : Id} :
    ((plannedGroups lower resolved fresh).map (·.2.options.length)).sum = (importReport lower resolved).modifierOptionsCreated := by
  rw [plannedGroups, List.map_flatten, List.sum_flatten, List.map_map]
  refine congrArg List.sum (map_mapIdx_of fun i r => ?_)
  rw [Function.comp_apply, List.map_map]
  rfl

theorem options_newGroups {scope : ImportScope} {resolved : ResolvedImport} {fresh : Id} :
    (newGroups lower scope resolved fresh).map (·.options.length) = (plannedGroups lower resolved fresh).map (·.2.options.length) := by
  unfold newGroups
  refine map_mapIdx_of fun i g => ?_
  exact List.length_mapIdx

def Uncreated (r : MenuImportPreviewRow) : Bool := r.action ≠ .error && !decide (r.action = .create)

theorem counts_eq (hPlan : ∀ r ∈ (planImport lower categories items strategy normalized).rows,
      r.action ≠ .merge ∧ (r.action = .update → r.matchedItemId.isSome = true)) :
    (importReport lower (planImport lower categories items strategy normalized)).updated =
        (summarize (planImport lower categories items strategy normalized)).toUpdate ∧
      (importReport lower (planImport lower categories items strategy normalized)).errors =
        (summarize (planImport lower categories items strategy normalized)).rowsWithErrors := by
  generalize planImport lower categories items strategy normalized = plan at hPlan
  have hMerge : toMerge plan = [] := by
    refine List.filter_eq_nil_iff.mpr fun r hMem hMerge => ?_
    rw [Bool.and_eq_true, decide_eq_true_eq] at hMerge
    exact (hPlan r hMem).1 hMerge.1
  constructor
  · rw [importReport, hMerge, toReplace, summarize, ← List.countP_eq_length_filter]
    refine List.countP_congr fun r hMem => ?_
    rw [Bool.and_eq_true, decide_eq_true_eq]
    exact ⟨fun h => h.1, fun h => ⟨h, (hPlan r hMem).2 h⟩⟩
  · refine List.countP_congr fun r hMem => ?_
    have hNot := (hPlan r hMem).1
    cases hAction : r.action <;> simp_all

theorem kept_iff (hSound : ∀ row ∈ normalized, row.Sound) (menu : Menu) (scope : ImportScope) :
    (∃ result, writeResolvedImport lower menu scope (planImport lower categories items strategy normalized) = .ok result ∧
        (summarize (planImport lower categories items strategy normalized)).Kept menu result) ↔
      ∀ r ∈ (planImport lower categories items strategy normalized).rows,
        (r.action = .create → ∀ g ∈ r.row.modifierGroups, 1 ≤ g.maxSelect) ∧ (Uncreated r = true → r.row.modifierGroups = []) := by
  have hCounts := @counts_eq lower categories items strategy normalized fun r hMem => by
    obtain ⟨row, -, hPlanned⟩ := exists_planned hMem
    exact ⟨hPlanned.merge, hPlanned.item⟩
  have hCategories := @newCategories_eq lower categories items strategy normalized hSound
  have hValid := @passesValidators_iff lower categories items strategy normalized hSound
  generalize planImport lower categories items strategy normalized = plan at *
  have hSplit : ∀ w : MenuImportPreviewRow → Nat, ((plan.rows.filter (·.action ≠ .error)).map w).sum =
      ((toCreate plan).map w).sum + ((plan.rows.filter Uncreated).map w).sum := by
    intro w
    refine sum_filter_split fun r _ hCreate => ?_
    rw [decide_eq_true_eq] at hCreate
    rw [hCreate]
    rfl
  constructor
  · rintro ⟨result, hWrite, hKept⟩ r hMem
    unfold writeResolvedImport at hWrite
    split at hWrite
    · rename_i hPasses
      cases hWrite
      refine ⟨hValid.mp hPasses r hMem, fun hUncreated => ?_⟩
      have hGroups : ((toCreate plan).map (·.row.modifierGroups.length)).sum =
          ((plan.rows.filter (·.action ≠ .error)).map (·.row.modifierGroups.length)).sum := hKept.groupsReported
      rw [hSplit] at hGroups
      have hZero : ((plan.rows.filter Uncreated).map (·.row.modifierGroups.length)).sum = 0 := by omega
      have hLength := List.sum_eq_zero_iff.mp hZero r.row.modifierGroups.length
        (List.mem_map.mpr ⟨r, List.mem_filter.mpr ⟨hMem, hUncreated⟩, rfl⟩)
      exact List.length_eq_zero_iff.mp hLength
    · cases hWrite
  · intro h
    have hNone : ∀ w : MenuImportPreviewRow → Nat, (∀ r, r.row.modifierGroups = [] → w r = 0) →
        ((plan.rows.filter Uncreated).map w).sum = 0 := by
      intro w hw
      refine List.sum_eq_zero fun n hn => ?_
      obtain ⟨r, hr, rfl⟩ := List.mem_map.mp hn
      obtain ⟨hMem, hUncreated⟩ := List.mem_filter.mp hr
      exact hw r ((h r hMem).2 hUncreated)
    have hGroups : (importReport lower plan).modifierGroupsCreated = (summarize plan).modifierGroups := by
      refine ((hSplit _).trans ?_).symm
      rw [hNone _ fun r hr => by rw [hr]; rfl, Nat.add_zero]
      rfl
    have hOptions : (importReport lower plan).modifierOptionsCreated = (summarize plan).modifierOptions := by
      refine ((hSplit _).trans ?_).symm
      rw [hNone _ fun r hr => by rw [hr]; rfl, Nat.add_zero]
      rfl
    refine ⟨_, if_pos (hValid.mpr fun r hMem => (h r hMem).1), ?_⟩
    refine ⟨?_, hCounts.1, rfl, hCounts.2, hCategories.symm, hGroups, hOptions, ?_, ?_⟩
    · exact List.countP_eq_length_filter.symm
    · rw [← hGroups, ← @length_plannedGroups lower plan (freshId menu plan)]
      exact List.length_append.trans (congrArg _ List.length_mapIdx)
    · rw [← hOptions, ← @options_plannedGroups lower plan (freshId menu plan), ← @options_newGroups lower scope]
      exact (congrArg List.sum List.map_append).trans List.sum_append

end Agreement

/-! ## The condition -/

/-- Of the rows without issues, those that match an item carry no modifier
groups, and the others only groups that an option can be chosen of. -/
def keepsPromise (env : Env) (menu : Menu) (scope : ImportScope) (normalized : List NormalizedImportRow) : Bool :=
  let categories := loadExistingCategories menu scope
  let items := loadExistingItems menu scope (existingCategoryIds env.lower categories normalized)
  (markDuplicates env.lower [] normalized).all fun row =>
    row.issues ≠ [] ||
      if (matchedItem? env.lower categories items row).isSome then row.modifierGroups = []
      else row.modifierGroups.all fun g => 1 ≤ g.maxSelect

theorem keepsPromise_iff {env : Env} {menu : Menu} {scope : ImportScope} {strategy : DuplicateStrategy}
    {normalized : List NormalizedImportRow} :
    keepsPromise env menu scope normalized = true ↔
      ∀ r ∈ (resolveImport env menu normalized scope strategy).rows,
        (r.action = .create → ∀ g ∈ r.row.modifierGroups, 1 ≤ g.maxSelect) ∧ (Uncreated r = true → r.row.modifierGroups = []) := by
  rw [keepsPromise, resolveImport]
  generalize loadExistingItems menu scope _ = items
  generalize loadExistingCategories menu scope = categories
  have hPlanned : List.Forall₂ (fun row (r : MenuImportPreviewRow) => r.Planned (matchedItem? env.lower categories items row) row)
      (markDuplicates env.lower [] normalized) (planImport env.lower categories items strategy normalized).rows :=
    planned_resolveRows
  generalize (planImport env.lower categories items strategy normalized).rows = rows at hPlanned
  generalize markDuplicates env.lower [] normalized = marked at hPlanned
  induction hPlanned with
  | nil => simp
  | @cons row r _ _ hRow _ ih =>
    rw [List.all_cons, Bool.and_eq_true, List.forall_mem_cons]
    refine and_congr ?_ ih
    obtain rfl := hRow.same
    have hUncreated : Uncreated r = true ↔ ¬ r.row.issues ≠ [] ∧
        ¬ (r.row.issues = [] ∧ matchedItem? env.lower categories items r.row = none) := by
      rw [← hRow.error, ← hRow.create, Uncreated, Bool.and_eq_true, decide_eq_true_eq, Bool.not_eq_true', decide_eq_false_iff_not]
    rw [hUncreated, hRow.create]
    by_cases hIssues : r.row.issues = []
    · cases hMatched : matchedItem? env.lower categories items r.row with
      | none => simp [hIssues]
      | some item => simp [hIssues]
    · simp [hIssues]

/-! ## The commit after the preview -/

/-- The commit does what the preview promised exactly if no row that matches
an item carries modifier groups and no group to create has no choice. -/
theorem commit_keeps_preview_iff (env : Env) (menu : Menu) (fileName : Text) (buffer : Buffer) (kind : MenuImportFileKind)
    (mapping : MenuImportColumnMapping) (scope : ImportScope) (duplicateStrategy : DuplicateStrategy)
    {preview : MenuImportPreviewResponse}
    (hPreview : buildPreview env menu fileName buffer kind (some mapping) scope duplicateStrategy = .ok preview)
    (hMapped : preview.unmappedRequiredFields = []) :
    (∃ result, commitImport env menu buffer kind mapping scope duplicateStrategy = .ok result ∧ preview.summary.Kept menu result) ↔
      ∀ sheet, parseUploadedSheet env buffer kind = .ok sheet →
        keepsPromise env menu scope (normalizeRows env sheet (appliedMapping env sheet.headers mapping)) = true := by
  unfold buildPreview at hPreview
  obtain ⟨sheet, hSheet, hPreview⟩ := Traversals.bind_ok hPreview
  have hOnly : (∀ sheet', parseUploadedSheet env buffer kind = .ok sheet' →
      keepsPromise env menu scope (normalizeRows env sheet' (appliedMapping env sheet'.headers mapping)) = true) ↔
        keepsPromise env menu scope (normalizeRows env sheet (appliedMapping env sheet.headers mapping)) = true := by
    constructor
    · exact fun h => h sheet hSheet
    · intro h sheet' hSheet'
      rw [hSheet] at hSheet'
      cases hSheet'
      exact h
  rw [hOnly, commitImport, hSheet]
  dsimp only [Option.getD_some] at hPreview
  split at hPreview
  · rename_i hUnmapped
    cases hPreview
    exact absurd hMapped hUnmapped
  · rename_i hUnmapped
    cases hPreview
    rw [@keepsPromise_iff _ _ _ duplicateStrategy]
    refine Iff.trans ?_ (kept_iff (fun row hMem => sound_normalizeRows hMem) menu scope)
    refine exists_congr fun result => and_congr_left fun _ => ?_
    change (if missingRequiredFields (appliedMapping env sheet.headers mapping) ≠ [] then _ else _) = _ ↔ _
    rw [if_neg hUnmapped]
    rfl

namespace OneRow

/-- A file of one item with one option, of whose group at most `maxSelect` may
be chosen. -/
def env (maxSelect : String) : Env where
  lower := List.map Char.toLower
  readCsv := fun _ =>
    { data := [["Category", "Item", "Price", "Modifier Group", "Modifier Option", "Min", "Max"],
        ["Pizza", "Margherita", "9", "Size", "Small", "0", maxSelect]].map (List.map String.toList) }

def scope : ImportScope := { restaurantId := 1 }

def summary : MenuImportSummary := ⟨1, 1, 0, 0, 0, 1, 0, 1, 1⟩

def headers : List Text := [['C', 'a', 't', 'e', 'g', 'o', 'r', 'y'], ['I', 't', 'e', 'm'], ['P', 'r', 'i', 'c', 'e'],
  ['M', 'o', 'd', 'i', 'f', 'i', 'e', 'r', ' ', 'G', 'r', 'o', 'u', 'p'],
  ['M', 'o', 'd', 'i', 'f', 'i', 'e', 'r', ' ', 'O', 'p', 't', 'i', 'o', 'n'], ['M', 'i', 'n'], ['M', 'a', 'x']]

def aliases : List String := ["category", "item", "price", "modifiergroup", "modifieroption", "min", "max"]

def fields : List (Option MenuImportFieldKey) := [some .categoryName, some .itemName, some .price, some .modifierGroupName,
  some .modifierOptionName, some .modifierMinSelect, some .modifierMaxSelect]

def cells (maxSelect : Char) : List Text := [['P', 'i', 'z', 'z', 'a'], ['M', 'a', 'r', 'g', 'h', 'e', 'r', 'i', 't', 'a'], ['9'],
  ['S', 'i', 'z', 'e'], ['S', 'm', 'a', 'l', 'l'], ['0'], [maxSelect]]

def row (maxSelect : Nat) : NormalizedImportRow where
  rowNumber := 1
  categoryName := ['P', 'i', 'z', 'z', 'a']
  itemName := ['M', 'a', 'r', 'g', 'h', 'e', 'r', 'i', 't', 'a']
  price := some 9
  modifierGroups := [⟨['S', 'i', 'z', 'e'], 0, maxSelect, [⟨['S', 'm', 'a', 'l', 'l'], 0⟩]⟩]

variable {maxSelect : String} {n : Nat}

theorem fields_named : headers.map (fieldOf (env maxSelect)) = fields := by
  have hNames : headers.map (normalizeHeader (List.map Char.toLower)) = aliases.map String.toList := by
    simp only [aliases, List.map_cons, List.map_nil]
    repeat rw [String.toList_ofList]
    decide
  have hFields : aliases.map (fun name => fieldOfAlias name.toList) = fields := by
    simp only [fieldOfAlias_toList]
    decide
  calc
    headers.map (fieldOf (env maxSelect)) = (headers.map (normalizeHeader (List.map Char.toLower))).map fieldOfAlias :=
      List.map_map.symm
    _ = aliases.map fun name => fieldOfAlias name.toList := by
      rw [hNames, List.map_map]
      rfl
    _ = fields := hFields

theorem suggested : suggestColumnMapping (env maxSelect) headers = headers.zip fields := by
  rw [suggestColumnMapping_eq, List.map_prod_left_eq_zip, fields_named]
  decide

theorem sheet_read {c : Char} (h : maxSelect.toList = [c]) :
    parseUploadedSheet (env maxSelect) [] .csv = .ok ⟨headers, rowsFromMatrix headers [cells c], []⟩ := by
  have hRead : (env maxSelect).readCsv [] = { data := [headers, cells c] } := by
    simp only [env, List.map_cons, List.map_nil, h]
    repeat rw [String.toList_ofList]
    rfl
  unfold parseUploadedSheet parseCsv
  rw [hRead]
  rfl

theorem rows_read (h : maxSelect = "0" ∧ n = 0 ∨ maxSelect = "1" ∧ n = 1) :
    ∃ sheet, parseUploadedSheet (env maxSelect) [] .csv = .ok sheet ∧
      ¬ missingRequiredFields (appliedMapping (env maxSelect) sheet.headers []) ≠ [] ∧
      normalizeRows (env maxSelect) sheet (appliedMapping (env maxSelect) sheet.headers []) = [row n] := by
  have hApplied : appliedMapping (env maxSelect) headers [] = headers.zip fields := by
    unfold appliedMapping
    rw [suggested]
    rfl
  rcases h with ⟨rfl, rfl⟩ | ⟨rfl, rfl⟩
  all_goals
    refine ⟨_, sheet_read String.toList_ofList, ?_, ?_⟩
    · dsimp only
      rw [hApplied]
      decide
    · dsimp only
      rw [hApplied]
      decide +kernel

theorem previewed (h : maxSelect = "0" ∧ n = 0 ∨ maxSelect = "1" ∧ n = 1) :
    ∃ preview, buildPreview (env maxSelect) {} [] [] .csv (some []) scope .skip = .ok preview ∧ preview.unmappedRequiredFields = [] ∧
      preview.summary = summary := by
  obtain ⟨sheet, hSheet, hMapped, hRows⟩ := rows_read h
  rw [buildPreview, hSheet]
  refine ⟨_, if_neg hMapped, rfl, ?_⟩
  dsimp only [Option.getD_some]
  rw [hRows]
  rcases h with ⟨rfl, rfl⟩ | ⟨rfl, rfl⟩
  · decide
  · decide

end OneRow

theorem one_row_kept : ∃ result, commitImport (OneRow.env "1") {} [] .csv [] OneRow.scope .skip = .ok result ∧
    OneRow.summary.Kept {} result := by
  obtain ⟨preview, hPreview, hUnmapped, hSummary⟩ := OneRow.previewed (.inr ⟨rfl, rfl⟩)
  obtain ⟨sheet, hSheet, -, hRows⟩ := OneRow.rows_read (.inr ⟨rfl, rfl⟩)
  rw [← hSummary]
  refine (commit_keeps_preview_iff (OneRow.env "1") {} [] [] .csv [] OneRow.scope .skip hPreview hUnmapped).mpr fun sheet' hSheet' => ?_
  obtain rfl := Except.ok.inj (hSheet.symm.trans hSheet')
  rw [hRows]
  decide

/-- A group of which nothing may be chosen is previewed and then refused. -/
theorem preview_not_kept : ¬ ∀ (env : Env) (menu : Menu) (fileName : Text) (buffer : Buffer) (kind : MenuImportFileKind)
    (mapping : MenuImportColumnMapping) (scope : ImportScope) (duplicateStrategy : DuplicateStrategy) (preview : MenuImportPreviewResponse),
    buildPreview env menu fileName buffer kind (some mapping) scope duplicateStrategy = .ok preview →
    preview.unmappedRequiredFields = [] →
    ∃ result, commitImport env menu buffer kind mapping scope duplicateStrategy = .ok result ∧ preview.summary.Kept menu result := by
  intro h
  obtain ⟨preview, hPreview, hUnmapped, -⟩ := OneRow.previewed (.inl ⟨rfl, rfl⟩)
  obtain ⟨result, hCommit, -⟩ := h (OneRow.env "0") {} [] [] .csv [] OneRow.scope .skip preview hPreview hUnmapped
  obtain ⟨sheet, hSheet, hMapped, hRows⟩ := OneRow.rows_read (.inl ⟨rfl, rfl⟩)
  rw [commitImport_of_sheet hSheet hMapped, hRows] at hCommit
  have hRefused : (writeResolvedImport (OneRow.env "0").lower {} OneRow.scope
      (resolveImport (OneRow.env "0") {} [OneRow.row 0] OneRow.scope .skip)).toOption.isSome = false := by
    decide
  rw [hCommit] at hRefused
  cases hRefused

end RestaurantOs.MenuImport
