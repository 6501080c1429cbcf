import Mathlib.Data.List.Basic
import RestaurantOs.Data.Traversals
import RestaurantOs.Imports.NormalizeRows

/-!
# What becomes of a row

A row that names a category or an item becomes a row of the result. The
modifier data from there down to the next such row becomes options or issues
of it. A row in which only other fields are filled is passed over.
-/

namespace RestaurantOs.MenuImport

open Menus

def RawLine.names (line : RawLine) : Bool := line.cell .categoryName ≠ [] || line.cell .itemName ≠ []

def MenuImportRowIssue.Names (issue : MenuImportRowIssue) (rowNumber : Nat) : Prop :=
  ∃ rest, issue.message = s!"Row {rowNumber}: " ++ rest

def NormalizedImportRow.optionsIn (lower : Text → Text) (row : NormalizedImportRow) (key : Text) : List MenuImportModifierOptionPreview :=
  (row.modifierGroups.filter fun g => lower g.name = key).flatMap (·.options)

inductive Addition
  | joined (group : Text) (option : MenuImportModifierOptionPreview)
  | flagged (issue : MenuImportRowIssue)

namespace Addition

def optionIn (key : Text) : Addition → Option MenuImportModifierOptionPreview
  | joined group option => if group = key then some option else none
  | flagged _ => none

def issue? : Addition → Option MenuImportRowIssue
  | joined _ _ => none
  | flagged issue => some issue

end Addition

/-- The option of the line's name and price in the group of its name, or an
issue that names the line. -/
def RawLine.Adds (lower : Text → Text) (line : RawLine) : Addition → Prop
  | .joined group option =>
    group = lower (collapseWhitespace (line.cell .modifierGroupName)) ∧
      option.name = collapseWhitespace (line.cell .modifierOptionName) ∧ modifierPrice line = .ok option.priceAdjustment
  | .flagged issue => issue.field = none ∧ issue.Names line.rowNumber

structure NormalizedImportRow.Carries (lower : Text → Text) (row : NormalizedImportRow) (lines : List RawLine) : Prop where
  grouped : (row.modifierGroups.map fun g => lower g.name).Nodup
  additions : ∃ additions, List.Forall₂ (RawLine.Adds lower) lines additions ∧
    (∀ key, row.optionsIn lower key = additions.filterMap (Addition.optionIn key)) ∧
    (row.issues.filter fun i => i.field.isNone) = additions.filterMap Addition.issue?

/-! ## The modifier data of one line -/

section Append

variable {lower : Text → Text} {row : NormalizedImportRow} {line : RawLine} {lines : List RawLine}

theorem groupNamed_isSome {name : Text} : (row.groupNamed lower name).isSome = true ↔ lower name ∈ row.modifierGroups.map fun g => lower g.name := by
  rw [NormalizedImportRow.groupNamed, List.find?_isSome]
  simp only [decide_eq_true_eq, List.mem_map]

theorem groupNamed_key {name : Text} {group : MenuImportModifierGroupPreview} (h : row.groupNamed lower name = some group) :
    lower group.name = lower name := by
  have hKey := @List.find?_some _ (fun g : MenuImportModifierGroupPreview => decide (lower g.name = lower name)) _ _ h
  exact of_decide_eq_true hKey

theorem optionsIn_update {gs : List MenuImportModifierGroupPreview} {k key : Text} {option : MenuImportModifierOptionPreview}
    (hNodup : (gs.map fun g => lower g.name).Nodup) (hMem : k ∈ gs.map fun g => lower g.name) :
    ((gs.map fun g => if lower g.name = k then { g with options := g.options ++ [option] } else g).filter
        fun g => lower g.name = key).flatMap (·.options) =
      (gs.filter fun g => lower g.name = key).flatMap (·.options) ++ if k = key then [option] else [] := by
  induction gs with
  | nil => cases hMem
  | cons g gs ih =>
    rw [List.map_cons, List.nodup_cons] at hNodup
    obtain ⟨hFresh, hRest⟩ := hNodup
    rw [List.map_cons]
    by_cases hk : lower g.name = k
    · have hOthers : (gs.map fun g => if lower g.name = k then { g with options := g.options ++ [option] } else g) = gs := by
        refine (List.map_congr_left fun g' hMem' => if_neg fun hEq => ?_).trans (List.map_id' gs)
        exact hFresh (hk.trans hEq.symm ▸ List.mem_map_of_mem hMem')
      rw [hOthers, if_pos hk]
      by_cases hKey : k = key
      · have hNone : (gs.filter fun g => lower g.name = key) = [] := by
          rw [List.filter_eq_nil_iff]
          intro g' hMem' hEq
          exact hFresh ((hk.trans hKey).trans (of_decide_eq_true hEq).symm ▸ List.mem_map_of_mem hMem')
        simp [hk, hKey, hNone]
      · simp [hk, hKey]
    · have hIn : k ∈ gs.map fun g => lower g.name := (List.mem_cons.mp hMem).resolve_left fun hEq => hk hEq.symm
      rw [if_neg hk, List.filter_cons, List.filter_cons]
      split
      · rw [List.flatMap_cons, List.flatMap_cons, ih hRest hIn, List.append_assoc]
      · exact ih hRest hIn

theorem addOption_grouped {group : MenuImportModifierGroupPreview} {option : MenuImportModifierOptionPreview}
    (hNodup : (row.modifierGroups.map fun g => lower g.name).Nodup) :
    ((row.addOption lower group option).modifierGroups.map fun g => lower g.name).Nodup := by
  unfold NormalizedImportRow.addOption
  split
  · have hKeys : ∀ g : MenuImportModifierGroupPreview,
        lower (if lower g.name = lower group.name then { g with options := g.options ++ [option] } else g).name = lower g.name := by
      intro g
      split <;> rfl
    rw [List.map_map]
    exact (List.map_congr_left fun g _ => hKeys g) ▸ hNodup
  · rename_i hNone
    rw [groupNamed_isSome] at hNone
    rw [List.map_append, List.map_singleton, List.nodup_append]
    refine ⟨hNodup, List.nodup_singleton _, fun a ha b hb => ?_⟩
    rintro rfl
    rw [List.mem_singleton.mp hb] at ha
    exact hNone ha

theorem addOption_optionsIn {group : MenuImportModifierGroupPreview} {option : MenuImportModifierOptionPreview} {key : Text}
    (hNodup : (row.modifierGroups.map fun g => lower g.name).Nodup) :
    (row.addOption lower group option).optionsIn lower key = row.optionsIn lower key ++ if lower group.name = key then [option] else [] := by
  unfold NormalizedImportRow.addOption
  split
  · rename_i hSome
    exact optionsIn_update hNodup ((groupNamed_isSome).mp hSome)
  · unfold NormalizedImportRow.optionsIn
    rw [List.filter_append, List.flatMap_append]
    congr 1
    by_cases hKey : lower group.name = key
    · simp [hKey]
    · simp [hKey]

theorem Names.of_tail {n : Nat} {text : String} (tail : String) (h : text = ": " ++ tail) :
    MenuImportRowIssue.Names { message := toString "Row " ++ toString n ++ text } n :=
  ⟨tail, by rw [h, ← String.append_assoc]; rfl⟩

theorem Names.append {n : Nat} {message more : String} (h : MenuImportRowIssue.Names { message } n) :
    MenuImportRowIssue.Names { message := message ++ more } n := by
  obtain ⟨rest, hRest⟩ := h
  exact ⟨rest ++ more, by rw [← String.append_assoc, ← hRest]⟩

theorem modifierPrice_error {message : String} (h : modifierPrice line = .error message) :
    MenuImportRowIssue.Names { message } line.rowNumber := by
  unfold modifierPrice at h
  dsimp only at h
  split at h
  · cases h
  · split at h
    · cases h
    · cases h
      exact Names.append (Names.append (Names.of_tail "modifier price \"" rfl))

theorem selectLimits_error {groupName : Text} {message : String} (h : selectLimits line groupName = .error message) :
    MenuImportRowIssue.Names { message } line.rowNumber := by
  unfold selectLimits at h
  dsimp only at h
  split at h
  · split at h
    · cases h
      exact Names.append (Names.append (Names.of_tail "modifier group \"" rfl))
    · cases h
  · cases h
    exact Names.of_tail "modifier min/max select must be whole numbers." rfl

theorem Carries_flag {message : String} (h : row.Carries lower lines) (hNames : MenuImportRowIssue.Names { message } line.rowNumber) :
    (row.flag message none).Carries lower (lines ++ [line]) := by
  obtain ⟨hGrouped, additions, hAll, hOptions, hIssues⟩ := h
  have hAdds : line.Adds lower (.flagged { message }) := ⟨rfl, hNames⟩
  refine ⟨hGrouped, additions ++ [.flagged { message }], List.rel_append hAll (.cons hAdds .nil), fun key => ?_, ?_⟩
  · rw [List.filterMap_append]
    exact (hOptions key).trans (List.append_nil _).symm
  · rw [List.filterMap_append, ← hIssues]
    exact List.filter_append _ _

theorem Carries_addOption {group : MenuImportModifierGroupPreview} {option : MenuImportModifierOptionPreview} (h : row.Carries lower lines)
    (hAdds : line.Adds lower (.joined (lower group.name) option)) : (row.addOption lower group option).Carries lower (lines ++ [line]) := by
  obtain ⟨hGrouped, additions, hAll, hOptions, hIssues⟩ := h
  refine ⟨addOption_grouped hGrouped, additions ++ [.joined (lower group.name) option], List.rel_append hAll (.cons hAdds .nil), fun key => ?_, ?_⟩
  · rw [addOption_optionsIn hGrouped, hOptions key, List.filterMap_append]
    congr 1
    simp only [List.filterMap_cons, Addition.optionIn, List.filterMap_nil]
    split <;> rfl
  · rw [List.filterMap_append, ← hIssues]
    unfold NormalizedImportRow.addOption
    split <;> exact (List.append_nil _).symm

theorem Carries.append (h : row.Carries lower lines) : (appendModifierLine lower row line).Carries lower (lines ++ [line]) := by
  unfold appendModifierLine
  dsimp only
  split
  · exact Carries_flag h (Names.of_tail "a modifier row needs both a group name and an option name." rfl)
  · split
    · rename_i message hPrice
      exact Carries_flag h (modifierPrice_error hPrice)
    · rename_i priceAdjustment hPrice
      split
      · rename_i group hGroup
        split
        · exact Carries_flag h (Names.append (Names.append (Names.append (Names.append (Names.of_tail "duplicate modifier option \"" rfl)))))
        · exact Carries_addOption h ⟨groupNamed_key hGroup, rfl, hPrice⟩
      · split
        · rename_i message hLimits
          exact Carries_flag h (selectLimits_error hLimits)
        · exact Carries_addOption h ⟨rfl, rfl, hPrice⟩

structure Continues (row row' : NormalizedImportRow) : Prop where
  rowNumber_eq : row'.rowNumber = row.rowNumber
  categoryName_eq : row'.categoryName = row.categoryName
  itemName_eq : row'.itemName = row.itemName

theorem appendModifierLine_continues : Continues row (appendModifierLine lower row line) := by
  have hFlag (message : String) : Continues row (row.flag message none) := ⟨rfl, rfl, rfl⟩
  have hOption (group : MenuImportModifierGroupPreview) (option : MenuImportModifierOptionPreview) :
      Continues row (row.addOption lower group option) := by
    unfold NormalizedImportRow.addOption
    split <;> exact ⟨rfl, rfl, rfl⟩
  unfold appendModifierLine
  dsimp only
  split
  · exact hFlag _
  · split
    · exact hFlag _
    · split
      · split
        · exact hFlag _
        · exact hOption _ _
      · split
        · exact hFlag _
        · exact hOption _ _

theorem append_lines {below : List RawLine} (h : row.Carries lower lines) :
    (below.foldl (appendModifierLine lower) row).Carries lower (lines ++ below) ∧
      Continues row (below.foldl (appendModifierLine lower) row) := by
  induction below generalizing row lines with
  | nil => exact ⟨(List.append_nil lines).symm ▸ h, rfl, rfl, rfl⟩
  | cons line below ih =>
    obtain ⟨hCarries, hContinues⟩ := ih (Carries.append h)
    have hFirst := @appendModifierLine_continues lower row line
    rw [List.append_cons]
    exact ⟨hCarries, hContinues.rowNumber_eq.trans hFirst.rowNumber_eq, hContinues.categoryName_eq.trans hFirst.categoryName_eq,
      hContinues.itemName_eq.trans hFirst.itemName_eq⟩

end Append

/-! ## The row of an item -/

structure ReadsField (row row' : NormalizedImportRow) : Prop extends Continues row row' where
  groups_eq : row'.modifierGroups = row.modifierGroups
  issues_eq : (row'.issues.filter fun i => i.field.isNone) = row.issues.filter fun i => i.field.isNone

section Items

variable {lower : Text → Text} {row row' row'' : NormalizedImportRow} {line : RawLine}

theorem ReadsField.trans (h : ReadsField row row') (h' : ReadsField row' row'') : ReadsField row row'' where
  rowNumber_eq := h'.rowNumber_eq.trans h.rowNumber_eq
  categoryName_eq := h'.categoryName_eq.trans h.categoryName_eq
  itemName_eq := h'.itemName_eq.trans h.itemName_eq
  groups_eq := h'.groups_eq.trans h.groups_eq
  issues_eq := h'.issues_eq.trans h.issues_eq

theorem flag_reads {message : String} {field : MenuImportFieldKey} : ReadsField row (row.flag message (some field)) := by
  refine ⟨⟨rfl, rfl, rfl⟩, rfl, ?_⟩
  exact (List.filter_append _ _).trans (List.append_nil _)

theorem readPrice_reads : ReadsField row (row.readPrice line) := by
  unfold NormalizedImportRow.readPrice
  dsimp only
  split
  · exact flag_reads
  · split
    · exact ⟨⟨rfl, rfl, rfl⟩, rfl, rfl⟩
    · exact flag_reads

theorem readAvailability_reads : ReadsField row (row.readAvailability lower line) := by
  unfold NormalizedImportRow.readAvailability
  dsimp only
  split
  · exact ⟨⟨rfl, rfl, rfl⟩, rfl, rfl⟩
  · split
    · exact ⟨⟨rfl, rfl, rfl⟩, rfl, rfl⟩
    · exact flag_reads

theorem readSortOrder_reads : ReadsField row (row.readSortOrder line) := by
  unfold NormalizedImportRow.readSortOrder
  dsimp only
  split
  · exact ⟨⟨rfl, rfl, rfl⟩, rfl, rfl⟩
  · split
    · exact ⟨⟨rfl, rfl, rfl⟩, rfl, rfl⟩
    · exact flag_reads

theorem nameRow_issues : ((nameRow line).issues.filter fun i => i.field.isNone) = [] := by
  rw [List.filter_eq_nil_iff]
  intro issue hMem
  rcases List.mem_append.mp hMem with hMem | hMem
  · split at hMem
    · rw [List.mem_singleton.mp hMem]
      exact Bool.false_ne_true
    · cases hMem
  · split at hMem
    · rw [List.mem_singleton.mp hMem]
      exact Bool.false_ne_true
    · cases hMem

theorem itemRow_carries : (itemRow lower line).Carries lower ([line].filter RawLine.hasModifierData) ∧
    Continues (nameRow line) (itemRow lower line) := by
  have hReads : ReadsField (nameRow line) ((((nameRow line).readPrice line).readAvailability lower line).readSortOrder line) :=
    ((readPrice_reads).trans readAvailability_reads).trans readSortOrder_reads
  have hCarries : ((((nameRow line).readPrice line).readAvailability lower line).readSortOrder line).Carries lower [] := by
    refine ⟨?_, [], .nil, fun key => ?_, hReads.issues_eq.trans nameRow_issues⟩
    · rw [hReads.groups_eq]
      exact List.nodup_nil
    · rw [NormalizedImportRow.optionsIn, hReads.groups_eq]
      rfl
  unfold itemRow
  dsimp only
  split
  · rename_i hModifier
    have hAppended := @append_lines lower _ [] [line] hCarries
    rw [List.filter_cons_of_pos hModifier]
    exact ⟨hAppended.1, hAppended.2.rowNumber_eq.trans hReads.rowNumber_eq, hAppended.2.categoryName_eq.trans hReads.categoryName_eq,
      hAppended.2.itemName_eq.trans hReads.itemName_eq⟩
  · rename_i hPlain
    rw [List.filter_cons_of_neg hPlain]
    exact ⟨hCarries, hReads.toContinues⟩

end Items

/-! ## The rows of a sheet -/

def itemLines : List RawLine → List (RawLine × List RawLine)
  | [] => []
  | line :: below => if line.names then (line, below.takeWhile fun l => !l.names) :: itemLines below else itemLines below

def linesAbove (lines : List RawLine) : List RawLine := lines.takeWhile fun l => !l.names

def readItem (lower : Text → Text) (item : RawLine × List RawLine) : NormalizedImportRow :=
  (item.2.filter RawLine.hasModifierData).foldl (appendModifierLine lower) (itemRow lower item.1)

def orphanRow (line : RawLine) : NormalizedImportRow where
  rowNumber := line.rowNumber
  categoryName := []
  itemName := []
  issues := [{ message := "Modifier data with no preceding item — add a category and item name first, or remove this row." }]

def readLines (lower : Text → Text) (lines : List RawLine) : List NormalizedImportRow :=
  ((linesAbove lines).filter RawLine.hasModifierData).map orphanRow ++ (itemLines lines).map (readItem lower)

section Lines

variable {lower : Text → Text} {rows : List NormalizedImportRow} {current : NormalizedImportRow} {line : RawLine} {lines : List RawLine}

theorem names_eq_false : line.names = false ↔ line.cell .categoryName = [] ∧ line.cell .itemName = [] := by
  unfold RawLine.names
  rw [Bool.or_eq_false_iff, decide_eq_false_iff_not, decide_eq_false_iff_not, not_not, not_not]

theorem normalizeLine_item {sofar : RowsSoFar} (h : line.names = true) :
    normalizeLine lower sofar line = (sofar.1 ++ sofar.2.toList, some (itemRow lower line)) := by
  have hNot : ¬ (line.cell .categoryName = [] ∧ line.cell .itemName = []) := by
    rw [← names_eq_false, h]
    exact Bool.true_eq_false_eq_False
  unfold normalizeLine
  rw [if_neg hNot]

theorem normalizeLine_current (h : line.names = false) : normalizeLine lower (rows, some current) line =
    (rows, some (([line].filter RawLine.hasModifierData).foldl (appendModifierLine lower) current)) := by
  unfold normalizeLine
  rw [if_pos ((names_eq_false).mp h)]
  split
  · rename_i hModifier
    rw [List.filter_cons_of_pos hModifier]
    rfl
  · rename_i hPlain
    rw [List.filter_cons_of_neg hPlain]
    rfl

theorem normalizeLine_orphan (h : line.names = false) :
    normalizeLine lower (rows, none) line = (rows ++ ([line].filter RawLine.hasModifierData).map orphanRow, none) := by
  unfold normalizeLine
  rw [if_pos ((names_eq_false).mp h)]
  split
  · rename_i hModifier
    rw [List.filter_cons_of_pos hModifier]
    rfl
  · rename_i hPlain
    rw [List.filter_cons_of_neg hPlain]
    exact congrArg (·, none) (List.append_nil rows).symm

theorem linesAbove_cons : linesAbove (line :: lines) = if line.names then [] else line :: linesAbove lines := by
  unfold linesAbove
  rw [List.takeWhile_cons]
  cases line.names <;> rfl

theorem read_current :
    let sofar := lines.foldl (normalizeLine lower) (rows, some current)
    sofar.1 ++ sofar.2.toList =
      rows ++ ((linesAbove lines).filter RawLine.hasModifierData).foldl (appendModifierLine lower) current ::
        (itemLines lines).map (readItem lower) := by
  induction lines generalizing rows current with
  | nil => rfl
  | cons line lines ih =>
    rw [List.foldl_cons, linesAbove_cons, itemLines]
    cases hNames : line.names with
    | true =>
      rw [normalizeLine_item hNames]
      refine ih.trans ?_
      rw [List.append_assoc]
      rfl
    | false =>
      rw [normalizeLine_current hNames]
      refine ih.trans ?_
      rw [if_neg Bool.false_ne_true, if_neg Bool.false_ne_true, List.filter_cons]
      cases hModifier : line.hasModifierData with
      | true => rw [List.filter_cons_of_pos hModifier]; rfl
      | false => rw [List.filter_cons_of_neg (by rw [hModifier]; exact Bool.false_ne_true)]; rfl

theorem read_orphans :
    let sofar := lines.foldl (normalizeLine lower) (rows, none)
    sofar.1 ++ sofar.2.toList = rows ++ readLines lower lines := by
  induction lines generalizing rows with
  | nil => rfl
  | cons line lines ih =>
    rw [List.foldl_cons, readLines, linesAbove_cons, itemLines]
    cases hNames : line.names with
    | true =>
      rw [normalizeLine_item hNames]
      refine (read_current).trans ?_
      rw [List.append_assoc]
      rfl
    | false =>
      rw [normalizeLine_orphan hNames]
      refine ih.trans ?_
      rw [if_neg Bool.false_ne_true, if_neg Bool.false_ne_true, List.filter_cons, readLines, List.append_assoc]
      cases hModifier : line.hasModifierData with
      | true => rw [List.filter_cons_of_pos hModifier]; rfl
      | false => rw [List.filter_cons_of_neg (by rw [hModifier]; exact Bool.false_ne_true)]; rfl

end Lines

theorem normalizeRows_eq {env : Env} {sheet : ParsedSheet} {mapping : MenuImportColumnMapping} :
    normalizeRows env sheet mapping = readLines env.lower (extractLines sheet.rows (buildFieldToColumn mapping)) := by
  refine Eq.trans ?_ (List.nil_append _)
  exact read_orphans

/-! ## No row is lost -/

def NormalizedImportRow.isTitled (row : NormalizedImportRow) : Bool := row.categoryName ≠ [] || row.itemName ≠ []

def HasIssue (result : List NormalizedImportRow) (rowNumber : Nat) : Prop :=
  ∃ row ∈ result, row.rowNumber = rowNumber ∧ row.issues ≠ [] ∨ ∃ issue ∈ row.issues, issue.field = none ∧ issue.Names rowNumber

structure ItemRead (lower : Text → Text) (item : RawLine × List RawLine) (row : NormalizedImportRow) : Prop where
  rowNumber_eq : row.rowNumber = item.1.rowNumber
  categoryName_eq : row.categoryName = collapseWhitespace (item.1.cell .categoryName)
  itemName_eq : row.itemName = collapseWhitespace (item.1.cell .itemName)
  carries : row.Carries lower ((item.1 :: item.2).filter RawLine.hasModifierData)

namespace MenuImportColumnMapping

def line (mapping : MenuImportColumnMapping) (row : SheetRow × Nat) : RawLine where
  rowNumber := row.2 + 1
  values field := (buildFieldToColumn mapping field).map fun column => ((mapGet (·.1) row.1 column).map (·.2)).getD []

def Fills (mapping : MenuImportColumnMapping) (row : SheetRow) : Prop :=
  ∃ column ∈ mapping, column.2.isSome = true ∧ trim (((mapGet (·.1) row column.1).map (·.2)).getD []) ≠ []

end MenuImportColumnMapping

structure Accounted (lower : Text → Text) (mapping : MenuImportColumnMapping) (rows : List SheetRow) (result : List NormalizedImportRow) :
    Prop where
  items : List.Forall₂ (ItemRead lower) (itemLines (rows.zipIdx.map mapping.line)) (result.filter NormalizedImportRow.isTitled)
  orphans : ∀ line ∈ linesAbove (rows.zipIdx.map mapping.line), line.hasModifierData = true → HasIssue result line.rowNumber
  others : ∀ row ∈ rows.zipIdx, mapping.Fills row.1 → (mapping.line row).names = false → (mapping.line row).hasModifierData = false →
    HasIssue result (row.2 + 1)

section Accounting

variable {lower : Text → Text} {line : RawLine} {lines : List RawLine} {item : RawLine × List RawLine}

theorem takeWhile_repr (n : Nat) (rest : List Char) : (n.repr.toList ++ ':' :: rest).takeWhile (fun c => c ≠ ':') = n.repr.toList := by
  have hDigits : ∀ c ∈ n.repr.toList, decide (c ≠ ':') = true := by
    intro c hMem
    rw [Nat.toList_repr] at hMem
    have hDigit := Nat.isDigit_of_mem_toDigits (by decide) (by decide) hMem
    rw [decide_eq_true_eq]
    rintro rfl
    cases hDigit
  rw [List.takeWhile_append_of_pos hDigits, List.takeWhile_cons_of_neg (by decide), List.append_nil]

theorem rowNumber_inj {n m : Nat} {a b : String} (h : s!"Row {n}: " ++ a = s!"Row {m}: " ++ b) : n = m := by
  have hChars := congrArg String.toList h
  simp only [String.toList_append, List.append_assoc] at hChars
  have hDigits := congrArg (List.takeWhile fun c => c ≠ ':') (List.append_cancel_left hChars)
  have hRepr : n.repr.toList = m.repr.toList := (takeWhile_repr n _).symm.trans (hDigits.trans (takeWhile_repr m _))
  rw [Nat.toList_repr, Nat.toList_repr] at hRepr
  simpa using congrArg (fun digits => Nat.ofDigitChars 10 digits 0) hRepr

theorem Names.unique {issue : MenuImportRowIssue} {n m : Nat} (h : issue.Names n) (h' : issue.Names m) : n = m := by
  obtain ⟨a, ha⟩ := h
  obtain ⟨b, hb⟩ := h'
  exact rowNumber_inj (ha.symm.trans hb)

theorem mem_itemLines (h : item ∈ itemLines lines) :
    item.1 ∈ lines ∧ item.1.names = true ∧ ∀ l ∈ item.2, l ∈ lines ∧ l.names = false := by
  induction lines with
  | nil => cases h
  | cons line lines ih =>
    have hRest (hMem : item ∈ itemLines lines) :
        item.1 ∈ line :: lines ∧ item.1.names = true ∧ ∀ l ∈ item.2, l ∈ line :: lines ∧ l.names = false := by
      obtain ⟨hLine, hNames, hMore⟩ := ih hMem
      exact ⟨List.mem_cons_of_mem _ hLine, hNames, fun l hl => ⟨List.mem_cons_of_mem _ (hMore l hl).1, (hMore l hl).2⟩⟩
    rw [itemLines] at h
    split at h
    · rename_i hNames
      rcases List.mem_cons.mp h with rfl | hMem
      · refine ⟨List.mem_cons_self, hNames, fun l hl => ⟨List.mem_cons_of_mem _ (List.takeWhile_subset _ hl), ?_⟩⟩
        have hBelow := List.mem_takeWhile_imp hl
        rw [Bool.not_eq_true'] at hBelow
        exact hBelow
      · exact hRest hMem
    · exact hRest h

theorem readItem_read : ItemRead lower item (readItem lower item) := by
  obtain ⟨hCarries, hName⟩ := @itemRow_carries lower item.1
  obtain ⟨hAll, hContinues⟩ := @append_lines lower _ _ (item.2.filter RawLine.hasModifierData) hCarries
  refine ⟨hContinues.rowNumber_eq.trans hName.rowNumber_eq, hContinues.categoryName_eq.trans hName.categoryName_eq,
    hContinues.itemName_eq.trans hName.itemName_eq, ?_⟩
  rw [← List.singleton_append, List.filter_append]
  exact hAll

theorem readItem_titled (hNames : item.1.names = true) : (readItem lower item).isTitled = true := by
  have hRead := @readItem_read lower item
  unfold NormalizedImportRow.isTitled
  rw [Bool.or_eq_true, decide_eq_true_iff, decide_eq_true_iff, hRead.categoryName_eq, hRead.itemName_eq, ne_eq, ne_eq,
    collapseWhitespace_eq_nil, collapseWhitespace_eq_nil, RawLine.cell, RawLine.cell, trim_trim, trim_trim]
  unfold RawLine.names at hNames
  rw [Bool.or_eq_true, decide_eq_true_iff, decide_eq_true_iff] at hNames
  exact hNames

theorem titled_readLines : (readLines lower lines).filter NormalizedImportRow.isTitled = (itemLines lines).map (readItem lower) := by
  rw [readLines, List.filter_append]
  have hOrphans : ((((linesAbove lines).filter RawLine.hasModifierData).map orphanRow).filter NormalizedImportRow.isTitled) = [] := by
    rw [List.filter_eq_nil_iff]
    intro row hMem
    obtain ⟨line, -, rfl⟩ := List.mem_map.mp hMem
    exact Bool.false_ne_true
  have hItems : ((itemLines lines).map (readItem lower)).filter NormalizedImportRow.isTitled = (itemLines lines).map (readItem lower) := by
    rw [List.filter_eq_self]
    intro row hMem
    obtain ⟨item, hItem, rfl⟩ := List.mem_map.mp hMem
    exact readItem_titled (mem_itemLines hItem).2.1
  rw [hOrphans, hItems, List.nil_append]

theorem items_read : List.Forall₂ (ItemRead lower) (itemLines lines) ((itemLines lines).map (readItem lower)) :=
  List.forall₂_map_right_iff.mpr (List.forall₂_same.mpr fun _ _ => readItem_read)

theorem carries_issue {row : NormalizedImportRow} {issue : MenuImportRowIssue} (h : row.Carries lower lines) (hMem : issue ∈ row.issues)
    (hField : issue.field = none) : ∃ line ∈ lines, issue.Names line.rowNumber := by
  obtain ⟨additions, hAdds, -, hIssues⟩ := h.additions
  have hIn : issue ∈ additions.filterMap Addition.issue? := hIssues ▸ List.mem_filter.mpr ⟨hMem, Option.isNone_iff_eq_none.mpr hField⟩
  obtain ⟨addition, hAddition, hIssue⟩ := List.mem_filterMap.mp hIn
  obtain ⟨line, hLine, hAdd⟩ := Traversals.exists_of_forall₂ hAdds.flip hAddition
  cases addition with
  | joined group option => cases hIssue
  | flagged found =>
    cases hIssue
    exact ⟨line, hLine, hAdd.2⟩

theorem orphan_issue (issue : MenuImportRowIssue) (hMem : issue ∈ (orphanRow line).issues) (n : Nat) : ¬ issue.Names n := by
  rintro ⟨rest, hRest⟩
  rw [List.mem_singleton.mp hMem] at hRest
  have hChars := congrArg (fun message => message.toList.head?) hRest
  simp only [String.toList_append, List.append_assoc] at hChars
  rw [String.toList_ofList, show (toString "Row ").toList = ['R', 'o', 'w', ' '] from String.toList_ofList] at hChars
  cases hChars

theorem no_issue (hInj : ∀ l ∈ lines, l.rowNumber = line.rowNumber → l = line) (hNames : line.names = false)
    (hModifier : line.hasModifierData = false) : ¬ HasIssue (readLines lower lines) line.rowNumber := by
  have hOther {l : RawLine} (hMem : l ∈ lines) (hData : l.names = true ∨ l.hasModifierData = true) : l.rowNumber ≠ line.rowNumber := by
    intro hEq
    rw [hInj l hMem hEq, hNames, hModifier] at hData
    simp at hData
  rintro ⟨row, hRow, h⟩
  rcases List.mem_append.mp hRow with hOrphan | hItem
  · obtain ⟨l, hl, rfl⟩ := List.mem_map.mp hOrphan
    obtain ⟨hAbove, hData⟩ := List.mem_filter.mp hl
    rcases h with ⟨hNumber, -⟩ | ⟨issue, hIssue, -, hIssueNames⟩
    · exact hOther (List.takeWhile_subset _ hAbove) (.inr hData) hNumber
    · exact orphan_issue issue hIssue _ hIssueNames
  · obtain ⟨item, hMem, rfl⟩ := List.mem_map.mp hItem
    obtain ⟨hLine, hItemNames, hMore⟩ := mem_itemLines hMem
    have hRead := @readItem_read lower item
    rcases h with ⟨hNumber, -⟩ | ⟨issue, hIssue, hField, hIssueNames⟩
    · exact hOther hLine (.inl hItemNames) (hRead.rowNumber_eq.symm.trans hNumber)
    · obtain ⟨l, hl, hNamed⟩ := carries_issue hRead.carries hIssue hField
      obtain ⟨hIn, hData⟩ := List.mem_filter.mp hl
      have hInLines : l ∈ lines := by
        rcases List.mem_cons.mp hIn with rfl | hBelow
        · exact hLine
        · exact (hMore l hBelow).1
      exact hOther hInLines (.inr hData) (Names.unique hNamed hIssueNames)

end Accounting

section Sheet

variable {mapping : MenuImportColumnMapping} {rows : List SheetRow}

theorem line_inj {row : SheetRow × Nat} (hRow : row ∈ rows.zipIdx) :
    ∀ l ∈ rows.zipIdx.map mapping.line, l.rowNumber = (mapping.line row).rowNumber → l = mapping.line row := by
  intro l hl hEq
  obtain ⟨row', hRow', rfl⟩ := List.mem_map.mp hl
  have hIndex : row'.2 = row.2 := Nat.succ.inj hEq
  have hAt := List.mem_zipIdx_iff_getElem?.mp hRow
  have hAt' := List.mem_zipIdx_iff_getElem?.mp hRow'
  rw [hIndex, hAt] at hAt'
  rw [Prod.ext (Option.some.inj hAt').symm hIndex]

end Sheet

/-- Every row with a filled column is accounted for just if each of them names
a category or an item or has modifier data. -/
theorem rows_accounted_iff (env : Env) (sheet : ParsedSheet) (mapping : MenuImportColumnMapping) :
    Accounted env.lower mapping sheet.rows (normalizeRows env sheet mapping) ↔
      ∀ row ∈ sheet.rows.zipIdx, mapping.Fills row.1 → (mapping.line row).names = true ∨ (mapping.line row).hasModifierData = true := by
  have hResult : normalizeRows env sheet mapping = readLines env.lower (sheet.rows.zipIdx.map mapping.line) := normalizeRows_eq
  rw [hResult]
  constructor
  · intro h row hRow hFills
    by_contra hNeither
    rw [not_or, Bool.not_eq_true, Bool.not_eq_true] at hNeither
    exact no_issue (line_inj hRow) hNeither.1 hNeither.2 (h.others row hRow hFills hNeither.1 hNeither.2)
  · intro hKnown
    refine ⟨?_, fun line hLine hModifier => ?_, fun row hRow hFills hNames hModifier => ?_⟩
    · rw [titled_readLines]
      exact items_read
    · refine ⟨orphanRow line, List.mem_append_left _ (List.mem_map_of_mem (List.mem_filter.mpr ⟨hLine, hModifier⟩)), .inl ⟨rfl, ?_⟩⟩
      exact List.cons_ne_nil _ _
    · rcases hKnown row hRow hFills with hNamed | hData
      · cases hNames.symm.trans hNamed
      · cases hModifier.symm.trans hData

namespace PriceOnly

def mapping : MenuImportColumnMapping :=
  [("Category".toList, some .categoryName), ("Item".toList, some .itemName), ("Price".toList, some .price)]

def sheet : ParsedSheet where
  headers := ["Category", "Item", "Price"].map String.toList
  rows := [
    [("Category".toList, "Mains".toList), ("Item".toList, "Burger".toList), ("Price".toList, "9.50".toList)],
    [("Category".toList, []), ("Item".toList, []), ("Price".toList, "4.00".toList)]]
  extraSheetsIgnored := []

end PriceOnly

/-- The price of the second row is lost without an issue. -/
theorem price_only_lost : ¬ ∀ (env : Env) (sheet : ParsedSheet) (mapping : MenuImportColumnMapping), missingRequiredFields mapping = [] →
    Accounted env.lower mapping sheet.rows (normalizeRows env sheet mapping) := by
  intro hClaim
  have hAccounted := hClaim { lower := id } PriceOnly.sheet PriceOnly.mapping (by decide)
  have hRow : (PriceOnly.sheet.rows[1], 1) ∈ PriceOnly.sheet.rows.zipIdx := by decide
  have hNames : (PriceOnly.mapping.line (PriceOnly.sheet.rows[1], 1)).names = false := by decide +kernel
  have hModifier : (PriceOnly.mapping.line (PriceOnly.sheet.rows[1], 1)).hasModifierData = false := by decide +kernel
  have hIssue := hAccounted.others _ hRow ⟨("Price".toList, some .price), by decide, rfl, by decide⟩ hNames hModifier
  rw [normalizeRows_eq] at hIssue
  exact no_issue (line_inj hRow) hNames hModifier hIssue

end RestaurantOs.MenuImport
