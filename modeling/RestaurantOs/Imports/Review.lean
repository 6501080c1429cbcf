import RestaurantOs.Async.Sequential
import RestaurantOs.Imports.Overlaps

/-!
# Publishing a reviewed import

The reviewer edits the draft rows of a job and publishes it. The rows are written
with the actions that their current values and the reviewer's choices call for,
where no stored issue is out of date and every choice fits the menu.
-/

namespace RestaurantOs.MenuImport

open Async Prog Menus

/-! ## What the review calls for -/

def nameKeys (lower : Text → Text) (row : DraftRow) : Text × Text := (normalizeKey lower row.categoryName, normalizeKey lower row.itemName)

def unusableRows (lower : Text → Text) : List (Text × Text) → List DraftRow → List Bool
  | _, [] => []
  | earlier, row :: rows =>
    (row.categoryName = [] || row.itemName = [] || row.price.isNone || earlier.contains (nameKeys lower row)) ::
      unusableRows lower (nameKeys lower row :: earlier) rows

def DefaultStrategy.action : DefaultStrategy → MenuImportRowAction
  | skip => .skip
  | update => .update
  | merge => .merge

def intendedAction (defaultStrategy : DefaultStrategy) (row : DraftRow) (unusable matched : Bool) : MenuImportRowAction :=
  if unusable then .error else row.userAction.getD (if matched then defaultStrategy.action else .create)

def plannedAction (defaultStrategy : DefaultStrategy) (row : DraftRow) (flagged matched : Bool) : MenuImportRowAction :=
  if flagged then .error else row.userAction.getD (if matched then if defaultStrategy = .update then .update else .skip else .create)

section Publication

variable (lower : Text → Text) (menu : Menu) (scope : ImportScope) (defaultStrategy : DefaultStrategy) (rows : List DraftRow)

def markedRows : List NormalizedImportRow := markDuplicates lower [] (rows.map (·.normalized))

def matchedInMenu (row : NormalizedImportRow) : Option MenuItem :=
  matchedItem? lower (loadExistingCategories menu scope)
    (loadExistingItems menu scope (existingCategoryIds lower (loadExistingCategories menu scope) (rows.map (·.normalized)))) row

def publishedPlan : ResolvedImport :=
  reviewPlan defaultStrategy rows
    (resolveImport { lower } menu (rows.map (·.normalized)) scope defaultStrategy.planned)

def reviewed : List (DraftRow × Bool × NormalizedImportRow) := rows.zip ((unusableRows lower [] rows).zip (markedRows lower rows))

def intendedActions : List MenuImportRowAction :=
  (reviewed lower rows).map fun e => intendedAction defaultStrategy e.1 e.2.1 (matchedInMenu lower menu scope rows e.2.2).isSome

def writtenActions : List MenuImportRowAction := (publishedPlan lower menu scope defaultStrategy rows).rows.map (·.action)

end Publication

structure DraftRow.Accepted (row : DraftRow) : Prop where
  category : hasText row.categoryName = true
  item : hasText row.itemName = true
  price : ∀ price, row.price = some price → 0 ≤ price
  userAction : row.userAction ≠ some .error
  valid : row.valid = true

structure RowsAccepted (rows : List DraftRow) : Prop where
  each : ∀ row ∈ rows, row.Accepted
  numbers : (rows.map (·.rowNumber)).Nodup

/-! ## The written actions -/

section Written

variable {lower : Text → Text} {menu : Menu} {scope : ImportScope} {defaultStrategy : DefaultStrategy} {rows : List DraftRow}

theorem length_markDuplicates {seen : List (Text × Nat)} {l : List NormalizedImportRow} :
    (markDuplicates lower seen l).length = l.length := by
  induction l generalizing seen with
  | nil => rfl
  | cons row l ih =>
    unfold markDuplicates
    split
    · split
      · rw [List.length_cons, List.length_cons, ih]
      · rw [List.length_cons, List.length_cons, ih]
    · rw [List.length_cons, List.length_cons, ih]

theorem length_unusableRows {earlier : List (Text × Text)} : (unusableRows lower earlier rows).length = rows.length := by
  induction rows generalizing earlier with
  | nil => rfl
  | cons row rows ih =>
    unfold unusableRows
    rw [List.length_cons, List.length_cons, ih]

theorem userAction_of_number (hRows : RowsAccepted rows) {row : DraftRow} (hMem : row ∈ rows) :
    (mapGet (·.rowNumber) rows row.rowNumber).bind (·.userAction) = row.userAction := by
  have hGet : mapGet (·.rowNumber) rows row.rowNumber = some row := by
    refine mapGet_of_unique hMem rfl fun other hOther hKey => ?_
    exact List.inj_on_of_nodup_map hRows.numbers hOther hMem hKey
  rw [hGet]
  rfl

theorem reviewRow_of_resolveRow {row : DraftRow} (hRows : RowsAccepted rows) (hMem : row ∈ rows) {m : NormalizedImportRow}
    (hNumber : m.rowNumber = row.rowNumber) {matched : Option MenuItem} {sortOrder : Nat} :
    (reviewRow defaultStrategy rows (resolveRow defaultStrategy.planned sortOrder m matched)).action =
        plannedAction defaultStrategy row (m.issues ≠ []) matched.isSome ∧
      (reviewRow defaultStrategy rows (resolveRow defaultStrategy.planned sortOrder m matched)).row = m ∧
      (reviewRow defaultStrategy rows (resolveRow defaultStrategy.planned sortOrder m matched)).matchedItemId =
        if m.issues = [] then matched.map (·.id) else none := by
  have hAction := userAction_of_number hRows hMem
  rw [← hNumber] at hAction
  by_cases hIssues : m.issues = []
  · cases matched with
    | none =>
      cases hUser : row.userAction <;> simp [reviewRow, resolveRow, plannedAction, hIssues, hAction, hUser]
    | some item =>
      cases hUser : row.userAction <;> cases defaultStrategy <;>
        simp [reviewRow, resolveRow, plannedAction, hIssues, hAction, hUser, DefaultStrategy.planned]
  · cases matched with
    | none => simp [reviewRow, resolveRow, plannedAction, hIssues]
    | some item => simp [reviewRow, resolveRow, plannedAction, hIssues]

theorem forall₂_zip {α β γ δ : Type} {P : α → Prop} {R : α → β → Prop} {S : β → γ → Prop} {l : List α} {m : List β} {n : List γ}
    {us : List δ} (hR : List.Forall₂ R l m) (hS : List.Forall₂ S m n) (hLength : us.length = l.length) (hP : ∀ a ∈ l, P a) :
    List.Forall₂ (fun (e : α × δ × β) c => P e.1 ∧ R e.1 e.2.2 ∧ S e.2.2 c) (l.zip (us.zip m)) n := by
  induction hR generalizing n us with
  | nil =>
    cases hS
    exact .nil
  | @cons a b l m hHead _ ih =>
    cases hS with
    | cons hFirst hRest =>
      cases us with
      | nil => cases hLength
      | cons u us =>
        rw [List.forall_mem_cons] at hP
        exact .cons ⟨hP.1, hHead, hFirst⟩ (ih hRest (Nat.succ.inj hLength) hP.2)

structure Published (lower : Text → Text) (menu : Menu) (scope : ImportScope) (defaultStrategy : DefaultStrategy) (rows : List DraftRow)
    (e : DraftRow × Bool × NormalizedImportRow) (r : MenuImportPreviewRow) : Prop where
  mem : e.1 ∈ rows
  same : { e.2.2 with issues := e.1.issues } = e.1.normalized
  row : r.row = e.2.2
  action : r.action = plannedAction defaultStrategy e.1 (e.2.2.issues ≠ []) (matchedInMenu lower menu scope rows e.2.2).isSome
  item : r.matchedItemId = if e.2.2.issues = [] then (matchedInMenu lower menu scope rows e.2.2).map (·.id) else none

theorem published_plan (hRows : RowsAccepted rows) :
    List.Forall₂ (Published lower menu scope defaultStrategy rows) (reviewed lower rows)
      (publishedPlan lower menu scope defaultStrategy rows).rows := by
  have hMarked : List.Forall₂ (fun (row : DraftRow) (m : NormalizedImportRow) => { m with issues := row.issues } = row.normalized) rows
      (markedRows lower rows) := by
    have hMap := @forall₂_markDuplicates lower [] (rows.map (·.normalized))
    rw [List.forall₂_map_left_iff] at hMap
    exact hMap
  have hPlan := @forall₂_resolveRows lower (loadExistingCategories menu scope)
    (loadExistingItems menu scope (existingCategoryIds lower (loadExistingCategories menu scope) (rows.map (·.normalized))))
    defaultStrategy.planned (markedRows lower rows) (nextSortOrders lower (markedRows lower rows))
  have hZip := forall₂_zip hMarked hPlan (@length_unusableRows lower rows []) fun row hMem => hMem
  unfold publishedPlan reviewPlan
  rw [List.forall₂_map_right_iff]
  refine hZip.imp ?_
  rintro ⟨row, unusable, m⟩ r ⟨hMem, hSame, sortOrder, rfl⟩
  have hNumber : m.rowNumber = row.rowNumber := congrArg NormalizedImportRow.rowNumber hSame
  obtain ⟨hAction, hRow, hItem⟩ := reviewRow_of_resolveRow hRows hMem hNumber
  exact ⟨hMem, hSame, hRow, hAction, hItem⟩

theorem map_eq_of_forall₂ {α β γ : Type} {R : α → β → Prop} {f : α → γ} {g : β → γ} {l : List α} {m : List β} (h : List.Forall₂ R l m)
    (hEach : ∀ a b, R a b → g b = f a) : m.map g = l.map f := by
  induction h with
  | nil => rfl
  | cons hHead _ ih => rw [List.map_cons, List.map_cons, hEach _ _ hHead, ih]

theorem writtenActions_eq (hRows : RowsAccepted rows) : writtenActions lower menu scope defaultStrategy rows =
    (reviewed lower rows).map fun e =>
      plannedAction defaultStrategy e.1 (e.2.2.issues ≠ []) (matchedInMenu lower menu scope rows e.2.2).isSome :=
  map_eq_of_forall₂ (published_plan hRows) fun _ _ h => h.action

theorem plannedAction_eq_intendedAction {row : DraftRow} (hAction : row.userAction ≠ some .error) {flagged unusable matched : Bool} :
    plannedAction defaultStrategy row flagged matched = intendedAction defaultStrategy row unusable matched ↔
      (flagged = unusable) ∧ (flagged = false → row.userAction = none → matched = true → defaultStrategy ≠ .merge) := by
  unfold plannedAction intendedAction
  cases hUser : row.userAction with
  | none => cases flagged <;> cases unusable <;> cases matched <;> cases defaultStrategy <;> simp [DefaultStrategy.action]
  | some userAction =>
    rw [hUser] at hAction
    cases userAction with
    | error => exact absurd rfl hAction
    | _ => cases flagged <;> cases unusable <;> simp

/-- No stored issue is out of date, every choice fits the menu, and what is to
be created can be. -/
structure Reviewable (lower : Text → Text) (menu : Menu) (scope : ImportScope) (defaultStrategy : DefaultStrategy) (rows : List DraftRow) :
    Prop where
  issues : ∀ e ∈ reviewed lower rows, e.2.2.issues ≠ [] ↔ e.2.1 = true
  matched : ∀ e ∈ reviewed lower rows, e.2.2.issues = [] → e.1.userAction = some .update ∨ e.1.userAction = some .merge →
    (matchedInMenu lower menu scope rows e.2.2).isSome = true
  default : ∀ e ∈ reviewed lower rows, e.2.2.issues = [] → e.1.userAction = none →
    (matchedInMenu lower menu scope rows e.2.2).isSome = true → defaultStrategy ≠ .merge
  groups : ∀ e ∈ reviewed lower rows, e.2.2.issues = [] →
    e.1.userAction = some .create ∨ (e.1.userAction = none ∧ matchedInMenu lower menu scope rows e.2.2 = none) →
      e.1.modifierGroups.all (·.valid) = true

theorem writtenActions_eq_intendedActions (hRows : RowsAccepted rows) :
    writtenActions lower menu scope defaultStrategy rows = intendedActions lower menu scope defaultStrategy rows ↔
      (∀ e ∈ reviewed lower rows, e.2.2.issues ≠ [] ↔ e.2.1 = true) ∧
        ∀ e ∈ reviewed lower rows, e.2.2.issues = [] → e.1.userAction = none →
          (matchedInMenu lower menu scope rows e.2.2).isSome = true → defaultStrategy ≠ .merge := by
  rw [writtenActions_eq hRows, intendedActions, List.map_inj_left, ← forall₂_and]
  refine forall₂_congr fun e hMem => ?_
  have hAction := (hRows.each e.1 (List.of_mem_zip hMem).1).userAction
  rw [plannedAction_eq_intendedAction hAction, decide_eq_false_iff_not, not_not]
  refine and_congr ?_ Iff.rfl
  rw [Bool.eq_iff_iff, decide_eq_true_eq]

def stranded (r : MenuImportPreviewRow) : Bool := (r.action = .update || r.action = .merge) && r.matchedItemId.isNone

theorem report_sum {resolved : ResolvedImport} :
    (importReport lower resolved).created + (importReport lower resolved).updated + (importReport lower resolved).skipped +
        (importReport lower resolved).errors + resolved.rows.countP stranded = (importReport lower resolved).totalRows := by
  unfold importReport toCreate toReplace toMerge
  dsimp only
  simp only [← List.countP_eq_length_filter]
  induction resolved.rows with
  | nil => rfl
  | cons r rows ih =>
    obtain ⟨row, sortOrder, action, item, previous⟩ := r
    simp only [List.countP_cons, List.length_cons, stranded] at ih ⊢
    cases action <;> cases item <;> simp <;> omega

theorem report_sum_eq_iff {resolved : ResolvedImport} :
    (importReport lower resolved).created + (importReport lower resolved).updated + (importReport lower resolved).skipped +
        (importReport lower resolved).errors = (importReport lower resolved).totalRows ↔ ∀ r ∈ resolved.rows, stranded r = false := by
  have hSum := @report_sum lower resolved
  constructor
  · intro h r hMem
    have hZero : resolved.rows.countP stranded = 0 := by omega
    exact Bool.eq_false_iff.mpr (List.countP_eq_zero.mp hZero r hMem)
  · intro h
    have hZero : resolved.rows.countP stranded = 0 := List.countP_eq_zero.mpr fun r hMem => Bool.eq_false_iff.mp (h r hMem)
    omega

theorem exists_right {α β : Type} {R : α → β → Prop} {l : List α} {m : List β} (h : List.Forall₂ R l m) {a : α} (hMem : a ∈ l) :
    ∃ b ∈ m, R a b := by
  induction h with
  | nil => cases hMem
  | cons hHead _ ih =>
    rcases List.mem_cons.mp hMem with rfl | hMem
    · exact ⟨_, List.mem_cons_self, hHead⟩
    · obtain ⟨b, hb, hR⟩ := ih hMem
      exact ⟨b, List.mem_cons_of_mem _ hb, hR⟩

theorem sum_iff_matched (hRows : RowsAccepted rows) :
    (∀ r ∈ (publishedPlan lower menu scope defaultStrategy rows).rows, stranded r = false) ↔
      ∀ e ∈ reviewed lower rows, e.2.2.issues = [] → e.1.userAction = some .update ∨ e.1.userAction = some .merge →
        (matchedInMenu lower menu scope rows e.2.2).isSome = true := by
  have hPlan := @published_plan lower menu scope defaultStrategy rows hRows
  constructor
  · intro h e hMem hIssues hAction
    obtain ⟨r, hr, hPublished⟩ := exists_right hPlan hMem
    have hNot := h r hr
    have hWritten := hPublished.action
    rw [stranded, hPublished.item, if_pos hIssues, Option.isNone_map] at hNot
    rw [decide_eq_false (not_not.mpr hIssues), plannedAction, if_neg Bool.false_ne_true] at hWritten
    cases hMatched : matchedInMenu lower menu scope rows e.2.2 with
    | some item => rfl
    | none =>
      rw [hMatched] at hNot
      rcases hAction with hAction | hAction
      · rw [hAction] at hWritten
        simp [hWritten] at hNot
      · rw [hAction] at hWritten
        simp [hWritten] at hNot
  · intro h r hr
    obtain ⟨e, hMem, hPublished⟩ := Traversals.exists_of_forall₂ hPlan.flip hr
    have hWritten := hPublished.action
    have hError := (hRows.each e.1 hPublished.mem).userAction
    by_cases hIssues : e.2.2.issues = []
    · rw [stranded, hPublished.item, if_pos hIssues, Option.isNone_map]
      cases hMatched : matchedInMenu lower menu scope rows e.2.2 with
      | some item => exact Bool.and_false _
      | none =>
        have hUser := h e hMem hIssues
        rw [decide_eq_false (not_not.mpr hIssues), plannedAction, if_neg Bool.false_ne_true, hMatched] at hWritten
        rw [hMatched] at hUser
        cases hAction : e.1.userAction with
        | none => simp [hWritten, hAction]
        | some action =>
          rw [hAction] at hUser hWritten
          cases action <;> simp_all
    · rw [decide_eq_true hIssues, plannedAction, if_pos rfl] at hWritten
      rw [stranded, hWritten]
      rfl

theorem price_of_usable {earlier : List (Text × Text)} {marked : List NormalizedImportRow} {e : DraftRow × Bool × NormalizedImportRow}
    (hMem : e ∈ rows.zip ((unusableRows lower earlier rows).zip marked)) (hUsable : e.2.1 = false) : e.1.price.isSome = true := by
  induction rows generalizing earlier marked with
  | nil => cases hMem
  | cons row rows ih =>
    cases marked with
    | nil =>
      rw [List.zip_nil_right, List.zip_nil_right] at hMem
      cases hMem
    | cons m marked =>
      rcases List.mem_cons.mp hMem with rfl | hMem
      · simp only [Bool.or_eq_false_iff] at hUsable
        rw [← Option.not_isNone, hUsable.1.2]
        rfl
      · exact ih hMem

theorem created_of_published {e : DraftRow × Bool × NormalizedImportRow} {r : MenuImportPreviewRow}
    (hPublished : Published lower menu scope defaultStrategy rows e r) : r.action = .create ↔ e.2.2.issues = [] ∧
      (e.1.userAction = some .create ∨ (e.1.userAction = none ∧ matchedInMenu lower menu scope rows e.2.2 = none)) := by
  rw [hPublished.action]
  by_cases hIssues : e.2.2.issues = []
  · rw [decide_eq_false (not_not.mpr hIssues), plannedAction, if_neg Bool.false_ne_true]
    cases hUser : e.1.userAction with
    | some action => simp [hIssues]
    | none =>
      cases hMatched : matchedInMenu lower menu scope rows e.2.2 with
      | none => simp [hIssues]
      | some item => cases defaultStrategy <;> simp
  · rw [decide_eq_true hIssues, plannedAction, if_pos rfl]
    simp [hIssues]

theorem passesValidators_published (hRows : RowsAccepted rows)
    (hIssues : ∀ e ∈ reviewed lower rows, e.2.2.issues ≠ [] ↔ e.2.1 = true) :
    passesValidators lower (publishedPlan lower menu scope defaultStrategy rows) = true ↔
      ∀ e ∈ reviewed lower rows, e.2.2.issues = [] →
        e.1.userAction = some .create ∨ (e.1.userAction = none ∧ matchedInMenu lower menu scope rows e.2.2 = none) →
          e.1.modifierGroups.all (·.valid) = true := by
  have hPlan := @published_plan lower menu scope defaultStrategy rows hRows
  have hCreated : ∀ r ∈ (publishedPlan lower menu scope defaultStrategy rows).rows, r.action = .create →
      hasText r.row.categoryName = true ∧ r.row.validItem = true := by
    intro r hr hCreate
    obtain ⟨e, hMem, hPublished⟩ := Traversals.exists_of_forall₂ hPlan.flip hr
    have hAccepted := hRows.each e.1 hPublished.mem
    have hUsable : e.2.1 = false := by
      rw [← Bool.not_eq_true, ← hIssues e hMem, not_not]
      exact ((created_of_published hPublished).mp hCreate).1
    obtain ⟨price, hPrice⟩ := Option.isSome_iff_exists.mp (price_of_usable hMem hUsable)
    have hCategory : e.2.2.categoryName = e.1.categoryName := congrArg NormalizedImportRow.categoryName hPublished.same
    have hItem : e.2.2.itemName = e.1.itemName := congrArg NormalizedImportRow.itemName hPublished.same
    have hSamePrice : e.2.2.price = e.1.price := congrArg NormalizedImportRow.price hPublished.same
    rw [hPublished.row, hCategory, NormalizedImportRow.validItem, hItem, hSamePrice, hPrice]
    refine ⟨hAccepted.category, ?_⟩
    rw [hAccepted.item, Bool.true_and, Option.any_some, decide_eq_true_eq]
    exact hAccepted.price price hPrice
  have hCategories : (categoriesToCreate lower (publishedPlan lower menu scope defaultStrategy rows)).all hasText = true := by
    rw [List.all_eq_true]
    intro name hName
    obtain ⟨r, hr, rfl⟩ := List.mem_map.mp (List.mem_filter.mp (firstByKey_subset hName)).1
    obtain ⟨hMem, hCreate⟩ := mem_toCreate.mp hr
    exact (hCreated r hMem hCreate).1
  have hUpdates : (toReplace (publishedPlan lower menu scope defaultStrategy rows)).all updateValid = true := by
    rw [List.all_eq_true]
    intro r hr
    obtain ⟨e, -, hPublished⟩ := Traversals.exists_of_forall₂ hPlan.flip (List.mem_filter.mp hr).1
    have hSamePrice : e.2.2.price = e.1.price := congrArg NormalizedImportRow.price hPublished.same
    rw [updateValid, hPublished.row, hSamePrice]
    cases hPrice : e.1.price with
    | none => rfl
    | some price => exact decide_eq_true ((hRows.each e.1 hPublished.mem).price price hPrice)
  rw [passesValidators, hCategories, hUpdates, Bool.true_and, Bool.and_true, List.all_eq_true]
  have hGroups : ∀ e r, Published lower menu scope defaultStrategy rows e r → r.row.modifierGroups = e.1.modifierGroups := by
    intro e r hPublished
    rw [hPublished.row]
    exact congrArg NormalizedImportRow.modifierGroups hPublished.same
  constructor
  · intro h e hMem hNone hCreates
    obtain ⟨r, hr, hPublished⟩ := exists_right hPlan hMem
    have hCreate := (created_of_published hPublished).mpr ⟨hNone, hCreates⟩
    have hRow := h r (mem_toCreate.mpr ⟨hr, hCreate⟩)
    rw [Bool.and_eq_true, hGroups e r hPublished] at hRow
    exact hRow.2
  · intro h r hr
    obtain ⟨hMem, hCreate⟩ := mem_toCreate.mp hr
    obtain ⟨e, he, hPublished⟩ := Traversals.exists_of_forall₂ hPlan.flip hMem
    obtain ⟨hNone, hCreates⟩ := (created_of_published hPublished).mp hCreate
    rw [Bool.and_eq_true, Bool.and_eq_true, hGroups e r hPublished]
    exact ⟨⟨(hCreated r hMem hCreate).2, categoryIdByName_isSome hr⟩, h e he hNone hCreates⟩

/-! ### What becomes of the items -/

def changedItem (plan : ResolvedImport) (item : MenuItem) : MenuItem :=
  match plan.rows.find? (·.matchedItemId = some item.id) with
  | some r =>
    match r.action with
    | .update => replaceItem r item
    | .merge => mergeItem r item
    | _ => item
  | none => item

theorem updateItems_eq {change : MenuImportPreviewRow → MenuItem → MenuItem} (hKeep : ∀ r item, (change r item).id = item.id)
    {planned : List MenuImportPreviewRow} (hNodup : (planned.filterMap (·.matchedItemId)).Nodup) {items : List MenuItem} :
    updateItems change planned items =
      items.map fun item => (planned.find? (·.matchedItemId = some item.id)).elim item fun r => change r item := by
  induction planned generalizing items with
  | nil => exact (List.map_id items).symm
  | cons r planned ih =>
    have hRest : (planned.filterMap (·.matchedItemId)).Nodup := hNodup.sublist ((List.sublist_cons_self r planned).filterMap _)
    refine (ih hRest).trans ?_
    rw [List.map_map]
    refine List.map_congr_left fun item _ => ?_
    rw [Function.comp_apply, List.find?_cons]
    by_cases hItem : r.matchedItemId = some item.id
    · rw [List.filterMap_cons, hItem, List.nodup_cons] at hNodup
      have hNone : planned.find? (·.matchedItemId = some item.id) = none := by
        rw [List.find?_eq_none]
        intro other hOther hMatched
        exact hNodup.1 (List.mem_filterMap.mpr ⟨other, hOther, of_decide_eq_true hMatched⟩)
      rw [if_pos hItem, hKeep, hNone, decide_eq_true hItem]
      rfl
    · rw [if_neg hItem, decide_eq_false hItem]

theorem find?_filter_of_unique {α : Type} {p q : α → Bool} {l : List α}
    (hUnique : ∀ a ∈ l, ∀ b ∈ l, q a = true → q b = true → a = b) : (l.filter p).find? q = (l.find? q).filter p := by
  rw [List.find?_filter]
  cases hFind : l.find? q with
  | none =>
    rw [Option.filter_none, List.find?_eq_none]
    intro a hMem h
    rw [decide_eq_true_eq] at h
    exact List.find?_eq_none.mp hFind a hMem h.2
  | some a =>
    have hMem := List.mem_of_find?_eq_some hFind
    have hq := List.find?_some hFind
    rw [Option.filter_some]
    split
    · rename_i hp
      cases hBoth : l.find? fun a => decide (p a = true ∧ q a = true) with
      | none => exact absurd (decide_eq_true ⟨hp, hq⟩) (List.find?_eq_none.mp hBoth a hMem)
      | some b =>
        have hb := of_decide_eq_true (@List.find?_some _ (fun a => decide (p a = true ∧ q a = true)) _ _ hBoth)
        rw [hUnique b (List.mem_of_find?_eq_some hBoth) a hMem hb.2 hq]
    · rename_i hp
      rw [List.find?_eq_none]
      intro b hb h
      rw [decide_eq_true_eq] at h
      exact hp (hUnique b hb a hMem h.2 hq ▸ h.1)

theorem nodup_matched {plan : ResolvedImport} {p : MenuImportPreviewRow → Bool} (hNodup : (plan.rows.filterMap (·.matchedItemId)).Nodup) :
    ((plan.rows.filter p).filterMap (·.matchedItemId)).Nodup :=
  hNodup.sublist (List.filter_sublist.filterMap _)

theorem eq_of_matched {planned : List MenuImportPreviewRow} (hNodup : (planned.filterMap (·.matchedItemId)).Nodup) {a b : MenuImportPreviewRow}
    (ha : a ∈ planned) (hb : b ∈ planned) {id : Id} (hA : a.matchedItemId = some id) (hB : b.matchedItemId = some id) : a = b := by
  induction planned with
  | nil => cases ha
  | cons r planned ih =>
    have hRest : (planned.filterMap (·.matchedItemId)).Nodup := hNodup.sublist ((List.sublist_cons_self r planned).filterMap _)
    rcases List.mem_cons.mp ha with rfl | hRestA
    · rcases List.mem_cons.mp hb with rfl | hRestB
      · rfl
      · rw [List.filterMap_cons, hA, List.nodup_cons] at hNodup
        exact absurd (List.mem_filterMap.mpr ⟨b, hRestB, hB⟩) hNodup.1
    · rcases List.mem_cons.mp hb with rfl | hRestB
      · rw [List.filterMap_cons, hB, List.nodup_cons] at hNodup
        exact absurd (List.mem_filterMap.mpr ⟨a, hRestA, hA⟩) hNodup.1
      · exact ih hRest hRestA hRestB

theorem map_changedItem {plan : ResolvedImport} (hNodup : (plan.rows.filterMap (·.matchedItemId)).Nodup) {items : List MenuItem} :
    updateItems mergeItem (toMerge plan) (updateItems replaceItem (toReplace plan) items) = items.map (changedItem plan) := by
  have hUnique : ∀ item : MenuItem, ∀ a ∈ plan.rows, ∀ b ∈ plan.rows, decide (a.matchedItemId = some item.id) = true →
      decide (b.matchedItemId = some item.id) = true → a = b := by
    intro item a ha b hb hA hB
    exact eq_of_matched hNodup ha hb (of_decide_eq_true hA) (of_decide_eq_true hB)
  unfold toMerge toReplace
  have hReplace : ∀ r item, (replaceItem r item).id = item.id := fun _ _ => rfl
  have hMerge : ∀ r item, (mergeItem r item).id = item.id := fun _ _ => rfl
  rw [updateItems_eq hReplace (nodup_matched hNodup), updateItems_eq hMerge (nodup_matched hNodup), List.map_map]
  refine List.map_congr_left fun item _ => ?_
  rw [Function.comp_apply, find?_filter_of_unique (hUnique item), find?_filter_of_unique (hUnique _)]
  unfold changedItem
  cases hFind : plan.rows.find? (·.matchedItemId = some item.id) with
  | none => 
    rw [Option.filter_none, Option.elim_none, hFind]
    rfl
  | some r =>
    have hMatched : r.matchedItemId = some item.id :=
      of_decide_eq_true (@List.find?_some _ (fun r : MenuImportPreviewRow => decide (r.matchedItemId = some item.id)) _ _ hFind)
    cases hAction : r.action <;> simp [Option.filter_some, hAction, hMatched, hFind, hReplace]

structure UniqueIds (menu : Menu) : Prop where
  categories : (menu.categories.map (·.id)).Nodup
  items : (menu.items.map (·.id)).Nodup

theorem matchedInMenu_spec {m : NormalizedImportRow} {item : MenuItem} (h : matchedInMenu lower menu scope rows m = some item) :
    item ∈ menu.items ∧ normalizeKey lower item.name = normalizeKey lower m.itemName ∧
      ∃ category ∈ menu.categories, item.categoryId = category.id ∧ normalizeKey lower category.name = normalizeKey lower m.categoryName := by
  unfold matchedInMenu matchedItem? at h
  obtain ⟨category, hCategory, hItem⟩ := Option.bind_eq_some_iff.mp h
  obtain ⟨hMem, hKey⟩ := mem_of_mapGet hItem
  obtain ⟨hCategoryMem, hCategoryKey⟩ := mem_of_mapGet hCategory
  obtain ⟨hId, hName⟩ := Prod.mk.injEq _ _ _ _ ▸ hKey
  exact ⟨(List.mem_filter.mp hMem).1, hName, category, (List.mem_filter.mp hCategoryMem).1, hId, hCategoryKey⟩

theorem map_reviewed : (reviewed lower rows).map (fun e => e.2.2) = markedRows lower rows := by
  have hMarked : (markedRows lower rows).length = rows.length := by
    unfold markedRows
    rw [length_markDuplicates, List.length_map]
  have hUnusable : (unusableRows lower [] rows).length = rows.length := length_unusableRows
  have hZip : ((unusableRows lower [] rows).zip (markedRows lower rows)).length = rows.length := by
    rw [List.length_zip, hMarked, hUnusable, Nat.min_self]
  have hFirst := @List.map_snd_zip _ _ rows ((unusableRows lower [] rows).zip (markedRows lower rows)) hZip.le
  have hSecond := @List.map_snd_zip _ _ (unusableRows lower [] rows) (markedRows lower rows) (hMarked.trans hUnusable.symm).le
  rw [← hFirst, List.map_map] at hSecond
  exact hSecond

theorem matched_of_published
    (hPlan : List.Forall₂ (Published lower menu scope defaultStrategy rows) (reviewed lower rows)
      (publishedPlan lower menu scope defaultStrategy rows).rows)
    {r : MenuImportPreviewRow} (hMem : r ∈ (publishedPlan lower menu scope defaultStrategy rows).rows) {id : Id}
    (hId : r.matchedItemId = some id) :
    r.row.issues = [] ∧ ∃ item, matchedInMenu lower menu scope rows r.row = some item ∧ item.id = id := by
  obtain ⟨e, -, hPublished⟩ := Traversals.exists_of_forall₂ hPlan.flip hMem
  rw [hPublished.item] at hId
  split at hId
  · rename_i hIssues
    rw [hPublished.row]
    obtain ⟨item, hMatched, hSame⟩ := Option.map_eq_some_iff.mp hId
    exact ⟨hIssues, item, hMatched, hSame⟩
  · cases hId

theorem nodup_publishedPlan (hRows : RowsAccepted rows) (hIds : UniqueIds menu) :
    ((publishedPlan lower menu scope defaultStrategy rows).rows.filterMap (·.matchedItemId)).Nodup := by
  have hPlan := @published_plan lower menu scope defaultStrategy rows hRows
  have hKeys : ((markedRows lower rows).filter (·.issues = [])).Pairwise fun a b => fileKey lower a ≠ fileKey lower b := by
    rw [← List.pairwise_map]
    refine (@nodup_markDuplicates lower (rows.map (·.normalized)) [] ?_).1
    intro row hMem _
    obtain ⟨draft, hDraft, rfl⟩ := List.mem_map.mp hMem
    have hAccepted := hRows.each draft hDraft
    rw [NormalizedImportRow.named, Bool.and_eq_true, decide_eq_true_eq, decide_eq_true_eq]
    exact ⟨ne_nil_of_hasText hAccepted.category, ne_nil_of_hasText hAccepted.item⟩
  rw [List.pairwise_filter] at hKeys
  have hMarked : (publishedPlan lower menu scope defaultStrategy rows).rows.map (·.row) = markedRows lower rows := by
    rw [map_eq_of_forall₂ hPlan fun _ _ h => h.row]
    exact map_reviewed
  rw [← hMarked, List.pairwise_map] at hKeys
  rw [List.Nodup, List.pairwise_filterMap]
  refine hKeys.imp_of_mem fun {a b} ha hb hNe id hA id' hB hEq => ?_
  subst hEq
  obtain ⟨hIssuesA, itemA, hMatchedA, rfl⟩ := matched_of_published hPlan ha hA
  obtain ⟨hIssuesB, itemB, hMatchedB, hSame⟩ := matched_of_published hPlan hb hB
  obtain ⟨hItemA, hNameA, categoryA, hCategoryA, hIdA, hKeyA⟩ := matchedInMenu_spec hMatchedA
  obtain ⟨hItemB, hNameB, categoryB, hCategoryB, hIdB, hKeyB⟩ := matchedInMenu_spec hMatchedB
  obtain rfl := Tables.eq_of_id hIds.items hItemB hItemA hSame
  obtain rfl := Tables.eq_of_id hIds.categories hCategoryA hCategoryB (hIdA.symm.trans hIdB)
  refine hNe (decide_eq_true hIssuesA) (decide_eq_true hIssuesB) ?_
  rw [fileKey, fileKey, ← hKeyA, ← hKeyB, ← hNameA, ← hNameB]

theorem items_writtenMenu (hRows : RowsAccepted rows) (hIds : UniqueIds menu) :
    (writtenMenu lower menu scope (publishedPlan lower menu scope defaultStrategy rows)).items =
      menu.items.map (changedItem (publishedPlan lower menu scope defaultStrategy rows)) ++
        newItems lower scope (publishedPlan lower menu scope defaultStrategy rows)
          (freshId menu (publishedPlan lower menu scope defaultStrategy rows)) := by
  have hPlan := @published_plan lower menu scope defaultStrategy rows hRows
  unfold writtenMenu
  dsimp only
  rw [map_changedItem (nodup_publishedPlan hRows hIds), List.map_append]
  refine congrArg _ ?_
  refine (List.map_congr_left fun item hMem => ?_).trans (List.map_id _)
  unfold changedItem
  have hNone : (publishedPlan lower menu scope defaultStrategy rows).rows.find? (·.matchedItemId = some item.id) = none := by
    rw [List.find?_eq_none]
    intro r hr hMatched
    obtain ⟨-, matched, hMatched, hId⟩ := matched_of_published hPlan hr (of_decide_eq_true hMatched)
    have hOld : item.id < freshId menu (publishedPlan lower menu scope defaultStrategy rows) := by
      refine lt_freshId ?_
      simp only [mentionedIds, List.mem_append]
      exact .inl (.inl (.inl (.inl (.inr (List.mem_map.mpr ⟨matched, (matchedInMenu_spec hMatched).1, hId⟩)))))
    obtain ⟨i, hi, rfl⟩ := List.mem_iff_getElem.mp hMem
    simp only [newItems, List.getElem_mapIdx, newItem] at hOld
    exact absurd hOld (Nat.not_lt.mpr ((Nat.le_add_right _ _).trans (Nat.le_add_right _ _)))
  rw [hNone]
  rfl

end Written

/-! ## The call on its own -/

section Eval

variable {lower : Text → Text} {w : World} {job : MenuImportJob}

theorem eval_resolveImportNow {normalized : List NormalizedImportRow} {scope : ImportScope} {strategy : DuplicateStrategy} :
    (resolveImportNow lower normalized scope strategy).eval (store lower) {} w =
      (.ok (resolveImport { lower } w.menu normalized scope strategy), w) := by
  unfold resolveImportNow
  rw [bind_eq, eval_bind_ok (eval_call (S := store lower) (Op.findCategories scope)), bind_eq]
  unfold loadItems
  split
  · rename_i hNone
    have hItems : loadExistingItems w.menu scope [] = [] := List.filter_eq_nil_iff.mpr fun item _ h => by
      rw [List.contains_nil, Bool.and_false] at h
      cases h
    unfold resolveImport
    dsimp only
    rw [hNone, hItems]
    rfl
  · exact eval_bind_ok (eval_call (S := store lower) (Op.findItems scope _))

theorem eval_writeResolvedImportNow {resolved : ResolvedImport} {scope : ImportScope} :
    (writeResolvedImportNow resolved scope).eval (store lower) {} w = w.write lower scope resolved := by
  have hCall : (call (Op.transaction scope resolved) : Promise MenuImportReport).eval (store lower) {} w =
      w.write lower scope resolved := eval_call (S := store lower) (Op.transaction scope resolved)
  unfold writeResolvedImportNow
  rw [bind_eq]
  cases hWrite : w.write lower scope resolved with
  | mk result written =>
    rw [hWrite] at hCall
    cases result with
    | error err => exact eval_bind_error hCall
    | ok report => exact eval_bind_ok hCall

def MenuImportJob.visibleTo (job : MenuImportJob) (menu : Menu) (restaurantId : Id) : Prop :=
  job.restaurantId = restaurantId ∨
    ∃ businessId, job.businessId = some businessId ∧
      (menu.restaurants.find? (·.id = restaurantId)).bind (·.businessId) = some businessId

theorem visible_iff {jobId restaurantId : Id} :
    ((getMenuImportJobForTenant jobId restaurantId).eval (store lower) {} w).1 = .ok job ↔
      w.job? jobId = some job ∧ job.visibleTo w.menu restaurantId := by
  unfold getMenuImportJobForTenant MenuImportJob.visibleTo
  rw [bind_eq, eval_bind_ok (eval_call (S := store lower) (Op.findJob jobId))]
  cases hFound : w.job? jobId with
  | none =>
    constructor
    · rintro ⟨⟩
    · rintro ⟨⟨⟩, -⟩
  | some found =>
    dsimp only
    split
    · rename_i hOwn
      constructor
      · rintro ⟨⟩
        exact ⟨rfl, .inl hOwn⟩
      · rintro ⟨⟨⟩, -⟩
        rfl
    · rename_i hOther
      split
      · rename_i hNoBusiness
        constructor
        · rintro ⟨⟩
        · rintro ⟨⟨⟩, hOwn | ⟨businessId, hBusiness, -⟩⟩
          · exact absurd hOwn hOther
          · rw [hBusiness] at hNoBusiness
            cases hNoBusiness
      · rename_i businessId hBusiness
        rw [bind_eq, eval_bind_ok (eval_call (S := store lower) (Op.findRestaurant restaurantId))]
        split
        · rename_i hSame
          constructor
          · rintro ⟨⟩
            exact ⟨rfl, .inr ⟨businessId, hBusiness, hSame⟩⟩
          · rintro ⟨⟨⟩, -⟩
            rfl
        · rename_i hDiffers
          constructor
          · rintro ⟨⟩
          · rintro ⟨⟨⟩, hOwn | ⟨businessId', hBusiness', hSame⟩⟩
            · exact absurd hOwn hOther
            · rw [hBusiness] at hBusiness'
              cases hBusiness'
              exact absurd hSame hDiffers

theorem job?_of_visible {jobId restaurantId : Id}
    (h : ((getMenuImportJobForTenant jobId restaurantId).eval (store lower) {} w).1 = .ok job) : w.job? jobId = some job :=
  ((visible_iff).mp h).1

theorem eval_getMenuImportJobForTenant {jobId restaurantId : Id} :
    ((getMenuImportJobForTenant jobId restaurantId).eval (store lower) {} w).2 = w := by
  unfold getMenuImportJobForTenant
  rw [bind_eq, eval_bind_ok (eval_call (S := store lower) (Op.findJob jobId))]
  cases w.job? jobId with
  | none => rfl
  | some found =>
    dsimp only
    split
    · rfl
    · split
      · rfl
      · rw [bind_eq, eval_bind_ok (eval_call (S := store lower) (Op.findRestaurant restaurantId))]
        split <;> rfl

theorem eval_visible {jobId restaurantId : Id}
    (h : ((getMenuImportJobForTenant jobId restaurantId).eval (store lower) {} w).1 = .ok job) :
    (getMenuImportJobForTenant jobId restaurantId).eval (store lower) {} w = (.ok job, w) :=
  Prod.ext h eval_getMenuImportJobForTenant

theorem saveJob_of_found {id : Id} {version : Option Nat} {change : MenuImportJob → MenuImportJob} (hFound : w.job? id = some job)
    (hVersion : version.any (· ≠ job.version) = false) (hValid : (change job).draftRows.all (·.valid) = true) :
    w.saveJob id version change = (.ok (), setJob (change job) w) := by
  unfold World.saveJob
  rw [hFound]
  dsimp only
  rw [if_neg (Bool.eq_false_iff.mp hVersion), if_pos hValid]

theorem eval_saveClaimed {changes : JobChanges} (hFound : w.job? job.id = some job) (hRows : changes.draftRows = none)
    (hValid : ∀ row ∈ job.draftRows, row.valid = true) :
    (saveClaimed job changes).eval (store lower) {} w = (.ok (), setJob (changes.apply job) w) := by
  refine (eval_call (S := store lower) _).trans (saveJob_of_found hFound ?_ ?_)
  · split
    · rfl
    · rw [Option.any_some, decide_eq_false_iff_not, ne_eq, not_not]
  · rw [List.all_eq_true]
    intro row hMem
    unfold JobChanges.apply at hMem
    rw [hRows] at hMem
    obtain ⟨old, hOld, rfl⟩ := List.mem_map.mp hMem
    exact hValid old hOld

def publishScope (restaurantId : Id) (job : MenuImportJob) : ImportScope :=
  { restaurantId, canonicalBusinessId := job.businessId }

section Publish

variable {params : PublishMenuImportJobParams}

def planOf (lower : Text → Text) (w : World) (params : PublishMenuImportJobParams) (job : MenuImportJob) : ResolvedImport :=
  publishedPlan lower w.menu (publishScope params.restaurantId job) params.defaultDuplicateStrategy job.draftRows

theorem eval_publishClaimed {claimed : MenuImportJob} : (publishClaimed lower params claimed).eval (store lower) {} w =
    w.write lower (publishScope params.restaurantId claimed) (planOf lower w params claimed) := by
  unfold publishClaimed
  dsimp only
  rw [bind_eq, eval_bind_ok eval_resolveImportNow, eval_writeResolvedImportNow]
  rfl

theorem eval_publishMenuImportJob
    (hVisible : ((getMenuImportJobForTenant params.jobId params.restaurantId).eval (store lower) {} w).1 = .ok job)
    (hReady : job.status = .readyForReview) :
    (publishMenuImportJob lower params).eval (store lower) {} w =
      (finishPublishing lower { job with status := .publishing }
        ((setJob { job with status := .publishing } w).write lower (publishScope params.restaurantId job) (planOf lower w params job)).1).eval
          (store lower) {}
          ((setJob { job with status := .publishing } w).write lower (publishScope params.restaurantId job)
            (planOf lower w params job)).2 := by
  have hFound := job?_of_visible hVisible
  have hOwn : w.job? job.id = some job := by
    rw [id_of_job? hFound]
    exact hFound
  have hClaim : (call (Op.claimForPublishing job.id) : Promise (Option MenuImportJob)).eval (store lower) {} w =
      (.ok (some { job with status := .publishing }), setJob { job with status := .publishing } w) := by
    refine (eval_call (S := store lower) _).trans ?_
    change (Except.ok (w.claim job.id .readyForReview .publishing).1, (w.claim job.id .readyForReview .publishing).2) = _
    unfold World.claim
    rw [hOwn]
    dsimp only
    rw [if_pos hReady]
  unfold publishMenuImportJob
  rw [bind_eq, eval_bind_ok (eval_visible hVisible), if_neg (not_not.mpr hReady), bind_eq, eval_bind_ok hClaim]
  dsimp only
  rw [bind_eq, eval_bind_ok (eval_attempt_of eval_publishClaimed)]
  rfl

theorem publish_completes
    (hVisible : ((getMenuImportJobForTenant params.jobId params.restaurantId).eval (store lower) {} w).1 = .ok job)
    (hReady : job.status = .readyForReview) (hValid : ∀ row ∈ job.draftRows, row.valid = true)
    (hPasses : passesValidators lower (planOf lower w params job) = true) :
    ∃ w' job', (publishMenuImportJob lower params).eval (store lower) {} w = (.ok (), w') ∧
      w'.menu = writtenMenu lower w.menu (publishScope params.restaurantId job) (planOf lower w params job) ∧
      w'.job? params.jobId = some job' ∧ job'.status = .completed ∧
      job'.publishedReport = some (importReport lower (planOf lower w params job)) := by
  have hFound := job?_of_visible hVisible
  have hOwn : w.job? job.id = some job := by
    rw [id_of_job? hFound]
    exact hFound
  have hWrite : (setJob { job with status := .publishing } w).write lower (publishScope params.restaurantId job) (planOf lower w params job) =
      (.ok (importReport lower (planOf lower w params job)),
        { setJob { job with status := .publishing } w with
          menu := writtenMenu lower w.menu (publishScope params.restaurantId job) (planOf lower w params job) }) := by
    unfold World.write writeResolvedImport
    rw [if_pos hPasses]
    rfl
  rw [eval_publishMenuImportJob hVisible hReady, hWrite]
  unfold finishPublishing
  dsimp only
  rw [bind_eq, eval_bind_ok (eval_call (S := store lower) Op.clock), bind_eq, eval_bind_ok (eval_call (S := store lower) Op.clock)]
  have hClaimed : ({ setJob { job with status := .publishing } w with
      menu := writtenMenu lower w.menu (publishScope params.restaurantId job) (planOf lower w params job) } : World).job? job.id =
        some { job with status := .publishing } := job?_setJob hOwn rfl
  have hSave := fun changes hRows =>
    @eval_saveClaimed lower _ { job with status := .publishing } changes hClaimed hRows hValid
  rw [bind_eq, eval_bind_ok (eval_attempt_of (hSave _ rfl))]
  rw [← id_of_job? hFound]
  exact ⟨_, _, rfl, rfl, job?_setJob hClaimed rfl, rfl, rfl⟩

theorem publish_throws
    (hVisible : ((getMenuImportJobForTenant params.jobId params.restaurantId).eval (store lower) {} w).1 = .ok job)
    (hReady : job.status = .readyForReview) (hPasses : passesValidators lower (planOf lower w params job) = false) :
    ((publishMenuImportJob lower params).eval (store lower) {} w).1 ≠ .ok () := by
  have hWrite : (setJob { job with status := .publishing } w).write lower (publishScope params.restaurantId job) (planOf lower w params job) =
      (.error (.other "ValidationError"), setJob { job with status := .publishing } w) := by
    unfold World.write writeResolvedImport
    rw [if_neg (Bool.eq_false_iff.mp hPasses)]
  rw [eval_publishMenuImportJob hVisible hReady, hWrite]
  unfold finishPublishing
  dsimp only
  rw [bind_eq, eval_bind]
  split
  · rintro ⟨⟩
  · rintro ⟨⟩

end Publish

end Eval

/-! ## Edits -/

/-- What the request schema has checked of a patch. -/
structure DraftRowPatch.Valid (patch : DraftRowPatch) : Prop where
  category : ∀ name, patch.categoryName = some name → hasText name = true
  item : ∀ name, patch.itemName = some name → hasText name = true
  price : ∀ price, patch.price = some price → 0 ≤ price
  groups : ∀ groups, patch.modifierGroups = some groups → ∀ g ∈ groups, g.name ≠ [] ∧ 1 ≤ g.maxSelect ∧ g.options ≠ []
  userAction : patch.userAction ≠ some .error

def applyEdits (lower : Text → Text) (jobId restaurantId : Id) : List (Nat × DraftRowPatch) → World → Option World
  | [], w => some w
  | (rowNumber, patch) :: edits, w =>
    match (updateMenuImportDraftRow jobId restaurantId rowNumber patch).eval (store lower) {} w with
    | (.ok _, w') => applyEdits lower jobId restaurantId edits w'
    | (.error _, _) => none

structure Publishable (w : World) (jobId restaurantId : Id) (job : MenuImportJob) : Prop where
  found : w.job? jobId = some job
  visible : job.visibleTo w.menu restaurantId
  ready : job.status = .readyForReview
  rows : RowsAccepted job.draftRows

section Edits

variable {lower : Text → Text} {w w' : World} {job : MenuImportJob} {jobId restaurantId : Id} {rowNumber : Nat} {patch : DraftRowPatch}

theorem accepted_apply {row : DraftRow} {now : Time} (hRow : row.Accepted) (hPatch : patch.Valid)
    (hValid : (patch.apply now row).valid = true) : (patch.apply now row).Accepted := by
  refine ⟨?_, ?_, fun price hPrice => ?_, ?_, hValid⟩
  · unfold DraftRowPatch.apply
    cases hName : patch.categoryName with
    | none => exact hRow.category
    | some name => exact hPatch.category name hName
  · unfold DraftRowPatch.apply
    cases hName : patch.itemName with
    | none => exact hRow.item
    | some name => exact hPatch.item name hName
  · unfold DraftRowPatch.apply at hPrice
    cases hNew : patch.price with
    | none =>
      rw [hNew] at hPrice
      exact hRow.price price hPrice
    | some new =>
      rw [hNew] at hPrice
      cases hPrice
      exact hPatch.price _ hNew
  · unfold DraftRowPatch.apply
    cases hAction : patch.userAction with
    | none => exact hRow.userAction
    | some action =>
      rw [← hAction]
      exact hAction ▸ hPatch.userAction

theorem rowsAccepted_editRow {now : Time} (hRows : RowsAccepted job.draftRows) (hPatch : patch.Valid)
    (hValid : (World.editRow rowNumber patch now job).draftRows.all (·.valid) = true) :
    RowsAccepted (World.editRow rowNumber patch now job).draftRows := by
  constructor
  · intro row hMem
    have hRowValid := List.all_eq_true.mp hValid row hMem
    obtain ⟨old, hOld, rfl⟩ := List.mem_map.mp hMem
    split
    · rename_i hEdited
      rw [if_pos hEdited] at hRowValid
      exact accepted_apply (hRows.each old hOld) hPatch hRowValid
    · exact hRows.each old hOld
  · have hNumbers : (World.editRow rowNumber patch now job).draftRows.map (·.rowNumber) = job.draftRows.map (·.rowNumber) := by
      unfold World.editRow Tables.update
      rw [List.map_map]
      refine List.map_congr_left fun row _ => ?_
      rw [Function.comp_apply]
      split <;> rfl
    rw [hNumbers]
    exact hRows.numbers

theorem publishable_edit (hJob : Publishable w jobId restaurantId job) (hPatch : patch.Valid)
    (hEdit : (updateMenuImportDraftRow jobId restaurantId rowNumber patch).eval (store lower) {} w = (.ok (), w')) :
    w'.menu = w.menu ∧ ∃ job', Publishable w' jobId restaurantId job' := by
  have hVisible := (@visible_iff lower w job jobId restaurantId).mpr ⟨hJob.found, hJob.visible⟩
  have hId := id_of_job? hJob.found
  unfold updateMenuImportDraftRow at hEdit
  rw [bind_eq, eval_bind_ok (eval_visible hVisible), if_neg (not_not.mpr hJob.ready)] at hEdit
  split at hEdit
  · cases hEdit
  · rw [bind_eq, eval_bind_ok (eval_call (S := store lower) Op.clock)] at hEdit
    have hSave := (eval_call (S := store lower) (a := {}) (s := w) (Op.saveRow job.id job.version rowNumber patch w.now)).symm.trans hEdit
    have hSave : w.saveJob job.id (some job.version) (World.editRow rowNumber patch w.now) = (.ok (), w') := hSave
    unfold World.saveJob at hSave
    rw [hId, hJob.found] at hSave
    dsimp only at hSave
    split at hSave
    · cases hSave
    · split at hSave
      · rename_i hValid
        cases hSave
        exact ⟨rfl, _, job?_setJob hJob.found hId, hJob.visible, hJob.ready, rowsAccepted_editRow hJob.rows hPatch hValid⟩
      · cases hSave

theorem publishable_edits {edits : List (Nat × DraftRowPatch)} (hJob : Publishable w jobId restaurantId job)
    (hPatches : ∀ e ∈ edits, e.2.Valid) (hEdits : applyEdits lower jobId restaurantId edits w = some w') :
    w'.menu = w.menu ∧ ∃ job', Publishable w' jobId restaurantId job' := by
  induction edits generalizing w job with
  | nil =>
    cases hEdits
    exact ⟨rfl, job, hJob⟩
  | cons edit edits ih =>
    obtain ⟨rowNumber, patch⟩ := edit
    rw [List.forall_mem_cons] at hPatches
    unfold applyEdits at hEdits
    split at hEdits
    · rename_i next hEdit
      obtain ⟨hMenu, job', hJob'⟩ := publishable_edit hJob hPatches.1 hEdit
      obtain ⟨hMenu', hLast⟩ := ih hJob' hPatches.2 hEdits
      exact ⟨hMenu'.trans hMenu, hLast⟩
    · cases hEdits

end Edits

/-! ## Honouring the reviewer -/

structure Honoured (lower : Text → Text) (params : PublishMenuImportJobParams) (job : MenuImportJob) (w w' : World) (job' : MenuImportJob)
    (report : MenuImportReport) : Prop where
  published : (publishMenuImportJob lower params).eval (store lower) {} w = (.ok (), w')
  found : w'.job? params.jobId = some job'
  completed : job'.status = .completed
  reported : job'.publishedReport = some report
  values : List.Forall₂ (fun row r => { r.row with issues := row.issues } = row.normalized) job.draftRows (planOf lower w params job).rows
  actions : (planOf lower w params job).rows.map (·.action) =
    intendedActions lower w.menu (publishScope params.restaurantId job) params.defaultDuplicateStrategy job.draftRows
  matched : ∀ r ∈ (planOf lower w params job).rows, r.action = .update ∨ r.action = .merge →
    r.matchedItemId.isSome = true ∧
      r.matchedItemId = (matchedInMenu lower w.menu (publishScope params.restaurantId job) job.draftRows r.row).map (·.id)
  items : w'.menu.items = w.menu.items.map (changedItem (planOf lower w params job)) ++
    newItems lower (publishScope params.restaurantId job) (planOf lower w params job) (freshId w.menu (planOf lower w params job))
  sum : report.created + report.updated + report.skipped + report.errors = report.totalRows
  total : report.totalRows = job.draftRows.length

section Honoured

variable {lower : Text → Text} {w : World} {job : MenuImportJob} {params : PublishMenuImportJobParams}

theorem values_published {menu : Menu} {scope : ImportScope} {defaultStrategy : DefaultStrategy} {rows : List DraftRow}
    (hRows : RowsAccepted rows) :
    List.Forall₂ (fun row r => { r.row with issues := row.issues } = row.normalized) rows
      (publishedPlan lower menu scope defaultStrategy rows).rows := by
  have hPlan := @published_plan lower menu scope defaultStrategy rows hRows
  have hFirst : (reviewed lower rows).map (·.1) = rows := by
    have hLength := congrArg List.length (@map_reviewed lower rows)
    unfold markedRows at hLength
    rw [List.length_map, length_markDuplicates, List.length_map] at hLength
    refine List.map_fst_zip ?_
    have hZip : (reviewed lower rows).length ≤ ((unusableRows lower [] rows).zip (markedRows lower rows)).length := by
      unfold reviewed
      rw [List.length_zip]
      exact Nat.min_le_right _ _
    exact hLength.symm.le.trans hZip
  have hValues : List.Forall₂ (fun (e : DraftRow × Bool × NormalizedImportRow) (r : MenuImportPreviewRow) =>
      { r.row with issues := e.1.issues } = e.1.normalized) (reviewed lower rows) (publishedPlan lower menu scope defaultStrategy rows).rows :=
    hPlan.imp fun e r h => by rw [h.row, h.same]
  have hMap := (List.forall₂_map_left_iff (f := fun e : DraftRow × Bool × NormalizedImportRow => e.1)
    (R := fun row (r : MenuImportPreviewRow) => { r.row with issues := row.issues } = row.normalized)).mpr hValues
  rw [hFirst] at hMap
  exact hMap

theorem honoured_iff (hJob : Publishable w params.jobId params.restaurantId job) (hIds : UniqueIds w.menu) :
    (∃ w' job' report, Honoured lower params job w w' job' report) ↔
      Reviewable lower w.menu (publishScope params.restaurantId job) params.defaultDuplicateStrategy job.draftRows := by
  have hVisible := (@visible_iff lower w job params.jobId params.restaurantId).mpr ⟨hJob.found, hJob.visible⟩
  have hValid : ∀ row ∈ job.draftRows, row.valid = true := fun row hMem => (hJob.rows.each row hMem).valid
  have hActions := @writtenActions_eq_intendedActions lower w.menu (publishScope params.restaurantId job)
    params.defaultDuplicateStrategy job.draftRows hJob.rows
  have hSum := @report_sum_eq_iff lower (planOf lower w params job)
  have hMatched := @sum_iff_matched lower w.menu (publishScope params.restaurantId job) params.defaultDuplicateStrategy job.draftRows hJob.rows
  constructor
  · rintro ⟨w', job', report, hHonoured⟩
    obtain ⟨hIssues, hDefault⟩ := hActions.mp hHonoured.actions
    have hGroups := @passesValidators_published lower w.menu (publishScope params.restaurantId job) params.defaultDuplicateStrategy
      job.draftRows hJob.rows hIssues
    cases hPasses : passesValidators lower (planOf lower w params job) with
    | false =>
      have hThrows := publish_throws hVisible hJob.ready hPasses
      rw [hHonoured.published] at hThrows
      exact absurd rfl hThrows
    | true =>
      obtain ⟨w'', job'', hEval, -, hFound, -, hReport⟩ := publish_completes hVisible hJob.ready hValid hPasses
      cases hHonoured.published.symm.trans hEval
      cases hHonoured.found.symm.trans hFound
      cases hHonoured.reported.symm.trans hReport
      exact ⟨hIssues, hMatched.mp (hSum.mp hHonoured.sum), hDefault, hGroups.mp hPasses⟩
  · intro h
    have hPasses : passesValidators lower (planOf lower w params job) = true :=
      (passesValidators_published hJob.rows h.issues).mpr h.groups
    obtain ⟨w', job', hEval, hMenu, hFound, hCompleted, hReport⟩ := publish_completes hVisible hJob.ready hValid hPasses
    have hStranded := hMatched.mpr h.matched
    refine ⟨w', job', _, hEval, hFound, hCompleted, hReport, values_published hJob.rows, hActions.mpr ⟨h.issues, h.default⟩, ?_, ?_,
      hSum.mpr hStranded, (values_published hJob.rows).length_eq.symm⟩
    · intro r hr hAction
      have hItem : r.matchedItemId.isSome = true := by
        have hNot := hStranded r hr
        rw [stranded] at hNot
        cases hNone : r.matchedItemId with
        | some id => rfl
        | none =>
          rw [hNone] at hNot
          rcases hAction with hAction | hAction <;> simp [hAction] at hNot
      obtain ⟨id, hId⟩ := Option.isSome_iff_exists.mp hItem
      obtain ⟨-, item, hInMenu, hSame⟩ := matched_of_published (published_plan hJob.rows) hr hId
      rw [hInMenu, hId, ← hSame]
      exact ⟨rfl, rfl⟩
    · rw [hMenu]
      exact items_writtenMenu hJob.rows hIds

end Honoured

/-- After any accepted edits, a publication honours the reviewer exactly if the
draft is reviewable then. -/
theorem publish_honours_iff (lower : Text → Text) (w₀ w : World) (params : PublishMenuImportJobParams) (job₀ : MenuImportJob)
    (edits : List (Nat × DraftRowPatch)) (hJob : Publishable w₀ params.jobId params.restaurantId job₀) (hIds : UniqueIds w₀.menu)
    (hPatches : ∀ e ∈ edits, e.2.Valid) (hEdits : applyEdits lower params.jobId params.restaurantId edits w₀ = some w) :
    ∃ job, w.job? params.jobId = some job ∧
      ((∃ w' job' report, Honoured lower params job w w' job' report) ↔
        Reviewable lower w.menu (publishScope params.restaurantId job) params.defaultDuplicateStrategy job.draftRows) := by
  obtain ⟨hMenu, job, hEdited⟩ := publishable_edits hJob hPatches hEdits
  rw [← hMenu] at hIds
  exact ⟨job, hEdited.found, honoured_iff hEdited hIds⟩

namespace DraftReview

def row (issues : List MenuImportRowIssue) : DraftRow where
  rowNumber := 1
  categoryName := "Pizza".toList
  itemName := "Margherita".toList
  issues := issues
  systemAction := .error

def job (issues : List MenuImportRowIssue) : MenuImportJob :=
  { id := 7, restaurantId := 1, status := .readyForReview, draftRows := [row issues] }

def world (issues : List MenuImportRowIssue) : World := { jobs := [job issues] }

def repair : Nat × DraftRowPatch := (1, { price := some 5, userAction := some .create })

def repaired (issues : List MenuImportRowIssue) : MenuImportJob :=
  { job issues with draftRows := [{ row issues with price := some 5, userAction := some .create, reviewedAt := some 0 }] }

def params : PublishMenuImportJobParams := { jobId := 7, restaurantId := 1, defaultDuplicateStrategy := .skip }

theorem publishable (issues : List MenuImportRowIssue) : Publishable (world issues) 7 1 (job issues) := by
  refine ⟨rfl, .inl rfl, rfl, fun r hMem => ?_, List.nodup_singleton 1⟩
  obtain rfl := List.mem_singleton.mp hMem
  have hCategory : hasText "Pizza".toList = true := by decide
  have hItem : hasText "Margherita".toList = true := by decide
  refine ⟨hCategory, hItem, fun price hPrice => ?_, ?_, rfl⟩
  · cases hPrice
  · rintro ⟨⟩

theorem repair_valid : ∀ e ∈ [repair], e.2.Valid := by
  intro e hMem
  obtain rfl := List.mem_singleton.mp hMem
  refine ⟨fun _ h => ?_, fun _ h => ?_, fun price hPrice => ?_, fun _ h => ?_, by decide⟩
  · cases h
  · cases h
  · cases hPrice
    decide
  · cases h

theorem edited (issues : List MenuImportRowIssue) : applyEdits id 7 1 [repair] (world issues) = some { jobs := [repaired issues] } := rfl

theorem unique : UniqueIds (world []).menu := ⟨List.nodup_nil, List.nodup_nil⟩

end DraftReview

theorem repaired_row_created : ∃ w' job' report, Honoured id DraftReview.params (DraftReview.repaired []) { jobs := [DraftReview.repaired []] } w' job' report := by
  obtain ⟨job, hFound, hIff⟩ := publish_honours_iff id (DraftReview.world []) { jobs := [DraftReview.repaired []] } DraftReview.params
    (DraftReview.job []) [DraftReview.repair] (DraftReview.publishable []) DraftReview.unique DraftReview.repair_valid (DraftReview.edited [])
  cases hFound
  refine hIff.mpr ⟨?_, ?_, ?_, ?_⟩
  · decide
  · decide
  · decide
  · decide

/-- A row whose missing price the reviewer has filled in stays out of the
menu. -/
theorem publish_leaves_repaired_row_out : ¬ ∀ (lower : Text → Text) (w₀ w : World) (params : PublishMenuImportJobParams)
    (job₀ : MenuImportJob) (edits : List (Nat × DraftRowPatch)), Publishable w₀ params.jobId params.restaurantId job₀ →
    UniqueIds w₀.menu → (∀ e ∈ edits, e.2.Valid) → applyEdits lower params.jobId params.restaurantId edits w₀ = some w →
      ∃ job, w.job? params.jobId = some job ∧ ∃ w' job' report, Honoured lower params job w w' job' report := by
  intro h
  obtain ⟨job, hFound, w', job', report, hHonoured⟩ := h id (DraftReview.world [{ field := some .price, message := "Price is missing." }])
    { jobs := [DraftReview.repaired [{ field := some .price, message := "Price is missing." }]] } DraftReview.params
    (DraftReview.job [{ field := some .price, message := "Price is missing." }]) [DraftReview.repair]
    (DraftReview.publishable [{ field := some .price, message := "Price is missing." }]) DraftReview.unique DraftReview.repair_valid
    (DraftReview.edited [{ field := some .price, message := "Price is missing." }])
  cases hFound
  exact absurd hHonoured.actions (by decide)

end RestaurantOs.MenuImport
