import RestaurantOs.Imports.Preview

/-!
# Imports that are tried again

A transaction that is aborted is tried again, and what the import counts is kept
outside of it. The report tells what was committed just if no aborted attempt has
counted modifier groups and each updated row changes an item of its own.
-/

namespace RestaurantOs.MenuImport

open Menus

/-- `setFields` of a merged row is not empty. -/
def MenuImportPreviewRow.sets (row : MenuImportPreviewRow) : Bool :=
  (decide (row.previousValues.elim [] (·.description) = []) && (row.row.description.filter (· ≠ [])).isSome) ||
    (((row.previousValues.bind (·.imageUrl)).filter (· ≠ [])).isNone && (row.row.imageUrl.filter (· ≠ [])).isSome)

/-- The menu as a transaction leaves it, and the items that its updates have
changed. -/
structure Written where
  menu : Menu
  updated : List Id := []

structure MenuImportReport.Tells (report : MenuImportReport) (before : Menu) (w : Written) : Prop where
  created : before.items.length + report.created = w.menu.items.length
  categoriesCreated : before.categories.length + report.categoriesCreated = w.menu.categories.length
  modifierGroupsCreated : before.groups.length + report.modifierGroupsCreated = w.menu.groups.length
  modifierOptionsCreated :
    (before.groups.map (·.options.length)).sum + report.modifierOptionsCreated = (w.menu.groups.map (·.options.length)).sum
  updated : report.updated = w.updated.length

namespace Retries

/-- `report`, outside of the transaction's function. -/
structure Counters where
  itemsCreated : Nat := 0
  itemsUpdated : Nat := 0
  itemsSkipped : Nat := 0
  categoriesCreated : Nat := 0
  modifierGroupsCreated : Nat := 0
  modifierOptionsCreated : Nat := 0

structure Call where
  valid : Bool := true
  write : Written → Written := id
  count : Counters → Counters := id

/-- The items changed, the row's among them if it is one of `ids`. -/
def withMatched (ids updated : List Id) (row : MenuImportPreviewRow) : List Id :=
  updated ++ row.matchedItemId.toList.filter fun id => ids.contains id && !updated.contains id

/-- `updateOne({ _id: row.matchedItemId }, …)` changes the item if it is still
there. -/
def updateOne (change : MenuImportPreviewRow → MenuItem → MenuItem) (row : MenuImportPreviewRow) (w : Written) : Written where
  menu := { w.menu with items := updateItems change [row] w.menu.items }
  updated := withMatched (w.menu.items.map (·.id)) w.updated row

def unusedId (menu : Menu) (resolved : ResolvedImport) : Id :=
  ((resolved.rows.filterMap (·.matchedItemId)).map (· + 1)).foldr max (freshId menu resolved)

section Calls

variable (lower : Text → Text) (scope : ImportScope) (resolved : ResolvedImport) (fresh : Id)

def createCategories : Call where
  valid := (categoriesToCreate lower resolved).all hasText
  write w := { w with menu := { w.menu with categories := w.menu.categories ++ newCategories lower scope resolved fresh } }
  count r := { r with categoriesCreated := (newCategories lower scope resolved fresh).length }

def createItems : Call where
  valid := (toCreate resolved).all fun row =>
    row.row.validItem && (categoryIdByName lower resolved fresh row.row.categoryName).isSome
  write w := { w with menu := { w.menu with items := w.menu.items ++ newItems lower scope resolved fresh } }
  count r := { r with
    itemsCreated := (newItems lower scope resolved fresh).length
    modifierGroupsCreated := r.modifierGroupsCreated + (plannedGroups lower resolved fresh).length
    modifierOptionsCreated := r.modifierOptionsCreated + ((plannedGroups lower resolved fresh).map (·.2.options.length)).sum }

def createGroups : Call where
  valid := (plannedGroups lower resolved fresh).all (·.2.valid)
  write w := { w with menu := { w.menu with groups := w.menu.groups ++ newGroups lower scope resolved fresh } }

def replaceMatched (row : MenuImportPreviewRow) : Call where
  valid := updateValid row
  write := updateOne replaceItem row

def mergeMatched (row : MenuImportPreviewRow) : Call where
  write := updateOne mergeItem row

def countRows : Call where
  count r := { r with
    itemsUpdated := (toReplace resolved).length + (toMerge resolved).length
    itemsSkipped := resolved.rows.countP (·.action = .skip) }

def categoryCalls : List Call := if categoriesToCreate lower resolved = [] then [] else [createCategories lower scope resolved fresh]

def itemCalls : List Call :=
  if toCreate resolved = [] then []
  else createItems lower scope resolved fresh ::
    if plannedGroups lower resolved fresh = [] then [] else [createGroups lower scope resolved fresh]

def updateCalls : List Call :=
  (toReplace resolved).map replaceMatched ++ ((toMerge resolved).filter (·.sets)).map mergeMatched

/-- The function given to `withTransaction`; the commit follows. -/
def transaction : List Call :=
  categoryCalls lower scope resolved fresh ++ (itemCalls lower scope resolved fresh ++ (updateCalls resolved ++ [countRows resolved]))

end Calls

def countAll (calls : List Call) (r : Counters) : Counters := calls.foldl (fun r call => call.count r) r

def writeAll (calls : List Call) (w : Written) : Written := calls.foldl (fun w call => call.write w) w

structure Attempt where
  menu : Menu
  answered : Nat

def reportOf (resolved : ResolvedImport) (r : Counters) : MenuImportReport where
  totalRows := resolved.rows.length
  created := r.itemsCreated
  updated := r.itemsUpdated
  skipped := r.itemsSkipped
  errors := resolved.rows.countP (·.action = .error)
  categoriesCreated := r.categoriesCreated
  modifierGroupsCreated := r.modifierGroupsCreated
  modifierOptionsCreated := r.modifierOptionsCreated

section Retried

variable (lower : Text → Text) (scope : ImportScope) (resolved : ResolvedImport)

/-- What an attempt on a menu has counted behind the `n`th call. -/
def countsOf (menu : Menu) (n : Nat) (r : Counters) : Counters :=
  countAll ((transaction lower scope resolved (unusedId menu resolved)).take n) r

def countersAfter (aborted : List Attempt) : Counters :=
  aborted.foldl (fun r attempt => countsOf lower scope resolved attempt.menu attempt.answered r) {}

/-- `writeResolvedImport` with attempts that were aborted before the one that
commits, which sees `menu`. -/
def writeWithRetries (aborted : List Attempt) (menu : Menu) : Except Err (MenuImportReport × Written) :=
  let calls := transaction lower scope resolved (unusedId menu resolved)
  if calls.all (·.valid) then
    .ok (reportOf resolved (countAll calls (countersAfter lower scope resolved aborted)), writeAll calls { menu })
  else .error (.other "ValidationError")

end Retried

def callsToCount (lower : Text → Text) (resolved : ResolvedImport) : Nat := if categoriesToCreate lower resolved = [] then 1 else 2

structure EachChanges (menu : Menu) (resolved : ResolvedImport) : Prop where
  sets : ∀ row ∈ toMerge resolved, row.sets = true
  found : ∀ row ∈ toReplace resolved ++ toMerge resolved, ∃ item ∈ menu.items, row.matchedItemId = some item.id
  apart : ((toReplace resolved ++ toMerge resolved).map (·.matchedItemId)).Nodup

/-! ## What is counted -/

section Counted

variable {lower : Text → Text} {scope : ImportScope} {resolved : ResolvedImport} {fresh : Id} {r r' : Counters}

theorem countAll_append {calls more : List Call} : countAll (calls ++ more) r = countAll more (countAll calls r) := List.foldl_append

structure Counters.SameCreated (r r' : Counters) : Prop where
  itemsCreated : r'.itemsCreated = r.itemsCreated
  categoriesCreated : r'.categoriesCreated = r.categoriesCreated
  modifierGroupsCreated : r'.modifierGroupsCreated = r.modifierGroupsCreated
  modifierOptionsCreated : r'.modifierOptionsCreated = r.modifierOptionsCreated

theorem Counters.SameCreated.refl : r.SameCreated r := ⟨rfl, rfl, rfl, rfl⟩

theorem countAll_same {calls : List Call} (h : ∀ call ∈ calls, ∀ r : Counters, r.SameCreated (call.count r)) :
    r.SameCreated (countAll calls r) := by
  induction calls generalizing r with
  | nil => exact .refl
  | cons call calls ih =>
    have hFirst := h call List.mem_cons_self r
    have hRest := @ih (call.count r) fun c hc => h c (List.mem_cons_of_mem _ hc)
    exact ⟨hRest.itemsCreated.trans hFirst.itemsCreated, hRest.categoriesCreated.trans hFirst.categoriesCreated,
      hRest.modifierGroupsCreated.trans hFirst.modifierGroupsCreated, hRest.modifierOptionsCreated.trans hFirst.modifierOptionsCreated⟩

theorem updateCalls_same {call : Call} (h : call ∈ updateCalls resolved ++ [countRows resolved]) (r : Counters) : r.SameCreated (call.count r) := by
  rcases List.mem_append.mp h with hUpdate | hEnd
  · rcases List.mem_append.mp hUpdate with hReplace | hMerge
    · obtain ⟨row, -, rfl⟩ := List.mem_map.mp hReplace
      exact .refl
    · obtain ⟨row, -, rfl⟩ := List.mem_map.mp hMerge
      exact .refl
  · rw [List.mem_singleton.mp hEnd]
    exact ⟨rfl, rfl, rfl, rfl⟩

theorem groupCalls_same {call : Call}
    (h : call ∈ (if plannedGroups lower resolved fresh = [] then [] else [createGroups lower scope resolved fresh]) ++
      (updateCalls resolved ++ [countRows resolved])) (r : Counters) : r.SameCreated (call.count r) := by
  rcases List.mem_append.mp h with hGroups | hRest
  · split at hGroups
    · cases hGroups
    · rw [List.mem_singleton.mp hGroups]
      exact .refl
  · exact updateCalls_same hRest r

/-- What is counted behind the `n`th call, the groups with the `first`th. -/
structure Counters.Through (lower : Text → Text) (resolved : ResolvedImport) (first n : Nat) (r r' : Counters) : Prop where
  groups : r'.modifierGroupsCreated = r.modifierGroupsCreated + if first ≤ n then (importReport lower resolved).modifierGroupsCreated else 0
  options : r'.modifierOptionsCreated = r.modifierOptionsCreated + if first ≤ n then (importReport lower resolved).modifierOptionsCreated else 0
  items : r'.itemsCreated = if toCreate resolved ≠ [] ∧ first ≤ n then (toCreate resolved).length else r.itemsCreated

theorem countAll_itemCalls (n : Nat) :
    r.Through lower resolved 1 n (countAll ((itemCalls lower scope resolved fresh ++ (updateCalls resolved ++ [countRows resolved])).take n) r) ∧
      (countAll ((itemCalls lower scope resolved fresh ++ (updateCalls resolved ++ [countRows resolved])).take n) r).categoriesCreated =
        r.categoriesCreated := by
  unfold itemCalls
  by_cases hNone : toCreate resolved = []
  · rw [if_pos hNone, List.nil_append]
    have hSame := @countAll_same r ((updateCalls resolved ++ [countRows resolved]).take n) fun call hMem =>
      updateCalls_same (List.mem_of_mem_take hMem)
    refine ⟨⟨hSame.modifierGroupsCreated.trans ?_, hSame.modifierOptionsCreated.trans ?_, hSame.itemsCreated.trans ?_⟩,
      hSame.categoriesCreated⟩
    · simp [importReport, hNone]
    · simp [importReport, hNone]
    · simp [hNone]
  · rw [if_neg hNone, List.cons_append]
    cases n with
    | zero => exact ⟨⟨rfl, rfl, (if_neg fun h => absurd h.2 (Nat.not_succ_le_zero 0)).symm⟩, rfl⟩
    | succ n =>
      rw [List.take_succ_cons]
      have hSame := @countAll_same ((createItems lower scope resolved fresh).count r) (((if plannedGroups lower resolved fresh = [] then []
          else [createGroups lower scope resolved fresh]) ++ (updateCalls resolved ++ [countRows resolved])).take n) fun call hMem =>
        groupCalls_same (List.mem_of_mem_take hMem)
      have hFirst : 1 ≤ n + 1 := Nat.succ_pos n
      refine ⟨⟨hSame.modifierGroupsCreated.trans ?_, hSame.modifierOptionsCreated.trans ?_, hSame.itemsCreated.trans ?_⟩,
        hSame.categoriesCreated⟩
      · rw [if_pos hFirst, ← @length_plannedGroups lower resolved fresh]
        rfl
      · rw [if_pos hFirst, ← @options_plannedGroups lower resolved fresh]
        rfl
      · rw [if_pos ⟨hNone, hFirst⟩]
        exact List.length_mapIdx

theorem countAll_transaction (n : Nat) :
    r.Through lower resolved (callsToCount lower resolved) n (countAll ((transaction lower scope resolved fresh).take n) r) ∧
      (countAll ((transaction lower scope resolved fresh).take n) r).categoriesCreated =
        if categoriesToCreate lower resolved ≠ [] ∧ 1 ≤ n then (categoriesToCreate lower resolved).length else r.categoriesCreated := by
  unfold transaction categoryCalls callsToCount
  by_cases hNone : categoriesToCreate lower resolved = []
  · rw [if_pos hNone, if_pos hNone, List.nil_append, if_neg fun h => h.1 hNone]
    exact countAll_itemCalls n
  · rw [if_neg hNone, if_neg hNone, List.singleton_append]
    cases n with
    | zero =>
      exact ⟨⟨rfl, rfl, (if_neg fun h => absurd h.2 (Nat.not_succ_le_zero 1)).symm⟩,
        (if_neg fun h => absurd h.2 (Nat.not_succ_le_zero 0)).symm⟩
    | succ n =>
      rw [List.take_succ_cons, if_pos ⟨hNone, Nat.succ_pos n⟩]
      obtain ⟨hThrough, hCategories⟩ :=
        @countAll_itemCalls lower scope resolved fresh ((createCategories lower scope resolved fresh).count r) n
      have hNext : (2 ≤ n + 1) = (1 ≤ n) := propext Nat.succ_le_succ_iff
      refine ⟨⟨?_, ?_, ?_⟩, hCategories.trans List.length_mapIdx⟩
      · simp only [hNext]
        exact hThrough.groups
      · simp only [hNext]
        exact hThrough.options
      · simp only [hNext]
        exact hThrough.items

theorem one_le_callsToCount : 1 ≤ callsToCount lower resolved := by
  unfold callsToCount
  split <;> omega

theorem callsToCount_le : callsToCount lower resolved ≤ (transaction lower scope resolved fresh).length := by
  unfold transaction categoryCalls callsToCount
  simp only [List.length_append, List.length_singleton]
  split
  · omega
  · rw [List.length_singleton]
    omega

theorem countersAfter_counts (aborted : List Attempt) :
    (countersAfter lower scope resolved aborted).modifierGroupsCreated =
        aborted.countP (fun attempt => callsToCount lower resolved ≤ attempt.answered) * (importReport lower resolved).modifierGroupsCreated ∧
      (countersAfter lower scope resolved aborted).modifierOptionsCreated =
        aborted.countP (fun attempt => callsToCount lower resolved ≤ attempt.answered) * (importReport lower resolved).modifierOptionsCreated ∧
      (toCreate resolved = [] → (countersAfter lower scope resolved aborted).itemsCreated = 0) ∧
      (categoriesToCreate lower resolved = [] → (countersAfter lower scope resolved aborted).categoriesCreated = 0) := by
  unfold countersAfter
  induction aborted using List.reverseRecOn with
  | nil => exact ⟨(Nat.zero_mul _).symm, (Nat.zero_mul _).symm, fun _ => rfl, fun _ => rfl⟩
  | append_singleton aborted attempt ih =>
    obtain ⟨hGroups, hOptions, hItems, hCategories⟩ := ih
    rw [List.foldl_append, List.foldl_cons, List.foldl_nil, List.countP_append, List.countP_singleton]
    generalize aborted.foldl (fun r attempt => countsOf lower scope resolved attempt.menu attempt.answered r) {} = r at *
    obtain ⟨hThrough, hCats⟩ := @countAll_transaction lower scope resolved (unusedId attempt.menu resolved) r attempt.answered
    have hCount (m : Nat) : (if callsToCount lower resolved ≤ attempt.answered then m else 0) =
        (if decide (callsToCount lower resolved ≤ attempt.answered) = true then 1 else 0) * m := by
      simp
    refine ⟨?_, ?_, fun hNone => ?_, fun hNone => ?_⟩
    · rw [Nat.add_mul, ← hGroups, ← hCount]
      exact hThrough.groups
    · rw [Nat.add_mul, ← hOptions, ← hCount]
      exact hThrough.options
    · exact (hThrough.items.trans (if_neg fun h => h.1 hNone)).trans (hItems hNone)
    · exact (hCats.trans (if_neg fun h => h.1 hNone)).trans (hCategories hNone)

theorem report_counts (aborted : List Attempt) :
    let report := reportOf resolved (countAll (transaction lower scope resolved fresh) (countersAfter lower scope resolved aborted))
    let once := importReport lower resolved
    let again := aborted.countP fun attempt => callsToCount lower resolved ≤ attempt.answered
    report.created = (toCreate resolved).length ∧ report.categoriesCreated = (categoriesToCreate lower resolved).length ∧
      report.updated = (toReplace resolved).length + (toMerge resolved).length ∧
      report.modifierGroupsCreated = again * once.modifierGroupsCreated + once.modifierGroupsCreated ∧
      report.modifierOptionsCreated = again * once.modifierOptionsCreated + once.modifierOptionsCreated := by
  dsimp only [reportOf]
  obtain ⟨hGroups, hOptions, hItems, hCategories⟩ := @countersAfter_counts lower scope resolved aborted
  generalize countersAfter lower scope resolved aborted = r at hGroups hOptions hItems hCategories ⊢
  obtain ⟨hThrough, hCats⟩ := @countAll_transaction lower scope resolved fresh r (transaction lower scope resolved fresh).length
  rw [List.take_length] at hThrough hCats
  have hReached := @callsToCount_le lower scope resolved fresh
  refine ⟨?_, ?_, ?_, ?_, ?_⟩
  · rw [hThrough.items]
    by_cases hNone : toCreate resolved = []
    · rw [if_neg fun h => h.1 hNone, hItems hNone, hNone, List.length_nil]
    · rw [if_pos ⟨hNone, hReached⟩]
  · rw [hCats]
    by_cases hNone : categoriesToCreate lower resolved = []
    · rw [if_neg fun h => h.1 hNone, hCategories hNone, hNone, List.length_nil]
    · rw [if_pos ⟨hNone, (one_le_callsToCount).trans hReached⟩]
  · rw [transaction, countAll_append, countAll_append, countAll_append]
    rfl
  · rw [hThrough.groups, if_pos hReached, hGroups]
  · rw [hThrough.options, if_pos hReached, hOptions]

end Counted

/-! ## What is written -/

section Written

variable {lower : Text → Text} {scope : ImportScope} {resolved : ResolvedImport} {fresh : Id} {w : Written} {menu : Menu}
  {change : MenuImportPreviewRow → MenuItem → MenuItem} {rows : List MenuImportPreviewRow} {ids : List Id}

theorem writeAll_append {calls more : List Call} : writeAll (calls ++ more) w = writeAll more (writeAll calls w) := List.foldl_append

theorem length_updateItems {items : List MenuItem} : (updateItems change rows items).length = items.length := by
  unfold updateItems
  induction rows generalizing items with
  | nil => rfl
  | cons row rows ih => rw [List.foldl_cons, ih, List.length_map]

theorem writeAll_updateOne {call : MenuImportPreviewRow → Call} (hWrite : ∀ row, (call row).write = updateOne change row)
    (hKeep : ∀ row item, (change row item).id = item.id) :
    writeAll (rows.map call) w =
      { menu := { w.menu with items := updateItems change rows w.menu.items }
        updated := rows.foldl (withMatched (w.menu.items.map (·.id))) w.updated } := by
  induction rows generalizing w with
  | nil => rfl
  | cons row rows ih =>
    have hStep : writeAll ((row :: rows).map call) w = writeAll (rows.map call) (updateOne change row w) := by
      rw [← hWrite row]
      rfl
    rw [hStep, ih]
    have hIds : ((updateOne change row w).menu.items.map (·.id)) = w.menu.items.map (·.id) := map_updateItems hKeep
    rw [hIds]
    rfl

theorem writeAll_updateCalls : writeAll (updateCalls resolved ++ [countRows resolved]) w =
    { menu := { w.menu with
        items := updateItems mergeItem ((toMerge resolved).filter (·.sets)) (updateItems replaceItem (toReplace resolved) w.menu.items) }
      updated := (toReplace resolved ++ (toMerge resolved).filter (·.sets)).foldl (withMatched (w.menu.items.map (·.id))) w.updated } := by
  have hReplace := @writeAll_updateOne w replaceItem (toReplace resolved) replaceMatched (fun _ => rfl) fun _ _ => rfl
  have hMerge (w' : Written) := @writeAll_updateOne w' mergeItem ((toMerge resolved).filter (·.sets)) mergeMatched (fun _ => rfl) fun _ _ => rfl
  have hIds := @map_updateItems _ replaceItem (·.id) (fun _ _ => rfl) (toReplace resolved) w.menu.items
  rw [writeAll_append, updateCalls, writeAll_append, hReplace, hMerge, List.foldl_append]
  dsimp only
  rw [hIds]
  rfl

theorem writeAll_categoryCalls : writeAll (categoryCalls lower scope resolved fresh) w =
    { w with menu := { w.menu with categories := w.menu.categories ++ newCategories lower scope resolved fresh } } := by
  unfold categoryCalls
  split
  · rename_i hNone
    rw [newCategories, hNone, List.mapIdx_nil, List.append_nil]
    rfl
  · rfl

theorem writeAll_itemCalls : writeAll (itemCalls lower scope resolved fresh) w =
    { w with menu := { w.menu with
        items := w.menu.items ++ newItems lower scope resolved fresh
        groups := w.menu.groups ++ newGroups lower scope resolved fresh } } := by
  unfold itemCalls
  split
  · rename_i hNone
    have hPlanned : plannedGroups lower resolved fresh = [] := by rw [plannedGroups, hNone, List.mapIdx_nil, List.flatten_nil]
    rw [newItems, hNone, List.mapIdx_nil, newGroups, hPlanned, List.mapIdx_nil, List.append_nil, List.append_nil]
    rfl
  · split
    · rename_i hPlanned
      have hGroups : newGroups lower scope resolved fresh = [] := by
        rw [newGroups, hPlanned]
        rfl
      rw [hGroups, List.append_nil]
      rfl
    · rfl

theorem writeAll_transaction : writeAll (transaction lower scope resolved fresh) { menu } =
    { menu := { menu with
        categories := menu.categories ++ newCategories lower scope resolved fresh
        items := updateItems mergeItem ((toMerge resolved).filter (·.sets))
          (updateItems replaceItem (toReplace resolved) (menu.items ++ newItems lower scope resolved fresh))
        groups := menu.groups ++ newGroups lower scope resolved fresh }
      updated := (toReplace resolved ++ (toMerge resolved).filter (·.sets)).foldl
        (withMatched ((menu.items ++ newItems lower scope resolved fresh).map (·.id))) [] } := by
  rw [transaction, writeAll_append, writeAll_append, writeAll_categoryCalls, writeAll_itemCalls, writeAll_updateCalls]

theorem length_foldl_withMatched {updated : List Id} :
    (rows.foldl (withMatched ids) updated).length ≤ updated.length + rows.length ∧
      ((rows.foldl (withMatched ids) updated).length = updated.length + rows.length ↔
        (∀ row ∈ rows, ∃ id ∈ ids, row.matchedItemId = some id ∧ id ∉ updated) ∧ (rows.map (·.matchedItemId)).Nodup) := by
  induction rows generalizing updated with
  | nil => simp
  | cons row rows ih =>
    rw [List.foldl_cons, List.length_cons]
    by_cases hMatched : ∃ id ∈ ids, row.matchedItemId = some id ∧ id ∉ updated
    · obtain ⟨id, hIn, hId, hNew⟩ := hMatched
      have hStep : withMatched ids updated row = updated ++ [id] := by simp [withMatched, hId, hIn, hNew]
      obtain ⟨hLe, hIff⟩ := @ih (updated ++ [id])
      rw [hStep]
      rw [List.length_append, List.length_singleton] at hLe hIff
      refine ⟨by omega, ?_⟩
      rw [show updated.length + (rows.length + 1) = updated.length + 1 + rows.length by omega, hIff, List.map_cons, List.nodup_cons, hId]
      constructor
      · rintro ⟨hAll, hNodup⟩
        refine ⟨fun r hr => ?_, fun hMem => ?_, hNodup⟩
        · rcases List.mem_cons.mp hr with rfl | hr
          · exact ⟨id, hIn, hId, hNew⟩
          · obtain ⟨id', hIn', hId', hNew'⟩ := hAll r hr
            exact ⟨id', hIn', hId', fun h => hNew' (List.mem_append_left _ h)⟩
        · obtain ⟨r, hr, hSame⟩ := List.mem_map.mp hMem
          obtain ⟨id', -, hId', hNew'⟩ := hAll r hr
          obtain rfl : id' = id := Option.some.inj (hId'.symm.trans hSame)
          exact hNew' (List.mem_append_right _ (List.mem_singleton_self id'))
      · rintro ⟨hAll, hFirst, hNodup⟩
        refine ⟨fun r hr => ?_, hNodup⟩
        obtain ⟨id', hIn', hId', hNew'⟩ := hAll r (List.mem_cons_of_mem _ hr)
        refine ⟨id', hIn', hId', fun h => ?_⟩
        rcases List.mem_append.mp h with hOld | hSame
        · exact hNew' hOld
        · rw [List.mem_singleton.mp hSame] at hId'
          exact hFirst (List.mem_map.mpr ⟨r, hr, hId'⟩)
    · have hStep : withMatched ids updated row = updated := by
        rw [withMatched]
        cases hId : row.matchedItemId with
        | none => exact List.append_nil _
        | some id =>
          have hOut : ¬ (id ∈ ids ∧ id ∉ updated) := fun h => hMatched ⟨id, h.1, hId, h.2⟩
          simpa using hOut
      obtain ⟨hLe, -⟩ := @ih updated
      rw [hStep]
      refine ⟨by omega, fun h => by omega, fun h => absurd (h.1 row List.mem_cons_self) hMatched⟩

theorem lt_unusedId {row : MenuImportPreviewRow} {id : Id} (hRow : row ∈ resolved.rows) (hId : row.matchedItemId = some id) :
    id < unusedId menu resolved := by
  unfold unusedId
  have hMem : id ∈ resolved.rows.filterMap (·.matchedItemId) := List.mem_filterMap.mpr ⟨row, hRow, hId⟩
  generalize resolved.rows.filterMap (·.matchedItemId) = ids at hMem
  induction ids with
  | nil => cases hMem
  | cons i ids ih =>
    rw [List.map_cons, List.foldr_cons]
    rcases List.mem_cons.mp hMem with rfl | hMem
    · exact Nat.lt_of_lt_of_le (Nat.lt_succ_self _) (Nat.le_max_left _ _)
    · exact (ih hMem).trans_le (Nat.le_max_right _ _)

theorem updated_iff : (toReplace resolved).length + (toMerge resolved).length =
      ((toReplace resolved ++ (toMerge resolved).filter (·.sets)).foldl
        (withMatched ((menu.items ++ newItems lower scope resolved (unusedId menu resolved)).map (·.id))) []).length ↔
    EachChanges menu resolved := by
  have hFound {row : MenuImportPreviewRow} {id : Id} (hRow : row ∈ resolved.rows) (hId : row.matchedItemId = some id) :
      id ∈ (menu.items ++ newItems lower scope resolved (unusedId menu resolved)).map (·.id) ↔ id ∈ menu.items.map (·.id) := by
    rw [List.map_append, List.mem_append]
    refine ⟨fun h => h.resolve_right fun hNew => ?_, .inl⟩
    obtain ⟨item, hItem, rfl⟩ := List.mem_map.mp hNew
    obtain ⟨i, hi, rfl⟩ := List.mem_mapIdx.mp hItem
    have hLt := @lt_unusedId resolved menu _ _ hRow hId
    exact absurd hLt (Nat.not_lt.mpr ((Nat.le_add_right _ _).trans (Nat.le_add_right _ _)))
  have hRows {row : MenuImportPreviewRow} (h : row ∈ toReplace resolved ++ toMerge resolved) : row ∈ resolved.rows := by
    rcases List.mem_append.mp h with h | h <;> exact (List.mem_filter.mp h).1
  obtain ⟨hLe, hIff⟩ := @length_foldl_withMatched (toReplace resolved ++ (toMerge resolved).filter (·.sets))
    ((menu.items ++ newItems lower scope resolved (unusedId menu resolved)).map (·.id)) []
  rw [List.length_nil, Nat.zero_add] at hLe hIff
  rw [List.length_append] at hLe hIff
  have hFilter := List.length_filter_le (fun row : MenuImportPreviewRow => row.sets) (toMerge resolved)
  constructor
  · intro h
    have hAll : ((toMerge resolved).filter (·.sets)).length = (toMerge resolved).length := by omega
    have hSets := List.length_filter_eq_length_iff.mp hAll
    rw [List.filter_eq_self.mpr hSets] at hIff h
    obtain ⟨hMatched, hNodup⟩ := hIff.mp h.symm
    refine ⟨hSets, fun row hRow => ?_, hNodup⟩
    obtain ⟨id, hIn, hId, -⟩ := hMatched row hRow
    obtain ⟨item, hItem, rfl⟩ := List.mem_map.mp ((hFound (hRows hRow) hId).mp hIn)
    exact ⟨item, hItem, hId⟩
  · rintro ⟨hSets, hItems, hNodup⟩
    rw [List.filter_eq_self.mpr hSets] at hIff ⊢
    refine (hIff.mpr ⟨fun row hRow => ?_, hNodup⟩).symm
    obtain ⟨item, hItem, hId⟩ := hItems row hRow
    exact ⟨item.id, (hFound (hRows hRow) hId).mpr (List.mem_map_of_mem hItem), hId, List.not_mem_nil⟩

end Written

theorem options_eq_zero {lower : Text → Text} {resolved : ResolvedImport} (h : (importReport lower resolved).modifierGroupsCreated = 0) :
    (importReport lower resolved).modifierOptionsCreated = 0 := by
  rw [← @length_plannedGroups lower resolved 0, List.length_eq_zero_iff] at h
  rw [← @options_plannedGroups lower resolved 0, h]
  rfl

theorem again_eq_zero_iff {lower : Text → Text} {resolved : ResolvedImport} {aborted : List Attempt} :
    (aborted.countP fun attempt => callsToCount lower resolved ≤ attempt.answered) * (importReport lower resolved).modifierGroupsCreated = 0 ↔
      (∀ attempt ∈ aborted, attempt.answered < callsToCount lower resolved) ∨ ∀ row ∈ toCreate resolved, row.row.modifierGroups = [] := by
  rw [Nat.mul_eq_zero, List.countP_eq_zero]
  refine or_congr ?_ ?_
  · simp only [decide_eq_true_eq, Nat.not_le]
  · simp [importReport, List.sum_eq_zero_iff]

/-- The report tells what was committed just if no aborted attempt has got as far as counting
modifier groups, when there are any, and each row counted as updated changes an item of its own. -/
theorem report_tells_iff (lower : Text → Text) (scope : ImportScope) (resolved : ResolvedImport) (aborted : List Attempt) (menu : Menu)
    (report : MenuImportReport) (w : Written) (h : writeWithRetries lower scope resolved aborted menu = .ok (report, w)) :
    report.Tells menu w ↔
      ((∀ attempt ∈ aborted, attempt.answered < callsToCount lower resolved) ∨ ∀ row ∈ toCreate resolved, row.row.modifierGroups = []) ∧
        EachChanges menu resolved := by
  unfold writeWithRetries at h
  dsimp only at h
  split at h
  swap
  · cases h
  cases h
  obtain ⟨hCreated, hCategories, hUpdated, hGroups, hOptions⟩ := @report_counts lower scope resolved (unusedId menu resolved) aborted
  rw [← again_eq_zero_iff, ← @updated_iff lower scope resolved menu, writeAll_transaction]
  generalize (aborted.countP fun attempt => callsToCount lower resolved ≤ attempt.answered) = again at hGroups hOptions ⊢
  have hNewGroups : (newGroups lower scope resolved (unusedId menu resolved)).length = (importReport lower resolved).modifierGroupsCreated :=
    List.length_mapIdx.trans length_plannedGroups
  have hNewOptions : ((newGroups lower scope resolved (unusedId menu resolved)).map (·.options.length)).sum =
      (importReport lower resolved).modifierOptionsCreated := by
    rw [options_newGroups, options_plannedGroups]
  constructor
  · intro hTells
    refine ⟨?_, hUpdated.symm.trans hTells.updated⟩
    have hTold := hTells.modifierGroupsCreated
    rw [hGroups, List.length_append, hNewGroups] at hTold
    omega
  · rintro ⟨hOnce, hMatched⟩
    refine ⟨?_, ?_, ?_, ?_, hUpdated.trans hMatched⟩
    · rw [hCreated, length_updateItems, length_updateItems, List.length_append]
      exact congrArg (_ + ·) List.length_mapIdx.symm
    · rw [hCategories, List.length_append]
      exact congrArg (_ + ·) List.length_mapIdx.symm
    · rw [hGroups, hOnce, List.length_append, hNewGroups, Nat.zero_add]
    · have hNoOptions : again * (importReport lower resolved).modifierOptionsCreated = 0 := by
        rcases Nat.mul_eq_zero.mp hOnce with hNone | hNone
        · rw [hNone, Nat.zero_mul]
        · rw [options_eq_zero hNone, Nat.mul_zero]
      rw [hOptions, hNoOptions, List.map_append, List.sum_append, hNewOptions, Nat.zero_add]

/-! ## A first attempt that commits -/

section Once

variable {lower : Text → Text} {scope : ImportScope} {resolved : ResolvedImport} {fresh : Id} {menu : Menu}

end Once

def pizza : MenuImportPreviewRow where
  row := {
    rowNumber := 2
    categoryName := "Pizza".toList
    itemName := "Margherita".toList
    price := some 9
    modifierGroups := [{ name := "Size".toList, minSelect := 0, maxSelect := 1, options := [{ name := "Large".toList, priceAdjustment := 2 }] }] }
  sortOrder := 0
  action := .create

def pizzaImport : ResolvedImport where
  rows := [pizza]
  categories := []
  categoriesToCreate := []
  existingCategories := [("Pizza".toList, 1)]

/-- An attempt that is aborted before the pizza is created counts nothing. -/
theorem pizza_told : ∃ report w,
    writeWithRetries id { restaurantId := 7 } pizzaImport [⟨{}, 0⟩] {} = .ok (report, w) ∧ report.Tells {} w := by
  have hRun : ∃ result, writeWithRetries id { restaurantId := 7 } pizzaImport [⟨{}, 0⟩] {} = .ok result := ⟨_, rfl⟩
  obtain ⟨⟨report, w⟩, hResult⟩ := hRun
  refine ⟨report, w, hResult, (report_tells_iff _ _ _ _ _ report w hResult).mpr ⟨.inl ?_, ?_, ?_, ?_⟩⟩
  · decide
  · decide
  · decide
  · decide

/-- The transaction is aborted at its commit and tried again: one group is created, two are
reported. -/
theorem pizza_counted_twice : ¬ ∀ (lower : Text → Text) (scope : ImportScope) (resolved : ResolvedImport) (aborted : List Attempt) (menu : Menu)
    (report : MenuImportReport) (w : Written), writeWithRetries lower scope resolved aborted menu = .ok (report, w) → report.Tells menu w := by
  intro hClaim
  have hTells := hClaim id { restaurantId := 7 } pizzaImport [⟨{}, 3⟩] {} _ _ rfl
  have hGroups := hTells.modifierGroupsCreated
  revert hGroups
  decide

end Retries

end RestaurantOs.MenuImport
