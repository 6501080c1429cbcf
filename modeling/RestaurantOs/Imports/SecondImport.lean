import RestaurantOs.Imports.Overlaps

/-!
# Importing a file twice

What an import has written is what the same file matches when it is imported again: the
second import creates nothing, and what it changes is so already.
-/

namespace RestaurantOs.MenuImport.SecondRun

open Menus

/-! ## Rows with their positions -/

def positionRows (lower : Text → Text) : SortOrders → List NormalizedImportRow → List (Nat × NormalizedImportRow)
  | _, [] => []
  | orders, row :: rows => ((positionRow lower orders row).1, row) :: positionRows lower (positionRow lower orders row).2 rows

def filePositions (lower : Text → Text) (normalized : List NormalizedImportRow) : List (Nat × NormalizedImportRow) :=
  positionRows lower (nextSortOrders lower (markDuplicates lower [] normalized)) (markDuplicates lower [] normalized)

section Positions

variable {lower : Text → Text} {categories : List Category} {items : List MenuItem} {strategy : DuplicateStrategy} {orders : SortOrders}
  {rows : List NormalizedImportRow}

theorem resolveRows_eq : resolveRows lower categories items strategy orders rows =
    (positionRows lower orders rows).map fun p => resolveRow strategy p.1 p.2 (matchedItem? lower categories items p.2) := by
  induction rows generalizing orders with
  | nil => rfl
  | cons row rows ih =>
    rw [positionRows, List.map_cons, ← ih]
    rfl

theorem map_snd_positionRows : (positionRows lower orders rows).map (·.2) = rows := by
  induction rows generalizing orders with
  | nil => rfl
  | cons row rows ih => rw [positionRows, List.map_cons, ih]

theorem snd_mem {normalized : List NormalizedImportRow} {p : Nat × NormalizedImportRow} (hMem : p ∈ filePositions lower normalized) :
    p.2 ∈ markDuplicates lower [] normalized := by
  have hRow : p.2 ∈ (filePositions lower normalized).map (·.2) := List.mem_map_of_mem hMem
  rw [filePositions, map_snd_positionRows] at hRow
  exact hRow

end Positions

theorem named_of_sound {row : NormalizedImportRow} (h : row.Sound) (hClean : row.issues = []) : row.named = true := by
  have hText := h.item hClean
  rw [NormalizedImportRow.validItem, Bool.and_eq_true] at hText
  rw [NormalizedImportRow.named, Bool.and_eq_true, decide_eq_true_eq, decide_eq_true_eq]
  exact ⟨ne_nil_of_hasText (h.category hClean), ne_nil_of_hasText hText.1⟩

theorem position_inj {lower : Text → Text} {normalized : List NormalizedImportRow} (hSound : ∀ row ∈ normalized, row.Sound)
    {p q : Nat × NormalizedImportRow} (hp : p ∈ filePositions lower normalized) (hq : q ∈ filePositions lower normalized)
    (hpClean : p.2.issues = []) (hqClean : q.2.issues = [])
    (hCategory : normalizeKey lower p.2.categoryName = normalizeKey lower q.2.categoryName)
    (hItem : normalizeKey lower p.2.itemName = normalizeKey lower q.2.itemName) : p = q := by
  have hNodup := (@nodup_markDuplicates lower normalized [] fun row hRow => named_of_sound (hSound row hRow)).1
  have hRows : (filePositions lower normalized).map (·.2) = markDuplicates lower [] normalized := map_snd_positionRows
  rw [← hRows, List.filter_map, List.map_map] at hNodup
  refine List.inj_on_of_nodup_map hNodup (List.mem_filter.mpr ⟨hp, decide_eq_true hpClean⟩) (List.mem_filter.mpr ⟨hq, decide_eq_true hqClean⟩) ?_
  rw [Function.comp_apply, Function.comp_apply, fileKey, hCategory, hItem, fileKey]

/-! ## The match of a row -/

def itemKey (lower : Text → Text) (item : MenuItem) : Id × Text := (item.categoryId, normalizeKey lower item.name)

def found? (env : Env) (menu : Menu) (scope : ImportScope) (normalized : List NormalizedImportRow) (row : NormalizedImportRow) :
    Option MenuItem :=
  let categories := loadExistingCategories menu scope
  matchedItem? env.lower categories (loadExistingItems menu scope (existingCategoryIds env.lower categories normalized)) row

def imported (env : Env) (menu : Menu) (scope : ImportScope) (strategy : DuplicateStrategy) (normalized : List NormalizedImportRow) : Menu :=
  writtenMenu env.lower menu scope (resolveImport env menu normalized scope strategy)

section Matches

variable {env : Env} {menu : Menu} {scope : ImportScope} {strategy : DuplicateStrategy} {normalized : List NormalizedImportRow}
  {row : NormalizedImportRow} {name : Text}

theorem rows_resolveImport : (resolveImport env menu normalized scope strategy).rows =
    (filePositions env.lower normalized).map fun p => resolveRow strategy p.1 p.2 (found? env menu scope normalized p.2) := resolveRows_eq

theorem found?_eq (hMem : row ∈ markDuplicates env.lower [] normalized) (hNamed : row.categoryName ≠ []) :
    found? env menu scope normalized row =
      (existingCategory? env.lower (loadExistingCategories menu scope) row.categoryName).bind fun c =>
        mapGet (itemKey env.lower) (menu.items.filter scope.hasItem) (c.id, normalizeKey env.lower row.itemName) := by
  unfold found? matchedItem?
  dsimp only
  cases hCategory : existingCategory? env.lower (loadExistingCategories menu scope) row.categoryName with
  | none => rfl
  | some c =>
    rw [Option.bind_some, Option.bind_some]
    refine mapGet_filter_and fun item _ hKey => ?_
    obtain ⟨r, hr, hSame⟩ := Traversals.exists_of_forall₂ (@forall₂_markDuplicates env.lower [] normalized).flip hMem
    have hName : r.categoryName = row.categoryName := congrArg (·.categoryName) hSame.symm
    have hListed : normalizeKey env.lower row.categoryName ∈ (orderedCategoryNames env.lower normalized).map (normalizeKey env.lower) := by
      refine mem_map_firstByKey.mpr ⟨List.mem_map_of_mem (List.mem_filter.mpr ⟨?_, decide_eq_true hNamed⟩), List.not_mem_nil⟩
      exact hName ▸ List.mem_map_of_mem hr
    obtain ⟨n, hn, hSameKey⟩ := List.mem_map.mp hListed
    rw [List.contains_iff_mem]
    refine List.mem_filterMap.mpr ⟨n, hn, ?_⟩
    have hId : item.categoryId = c.id := congrArg Prod.fst hKey
    rw [existingCategory?_congr hSameKey, hCategory, Option.map_some, hId]

/-! ### The categories -/

theorem categoryIdByName_eq {fresh : Id} : categoryIdByName env.lower (resolveImport env menu normalized scope strategy) fresh name =
    (existingCategory? env.lower (loadExistingCategories menu scope ++
      newCategories env.lower scope (resolveImport env menu normalized scope strategy) fresh) name).map (·.id) := by
  have hKeys := @keys_newCategories env.lower scope (resolveImport env menu normalized scope strategy) fresh
  rw [existingCategory?, mapGet_append]
  unfold categoryIdByName
  dsimp only
  split
  · rename_i i hFound
    obtain ⟨hLt, hKey, -⟩ := List.findIdx?_eq_some_iff_getElem.mp hFound
    have hMem : newCategory scope (fresh + i) i (categoriesToCreate env.lower (resolveImport env menu normalized scope strategy))[i] ∈
        newCategories env.lower scope (resolveImport env menu normalized scope strategy) fresh := List.mem_mapIdx.mpr ⟨i, hLt, rfl⟩
    have hNodup : ((newCategories env.lower scope (resolveImport env menu normalized scope strategy) fresh).map
        fun c => normalizeKey env.lower c.name).Nodup := by
      rw [hKeys]
      exact nodup_map_firstByKey
    have hKeyOf := (@normalizeKey_trim env.lower _).trans (of_decide_eq_true hKey)
    rw [mapGet_of_unique hMem hKeyOf fun e he hEKey => List.inj_on_of_nodup_map hNodup he hMem (hEKey.trans hKeyOf.symm)]
    rfl
  · rename_i hNone
    have hGet : mapGet (fun c => normalizeKey env.lower c.name)
        (newCategories env.lower scope (resolveImport env menu normalized scope strategy) fresh) (normalizeKey env.lower name) = none := by
      rw [← Option.not_isSome_iff_eq_none, mapGet_isSome]
      rintro ⟨c, hc, hKey⟩
      have hListed := List.mem_map_of_mem (f := fun c : Category => normalizeKey env.lower c.name) hc
      rw [hKeys] at hListed
      obtain ⟨n, hn, hSame⟩ := List.mem_map.mp hListed
      exact absurd (hSame.trans hKey) (by simpa using List.findIdx?_eq_none_iff.mp hNone n hn)
    rw [hGet, Option.none_or, ResolvedImport.existingCategoryIdByName]
    change ((mapGet (·.1) ((loadExistingCategories menu scope).map fun c => (normalizeKey env.lower c.name, c.id)) _).map _) = _
    rw [mapGet_map (fun _ => rfl), Option.map_map]
    rfl

theorem existingCategory?_imported {c : Category} (h : existingCategory? env.lower (loadExistingCategories menu scope) name = some c) :
    existingCategory? env.lower (loadExistingCategories (imported env menu scope strategy normalized) scope) name = some c := by
  have hGet : mapGet (fun c => normalizeKey env.lower c.name) (newCategories env.lower scope (resolveImport env menu normalized scope strategy)
      (freshId menu (resolveImport env menu normalized scope strategy))) (normalizeKey env.lower name) = none := by
    rw [← Option.not_isSome_iff_eq_none, mapGet_isSome]
    rintro ⟨new, hNew, hKey⟩
    have hListed := List.mem_map_of_mem (f := fun c : Category => normalizeKey env.lower c.name) hNew
    rw [keys_newCategories] at hListed
    obtain ⟨n, hn, hSame⟩ := List.mem_map.mp hListed
    have hMissing := (List.mem_filter.mp (firstByKey_subset hn)).2
    rw [hSame.trans hKey, ← Option.not_isSome, resolveImport, existingCategory?_isSome, h] at hMissing
    cases hMissing
  rw [imported, load_writtenMenu, existingCategory?, mapGet_append, hGet, Option.none_or]
  exact h

theorem name_of_category {lower : Text → Text} {categories : List Category} (hIds : (categories.map (·.id)).Nodup) {a b : Text} {id : Id}
    (ha : (existingCategory? lower categories a).map (·.id) = some id) (hb : (existingCategory? lower categories b).map (·.id) = some id) :
    normalizeKey lower a = normalizeKey lower b := by
  obtain ⟨c, hc, rfl⟩ := Option.map_eq_some_iff.mp ha
  obtain ⟨c', hc', hSame⟩ := Option.map_eq_some_iff.mp hb
  rw [← (mem_of_mapGet hc).2, ← (mem_of_mapGet hc').2, Tables.eq_of_id hIds (mem_of_mapGet hc).1 (mem_of_mapGet hc').1 hSame.symm]

end Matches

/-! ## The changes of an import -/

section Applied

variable {change : MenuImportPreviewRow → MenuItem → MenuItem} {rows : List MenuImportPreviewRow} {item : MenuItem} {row : MenuImportPreviewRow}

def applied (change : MenuImportPreviewRow → MenuItem → MenuItem) (rows : List MenuImportPreviewRow) (item : MenuItem) : MenuItem :=
  rows.foldl (fun item row => if row.matchedItemId = some item.id then change row item else item) item

theorem updateItems_eq {items : List MenuItem} : updateItems change rows items = items.map (applied change rows) := by
  unfold updateItems
  induction rows generalizing items with
  | nil => exact (List.map_id _).symm
  | cons row rows ih =>
    rw [List.foldl_cons, ih, List.map_map]
    rfl

theorem applied_keeps {β : Type} {key : MenuItem → β} (hKeep : ∀ row item, key (change row item) = key item) :
    key (applied change rows item) = key item := by
  have hOne := @map_updateItems _ change key hKeep rows [item]
  rw [updateItems_eq] at hOne
  exact List.head_eq_of_cons_eq hOne

theorem applied_self (h : ∀ row ∈ rows, row.matchedItemId = some item.id → change row item = item) : applied change rows item = item := by
  induction rows with
  | nil => rfl
  | cons row rows ih =>
    rw [List.forall_mem_cons] at h
    rw [applied, List.foldl_cons]
    split
    · rename_i hMatch
      rw [h.1 hMatch]
      exact ih h.2
    · exact ih h.2

theorem replaceItem_congr {r : MenuImportPreviewRow} (hRow : r.row = row.row) (hSortOrder : r.sortOrder = row.sortOrder) :
    replaceItem r = replaceItem row := by
  funext item
  rw [replaceItem, hRow, hSortOrder, replaceItem]

theorem replaceItem_twice : replaceItem row (replaceItem row item) = replaceItem row item := by
  unfold replaceItem
  cases row.row.price <;> cases row.row.imageUrl.filter (· ≠ []) <;> rfl

theorem replaceItem_newItem {scope : ImportScope} {id categoryId : Id} :
    replaceItem row (newItem scope id categoryId row) = newItem scope id categoryId row := by
  have hPrice : row.row.price.getD (row.row.price.getD 0) = row.row.price.getD 0 := by cases row.row.price <;> rfl
  have hUrl : (row.row.imageUrl.filter (· ≠ [])).or row.row.imageUrl = row.row.imageUrl := by
    cases row.row.imageUrl with
    | none => rfl
    | some url =>
      rw [Option.filter_some]
      split <;> rfl
  unfold replaceItem newItem
  dsimp only
  rw [hPrice, hUrl]

theorem applied_settled (hMem : row ∈ rows) (hMatch : row.matchedItemId = some item.id)
    (hOnly : ∀ r ∈ rows, r.matchedItemId = some item.id → replaceItem r = replaceItem row) :
    applied replaceItem rows item = replaceItem row item := by
  induction rows with
  | nil => cases hMem
  | cons r rows ih =>
    rw [List.forall_mem_cons] at hOnly
    rw [applied, List.foldl_cons]
    split
    · rename_i hFirst
      rw [hOnly.1 hFirst]
      refine applied_self fun r hr hMatch => ?_
      rw [hOnly.2 r hr hMatch, replaceItem_twice]
    · rename_i hOther
      rcases List.mem_cons.mp hMem with rfl | hLater
      · exact absurd hMatch hOther
      · exact ih hLater hOnly.2

end Applied

/-! ## What the second run finds -/

section SecondRun

variable {env : Env} {menu : Menu} {scope : ImportScope} {strategy : DuplicateStrategy} {normalized : List NormalizedImportRow}
  {p q : Nat × NormalizedImportRow} {item : MenuItem}

theorem nodup_imported (hCategories : (menu.categories.map (·.id)).Nodup) :
    ((loadExistingCategories (imported env menu scope strategy normalized) scope).map (·.id)).Nodup :=
  (nodup_ids_writtenMenu hCategories).sublist (List.filter_sublist.map _)

theorem clean_named (hSound : ∀ row ∈ normalized, row.Sound) (hp : p ∈ filePositions env.lower normalized) (hClean : p.2.issues = []) :
    p.2.categoryName ≠ [] :=
  ne_nil_of_hasText ((sound_markDuplicates hSound (snd_mem hp)).category hClean)

theorem found?_some (hSound : ∀ row ∈ normalized, row.Sound) (hp : p ∈ filePositions env.lower normalized) (hClean : p.2.issues = [])
    (h : found? env menu scope normalized p.2 = some item) :
    ∃ c, existingCategory? env.lower (loadExistingCategories menu scope) p.2.categoryName = some c ∧
      mapGet (itemKey env.lower) (menu.items.filter scope.hasItem) (c.id, normalizeKey env.lower p.2.itemName) = some item ∧
        item ∈ menu.items ∧ item.categoryId = c.id ∧ normalizeKey env.lower item.name = normalizeKey env.lower p.2.itemName := by
  rw [found?_eq (snd_mem hp) (clean_named hSound hp hClean)] at h
  obtain ⟨c, hc, hGet⟩ := Option.bind_eq_some_iff.mp h
  obtain ⟨hMem, hKey⟩ := mem_of_mapGet hGet
  exact ⟨c, hc, hGet, (List.mem_filter.mp hMem).1, congrArg Prod.fst hKey, congrArg Prod.snd hKey⟩

theorem found?_inj (hSound : ∀ row ∈ normalized, row.Sound) (hCategories : (menu.categories.map (·.id)).Nodup)
    (hp : p ∈ filePositions env.lower normalized) (hq : q ∈ filePositions env.lower normalized) (hpClean : p.2.issues = [])
    (hqClean : q.2.issues = []) (hpFound : found? env menu scope normalized p.2 = some item)
    (hqFound : found? env menu scope normalized q.2 = some item) : p = q := by
  obtain ⟨c, hc, -, -, hId, hName⟩ := found?_some hSound hp hpClean hpFound
  obtain ⟨c', hc', -, -, hId', hName'⟩ := found?_some hSound hq hqClean hqFound
  refine position_inj hSound hp hq hpClean hqClean ?_ (hName.symm.trans hName')
  refine @name_of_category env.lower (loadExistingCategories menu scope) (hCategories.sublist (List.filter_sublist.map _)) _ _ c.id ?_ ?_
  · rw [hc, Option.map_some]
  · rw [hc', Option.map_some, ← hId, ← hId']

theorem exists_position {r : MenuImportPreviewRow} (hr : r ∈ (resolveImport env menu normalized scope strategy).rows) :
    ∃ p ∈ filePositions env.lower normalized, r = resolveRow strategy p.1 p.2 (found? env menu scope normalized p.2) := by
  rw [rows_resolveImport] at hr
  obtain ⟨p, hp, hEq⟩ := List.mem_map.mp hr
  exact ⟨p, hp, hEq.symm⟩

theorem resolveRow_row {sortOrder : Nat} {row : NormalizedImportRow} {matched : Option MenuItem} :
    (resolveRow strategy sortOrder row matched).row = row ∧ (resolveRow strategy sortOrder row matched).sortOrder = sortOrder := by
  cases matched with
  | none => exact ⟨rfl, rfl⟩
  | some item => by_cases hIssues : row.issues = [] <;> simp [resolveRow, hIssues]

theorem found_of_replaces {r : MenuImportPreviewRow} {id : Id} (hr : r ∈ toReplace (resolveImport env menu normalized scope strategy))
    (hMatch : r.matchedItemId = some id) : ∃ p ∈ filePositions env.lower normalized, p.2.issues = [] ∧
      r = resolveRow strategy p.1 p.2 (found? env menu scope normalized p.2) ∧
        ∃ item, found? env menu scope normalized p.2 = some item ∧ item.id = id ∧ strategy = .update := by
  obtain ⟨hMem, hUpdate⟩ := List.mem_filter.mp hr
  rw [Bool.and_eq_true, decide_eq_true_eq] at hUpdate
  obtain ⟨p, hp, rfl⟩ := exists_position hMem
  cases hFound : found? env menu scope normalized p.2 with
  | none =>
    rw [hFound] at hMatch
    cases hMatch
  | some item =>
    rw [hFound] at hMatch hUpdate
    by_cases hClean : p.2.issues = []
    · simp only [resolveRow, hClean, ne_eq, not_true_eq_false, if_false, Option.some.injEq] at hMatch hUpdate
      refine ⟨p, hp, hClean, by rw [hFound], item, hFound, hMatch, ?_⟩
      by_contra hSkip
      rw [if_neg hSkip] at hUpdate
      cases hUpdate.1
    · simp only [resolveRow, hClean, ne_eq, not_false_eq_true, if_true] at hMatch
      cases hMatch

theorem items_imported (hSound : ∀ row ∈ normalized, row.Sound) : (imported env menu scope strategy normalized).items =
    menu.items.map (applied replaceItem (toReplace (resolveImport env menu normalized scope strategy))) ++
      newItems env.lower scope (resolveImport env menu normalized scope strategy)
        (freshId menu (resolveImport env menu normalized scope strategy)) := by
  have hMerge : toMerge (resolveImport env menu normalized scope strategy) = [] := by
    refine List.filter_eq_nil_iff.mpr fun r hr => ?_
    obtain ⟨p, -, rfl⟩ := exists_position hr
    rw [Bool.and_eq_true, decide_eq_true_eq, not_and]
    exact fun hMerge => absurd hMerge planned_resolveRow.merge
  change updateItems mergeItem (toMerge _) _ = _
  rw [hMerge, updateItems, List.foldl_nil, updateItems_eq, List.map_append]
  congr 1
  refine (List.map_congr_left fun new hNew => ?_).trans (List.map_id _)
  refine applied_self fun r hr hMatch => ?_
  obtain ⟨p, hp, hClean, -, item, hFound, hId, -⟩ := found_of_replaces hr hMatch
  obtain ⟨c, -, -, hMem, -, -⟩ := found?_some hSound hp hClean hFound
  obtain ⟨i, hi, rfl⟩ := List.mem_mapIdx.mp hNew
  have hLt : item.id < freshId menu (resolveImport env menu normalized scope strategy) := by
    refine lt_freshId ?_
    simp only [mentionedIds, List.mem_append]
    exact .inl (.inl (.inl (.inl (.inr (List.mem_map_of_mem hMem)))))
  rw [hId] at hLt
  exact absurd hLt (Nat.not_lt.mpr ((Nat.le_add_right _ _).trans (Nat.le_add_right _ _)))

theorem scopeItems_imported (hSound : ∀ row ∈ normalized, row.Sound) : (imported env menu scope strategy normalized).items.filter scope.hasItem =
    (menu.items.filter scope.hasItem).map (applied replaceItem (toReplace (resolveImport env menu normalized scope strategy))) ++
      newItems env.lower scope (resolveImport env menu normalized scope strategy)
        (freshId menu (resolveImport env menu normalized scope strategy)) := by
  have hScope : scope.hasItem ∘ applied replaceItem (toReplace (resolveImport env menu normalized scope strategy)) = scope.hasItem := by
    funext item
    exact @applied_keeps replaceItem _ item _ scope.hasItem fun _ _ => rfl
  rw [items_imported hSound, List.filter_append, List.filter_map, hScope]
  congr 1
  refine List.filter_eq_self.mpr fun item hMem => ?_
  obtain ⟨i, hi, rfl⟩ := List.mem_mapIdx.mp hMem
  exact has_new

theorem row_of_newItem (hSound : ∀ row ∈ normalized, row.Sound) (hCategories : (menu.categories.map (·.id)).Nodup)
    (hp : p ∈ filePositions env.lower normalized) (hClean : p.2.issues = []) {c : Category}
    (hc : existingCategory? env.lower (loadExistingCategories (imported env menu scope strategy normalized) scope) p.2.categoryName = some c)
    {r : MenuImportPreviewRow} (hr : r ∈ toCreate (resolveImport env menu normalized scope strategy))
    (hId : (categoryIdByName env.lower (resolveImport env menu normalized scope strategy)
      (freshId menu (resolveImport env menu normalized scope strategy)) r.row.categoryName).getD 0 = c.id)
    (hName : normalizeKey env.lower r.row.itemName = normalizeKey env.lower p.2.itemName) :
    found? env menu scope normalized p.2 = none ∧ r = resolveRow strategy p.1 p.2 none := by
  obtain ⟨hMem, hCreate⟩ := mem_toCreate.mp hr
  obtain ⟨q, hq, rfl⟩ := exists_position hMem
  obtain ⟨hqClean, hNone⟩ := planned_resolveRow.create.mp hCreate
  obtain ⟨id, hSome⟩ := Option.isSome_iff_exists.mp (@categoryIdByName_isSome env.lower _
    (freshId menu (resolveImport env menu normalized scope strategy)) _ hr)
  rw [resolveRow_row.1] at hId hName hSome
  rw [hSome, Option.getD_some] at hId
  subst hId
  rw [categoryIdByName_eq, ← load_writtenMenu] at hSome
  have hSame : q = p := by
    refine position_inj hSound hq hp hqClean hClean ?_ hName
    exact name_of_category (nodup_imported hCategories) hSome (congrArg (Option.map (·.id)) hc)
  subst hSame
  exact ⟨hNone, by rw [hNone]⟩

theorem found?_again (hSound : ∀ row ∈ normalized, row.Sound) (hCategories : (menu.categories.map (·.id)).Nodup)
    (hp : p ∈ filePositions env.lower normalized) (hClean : p.2.issues = []) (h : found? env menu scope normalized p.2 = some item) :
    found? env (imported env menu scope strategy normalized) scope normalized p.2 =
      some (applied replaceItem (toReplace (resolveImport env menu normalized scope strategy)) item) := by
  obtain ⟨c, hc, hGet, -, -, -⟩ := found?_some hSound hp hClean h
  have hStays := @existingCategory?_imported env menu scope strategy normalized p.2.categoryName c hc
  rw [found?_eq (snd_mem hp) (clean_named hSound hp hClean), hStays, Option.bind_some, scopeItems_imported hSound, mapGet_append]
  have hNoNew : mapGet (itemKey env.lower) (newItems env.lower scope (resolveImport env menu normalized scope strategy)
      (freshId menu (resolveImport env menu normalized scope strategy))) (c.id, normalizeKey env.lower p.2.itemName) = none := by
    rw [← Option.not_isSome_iff_eq_none, mapGet_isSome]
    rintro ⟨new, hNew, hKey⟩
    obtain ⟨i, hi, rfl⟩ := List.mem_mapIdx.mp hNew
    obtain ⟨hId, hName⟩ := Prod.mk.injEq _ _ _ _ ▸ hKey
    have hNone := (row_of_newItem hSound hCategories hp hClean hStays (List.getElem_mem hi) hId (normalizeKey_trim.symm.trans hName)).1
    rw [h] at hNone
    cases hNone
  have hKeys (d : MenuItem) : itemKey env.lower (applied replaceItem (toReplace (resolveImport env menu normalized scope strategy)) d) =
      itemKey env.lower d := @applied_keeps replaceItem _ d _ (itemKey env.lower) fun _ _ => rfl
  rw [hNoNew, Option.none_or, mapGet_map hKeys, hGet, Option.map_some]

theorem found?_created (hSound : ∀ row ∈ normalized, row.Sound) (hCategories : (menu.categories.map (·.id)).Nodup)
    (hp : p ∈ filePositions env.lower normalized) (hClean : p.2.issues = []) (h : found? env menu scope normalized p.2 = none) :
    ∃ id categoryId, found? env (imported env menu scope strategy normalized) scope normalized p.2 =
        some (newItem scope id categoryId (resolveRow strategy p.1 p.2 none)) ∧
      newItem scope id categoryId (resolveRow strategy p.1 p.2 none) ∈ (imported env menu scope strategy normalized).items := by
  have hr : resolveRow strategy p.1 p.2 none ∈ toCreate (resolveImport env menu normalized scope strategy) := by
    refine mem_toCreate.mpr ⟨?_, planned_resolveRow.create.mpr ⟨hClean, rfl⟩⟩
    rw [rows_resolveImport]
    exact List.mem_map.mpr ⟨p, hp, by rw [h]⟩
  obtain ⟨categoryId, hSome⟩ := Option.isSome_iff_exists.mp (@categoryIdByName_isSome env.lower _
    (freshId menu (resolveImport env menu normalized scope strategy)) _ hr)
  have hFound := hSome
  rw [categoryIdByName_eq, ← load_writtenMenu, resolveRow_row.1] at hFound
  obtain ⟨c, hc, rfl⟩ := Option.map_eq_some_iff.mp hFound
  obtain ⟨i, hi, hAt⟩ := List.mem_iff_getElem.mp hr
  obtain ⟨id, hId⟩ : ∃ id, id = freshId menu (resolveImport env menu normalized scope strategy) +
      (categoriesToCreate env.lower (resolveImport env menu normalized scope strategy)).length + i := ⟨_, rfl⟩
  have hNew : newItem scope id c.id (resolveRow strategy p.1 p.2 none) ∈
      newItems env.lower scope (resolveImport env menu normalized scope strategy)
        (freshId menu (resolveImport env menu normalized scope strategy)) := by
    refine List.mem_mapIdx.mpr ⟨i, hi, ?_⟩
    rw [hAt, hSome, Option.getD_some, hId]
  have hUnique : ∀ e ∈ newItems env.lower scope (resolveImport env menu normalized scope strategy)
      (freshId menu (resolveImport env menu normalized scope strategy)),
        itemKey env.lower e = (c.id, normalizeKey env.lower p.2.itemName) → e = newItem scope id c.id (resolveRow strategy p.1 p.2 none) := by
    intro e he hKey
    obtain ⟨j, hj, rfl⟩ := List.mem_mapIdx.mp he
    obtain ⟨hCategory, hName⟩ := Prod.mk.injEq _ _ _ _ ▸ hKey
    obtain ⟨-, hSame⟩ := row_of_newItem hSound hCategories hp hClean hc (List.getElem_mem hj) hCategory (normalizeKey_trim.symm.trans hName)
    have hFit : (resolveImport env menu normalized scope strategy).Fit env.lower :=
      fit_planImport (fun row hRow => named_of_sound (hSound row hRow)) (hCategories.sublist (List.filter_sublist.map _))
    obtain rfl : j = i := (hFit.keys.of_map.getElem_inj_iff).mp (hSame.trans hAt.symm)
    rw [hAt, hSome, Option.getD_some, hId]
  have hKey : itemKey env.lower (newItem scope id c.id (resolveRow strategy p.1 p.2 none)) = (c.id, normalizeKey env.lower p.2.itemName) := by
    rw [itemKey, newItem, resolveRow_row.1, normalizeKey_trim]
  refine ⟨id, c.id, ?_, ?_⟩
  · rw [found?_eq (snd_mem hp) (clean_named hSound hp hClean)]
    have hCategory : existingCategory? env.lower (loadExistingCategories (imported env menu scope strategy normalized) scope)
        p.2.categoryName = some c := hc
    rw [hCategory, Option.bind_some, scopeItems_imported hSound, mapGet_append, mapGet_of_unique hNew hKey hUnique, Option.some_or]
  · rw [items_imported hSound]
    exact List.mem_append_right _ hNew

theorem nodup_items_imported (hSound : ∀ row ∈ normalized, row.Sound) (hItems : (menu.items.map (·.id)).Nodup) :
    ((imported env menu scope strategy normalized).items.map (·.id)).Nodup := by
  have hOld : (menu.items.map (applied replaceItem (toReplace (resolveImport env menu normalized scope strategy)))).map (·.id) =
      menu.items.map (·.id) := by
    rw [List.map_map]
    exact List.map_congr_left fun item _ => @applied_keeps replaceItem _ item _ (·.id) fun _ _ => rfl
  have hNew : (newItems env.lower scope (resolveImport env menu normalized scope strategy)
      (freshId menu (resolveImport env menu normalized scope strategy))).map (·.id) =
        (List.range (toCreate (resolveImport env menu normalized scope strategy)).length).map
          (freshId menu (resolveImport env menu normalized scope strategy) +
            (categoriesToCreate env.lower (resolveImport env menu normalized scope strategy)).length + ·) := by
    refine List.ext_getElem (by simp [newItems]) fun i h₁ h₂ => ?_
    simp [newItems, newItem]
  rw [items_imported hSound, List.map_append, hOld, hNew]
  refine nodup_append_numbered hItems fun id hMem => Nat.lt_of_lt_of_le (lt_freshId ?_) (Nat.le_add_right _ _)
  simp only [mentionedIds, List.mem_append]
  exact .inl (.inl (.inl (.inl (.inr hMem))))

theorem item_again (hSound : ∀ row ∈ normalized, row.Sound) (hCategories : (menu.categories.map (·.id)).Nodup)
    (hItems : (menu.items.map (·.id)).Nodup) (hp : p ∈ filePositions env.lower normalized) (hClean : p.2.issues = []) :
    ∃ item ∈ (imported env menu scope strategy normalized).items,
      found? env (imported env menu scope strategy normalized) scope normalized p.2 = some item ∧
        (strategy = .update → ∀ r : MenuImportPreviewRow, r.row = p.2 → r.sortOrder = p.1 → replaceItem r item = item) := by
  cases hFound : found? env menu scope normalized p.2 with
  | none =>
    obtain ⟨id, categoryId, hAgain, hMem⟩ := @found?_created env menu scope strategy normalized p hSound hCategories hp hClean hFound
    refine ⟨_, hMem, hAgain, fun _ r hRow hSortOrder => ?_⟩
    rw [replaceItem_congr (hRow.trans resolveRow_row.1.symm) (hSortOrder.trans resolveRow_row.2.symm)]
    exact replaceItem_newItem
  | some item =>
    refine ⟨_, ?_, found?_again hSound hCategories hp hClean hFound, fun hUpdate r hRow hSortOrder => ?_⟩
    · obtain ⟨-, -, -, hMem, -, -⟩ := found?_some hSound hp hClean hFound
      rw [items_imported hSound]
      exact List.mem_append_left _ (List.mem_map_of_mem hMem)
    · have hReplaces : resolveRow strategy p.1 p.2 (some item) ∈ toReplace (resolveImport env menu normalized scope strategy) := by
        refine List.mem_filter.mpr ⟨?_, by simp [resolveRow, hClean, hUpdate]⟩
        rw [rows_resolveImport]
        exact List.mem_map.mpr ⟨p, hp, by rw [hFound]⟩
      have hOnly : ∀ r' ∈ toReplace (resolveImport env menu normalized scope strategy), r'.matchedItemId = some item.id →
          replaceItem r' = replaceItem (resolveRow strategy p.1 p.2 (some item)) := by
        intro r' hr' hMatch
        obtain ⟨q, hq, hqClean, rfl, other, hOther, hId, -⟩ := found_of_replaces hr' hMatch
        obtain ⟨-, -, -, hMem, -, -⟩ := found?_some hSound hp hClean hFound
        obtain ⟨-, -, -, hOtherMem, -, -⟩ := found?_some hSound hq hqClean hOther
        obtain rfl := Tables.eq_of_id hItems hOtherMem hMem hId
        rw [found?_inj hSound hCategories hq hp hqClean hClean hOther hFound, hFound]
      rw [applied_settled hReplaces (by simp [resolveRow, hClean]) hOnly,
        replaceItem_congr (hRow.trans resolveRow_row.1.symm) (hSortOrder.trans resolveRow_row.2.symm)]
      exact replaceItem_twice

theorem toCreate_again (hSound : ∀ row ∈ normalized, row.Sound) (hCategories : (menu.categories.map (·.id)).Nodup)
    (hItems : (menu.items.map (·.id)).Nodup) :
    toCreate (resolveImport env (imported env menu scope strategy normalized) normalized scope strategy) = [] := by
  refine List.filter_eq_nil_iff.mpr fun r hr hCreate => ?_
  obtain ⟨p, hp, rfl⟩ := exists_position hr
  obtain ⟨hClean, hNone⟩ := planned_resolveRow.create.mp (of_decide_eq_true hCreate)
  obtain ⟨item, -, hFound, -⟩ := @item_again env menu scope strategy normalized p hSound hCategories hItems hp hClean
  rw [hNone] at hFound
  cases hFound

theorem imported_of_nothing (hCreate : toCreate (resolveImport env menu normalized scope strategy) = [])
    (hItems : (imported env menu scope strategy normalized).items = menu.items) : imported env menu scope strategy normalized = menu := by
  have hCategories : newCategories env.lower scope (resolveImport env menu normalized scope strategy)
      (freshId menu (resolveImport env menu normalized scope strategy)) = [] := by
    rw [newCategories, categoriesToCreate, hCreate]
    rfl
  have hGroups : newGroups env.lower scope (resolveImport env menu normalized scope strategy)
      (freshId menu (resolveImport env menu normalized scope strategy)) = [] := by
    rw [newGroups, plannedGroups, hCreate]
    rfl
  calc imported env menu scope strategy normalized
    _ = { menu with
          categories := menu.categories ++ newCategories env.lower scope (resolveImport env menu normalized scope strategy)
            (freshId menu (resolveImport env menu normalized scope strategy))
          items := (imported env menu scope strategy normalized).items
          groups := menu.groups ++ newGroups env.lower scope (resolveImport env menu normalized scope strategy)
            (freshId menu (resolveImport env menu normalized scope strategy)) } := rfl
    _ = menu := by rw [hItems, hCategories, hGroups, List.append_nil, List.append_nil]

theorem imported_again (hSound : ∀ row ∈ normalized, row.Sound) (hCategories : (menu.categories.map (·.id)).Nodup)
    (hItems : (menu.items.map (·.id)).Nodup) :
    imported env (imported env menu scope strategy normalized) scope strategy normalized = imported env menu scope strategy normalized := by
  have hCreate := @toCreate_again env menu scope strategy normalized hSound hCategories hItems
  refine imported_of_nothing hCreate ?_
  rw [items_imported hSound, newItems, hCreate, List.mapIdx_nil, List.append_nil]
  refine (List.map_congr_left fun item hMem => ?_).trans (List.map_id _)
  refine applied_self fun r hr hMatch => ?_
  obtain ⟨p, hp, hClean, rfl, other, hOther, hId, hUpdate⟩ := found_of_replaces hr hMatch
  obtain ⟨again, hAgain, hFound, hSettled⟩ := @item_again env menu scope strategy normalized p hSound hCategories hItems hp hClean
  rw [hOther, Option.some_inj] at hFound
  subst hFound
  obtain rfl := Tables.eq_of_id (nodup_items_imported hSound hItems) hAgain hMem hId
  exact hSettled hUpdate _ resolveRow_row.1 resolveRow_row.2

theorem errors_resolveImport : (importReport env.lower (resolveImport env menu normalized scope strategy)).errors =
    (filePositions env.lower normalized).countP fun p => p.2.issues ≠ [] := by
  change (resolveImport env menu normalized scope strategy).rows.countP (fun r => r.action = .error) = _
  rw [rows_resolveImport, List.countP_map]
  refine List.countP_congr fun p _ => ?_
  rw [Function.comp_apply, decide_eq_true_eq, decide_eq_true_eq]
  exact planned_resolveRow.error

end SecondRun

/-! ## The second import -/

/-- A commit of the file just committed adds nothing, changes nothing and counts the same errors. -/
theorem second_import_adds_nothing (env : Env) (menu : Menu) (buffer : Buffer) (kind : MenuImportFileKind) (mapping : MenuImportColumnMapping)
    (scope : ImportScope) (duplicateStrategy : DuplicateStrategy) {report : MenuImportReport} {menu' : Menu}
    (hCategories : (menu.categories.map (·.id)).Nodup) (hItems : (menu.items.map (·.id)).Nodup)
    (h : commitImport env menu buffer kind mapping scope duplicateStrategy = .ok (report, menu')) :
    ∃ again, commitImport env menu' buffer kind mapping scope duplicateStrategy = .ok (again, menu') ∧ again.created = 0 ∧
      again.categoriesCreated = 0 ∧ again.modifierGroupsCreated = 0 ∧ again.modifierOptionsCreated = 0 ∧ again.errors = report.errors := by
  obtain ⟨sheet, hSheet, hWritten⟩ := Traversals.bind_ok h
  have hMapped : ¬ missingRequiredFields (appliedMapping env sheet.headers mapping) ≠ [] := by
    intro hUnmapped
    dsimp only at hWritten
    rw [if_pos hUnmapped] at hWritten
    cases hWritten
  rw [commitImport_of_sheet hSheet hMapped, writeResolvedImport] at h
  rw [commitImport_of_sheet hSheet hMapped]
  have hSound : ∀ row ∈ normalizeRows env sheet (appliedMapping env sheet.headers mapping), row.Sound := fun row hMem => sound_normalizeRows hMem
  generalize normalizeRows env sheet (appliedMapping env sheet.headers mapping) = normalized at h hSound
  split at h
  swap
  · cases h
  obtain ⟨rfl, hMenu⟩ := Prod.mk.inj (Except.ok.inj h)
  have hImported : imported env menu scope duplicateStrategy normalized = menu' := hMenu
  have hCreate := @toCreate_again env menu scope duplicateStrategy normalized hSound hCategories hItems
  have hAgain := @imported_again env menu scope duplicateStrategy normalized hSound hCategories hItems
  rw [hImported] at hCreate hAgain
  have hValid : passesValidators env.lower (resolveImport env menu' normalized scope duplicateStrategy) = true := by
    refine (passesValidators_iff hSound).mpr fun r hMem hAction => ?_
    have hr : r ∈ toCreate (resolveImport env menu' normalized scope duplicateStrategy) := mem_toCreate.mpr ⟨hMem, hAction⟩
    rw [hCreate] at hr
    cases hr
  refine ⟨importReport env.lower (resolveImport env menu' normalized scope duplicateStrategy), ?_, ?_, ?_, ?_, ?_, ?_⟩
  · rw [writeResolvedImport, if_pos hValid]
    exact congrArg (fun menu => Except.ok (_, menu)) hAgain
  · rw [importReport, hCreate]
    rfl
  · rw [importReport, categoriesToCreate, hCreate]
    rfl
  · rw [importReport, hCreate]
    rfl
  · rw [importReport, hCreate]
    rfl
  · rw [errors_resolveImport, errors_resolveImport]

/-- The file of one row is imported into an empty menu. -/
theorem one_row_again : ∃ result, commitImport (OneRow.env "1") {} [] .csv [] OneRow.scope .update = .ok result ∧ result.1.created = 1 ∧
    ∃ again, commitImport (OneRow.env "1") result.2 [] .csv [] OneRow.scope .update = .ok (again, result.2) ∧ again.created = 0 ∧
      again.categoriesCreated = 0 ∧ again.modifierGroupsCreated = 0 ∧ again.modifierOptionsCreated = 0 ∧ again.errors = result.1.errors := by
  have hCreates : (commitImport (OneRow.env "1") {} [] .csv [] OneRow.scope .update).toOption.any (fun r => r.1.created = 1) = true := by
    obtain ⟨sheet, hSheet, hMapped, hRows⟩ := OneRow.rows_read (.inr ⟨rfl, rfl⟩)
    rw [commitImport_of_sheet hSheet hMapped, hRows]
    decide
  cases hCommit : commitImport (OneRow.env "1") {} [] .csv [] OneRow.scope .update with
  | error err =>
    rw [hCommit] at hCreates
    cases hCreates
  | ok result =>
    rw [hCommit] at hCreates
    obtain ⟨report, menu⟩ := result
    exact ⟨_, rfl, of_decide_eq_true hCreates, second_import_adds_nothing _ {} _ _ _ _ _ List.nodup_nil List.nodup_nil hCommit⟩

end RestaurantOs.MenuImport.SecondRun
