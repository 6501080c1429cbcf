import RestaurantOs.Async.Rely
import RestaurantOs.Imports.JobService
import RestaurantOs.Imports.Preview

/-!
# Imports side by side

What a plan takes as missing may be created by another import before its own
transaction. Where it is still missing then, the names of a scope stay
different.
-/

namespace RestaurantOs.MenuImport

open Async Prog Menus

structure ImportScope.Same (s t : ImportScope) : Prop where
  business : s.canonicalBusinessId = t.canonicalBusinessId
  restaurant : s.canonicalBusinessId = none → s.restaurantId = t.restaurantId

def ImportScope.hasItem (scope : ImportScope) (item : MenuItem) : Bool := scope.has item.businessId item.restaurantId

/-- No two categories of the scope and no two items of a category share a
normalized name. -/
structure NoDuplicates (lower : Text → Text) (menu : Menu) (scope : ImportScope) : Prop where
  categories : ((loadExistingCategories menu scope).map fun c => normalizeKey lower c.name).Nodup
  items : ((menu.items.filter scope.hasItem).map fun item => (item.categoryId, normalizeKey lower item.name)).Nodup

def stillMissing (lower : Text → Text) (menu : Menu) (scope : ImportScope) (resolved : ResolvedImport) : Bool :=
  ((categoriesToCreate lower resolved).all fun name =>
      (existingCategory? lower (loadExistingCategories menu scope) name).isNone) &&
    (toCreate resolved).all fun r =>
      (resolved.existingCategoryIdByName (normalizeKey lower r.row.categoryName)).all fun categoryId =>
        !menu.items.any fun item =>
          scope.hasItem item && item.categoryId = categoryId && normalizeKey lower item.name = normalizeKey lower r.row.itemName

/-- The rows to create have names of their own, and a category id has one
name. -/
structure ResolvedImport.Fit (lower : Text → Text) (resolved : ResolvedImport) : Prop where
  keys : ((toCreate resolved).map fun r => (normalizeKey lower r.row.categoryName, normalizeKey lower r.row.itemName)).Nodup
  ids : ∀ e ∈ resolved.existingCategories, ∀ e' ∈ resolved.existingCategories, e.2 = e'.2 → e.1 = e'.1

theorem nodup_map_of {α β γ : Type} {f : α → β} {g : α → γ} {l : List α} (h : (l.map f).Nodup)
    (hInj : ∀ a ∈ l, ∀ b ∈ l, g a = g b → f a = f b) : (l.map g).Nodup := by
  rw [List.Nodup, List.pairwise_map] at h ⊢
  exact h.imp_of_mem fun ha hb hNe hEq => hNe (hInj _ ha _ hb hEq)

/-! ## The transaction -/

section Write

variable {lower : Text → Text} {menu : Menu} {scope : ImportScope} {resolved : ResolvedImport} {fresh : Id}

def slot (item : MenuItem) : Option Id × Option Id × Id × Text := (item.businessId, item.restaurantId, item.categoryId, item.name)

theorem map_slot_writtenMenu : (writtenMenu lower menu scope resolved).items.map slot =
    (menu.items ++ newItems lower scope resolved (freshId menu resolved)).map slot := by
  have hMerge := @map_updateItems _ mergeItem slot fun r item => rfl
  have hReplace := @map_updateItems _ replaceItem slot fun r item => rfl
  exact hMerge.trans hReplace

theorem scopeKeys_eq {items items' : List MenuItem} (h : items.map slot = items'.map slot) :
    (items.filter scope.hasItem).map (fun item => (item.categoryId, normalizeKey lower item.name)) =
      (items'.filter scope.hasItem).map fun item => (item.categoryId, normalizeKey lower item.name) := by
  have hRead : ∀ l : List MenuItem, (l.filter scope.hasItem).map (fun item => (item.categoryId, normalizeKey lower item.name)) =
      ((l.map slot).filter fun s => scope.has s.1 s.2.1).map fun s => (s.2.2.1, normalizeKey lower s.2.2.2) := by
    intro l
    rw [List.filter_map, List.map_map]
    rfl
  rw [hRead, hRead, h]

theorem has_new : scope.has scope.canonicalBusinessId (if scope.canonicalBusinessId.isNone then some scope.restaurantId else none) = true := by
  obtain ⟨r, b⟩ := scope
  cases b with
  | none => exact decide_eq_true rfl
  | some b => exact decide_eq_true rfl

theorem load_writtenMenu : loadExistingCategories (writtenMenu lower menu scope resolved) scope =
    loadExistingCategories menu scope ++ newCategories lower scope resolved (freshId menu resolved) := by
  refine (List.filter_append _ _).trans ?_
  congr 1
  refine List.filter_eq_self.mpr fun c hMem => ?_
  obtain ⟨i, hi, rfl⟩ := List.mem_mapIdx.mp hMem
  exact has_new

theorem keys_newCategories : (newCategories lower scope resolved fresh).map (fun c => normalizeKey lower c.name) =
    (categoriesToCreate lower resolved).map (normalizeKey lower) := by
  unfold newCategories
  refine map_mapIdx_of fun i name => ?_
  exact normalizeKey_trim

theorem keys_newItems : ((newItems lower scope resolved fresh).filter scope.hasItem).map
      (fun item => (item.categoryId, normalizeKey lower item.name)) =
    (toCreate resolved).map fun r =>
      ((categoryIdByName lower resolved fresh r.row.categoryName).getD 0, normalizeKey lower r.row.itemName) := by
  rw [List.filter_eq_self.mpr]
  · unfold newItems
    refine map_mapIdx_of fun i r => ?_
    exact congrArg (Prod.mk _) normalizeKey_trim
  · intro item hMem
    obtain ⟨i, hi, rfl⟩ := List.mem_mapIdx.mp hMem
    exact has_new

theorem categoryIdByName_cases {r : MenuImportPreviewRow} (hMem : r ∈ toCreate resolved) :
    (∃ i, categoryIdByName lower resolved fresh r.row.categoryName = some (fresh + i) ∧
        ((categoriesToCreate lower resolved)[i]?).map (normalizeKey lower) = some (normalizeKey lower r.row.categoryName)) ∨
      ∃ id, categoryIdByName lower resolved fresh r.row.categoryName = some id ∧
        resolved.existingCategoryIdByName (normalizeKey lower r.row.categoryName) = some id := by
  have hSome := @categoryIdByName_isSome lower resolved fresh r hMem
  unfold categoryIdByName at hSome ⊢
  dsimp only at hSome ⊢
  split
  · rename_i i hFound
    refine .inl ⟨i, rfl, ?_⟩
    obtain ⟨hLt, hKey, -⟩ := List.findIdx?_eq_some_iff_getElem.mp hFound
    rw [List.getElem?_eq_getElem hLt, Option.map_some, of_decide_eq_true hKey]
  · rename_i hNone
    rw [hNone] at hSome
    obtain ⟨id, hId⟩ := Option.isSome_iff_exists.mp hSome
    exact .inr ⟨id, hId, hId⟩

theorem existing_lt_fresh {key : Text} {id : Id} (h : resolved.existingCategoryIdByName key = some id) : id < freshId menu resolved := by
  obtain ⟨e, he, rfl⟩ := Option.map_eq_some_iff.mp h
  exact lt_freshId (List.mem_append_right _ (List.mem_map_of_mem (mem_of_mapGet he).1))

theorem categoryIdByName_inj (hFit : resolved.Fit lower) {a b : MenuImportPreviewRow} (ha : a ∈ toCreate resolved)
    (hb : b ∈ toCreate resolved)
    (hEq : categoryIdByName lower resolved (freshId menu resolved) a.row.categoryName =
      categoryIdByName lower resolved (freshId menu resolved) b.row.categoryName) :
    normalizeKey lower a.row.categoryName = normalizeKey lower b.row.categoryName := by
  rcases @categoryIdByName_cases lower resolved (freshId menu resolved) a ha with ⟨i, hi, hKeyA⟩ | ⟨id, hId, hExistingA⟩
  · rcases @categoryIdByName_cases lower resolved (freshId menu resolved) b hb with ⟨j, hj, hKeyB⟩ | ⟨id, hId, hExistingB⟩
    · rw [hi, hj, Option.some_inj] at hEq
      obtain rfl : i = j := Nat.add_left_cancel hEq
      rw [hKeyA, Option.some_inj] at hKeyB
      exact hKeyB
    · rw [hi, hId, Option.some_inj] at hEq
      have hLt := @existing_lt_fresh menu _ _ _ hExistingB
      rw [← hEq] at hLt
      exact absurd hLt (Nat.not_lt.mpr (Nat.le_add_right _ _))
  · rcases @categoryIdByName_cases lower resolved (freshId menu resolved) b hb with ⟨j, hj, hKeyB⟩ | ⟨id', hId', hExistingB⟩
    · rw [hId, hj, Option.some_inj] at hEq
      have hLt := @existing_lt_fresh menu _ _ _ hExistingA
      rw [hEq] at hLt
      exact absurd hLt (Nat.not_lt.mpr (Nat.le_add_right _ _))
    · rw [hId, hId', Option.some_inj] at hEq
      obtain ⟨e, he, rfl⟩ := Option.map_eq_some_iff.mp hExistingA
      obtain ⟨e', he', rfl⟩ := Option.map_eq_some_iff.mp hExistingB
      rw [← (mem_of_mapGet he).2, ← (mem_of_mapGet he').2]
      exact hFit.ids e (mem_of_mapGet he).1 e' (mem_of_mapGet he').1 hEq

theorem NoDuplicates.write (h : NoDuplicates lower menu scope) (hFit : resolved.Fit lower)
    (hMissing : stillMissing lower menu scope resolved = true) : NoDuplicates lower (writtenMenu lower menu scope resolved) scope := by
  rw [stillMissing, Bool.and_eq_true, List.all_eq_true, List.all_eq_true] at hMissing
  constructor
  · rw [load_writtenMenu, List.map_append, keys_newCategories, List.nodup_append]
    refine ⟨h.categories, nodup_map_firstByKey, fun k hOld k' hNew hEq => ?_⟩
    subst hEq
    obtain ⟨c, hc, hKey⟩ := List.mem_map.mp hOld
    obtain ⟨name, hName, hSame⟩ := List.mem_map.mp hNew
    have hNone := hMissing.1 name hName
    rw [← Option.not_isSome, existingCategory?, mapGet_isSome.mpr ⟨c, hc, hKey.trans hSame.symm⟩] at hNone
    cases hNone
  · rw [scopeKeys_eq map_slot_writtenMenu, List.filter_append, List.map_append, keys_newItems, List.nodup_append]
    refine ⟨h.items, nodup_map_of hFit.keys fun a ha b hb hEq => ?_, fun k hOld k' hNew hEq => ?_⟩
    · obtain ⟨hId, hItem⟩ := Prod.mk.injEq _ _ _ _ ▸ hEq
      refine Prod.ext (@categoryIdByName_inj _ menu _ hFit _ _ ha hb ?_) hItem
      obtain ⟨i, hi⟩ := Option.isSome_iff_exists.mp (@categoryIdByName_isSome lower resolved (freshId menu resolved) a ha)
      obtain ⟨j, hj⟩ := Option.isSome_iff_exists.mp (@categoryIdByName_isSome lower resolved (freshId menu resolved) b hb)
      rw [hi, hj] at hId ⊢
      exact congrArg some hId
    · subst hEq
      obtain ⟨item, hItem, rfl⟩ := List.mem_map.mp hOld
      obtain ⟨hMem, hScope⟩ := List.mem_filter.mp hItem
      obtain ⟨r, hr, hKey⟩ := List.mem_map.mp hNew
      obtain ⟨hId, hName⟩ := Prod.mk.injEq _ _ _ _ ▸ hKey
      rcases @categoryIdByName_cases lower resolved (freshId menu resolved) r hr with ⟨i, hi, -⟩ | ⟨id, hSome, hExisting⟩
      · have hLt : item.categoryId < freshId menu resolved := by
          refine lt_freshId ?_
          simp only [mentionedIds, List.mem_append]
          exact .inl (.inl (.inl (.inr (List.mem_map_of_mem hMem))))
        rw [hi, Option.getD_some] at hId
        rw [← hId] at hLt
        exact absurd hLt (Nat.not_lt.mpr (Nat.le_add_right _ _))
      · have hFree := hMissing.2 r hr
        rw [hExisting, Option.all_some, Bool.not_eq_true', List.any_eq_false] at hFree
        rw [hSome, Option.getD_some] at hId
        refine hFree item hMem ?_
        rw [Bool.and_eq_true, Bool.and_eq_true, decide_eq_true_eq, decide_eq_true_eq]
        exact ⟨⟨hScope, hId.symm⟩, hName.symm⟩

theorem nodup_append_numbered {ids : List Id} {base n : Nat} (h : ids.Nodup) (hBelow : ∀ id ∈ ids, id < base) :
    (ids ++ (List.range n).map (base + ·)).Nodup := by
  refine List.nodup_append.mpr ⟨h, List.nodup_range.map fun i j hEq => Nat.add_left_cancel hEq, fun id hOld id' hNew hEq => ?_⟩
  subst hEq
  obtain ⟨i, -, rfl⟩ := List.mem_map.mp hNew
  exact absurd (hBelow _ hOld) (Nat.not_lt.mpr (Nat.le_add_right _ _))

theorem nodup_ids_writtenMenu (h : (menu.categories.map (·.id)).Nodup) :
    ((writtenMenu lower menu scope resolved).categories.map (·.id)).Nodup := by
  have hNew : (newCategories lower scope resolved (freshId menu resolved)).map (·.id) =
      (List.range (categoriesToCreate lower resolved).length).map (freshId menu resolved + ·) := by
    refine List.ext_getElem (by simp [newCategories]) fun i h₁ h₂ => ?_
    simp [newCategories, newCategory]
  have hIds : (writtenMenu lower menu scope resolved).categories.map (·.id) = menu.categories.map (·.id) ++
      (List.range (categoriesToCreate lower resolved).length).map (freshId menu resolved + ·) := hNew ▸ List.map_append
  rw [hIds]
  refine nodup_append_numbered h fun id hOld => lt_freshId ?_
  simp only [mentionedIds, List.mem_append]
  exact .inl (.inl (.inl (.inl (.inl hOld))))

end Write

/-! ## Plans -/

section Fit

variable {lower : Text → Text} {categories : List Category} {items : List MenuItem} {strategy : DuplicateStrategy}
  {rows : List NormalizedImportRow}

theorem nodup_markDuplicates {seen : List (Text × Nat)} (hNamed : ∀ row ∈ rows, row.issues = [] → row.named = true) :
    (((markDuplicates lower seen rows).filter (·.issues = [])).map (fileKey lower)).Nodup ∧
      ∀ row ∈ markDuplicates lower seen rows, row.issues = [] → ∀ e ∈ seen, e.1 ≠ fileKey lower row := by
  induction rows generalizing seen with
  | nil =>
    refine ⟨List.nodup_nil, fun row hMem => ?_⟩
    cases hMem
  | cons row rows ih =>
    rw [List.forall_mem_cons] at hNamed
    unfold markDuplicates
    split
    · split
      · rename_i hNew
        obtain ⟨hNodup, hFresh⟩ := @ih ((fileKey lower row, row.rowNumber) :: seen) hNamed.2
        constructor
        · rw [List.filter_cons]
          split
          · refine List.nodup_cons.mpr ⟨fun hMem => ?_, hNodup⟩
            obtain ⟨row', hMem', hKey⟩ := List.mem_map.mp hMem
            obtain ⟨hMarked, hIssues⟩ := List.mem_filter.mp hMem'
            exact hFresh row' hMarked (of_decide_eq_true hIssues) _ List.mem_cons_self hKey.symm
          · exact hNodup
        · intro row' hMem hIssues e he
          rcases List.mem_cons.mp hMem with rfl | hMem
          · exact of_decide_eq_false (Bool.eq_false_iff.mpr (List.find?_eq_none.mp hNew e he))
          · exact hFresh row' hMem hIssues e (List.mem_cons_of_mem _ he)
      · obtain ⟨hNodup, hFresh⟩ := @ih seen hNamed.2
        constructor
        · rw [List.filter_cons, if_neg fun hIssues => issues_flag (of_decide_eq_true hIssues)]
          exact hNodup
        · intro row' hMem hIssues e he
          rcases List.mem_cons.mp hMem with rfl | hMem
          · exact absurd hIssues issues_flag
          · exact hFresh row' hMem hIssues e he
    · rename_i hUnnamed
      obtain ⟨hNodup, hFresh⟩ := @ih seen hNamed.2
      have hIssues : row.issues ≠ [] := fun hNil => hUnnamed (hNamed.1 hNil)
      constructor
      · rw [List.filter_cons, if_neg fun hNil => hIssues (of_decide_eq_true hNil)]
        exact hNodup
      · intro row' hMem hNil e he
        rcases List.mem_cons.mp hMem with rfl | hMem
        · exact absurd hNil hIssues
        · exact hFresh row' hMem hNil e he

theorem sublist_created {marked : List NormalizedImportRow} {planned : List MenuImportPreviewRow}
    (h : List.Forall₂ (fun row r => r.Planned (matchedItem? lower categories items row) row) marked planned) :
    ((planned.filter (·.action = .create)).map (·.row)).Sublist (marked.filter (·.issues = [])) := by
  induction h with
  | nil => exact List.Sublist.slnil
  | @cons row r _ _ hRow _ ih =>
    rw [List.filter_cons, List.filter_cons]
    by_cases hCreate : r.action = .create
    · have hIssues := (hRow.create.mp hCreate).1
      rw [if_pos (decide_eq_true hCreate), if_pos (decide_eq_true hIssues), List.map_cons, hRow.same]
      exact ih.cons_cons row
    · rw [if_neg fun h => hCreate (of_decide_eq_true h)]
      split
      · exact ih.cons row
      · exact ih

theorem fit_planImport (hNamed : ∀ row ∈ rows, row.issues = [] → row.named = true) (hIds : (categories.map (·.id)).Nodup) :
    (planImport lower categories items strategy rows).Fit lower := by
  constructor
  · have hKeys : (((planImport lower categories items strategy rows).rows.filter (·.action = .create)).map
        fun r => fileKey lower r.row).Nodup := by
      have hSublist := (sublist_created (@planned_resolveRows lower categories items strategy (markDuplicates lower [] rows)
        (nextSortOrders lower (markDuplicates lower [] rows)))).map (fileKey lower)
      rw [List.map_map] at hSublist
      exact (@nodup_markDuplicates lower rows [] hNamed).1.sublist hSublist
    refine nodup_map_of hKeys fun a _ b _ hEq => ?_
    obtain ⟨hCategory, hItem⟩ := Prod.mk.injEq _ _ _ _ ▸ hEq
    rw [fileKey, hCategory, hItem, fileKey]
  · intro e he e' he' hEq
    obtain ⟨c, hc, rfl⟩ := List.mem_map.mp he
    obtain ⟨c', hc', rfl⟩ := List.mem_map.mp he'
    rw [Tables.eq_of_id hIds hc hc' hEq]

end Fit

/-! ## Runs -/

inductive ImportRequest
  | commit (params : CommitParams)
  | publish (params : PublishMenuImportJobParams)

def ImportRequest.program (env : Env) : ImportRequest → Promise Unit
  | commit params => do
    let _ ← commitImportNow env params
    pure ()
  | publish params => publishMenuImportJob env.lower params

structure MenuImportJob.Unforced (scope : ImportScope) (job : MenuImportJob) : Prop where
  business : job.businessId = scope.canonicalBusinessId
  valid : ∀ row ∈ job.draftRows, row.valid = true
  userAction : ∀ row ∈ job.draftRows, row.userAction = none

section Runs

variable (env : Env) (scope : ImportScope)

structure World.Distinct (w : World) : Prop where
  menu : NoDuplicates env.lower w.menu scope
  ids : (w.menu.categories.map (·.id)).Nodup
  jobs : ∀ job ∈ w.jobs, job.Unforced scope

def Allowed : Op → Prop
  | .transaction s resolved => s.Same scope ∧ resolved.Fit env.lower
  | .saveJob _ _ changes => changes.draftRows = none
  | .claimForExtraction _ | .saveRow _ _ _ _ _ | .updateUnlessCancelled _ _ => False
  | _ => True

end Runs

section Programs

variable {env : Env} {scope : ImportScope}

end Programs

section Steps

variable {env : Env} {scope : ImportScope} {w : World} {job : MenuImportJob}

theorem mem_setJob {job' : MenuImportJob} (h : job' ∈ (setJob job w).jobs) : job' = job ∨ job' ∈ w.jobs := by
  obtain ⟨old, hMem, rfl⟩ := List.mem_map.mp h
  split
  · exact .inl rfl
  · exact .inr hMem

theorem World.Distinct.setJob (h : w.Distinct env scope) (hJob : job.Unforced scope) : (setJob job w).Distinct env scope := by
  refine ⟨h.menu, h.ids, fun job' hMem => ?_⟩
  rcases mem_setJob hMem with rfl | hMem
  · exact hJob
  · exact h.jobs job' hMem

end Steps

namespace OneRow

def request : ImportRequest :=
  .commit { buffer := [], kind := .csv, requestedMapping := [], scope := scope, duplicateStrategy := .skip }

def rest : Promise Unit :=
  (resolveImportNow (env "1").lower [row 1] scope .skip >>= fun resolved => writeResolvedImportNow resolved scope) >>= fun _ => pure ()

end OneRow

end RestaurantOs.MenuImport
