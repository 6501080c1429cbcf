import RestaurantOs.MenuEdits.Writes

/-!
# Items and their categories

An item is written after its category has been found, and a category is deleted after
its items have been counted. Each item keeps a category of its scope while the one
still finds what it found and the other leaves no item behind.
-/

namespace RestaurantOs.MenuEdits

open Async Prog Menus
open MenuImport (ImportScope ResolvedImport Answer passesValidators writtenMenu newCategories newItems freshId normalizeKey slot)

def Holds (categories : List Category) (businessId restaurantId : Option Id) (categoryId : Id) : Prop :=
  ∃ category ∈ categories, category.id = categoryId ∧
    ((∃ r, restaurantId = some r ∧ category.restaurantId = some r) ∨ ∃ b, businessId = some b ∧ category.businessId = some b)

def Belongs (menu : Menu) : Prop := ∀ item ∈ menu.items, Holds menu.categories item.businessId item.restaurantId item.categoryId

section Holds

variable {categories categories' : List Category} {businessId restaurantId : Option Id} {id categoryId : Id} {scope : Scope}

theorem Holds.mono (h : Holds categories businessId restaurantId categoryId)
    (hKept : ∀ c ∈ categories, c.id = categoryId →
      ∃ c' ∈ categories', c'.id = c.id ∧ c'.restaurantId = c.restaurantId ∧ c'.businessId = c.businessId) :
    Holds categories' businessId restaurantId categoryId := by
  obtain ⟨c, hMem, hId, hScope⟩ := h
  obtain ⟨c', hMem', hId', hRestaurant, hBusiness⟩ := hKept c hMem hId
  refine ⟨c', hMem', hId'.trans hId, ?_⟩
  rw [hRestaurant, hBusiness]
  exact hScope

theorem Holds.of_subset (h : Holds categories businessId restaurantId categoryId) (hSubset : categories ⊆ categories') :
    Holds categories' businessId restaurantId categoryId :=
  h.mono fun c hMem _ => ⟨c, hSubset hMem, rfl, rfl, rfl⟩

theorem holds_of_found (hFound : categories.any (scope.foundCategory id) = true) (hScope : scope.has businessId restaurantId = true) :
    Holds categories businessId restaurantId id := by
  obtain ⟨category, hMem, hCategory⟩ := List.any_eq_true.mp hFound
  unfold Scope.foundCategory at hCategory
  rw [Bool.and_eq_true, decide_eq_true_eq] at hCategory
  refine ⟨category, hMem, hCategory.1, ?_⟩
  cases scope with
  | restaurant r => exact .inl ⟨r, of_decide_eq_true hScope, of_decide_eq_true hCategory.2⟩
  | business b => exact .inr ⟨b, of_decide_eq_true hScope, of_decide_eq_true hCategory.2⟩

theorem has_own : scope.has scope.businessId scope.restaurantId = true := by
  cases scope <;> exact decide_eq_true rfl

end Holds

/-! ## What the writes leave -/

def Write.keepsCategories (menu : Menu) (scope : Scope) : Write → Bool
  | createItem doc => menu.categories.any (scope.foundCategory doc.categoryId)
  | updateItem _ _ updates => updates.categoryId.all fun id => menu.categories.any (scope.foundCategory id)
  | deleteCategory _ id => !menu.items.any (·.categoryId = id)
  | _ => true

def importKeepsCategories (lower : Text → Text) (menu : Menu) (scope : ImportScope) (resolved : ResolvedImport) : Bool :=
  (MenuImport.toCreate resolved).all fun row =>
    (resolved.existingCategoryIdByName (normalizeKey lower row.row.categoryName)).all fun id =>
      menu.categories.any ((scopeOf scope).foundCategory id)

section Writes

variable {menu menu' : Menu} {change : Write} {scope : Scope}

theorem Belongs.apply (h : Belongs menu) (hSent : Sent scope change) (hKeeps : change.keepsCategories menu scope = true)
    (hApply : change.apply menu = .ok menu') : Belongs menu' := by
  cases hSent with
  | createItem body =>
    obtain ⟨-, rfl⟩ := createItem_eq_ok.mp hApply
    intro item hMem
    rcases List.mem_append.mp hMem with hOld | hNew
    · exact h item hOld
    · rw [List.mem_singleton.mp hNew]
      exact holds_of_found hKeeps has_own
  | @updateItem _ id updates =>
    obtain ⟨-, rfl⟩ := updateItem_eq_ok hApply
    intro item hMem
    obtain ⟨old, hOld, rfl⟩ := List.mem_map.mp hMem
    split
    · rename_i hFound
      change Holds menu.categories old.businessId old.restaurantId (updates.categoryId.getD old.categoryId)
      change (updates.categoryId.all fun id => menu.categories.any (scope.foundCategory id)) = true at hKeeps
      cases hMoved : updates.categoryId with
      | none => exact h old hOld
      | some categoryId =>
        rw [hMoved] at hKeeps
        exact holds_of_found hKeeps hFound.2
    · exact h old hOld
  | deleteItem =>
    obtain ⟨-, rfl⟩ := deleteItem_eq_ok hApply
    intro item hMem
    exact h item (List.mem_filter.mp hMem).1
  | createCategory body =>
    obtain ⟨categories, hInsert, hApply⟩ := Traversals.bind_ok hApply
    cases hApply
    intro item hMem
    rw [(insertDoc_ok hInsert).2]
    exact (h item hMem).of_subset (List.subset_append_left _ _)
  | @updateCategory id updates =>
    obtain ⟨categories, hChange, hApply⟩ := Traversals.bind_ok hApply
    cases hApply
    intro item hMem
    rw [changeFound_ok hChange]
    refine (h item hMem).mono fun c hMem _ => ⟨_, Tables.mem_update.mpr ⟨c, hMem, rfl⟩, ?_⟩
    split
    · exact ⟨rfl, rfl, rfl⟩
    · exact ⟨rfl, rfl, rfl⟩
  | @deleteCategory id =>
    obtain ⟨categories, hChange, hApply⟩ := Traversals.bind_ok hApply
    cases hApply
    intro item hMem
    rw [changeFound_ok hChange]
    refine (h item hMem).mono fun c hMemC hNames => ⟨c, List.mem_filter.mpr ⟨hMemC, ?_⟩, rfl, rfl, rfl⟩
    -- a deleted category would be named by the item
    by_contra hDeleted
    rw [Bool.not_eq_true', Bool.not_eq_false, Scope.foundCategory, Bool.and_eq_true, decide_eq_true_eq] at hDeleted
    unfold Write.keepsCategories at hKeeps
    rw [Bool.not_eq_true', List.any_eq_false] at hKeeps
    exact hKeeps item hMem (decide_eq_true (hNames.symm.trans hDeleted.1))
  | createGroup body =>
    obtain ⟨groups, -, hApply⟩ := Traversals.bind_ok hApply
    cases hApply
    exact h
  | updateGroup body =>
    obtain ⟨groups, -, hApply⟩ := Traversals.bind_ok hApply
    cases hApply
    exact h
  | deleteGroup =>
    obtain ⟨groups, -, hApply⟩ := Traversals.bind_ok hApply
    cases hApply
    exact h
  | _ =>
    cases hApply
    exact h

theorem scopeOf_has {scope : ImportScope} {businessId restaurantId : Option Id} :
    (scopeOf scope).has businessId restaurantId = scope.has businessId restaurantId := by
  obtain ⟨r, b⟩ := scope
  cases b <;> rfl

theorem Belongs.imported {lower : Text → Text} {scope : ImportScope} {resolved : ResolvedImport} (h : Belongs menu)
    (hKeeps : importKeepsCategories lower menu scope resolved = true) : Belongs (writtenMenu lower menu scope resolved) := by
  intro item hMem
  have hSlot : slot item ∈ (writtenMenu lower menu scope resolved).items.map slot := List.mem_map_of_mem hMem
  rw [MenuImport.map_slot_writtenMenu] at hSlot
  obtain ⟨item', hMem', hEq⟩ := List.mem_map.mp hSlot
  obtain ⟨hBusiness, hRestaurant, hCategory, -⟩ : item'.businessId = item.businessId ∧ item'.restaurantId = item.restaurantId ∧
      item'.categoryId = item.categoryId ∧ item'.name = item.name := by simpa [slot] using hEq
  rw [← hBusiness, ← hRestaurant, ← hCategory]
  rcases List.mem_append.mp hMem' with hOld | hNew
  · exact (h item' hOld).of_subset (List.subset_append_left _ _)
  · obtain ⟨i, hi, rfl⟩ := List.mem_mapIdx.mp hNew
    have hRow := List.getElem_mem hi
    have hScope := @MenuImport.has_new scope
    rw [← scopeOf_has] at hScope
    rcases @MenuImport.categoryIdByName_cases lower resolved (freshId menu resolved) _ hRow with ⟨j, hId, hCreated⟩ | ⟨id, hId, hExisting⟩
    · obtain ⟨name, hName, -⟩ := Option.map_eq_some_iff.mp hCreated
      have hNewCategory : MenuImport.newCategory scope (freshId menu resolved + j) j name ∈
          newCategories lower scope resolved (freshId menu resolved) := by
        obtain ⟨hj, rfl⟩ := List.getElem?_eq_some_iff.mp hName
        exact List.mem_mapIdx.mpr ⟨j, hj, rfl⟩
      refine holds_of_found (List.any_eq_true.mpr ⟨_, List.mem_append_right _ hNewCategory, ?_⟩) hScope
      rw [Scope.foundCategory, Bool.and_eq_true, decide_eq_true_eq]
      refine ⟨?_, hScope⟩
      change freshId menu resolved + j = (MenuImport.categoryIdByName lower resolved _ _).getD 0
      rw [hId, Option.getD_some]
    · have hFound := List.all_eq_true.mp hKeeps _ hRow
      rw [hExisting, Option.all_some] at hFound
      change Holds _ _ _ ((MenuImport.categoryIdByName lower resolved _ _).getD 0)
      rw [hId, Option.getD_some]
      exact (holds_of_found hFound hScope).of_subset (List.subset_append_left _ _)

end Writes

def keepsCategories (lower : Text → Text) (c : State) : Label Answer MenuImport.Event → Bool
  | .run t a =>
    match c.waiting? t with
    | some (.write scope change) => a.fault.isSome || change.keepsCategories c.state.menu scope
    | some (.imports (.transaction scope resolved)) => a.fault.isSome || importKeepsCategories lower c.state.menu scope resolved
    | _ => true
  | _ => true

namespace Soups

def world : World :=
  { imports := { menu := { restaurants := [{ id := 1 }], categories := [{ id := 10, restaurantId := some 1, name := "Soups".toList }] } } }

def requests : List Request :=
  [.edit (.deleteCategory (.restaurant 1) 10), .edit (.createItem (.restaurant 1) 20 { categoryId := 10, name := "Goulash".toList, price := 8 })]

end Soups

end RestaurantOs.MenuEdits
