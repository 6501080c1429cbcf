import RestaurantOs.Menus.PlainOrders

/-!
# The selections of an order

Together the checks ask that each selection names an active option of a group of
the item, and that each group is selected from as often as it allows; an option
that is selected again counts again.
-/

namespace RestaurantOs.Menus

namespace OrderLine

def selectedFrom (line : OrderLine) (group : EffectivePricingGroup) : Nat :=
  line.selectedModifiers.countP (·.groupId = group.id)

def distinctFrom (line : OrderLine) (group : EffectivePricingGroup) : Nat :=
  line.selectedModifiers.dedup.countP (·.groupId = group.id)

def Offered (groups : List EffectivePricingGroup) (line : OrderLine) (selection : SelectedModifierInput) : Prop :=
  ∃ group ∈ groups, group.menuItemId = line.menuItemId ∧ group.id = selection.groupId ∧
    ∃ option ∈ group.options, option.id = selection.optionId ∧ option.isActive = true

def Allowed (group : EffectivePricingGroup) (n : Nat) : Prop := n = 0 ∧ group.minSelect = 0 ∨ group.minSelect ≤ n ∧ n ≤ group.maxSelect

structure Legal (groups : List EffectivePricingGroup) (line : OrderLine) : Prop where
  offered : ∀ selection ∈ line.selectedModifiers, line.Offered groups selection
  limits : ∀ group ∈ groups, group.menuItemId = line.menuItemId → Allowed group (line.selectedFrom group)

structure LegalOnce (groups : List EffectivePricingGroup) (line : OrderLine) : Prop where
  offered : ∀ selection ∈ line.selectedModifiers, line.Offered groups selection
  once : line.selectedModifiers.Nodup
  limits : ∀ group ∈ groups, group.menuItemId = line.menuItemId → Allowed group (line.distinctFrom group)

end OrderLine

section Line

variable {items : List EffectivePricingItem} {groups : List EffectivePricingGroup} {group : EffectivePricingGroup} {line : OrderLine}
  {selections : List SelectedModifierInput} {selection : SelectedModifierInput}

theorem mapGet_group (hUnique : ∀ e ∈ groups, ∀ e' ∈ groups, e.id = e'.id → e = e') {id : Id} :
    mapGet (·.id) groups id = some group ↔ group ∈ groups ∧ group.id = id := by
  constructor
  · intro h
    exact mem_of_mapGet h
  · rintro ⟨hMem, rfl⟩
    exact mapGet_of_unique hMem rfl fun e he hId => hUnique e he group hMem hId

theorem selectGroup_isOk (hUnique : ∀ e ∈ groups, ∀ e' ∈ groups, e.id = e'.id → e = e') :
    (∃ e, selectGroup groups line.menuItemId selection = .ok e) ↔
      ∃ group ∈ groups, group.menuItemId = line.menuItemId ∧ group.id = selection.groupId := by
  unfold selectGroup
  split
  · rename_i found hGet
    obtain ⟨hMem, hId⟩ := (mapGet_group hUnique).mp hGet
    split
    · rename_i hOwn
      exact iff_of_true ⟨found, rfl⟩ ⟨found, hMem, hOwn, hId⟩
    · rename_i hOther
      refine iff_of_false (fun ⟨e, he⟩ => by cases he) fun ⟨group, hGroup, hOwn, hSame⟩ => hOther ?_
      rw [hUnique found hMem group hGroup (hId.trans hSame.symm)]
      exact hOwn
  · rename_i hNone
    refine iff_of_false (fun ⟨e, he⟩ => by cases he) fun ⟨group, hGroup, _, hSame⟩ => ?_
    rw [(mapGet_group hUnique).mpr ⟨hGroup, hSame⟩] at hNone
    cases hNone

theorem selectOption_isOk_iff : (∃ priced, selectOption group selection = .ok priced) ↔
    ∃ option ∈ group.options, option.id = selection.optionId ∧ option.isActive = true := by
  unfold selectOption
  split
  · rename_i option hFound
    have hOption := List.find?_some hFound
    rw [Bool.and_eq_true, decide_eq_true_eq] at hOption
    exact iff_of_true ⟨_, rfl⟩ ⟨option, List.mem_of_find?_eq_some hFound, hOption⟩
  · rename_i hNone
    refine iff_of_false (fun ⟨e, he⟩ => by cases he) fun ⟨option, hMem, hId, hActive⟩ => ?_
    have hNot := List.find?_eq_none.mp hNone option hMem
    rw [decide_eq_true hId, hActive] at hNot
    exact hNot rfl

theorem priceGroup_isOk_iff (hUnique : ∀ e ∈ groups, ∀ e' ∈ groups, e.id = e'.id → e = e') (hMem : group ∈ groups) :
    (∃ selected, priceGroup groups selections group.id = .ok selected) ↔
      (group.minSelect ≤ selections.countP (·.groupId = group.id) ∧ selections.countP (·.groupId = group.id) ≤ group.maxSelect) ∧
        ∀ selection ∈ selections, selection.groupId = group.id →
          ∃ option ∈ group.options, option.id = selection.optionId ∧ option.isActive = true := by
  have hGet := (mapGet_group hUnique).mpr ⟨hMem, rfl⟩
  have hChosen : (∃ selected, (selections.filter (·.groupId = group.id)).mapM (selectOption group) = .ok selected) ↔
      ∀ selection ∈ selections, selection.groupId = group.id →
        ∃ option ∈ group.options, option.id = selection.optionId ∧ option.isActive = true := by
    simp only [Traversals.mapM_isOk_iff, selectOption_isOk_iff, List.mem_filter, decide_eq_true_eq, and_imp]
  rw [priceGroup, hGet, List.countP_eq_length_filter, ← hChosen]
  dsimp only
  split
  · rename_i hOutside
    constructor
    · rintro ⟨selected, hSelected⟩
      cases hSelected
    · intro hInside
      omega
  · rename_i hInside
    exact (and_iff_right (by omega)).symm

theorem priceLine_isOk_iff (hUnique : ∀ e ∈ groups, ∀ e' ∈ groups, e.id = e'.id → e = e') {item : EffectivePricingItem}
    (hItem : mapGet (·.id) items line.menuItemId = some item) :
    (∃ priced, priceLine items groups line = .ok priced) ↔ line.Legal groups := by
  have hCount (e : EffectivePricingGroup) : 0 < line.selectedFrom e ↔ ∃ selection ∈ line.selectedModifiers, selection.groupId = e.id := by
    rw [OrderLine.selectedFrom, List.countP_pos_iff]
    simp only [decide_eq_true_eq]
  constructor
  · rintro ⟨priced, h⟩
    unfold priceLine at h
    obtain ⟨_, hGroups, h⟩ := Traversals.bind_ok h
    obtain ⟨selected, hSelected, h⟩ := Traversals.bind_ok h
    obtain ⟨_, hRequired, -⟩ := Traversals.bind_ok h
    have hGroups := Traversals.mapM_isOk_iff.mp ⟨_, hGroups⟩
    have hSelected := Traversals.mapM_isOk_iff.mp ⟨_, hSelected⟩
    have hRequired := Traversals.mapM_isOk_iff.mp ⟨_, hRequired⟩
    have hPriced (e : EffectivePricingGroup) (he : e ∈ groups) (hPos : 0 < line.selectedFrom e) :=
      (priceGroup_isOk_iff hUnique he).mp (hSelected e.id (mem_selectedGroups.mpr ((hCount e).mp hPos)))
    refine ⟨fun selection hMem => ?_, fun e he hOwn => ?_⟩
    · obtain ⟨e, he, hOwn, hId⟩ := (selectGroup_isOk hUnique).mp (hGroups selection hMem)
      have hPos := (hCount e).mpr ⟨selection, hMem, hId.symm⟩
      exact ⟨e, he, hOwn, hId, (hPriced e he hPos).2 selection hMem hId.symm⟩
    · rcases Nat.eq_zero_or_pos (line.selectedFrom e) with hZero | hPos
      · refine .inl ⟨hZero, ?_⟩
        by_contra hMin
        have hNeeded := checkRequired_isOk.mp (hRequired e he) hOwn (Nat.pos_of_ne_zero hMin)
        exact Nat.ne_of_gt hNeeded hZero
      · exact .inr (hPriced e he hPos).1
  · intro h
    have hGroups : ∀ selection ∈ line.selectedModifiers, ∃ e, selectGroup groups line.menuItemId selection = .ok e := by
      intro selection hMem
      obtain ⟨e, he, hOwn, hId, -⟩ := h.offered selection hMem
      exact (selectGroup_isOk hUnique).mpr ⟨e, he, hOwn, hId⟩
    have hSelected : ∀ groupId ∈ selectedGroups line.selectedModifiers, ∃ selected,
        priceGroup groups line.selectedModifiers groupId = .ok selected := by
      intro groupId hMem
      obtain ⟨selection, hSelection, rfl⟩ := mem_selectedGroups.mp hMem
      obtain ⟨e, he, hOwn, hId, -⟩ := h.offered selection hSelection
      have hPos := (hCount e).mpr ⟨selection, hSelection, hId.symm⟩
      rw [← hId]
      refine (priceGroup_isOk_iff hUnique he).mpr ⟨?_, fun other hOther hSame => ?_⟩
      · rcases h.limits e he hOwn with ⟨hZero, -⟩ | hLimits
        · exact absurd hZero (Nat.ne_of_gt hPos)
        · exact hLimits
      · obtain ⟨e', he', -, hId', hOption⟩ := h.offered other hOther
        rw [hUnique e he e' he' (hSame.symm.trans hId'.symm)]
        exact hOption
    have hRequired : ∀ e ∈ groups, ∃ u, checkRequired line.selectedModifiers line.menuItemId e = .ok u := by
      intro e he
      refine checkRequired_isOk.mpr fun hOwn hMin => ?_
      rcases h.limits e he hOwn with ⟨-, hFree⟩ | hLimits
      · exact absurd hFree (Nat.ne_of_gt hMin)
      · exact hMin.trans_le hLimits.1
    obtain ⟨_, hGroups⟩ := Traversals.mapM_isOk_iff.mpr hGroups
    obtain ⟨selected, hSelected⟩ := Traversals.mapM_isOk_iff.mpr hSelected
    obtain ⟨_, hRequired⟩ := Traversals.mapM_isOk_iff.mpr hRequired
    rw [priceLine, hGroups, hSelected, hRequired, hItem]
    exact ⟨_, rfl⟩

end Line

section Order

variable {menu : Menu} {restaurantId : Id} {lines : List OrderLine}

theorem effectiveGroups_unique (hIds : menu.IdsUnique) {ids : List Id} :
    ∀ e ∈ effectiveGroups menu restaurantId ids, ∀ e' ∈ effectiveGroups menu restaurantId ids, e.id = e'.id → e = e' := by
  unfold effectiveGroups
  cases resolveCanonicalBusinessId menu restaurantId with
  | some businessId =>
    intro e he e' he' hEq
    obtain ⟨group, hOffers, -, rfl⟩ := mem_loadedGroups.mp he
    obtain ⟨group', hOffers', -, rfl⟩ := mem_loadedGroups.mp he'
    rw [Tables.eq_of_id hIds.groups hOffers.mem hOffers'.mem hEq]
  | none =>
    intro e he e' he' hEq
    obtain ⟨doc, hDoc, rfl⟩ := List.mem_map.mp he
    obtain ⟨doc', hDoc', rfl⟩ := List.mem_map.mp he'
    rw [Tables.eq_of_id hIds.groups (List.mem_filter.mp hDoc).1 (List.mem_filter.mp hDoc').1 hEq]

/-- An order whose items are loaded is accepted just if the selections of each line are legal. -/
theorem order_accepted_iff (menu : Menu) (restaurantId : Id) (lines : List OrderLine) (hIds : menu.IdsUnique)
    (hLoaded : allItemsLoaded (effectiveItems menu restaurantId (lines.map (·.menuItemId))) (lines.map (·.menuItemId)) = true) :
    (∃ priced, priceOrderItems menu restaurantId lines = .ok priced) ↔
      ∀ line ∈ lines, line.Legal (effectiveGroups menu restaurantId (lines.map (·.menuItemId))) := by
  have hLine (line : OrderLine) (hMem : line ∈ lines) :
      (∃ priced, priceLine (effectiveItems menu restaurantId (lines.map (·.menuItemId)))
        (effectiveGroups menu restaurantId (lines.map (·.menuItemId))) line = .ok priced) ↔
        line.Legal (effectiveGroups menu restaurantId (lines.map (·.menuItemId))) := by
    have hIn : line.menuItemId ∈ lines.map (·.menuItemId) := List.mem_map_of_mem hMem
    obtain ⟨item, hItem, hId⟩ := (@allItemsLoaded_effective {} _ _ _).mp hLoaded _ hIn
    exact priceLine_isOk_iff (effectiveGroups_unique hIds) ((@mapGet_effectiveItems {} _ _ _ hIds _ hIn _).mpr ⟨item, hItem, hId, rfl⟩)
  rw [← forall₂_congr fun line hMem => hLine line hMem, ← Traversals.mapM_isOk_iff]
  constructor
  · rintro ⟨priced, h⟩
    exact ⟨priced.items, (priceOrderItems_ok_iff.mp h).2.1⟩
  · rintro ⟨items, hItems⟩
    exact ⟨⟨items, (items.map (·.lineTotal)).sum⟩, priceOrderItems_ok_iff.mpr ⟨hLoaded, hItems, rfl⟩⟩

end Order

namespace Salad

def menu : Menu where
  restaurants := [{ id := 1 }]
  items := [{ id := 20, restaurantId := some 1, categoryId := 10, name := "Salad".toList, price := 7 }]
  groups := [{
    id := 30
    restaurantId := some 1
    menuItemId := 20
    name := "Toppings".toList
    maxSelect := 2
    options := [{ id := 31, name := "Olives".toList, priceAdjustment := 1 }] }]

theorem idsUnique : menu.IdsUnique := ⟨by decide, by decide, by decide⟩

def twiceOlives : OrderLine where
  menuItemId := 20
  quantity := 1
  selectedModifiers := [⟨30, 31⟩, ⟨30, 31⟩]

theorem loaded : allItemsLoaded (effectiveItems menu 1 ([twiceOlives].map (·.menuItemId))) ([twiceOlives].map (·.menuItemId)) = true := by
  decide

end Salad

theorem twice_olives_legal : (∃ priced, priceOrderItems Salad.menu 1 [Salad.twiceOlives] = .ok priced) ↔
    ∀ line ∈ [Salad.twiceOlives], line.Legal (effectiveGroups Salad.menu 1 [20]) :=
  order_accepted_iff Salad.menu 1 [Salad.twiceOlives] Salad.idsUnique Salad.loaded

/-- An option that is selected twice is accepted. -/
theorem twice_olives_accepted : ¬ ∀ (menu : Menu) (restaurantId : Id) (lines : List OrderLine), menu.IdsUnique →
    allItemsLoaded (effectiveItems menu restaurantId (lines.map (·.menuItemId))) (lines.map (·.menuItemId)) = true →
    ((∃ priced, priceOrderItems menu restaurantId lines = .ok priced) ↔
      ∀ line ∈ lines, line.LegalOnce (effectiveGroups menu restaurantId (lines.map (·.menuItemId)))) := by
  intro hClaim
  have hAccepted : (priceOrderItems Salad.menu 1 [Salad.twiceOlives]).isOk = true := by decide
  have hOk : ∃ priced, priceOrderItems Salad.menu 1 [Salad.twiceOlives] = .ok priced := by
    cases hPriced : priceOrderItems Salad.menu 1 [Salad.twiceOlives] with
    | error err =>
      rw [hPriced] at hAccepted
      cases hAccepted
    | ok priced => exact ⟨priced, rfl⟩
  have hLegal := (hClaim Salad.menu 1 [Salad.twiceOlives] Salad.idsUnique Salad.loaded).mp hOk _ (List.mem_singleton_self _)
  have hTwice : ¬ Salad.twiceOlives.selectedModifiers.Nodup := by decide
  exact hTwice hLegal.once

end RestaurantOs.Menus
