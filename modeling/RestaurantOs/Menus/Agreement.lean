import Mathlib.Data.List.Dedup
import RestaurantOs.Data.Traversals
import RestaurantOs.Menus.OrderPricing

/-!
# The menu shown and the order charged

What a location's menu lists is what an order can name there, and every line
is charged what the menu lists.
-/

namespace RestaurantOs.Menus

/-- The `_id`s are unique, those of the options within their group. -/
structure Menu.IdsUnique (menu : Menu) : Prop where
  items : (menu.items.map (·.id)).Nodup
  groups : (menu.groups.map (·.id)).Nodup
  options : ∀ group ∈ menu.groups, (group.options.map (·.id)).Nodup

namespace ResolvedMenu

def item? (listed : ResolvedMenu) (menuItemId : Id) : Option ResolvedMenuItem := listed.items.find? (·.id = menuItemId)

def option? (listed : ResolvedMenu) (menuItemId : Id) (selection : SelectedModifierInput) : Option ResolvedModifierOption :=
  (listed.modifierGroups.find? fun g => g.id = selection.groupId && g.menuItemId = menuItemId && g.isActive).bind fun g =>
    g.options.find? fun o => o.id = selection.optionId && o.isActive

def adjustment (listed : ResolvedMenu) (menuItemId : Id) (selection : SelectedModifierInput) : ℚ :=
  (listed.option? menuItemId selection).elim 0 (·.priceAdjustment)

def lineTotal (listed : ResolvedMenu) (line : OrderLine) : ℚ :=
  ((listed.item? line.menuItemId).elim 0 (·.price) + (line.selectedModifiers.map (listed.adjustment line.menuItemId)).sum) *
    line.quantity

end ResolvedMenu

section Loaded

variable {locale : Locale} {menu : Menu} {businessId locationId : Id} {ids : List Id}

/-! ## Items -/

def ResolvedMenuItem.effective (item : ResolvedMenuItem) : EffectivePricingItem where
  id := item.id
  name := item.name
  price := item.price

theorem itemOverride_of_mem {id : Id} (h : id ∈ ids) :
    mapGet (·.menuItemId) (menu.itemOverrides.filter fun o => o.locationId = locationId && ids.contains o.menuItemId) id =
      menu.itemOverride locationId id := by
  refine mapGet_filter_and fun o _ hKey => ?_
  rw [hKey]
  exact List.contains_iff_mem.mpr h

theorem mem_loadedItems {e : EffectivePricingItem} : e ∈ loadEffectiveMenuItemsCanonical menu businessId locationId ids ↔
    ∃ item ∈ (resolveMenuForLocation locale menu businessId locationId false).items, item.id ∈ ids ∧ e = item.effective := by
  simp only [loadEffectiveMenuItemsCanonical, List.mem_filterMap, List.mem_filter, Bool.and_eq_true, List.contains_iff_mem,
    decide_eq_true_eq, mem_items]
  constructor
  · rintro ⟨doc, ⟨hMem, hIn, hBusiness⟩, hSome⟩
    rw [itemOverride_of_mem hIn] at hSome
    split at hSome
    · rename_i hAvailable
      cases hSome
      exact ⟨_, ⟨doc, hMem, hBusiness, rfl, hAvailable⟩, hIn, rfl⟩
    · cases hSome
  · rintro ⟨item, ⟨doc, hMem, hBusiness, rfl, hAvailable⟩, hIn, rfl⟩
    refine ⟨doc, ⟨hMem, hIn, hBusiness⟩, ?_⟩
    have hIn' : doc.id ∈ ids := hIn
    rw [itemOverride_of_mem hIn']
    exact if_pos hAvailable

theorem item_unique (hIds : menu.IdsUnique) {i j : ResolvedMenuItem}
    (hi : i ∈ (resolveMenuForLocation locale menu businessId locationId false).items)
    (hj : j ∈ (resolveMenuForLocation locale menu businessId locationId false).items) (hEq : i.id = j.id) : i = j := by
  obtain ⟨doc, hMem, -, rfl, -⟩ := mem_items.mp hi
  obtain ⟨doc', hMem', -, rfl, -⟩ := mem_items.mp hj
  rw [Tables.eq_of_id hIds.items hMem hMem' hEq]

theorem item?_eq_some (hIds : menu.IdsUnique) {item : ResolvedMenuItem} {id : Id} :
    (resolveMenuForLocation locale menu businessId locationId false).item? id = some item ↔
      item ∈ (resolveMenuForLocation locale menu businessId locationId false).items ∧ item.id = id := by
  constructor
  · intro h
    have hFind : (resolveMenuForLocation locale menu businessId locationId false).items.find? (·.id = id) = some item := h
    exact ⟨List.mem_of_find?_eq_some hFind, of_decide_eq_true (@List.find?_some _ (fun i : ResolvedMenuItem => decide (i.id = id)) _ _ hFind)⟩
  · rintro ⟨hMem, hId⟩
    exact find?_of_unique hMem (decide_eq_true hId) fun e he hKey =>
      item_unique hIds he hMem ((of_decide_eq_true hKey).trans hId.symm)

theorem mapGet_loadedItems (hIds : menu.IdsUnique) {item : ResolvedMenuItem} {id : Id} (hIn : id ∈ ids)
    (h : (resolveMenuForLocation locale menu businessId locationId false).item? id = some item) :
    mapGet (·.id) (loadEffectiveMenuItemsCanonical menu businessId locationId ids) id = some item.effective := by
  obtain ⟨hMem, rfl⟩ := (item?_eq_some hIds).mp h
  refine mapGet_of_unique ((mem_loadedItems).mpr ⟨item, hMem, hIn, rfl⟩) rfl fun e he hKey => ?_
  obtain ⟨item', hMem', -, rfl⟩ := (@mem_loadedItems locale _ _ _ _ _).mp he
  rw [item_unique hIds hMem' hMem hKey]

theorem length_dedup_eq_iff {l m : List Id} (h : l ⊆ m) : l.dedup.length = m.dedup.length ↔ m ⊆ l := by
  constructor
  · intro hLength id hMem
    have hSubperm := List.subperm_of_subset l.nodup_dedup fun x hx => List.mem_dedup.mpr (h (List.mem_dedup.mp hx))
    exact List.mem_dedup.mp ((hSubperm.perm_of_length_le hLength.ge).symm.subset (List.mem_dedup.mpr hMem))
  · intro h'
    refine ((List.perm_ext_iff_of_nodup l.nodup_dedup m.nodup_dedup).mpr fun id => ?_).length_eq
    rw [List.mem_dedup, List.mem_dedup]
    exact ⟨fun hMem => h hMem, fun hMem => h' hMem⟩

theorem allItemsLoaded_iff (hIds : menu.IdsUnique) :
    allItemsLoaded (loadEffectiveMenuItemsCanonical menu businessId locationId ids) ids = true ↔
      ∀ id ∈ ids, ((resolveMenuForLocation locale menu businessId locationId false).item? id).isSome = true := by
  have hSubset : (loadEffectiveMenuItemsCanonical menu businessId locationId ids).map (·.id) ⊆ ids := by
    intro id hMem
    obtain ⟨e, he, rfl⟩ := List.mem_map.mp hMem
    obtain ⟨item, -, hIn, rfl⟩ := (@mem_loadedItems locale _ _ _ _ _).mp he
    exact hIn
  rw [allItemsLoaded, decide_eq_true_eq, length_dedup_eq_iff hSubset]
  refine forall₂_congr fun id hIn => ?_
  rw [List.mem_map, Option.isSome_iff_exists]
  constructor
  · rintro ⟨e, he, rfl⟩
    obtain ⟨item, hMem, -, rfl⟩ := (@mem_loadedItems locale _ _ _ _ _).mp he
    exact ⟨item, (item?_eq_some hIds).mpr ⟨hMem, rfl⟩⟩
  · rintro ⟨item, hItem⟩
    obtain ⟨hMem, hId⟩ := (item?_eq_some hIds).mp hItem
    exact ⟨item.effective, (mem_loadedItems).mpr ⟨item, hMem, hId ▸ hIn, rfl⟩, hId⟩

/-! ## Modifier groups -/

structure Menu.OffersGroup (menu : Menu) (businessId locationId menuItemId groupId : Id) (group : ModifierGroup) : Prop where
  mem : group ∈ menu.groups
  business : group.businessId = some businessId
  active : ((menu.groupOverride locationId group.id).bind (·.isActive)).getD group.isActive = true
  id : group.id = groupId
  item : group.menuItemId = menuItemId

theorem groupOverride_of_mem {group : ModifierGroup} (hMem : group ∈ menu.groups) (hIn : group.menuItemId ∈ ids)
    (hBusiness : group.businessId = some businessId) :
    mapGet (·.modifierGroupId) (menu.groupOverrides.filter fun o => o.locationId = locationId &&
        ((menu.groups.filter fun d => ids.contains d.menuItemId && d.businessId = some businessId).map (·.id)).contains
          o.modifierGroupId) group.id = menu.groupOverride locationId group.id := by
  refine mapGet_filter_and fun o _ hKey => ?_
  rw [hKey, List.contains_iff_mem]
  refine List.mem_map_of_mem (List.mem_filter.mpr ⟨hMem, ?_⟩)
  rw [Bool.and_eq_true, List.contains_iff_mem, decide_eq_true_eq]
  exact ⟨hIn, hBusiness⟩

theorem mem_loadedGroups {e : EffectivePricingGroup} :
    e ∈ loadEffectiveModifierGroupsCanonical menu businessId locationId ids ↔
      ∃ group, menu.OffersGroup businessId locationId group.menuItemId group.id group ∧ group.menuItemId ∈ ids ∧
        e = group.effective (menu.groupOverride locationId group.id) := by
  simp only [loadEffectiveModifierGroupsCanonical, List.mem_filterMap]
  constructor
  · rintro ⟨group, hFilter, hSome⟩
    have hDoc := List.mem_filter.mp hFilter
    rw [Bool.and_eq_true, List.contains_iff_mem, decide_eq_true_eq] at hDoc
    obtain ⟨hMem, hIn, hBusiness⟩ := hDoc
    rw [groupOverride_of_mem hMem hIn hBusiness] at hSome
    split at hSome
    · rename_i hActive
      cases hSome
      exact ⟨group, ⟨hMem, hBusiness, hActive, rfl, rfl⟩, hIn, rfl⟩
    · cases hSome
  · rintro ⟨group, hOffers, hIn, rfl⟩
    refine ⟨group, List.mem_filter.mpr ⟨hOffers.mem, ?_⟩, ?_⟩
    · rw [Bool.and_eq_true, List.contains_iff_mem, decide_eq_true_eq]
      exact ⟨hIn, hOffers.business⟩
    · rw [groupOverride_of_mem hOffers.mem hIn hOffers.business]
      exact if_pos hOffers.active

theorem mem_listedGroups {g : ResolvedModifierGroup} :
    g ∈ (resolveMenuForLocation locale menu businessId locationId false).modifierGroups ↔
      ∃ group, menu.OffersGroup businessId locationId group.menuItemId group.id group ∧
        g = group.resolve locationId false (menu.groupOverride locationId group.id) := by
  rw [mem_modifierGroups]
  constructor
  · rintro ⟨group, hMem, hBusiness, rfl, hActive⟩
    exact ⟨group, ⟨hMem, hBusiness, hActive, rfl, rfl⟩, rfl⟩
  · rintro ⟨group, hOffers, rfl⟩
    exact ⟨group, hOffers.mem, hOffers.business, rfl, hOffers.active⟩

theorem Menu.OffersGroup.eq (hIds : menu.IdsUnique) {menuItemId menuItemId' groupId : Id} {group group' : ModifierGroup}
    (h : menu.OffersGroup businessId locationId menuItemId groupId group)
    (h' : menu.OffersGroup businessId locationId menuItemId' groupId group') : group = group' :=
  Tables.eq_of_id hIds.groups h.mem h'.mem (h.id.trans h'.id.symm)

theorem mapGet_loadedGroups (hIds : menu.IdsUnique) {groupId : Id} {e : EffectivePricingGroup} :
    mapGet (·.id) (loadEffectiveModifierGroupsCanonical menu businessId locationId ids) groupId = some e ↔
      ∃ group, menu.OffersGroup businessId locationId group.menuItemId groupId group ∧ group.menuItemId ∈ ids ∧
        e = group.effective (menu.groupOverride locationId group.id) := by
  constructor
  · intro h
    obtain ⟨hMem, rfl⟩ := mem_of_mapGet h
    obtain ⟨group, hOffers, hIn, rfl⟩ := (mem_loadedGroups).mp hMem
    exact ⟨group, hOffers, hIn, rfl⟩
  · rintro ⟨group, hOffers, hIn, rfl⟩
    obtain rfl := hOffers.id
    refine mapGet_of_unique ((mem_loadedGroups).mpr ⟨group, hOffers, hIn, rfl⟩) rfl fun e he hKey => ?_
    obtain ⟨group', hOffers', -, rfl⟩ := (mem_loadedGroups).mp he
    have hId : group'.id = group.id := hKey
    rw [Tables.eq_of_id hIds.groups hOffers'.mem hOffers.mem hId]

theorem selectGroup_eq_ok (hIds : menu.IdsUnique) {menuItemId : Id} (hIn : menuItemId ∈ ids) {selection : SelectedModifierInput}
    {e : EffectivePricingGroup} :
    selectGroup (loadEffectiveModifierGroupsCanonical menu businessId locationId ids) menuItemId selection = .ok e ↔
      ∃ group, menu.OffersGroup businessId locationId menuItemId selection.groupId group ∧
        e = group.effective (menu.groupOverride locationId group.id) := by
  constructor
  · intro h
    unfold selectGroup at h
    split at h
    · rename_i found hFound
      split at h
      · rename_i hItem
        cases h
        obtain ⟨group, hOffers, -, rfl⟩ := (mapGet_loadedGroups hIds).mp hFound
        have hItem' : group.menuItemId = menuItemId := hItem
        exact ⟨group, hItem' ▸ hOffers, rfl⟩
      · cases h
    · cases h
  · rintro ⟨group, hOffers, rfl⟩
    obtain rfl := hOffers.item
    rw [selectGroup, (mapGet_loadedGroups hIds).mpr ⟨group, hOffers, hIn, rfl⟩]
    exact if_pos rfl

theorem listedGroup_eq_some (hIds : menu.IdsUnique) {menuItemId groupId : Id} {g : ResolvedModifierGroup} :
    (resolveMenuForLocation locale menu businessId locationId false).modifierGroups.find?
        (fun g => g.id = groupId && g.menuItemId = menuItemId && g.isActive) = some g ↔
      ∃ group, menu.OffersGroup businessId locationId menuItemId groupId group ∧
        g = group.resolve locationId false (menu.groupOverride locationId group.id) := by
  constructor
  · intro h
    obtain ⟨group, hOffers, rfl⟩ := (mem_listedGroups).mp (List.mem_of_find?_eq_some h)
    have hFound := List.find?_some h
    rw [Bool.and_eq_true, Bool.and_eq_true, decide_eq_true_eq, decide_eq_true_eq] at hFound
    obtain ⟨⟨hId, hItem⟩, -⟩ := hFound
    exact ⟨group, ⟨hOffers.mem, hOffers.business, hOffers.active, hId, hItem⟩, rfl⟩
  · rintro ⟨group, hOffers, rfl⟩
    obtain rfl := hOffers.item
    obtain rfl := hOffers.id
    refine find?_of_unique ((mem_listedGroups).mpr ⟨group, hOffers, rfl⟩) ?_ fun g hg hFound => ?_
    · rw [Bool.and_eq_true, Bool.and_eq_true, decide_eq_true_eq, decide_eq_true_eq]
      exact ⟨⟨rfl, rfl⟩, hOffers.active⟩
    · obtain ⟨group', hOffers', rfl⟩ := (mem_listedGroups).mp hg
      rw [Bool.and_eq_true, Bool.and_eq_true, decide_eq_true_eq, decide_eq_true_eq] at hFound
      have hId : group'.id = group.id := hFound.1.1
      rw [Tables.eq_of_id hIds.groups hOffers'.mem hOffers.mem hId]

/-! ## Options -/

structure OffersOption (override : Option ModifierGroupLocationOverride) (group : ModifierGroup) (optionId : Id)
    (option : ModifierOption) : Prop where
  mem : option ∈ group.options
  active : ((mapGet (·.optionId) (override.elim [] (·.optionOverrides)) option.id).bind (·.isActive)).getD option.isActive = true
  id : option.id = optionId

variable {override : Option ModifierGroupLocationOverride} {group : ModifierGroup} {optionId : Id}

theorem loadedOption_eq_some (hNodup : (group.options.map (·.id)).Nodup) {o : EffectivePricingOption} :
    (group.effective override).options.find? (fun o => o.id = optionId && o.isActive) = some o ↔
      ∃ option, OffersOption override group optionId option ∧
        o = option.effective (mapGet (·.optionId) (override.elim [] (·.optionOverrides)) option.id) := by
  constructor
  · intro h
    obtain ⟨option, hMem, rfl⟩ := List.mem_map.mp (List.mem_of_find?_eq_some h)
    have hFound := List.find?_some h
    rw [Bool.and_eq_true, decide_eq_true_eq] at hFound
    exact ⟨option, ⟨hMem, hFound.2, hFound.1⟩, rfl⟩
  · rintro ⟨option, hOffers, rfl⟩
    obtain rfl := hOffers.id
    refine find?_of_unique (List.mem_map.mpr ⟨option, hOffers.mem, rfl⟩) ?_ fun o ho hFound => ?_
    · rw [Bool.and_eq_true, decide_eq_true_eq]
      exact ⟨rfl, hOffers.active⟩
    · obtain ⟨option', hMem', rfl⟩ := List.mem_map.mp ho
      rw [Bool.and_eq_true, decide_eq_true_eq] at hFound
      have hId : option'.id = option.id := hFound.1
      rw [Tables.eq_of_id hNodup hMem' hOffers.mem hId]

theorem listedOption_eq_some (hNodup : (group.options.map (·.id)).Nodup) {o : ResolvedModifierOption} :
    (group.resolve locationId false override).options.find? (fun o => o.id = optionId && o.isActive) = some o ↔
      ∃ option, OffersOption override group optionId option ∧
        o = option.resolve (mapGet (·.optionId) (override.elim [] (·.optionOverrides)) option.id) := by
  constructor
  · intro h
    obtain ⟨option, hMem, rfl, hActive⟩ := mem_options.mp (List.mem_of_find?_eq_some h)
    have hFound := List.find?_some h
    rw [Bool.and_eq_true, decide_eq_true_eq] at hFound
    exact ⟨option, ⟨hMem, hActive, hFound.1⟩, rfl⟩
  · rintro ⟨option, hOffers, rfl⟩
    obtain rfl := hOffers.id
    refine find?_of_unique (mem_options.mpr ⟨option, hOffers.mem, rfl, hOffers.active⟩) ?_ fun o ho hFound => ?_
    · rw [Bool.and_eq_true, decide_eq_true_eq]
      exact ⟨rfl, hOffers.active⟩
    · obtain ⟨option', hMem', rfl, -⟩ := mem_options.mp ho
      rw [Bool.and_eq_true, decide_eq_true_eq] at hFound
      have hId : option'.id = option.id := hFound.1
      rw [Tables.eq_of_id hNodup hMem' hOffers.mem hId]

theorem option?_eq_some (hIds : menu.IdsUnique) {menuItemId : Id} {selection : SelectedModifierInput}
    {o : ResolvedModifierOption} :
    (resolveMenuForLocation locale menu businessId locationId false).option? menuItemId selection = some o ↔
      ∃ group, menu.OffersGroup businessId locationId menuItemId selection.groupId group ∧
        ∃ option, OffersOption (menu.groupOverride locationId group.id) group selection.optionId option ∧
          o = option.resolve
            (mapGet (·.optionId) ((menu.groupOverride locationId group.id).elim [] (·.optionOverrides)) option.id) := by
  rw [ResolvedMenu.option?, Option.bind_eq_some_iff]
  constructor
  · rintro ⟨g, hGroup, hOption⟩
    obtain ⟨group, hOffers, rfl⟩ := (listedGroup_eq_some hIds).mp hGroup
    exact ⟨group, hOffers, (listedOption_eq_some (hIds.options group hOffers.mem)).mp hOption⟩
  · rintro ⟨group, hOffers, hOption⟩
    exact ⟨_, (listedGroup_eq_some hIds).mpr ⟨group, hOffers, rfl⟩,
      (listedOption_eq_some (hIds.options group hOffers.mem)).mpr hOption⟩

theorem selectOption_eq_ok (hIds : menu.IdsUnique) {menuItemId : Id} {selection : SelectedModifierInput}
    (hOffers : menu.OffersGroup businessId locationId menuItemId selection.groupId group) {p : PricedSelectedModifier}
    (h : selectOption (group.effective (menu.groupOverride locationId group.id)) selection = .ok p) :
    ((resolveMenuForLocation locale menu businessId locationId false).option? menuItemId selection).map (·.priceAdjustment) =
      some p.priceAdjustment := by
  unfold selectOption at h
  split at h
  · rename_i o hFound
    cases h
    obtain ⟨option, hOption, rfl⟩ := (loadedOption_eq_some (hIds.options group hOffers.mem)).mp hFound
    rw [(option?_eq_some hIds).mpr ⟨group, hOffers, option, hOption, rfl⟩]
    rfl
  · cases h

theorem selectOption_isOk (hIds : menu.IdsUnique) {menuItemId : Id} {selection : SelectedModifierInput}
    (hOffers : menu.OffersGroup businessId locationId menuItemId selection.groupId group) :
    (∃ p, selectOption (group.effective (menu.groupOverride locationId group.id)) selection = .ok p) ↔
      ((resolveMenuForLocation locale menu businessId locationId false).option? menuItemId selection).isSome = true := by
  constructor
  · rintro ⟨p, hp⟩
    have hMap := @selectOption_eq_ok locale _ _ _ _ hIds _ _ hOffers _ hp
    rw [← Option.isSome_map, hMap]
    rfl
  · intro h
    obtain ⟨o, ho⟩ := Option.isSome_iff_exists.mp h
    obtain ⟨group', hOffers', option, hOption, rfl⟩ := (option?_eq_some hIds).mp ho
    obtain rfl := hOffers'.eq hIds hOffers
    unfold selectOption
    rw [(loadedOption_eq_some (hIds.options _ hOffers.mem)).mpr ⟨option, hOption, rfl⟩]
    exact ⟨_, rfl⟩

theorem selectable_iff (hIds : menu.IdsUnique) {menuItemId : Id} (hIn : menuItemId ∈ ids) (selection : SelectedModifierInput) :
    (∃ e, selectGroup (loadEffectiveModifierGroupsCanonical menu businessId locationId ids) menuItemId selection = .ok e ∧
        ∃ p, selectOption e selection = .ok p) ↔
      ((resolveMenuForLocation locale menu businessId locationId false).option? menuItemId selection).isSome = true := by
  constructor
  · rintro ⟨e, hGroup, hOption⟩
    obtain ⟨group, hOffers, rfl⟩ := (selectGroup_eq_ok hIds hIn).mp hGroup
    exact (selectOption_isOk hIds hOffers).mp hOption
  · intro h
    obtain ⟨o, ho⟩ := Option.isSome_iff_exists.mp h
    obtain ⟨group, hOffers, -⟩ := (option?_eq_some hIds).mp ho
    exact ⟨_, (selectGroup_eq_ok hIds hIn).mpr ⟨group, hOffers, rfl⟩, (selectOption_isOk hIds hOffers).mpr h⟩

/-! ## Lines -/

/-- The menu has what the line names, within the limits of the item's
groups. -/
structure ResolvedMenu.Accepts (listed : ResolvedMenu) (line : OrderLine) : Prop where
  item : (listed.item? line.menuItemId).isSome = true
  options : ∀ selection ∈ line.selectedModifiers, (listed.option? line.menuItemId selection).isSome = true
  limits : ∀ g ∈ listed.modifierGroups, g.menuItemId = line.menuItemId →
    g.minSelect ≤ line.selectedModifiers.countP (·.groupId = g.id) ∧
      (0 < line.selectedModifiers.countP (·.groupId = g.id) → line.selectedModifiers.countP (·.groupId = g.id) ≤ g.maxSelect)

theorem mem_selectedGroups {selections : List SelectedModifierInput} {groupId : Id} :
    groupId ∈ selectedGroups selections ↔ ∃ selection ∈ selections, selection.groupId = groupId := by
  rw [selectedGroups, List.mem_reverse, List.mem_dedup, List.mem_reverse, List.mem_map]

theorem nodup_selectedGroups (selections : List SelectedModifierInput) : (selectedGroups selections).Nodup :=
  List.nodup_reverse.mpr (List.nodup_dedup _)

theorem priceGroup_adjustments (hIds : menu.IdsUnique) {line : OrderLine} (hIn : line.menuItemId ∈ ids)
    (hGroups : ∀ selection ∈ line.selectedModifiers,
      ∃ e, selectGroup (loadEffectiveModifierGroupsCanonical menu businessId locationId ids) line.menuItemId selection = .ok e)
    {groupId : Id} (hMem : groupId ∈ selectedGroups line.selectedModifiers) {selected : List PricedSelectedModifier}
    (h : priceGroup (loadEffectiveModifierGroupsCanonical menu businessId locationId ids) line.selectedModifiers groupId =
      .ok selected) :
    selected.map (·.priceAdjustment) = (line.selectedModifiers.filter (·.groupId = groupId)).map
      ((resolveMenuForLocation locale menu businessId locationId false).adjustment line.menuItemId) := by
  obtain ⟨selection, hSelection, rfl⟩ := (mem_selectedGroups).mp hMem
  obtain ⟨e, he⟩ := hGroups selection hSelection
  obtain ⟨group, hOffers, rfl⟩ := (selectGroup_eq_ok hIds hIn).mp he
  have hGet := (mapGet_loadedGroups hIds).mpr ⟨group, ⟨hOffers.mem, hOffers.business, hOffers.active, hOffers.id, rfl⟩,
    hOffers.item ▸ hIn, rfl⟩
  rw [priceGroup, hGet] at h
  dsimp only at h
  split at h
  · cases h
  · refine Traversals.map_of_mapM h fun selection' hMem' p hp => ?_
    have hSame : selection'.groupId = selection.groupId := of_decide_eq_true (List.mem_filter.mp hMem').2
    have hMap := @selectOption_eq_ok locale _ _ _ _ hIds _ _ (hSame ▸ hOffers) _ hp
    obtain ⟨o, ho, hPrice⟩ := Option.map_eq_some_iff.mp hMap
    rw [ResolvedMenu.adjustment, ho]
    exact hPrice.symm

theorem priceLine_lineTotal (hIds : menu.IdsUnique) {line : OrderLine} (hIn : line.menuItemId ∈ ids)
    (hItem : ((resolveMenuForLocation locale menu businessId locationId false).item? line.menuItemId).isSome = true)
    {priced : PricedOrderItem}
    (h : priceLine (loadEffectiveMenuItemsCanonical menu businessId locationId ids)
      (loadEffectiveModifierGroupsCanonical menu businessId locationId ids) line = .ok priced) :
    priced.lineTotal = (resolveMenuForLocation locale menu businessId locationId false).lineTotal line := by
  obtain ⟨item, hItem⟩ := Option.isSome_iff_exists.mp hItem
  unfold priceLine at h
  obtain ⟨_, hGroups, h⟩ := Traversals.bind_ok h
  obtain ⟨selected, hSelected, h⟩ := Traversals.bind_ok h
  obtain ⟨_, -, h⟩ := Traversals.bind_ok h
  rw [mapGet_loadedItems hIds hIn hItem] at h
  cases h
  have hEach := Traversals.mapM_isOk_iff.mp ⟨_, hGroups⟩
  have hSums := @Traversals.map_of_mapM _ _ _ _ _ _ (fun selected => (selected.map (·.priceAdjustment)).sum) _ _ hSelected
    fun groupId hMem r hr => congrArg List.sum (@priceGroup_adjustments locale _ _ _ _ hIds _ hIn hEach _ hMem _ hr)
  have hTotal : (selected.flatten.map (·.priceAdjustment)).sum = (line.selectedModifiers.map
      ((resolveMenuForLocation locale menu businessId locationId false).adjustment line.menuItemId)).sum := by
    rw [List.map_flatten, List.sum_flatten, List.map_map]
    exact (congrArg List.sum hSums).trans (Traversals.sum_by_key (nodup_selectedGroups _) fun selection hMem =>
      (mem_selectedGroups).mpr ⟨selection, hMem, rfl⟩)
  rw [ResolvedMenu.lineTotal, hItem, ← hTotal]
  rfl

theorem priceGroup_isOk (hIds : menu.IdsUnique) {line : OrderLine}
    (hOffers : menu.OffersGroup businessId locationId line.menuItemId group.id group) (hIn : line.menuItemId ∈ ids) :
    (∃ selected, priceGroup (loadEffectiveModifierGroupsCanonical menu businessId locationId ids) line.selectedModifiers group.id =
        .ok selected) ↔
      (group.minSelect ≤ line.selectedModifiers.countP (·.groupId = group.id) ∧
        line.selectedModifiers.countP (·.groupId = group.id) ≤ group.maxSelect) ∧
      ∀ selection ∈ line.selectedModifiers, selection.groupId = group.id →
        ((resolveMenuForLocation locale menu businessId locationId false).option? line.menuItemId selection).isSome = true := by
  have hGet := (mapGet_loadedGroups hIds).mpr ⟨group, ⟨hOffers.mem, hOffers.business, hOffers.active, rfl, rfl⟩,
    hOffers.item ▸ hIn, rfl⟩
  have hChosen : (∃ selected, (line.selectedModifiers.filter (·.groupId = group.id)).mapM
        (selectOption (group.effective (menu.groupOverride locationId group.id))) = .ok selected) ↔
      ∀ selection ∈ line.selectedModifiers, selection.groupId = group.id →
        ((resolveMenuForLocation locale menu businessId locationId false).option? line.menuItemId selection).isSome = true := by
    rw [Traversals.mapM_isOk_iff]
    constructor
    · intro h selection hMem hSame
      exact (selectOption_isOk hIds (hSame.symm ▸ hOffers)).mp (h selection (List.mem_filter.mpr ⟨hMem, decide_eq_true hSame⟩))
    · intro h selection hMem
      obtain ⟨hMem, hSame⟩ := List.mem_filter.mp hMem
      have hSame := of_decide_eq_true hSame
      exact (selectOption_isOk hIds (hSame.symm ▸ hOffers)).mpr (h selection hMem hSame)
  rw [priceGroup, hGet, List.countP_eq_length_filter, ← hChosen]
  dsimp only
  have hMin : (group.effective (menu.groupOverride locationId group.id)).minSelect = group.minSelect := rfl
  have hMax : (group.effective (menu.groupOverride locationId group.id)).maxSelect = group.maxSelect := rfl
  rw [hMin, hMax]
  split
  · rename_i hOutside
    constructor
    · rintro ⟨_, ⟨⟩⟩
    · rintro ⟨hInside, -⟩
      omega
  · rename_i hInside
    constructor
    · intro h
      exact ⟨by omega, h⟩
    · rintro ⟨-, h⟩
      exact h

theorem checkRequired_isOk {line : OrderLine} {e : EffectivePricingGroup} :
    (∃ u, checkRequired line.selectedModifiers line.menuItemId e = .ok u) ↔
      (e.menuItemId = line.menuItemId → 0 < e.minSelect → 0 < line.selectedModifiers.countP (·.groupId = e.id)) := by
  have hAny : line.selectedModifiers.any (·.groupId = e.id) = true ↔ 0 < line.selectedModifiers.countP (·.groupId = e.id) := by
    rw [List.any_eq_true, List.countP_pos_iff]
  unfold checkRequired
  split
  · rename_i hMissing
    constructor
    · rintro ⟨_, ⟨⟩⟩
    · intro h
      exact absurd (hAny.mpr (h hMissing.1 hMissing.2.1)) hMissing.2.2
  · rename_i hThere
    refine ⟨fun _ hItem hMin => ?_, fun _ => ⟨(), rfl⟩⟩
    by_contra hNone
    exact hThere ⟨hItem, hMin, fun h => hNone (hAny.mp h)⟩

theorem priceLine_isOk (hIds : menu.IdsUnique) {line : OrderLine} (hIn : line.menuItemId ∈ ids)
    (hItem : ((resolveMenuForLocation locale menu businessId locationId false).item? line.menuItemId).isSome = true) :
    (∃ priced, priceLine (loadEffectiveMenuItemsCanonical menu businessId locationId ids)
        (loadEffectiveModifierGroupsCanonical menu businessId locationId ids) line = .ok priced) ↔
      (resolveMenuForLocation locale menu businessId locationId false).Accepts line := by
  obtain ⟨item, hFound⟩ := Option.isSome_iff_exists.mp hItem
  constructor
  · rintro ⟨priced, h⟩
    unfold priceLine at h
    obtain ⟨_, hGroups, h⟩ := Traversals.bind_ok h
    obtain ⟨selected, hSelected, h⟩ := Traversals.bind_ok h
    obtain ⟨_, hRequired, -⟩ := Traversals.bind_ok h
    have hGroups := Traversals.mapM_isOk_iff.mp ⟨_, hGroups⟩
    have hSelected := Traversals.mapM_isOk_iff.mp ⟨_, hSelected⟩
    have hRequired := Traversals.mapM_isOk_iff.mp ⟨_, hRequired⟩
    refine ⟨hItem, fun selection hMem => ?_, fun g hg hOwn => ?_⟩
    · obtain ⟨e, he⟩ := hGroups selection hMem
      obtain ⟨group, hOffers, rfl⟩ := (selectGroup_eq_ok hIds hIn).mp he
      have hPriced := hSelected selection.groupId ((mem_selectedGroups).mpr ⟨selection, hMem, rfl⟩)
      rw [← hOffers.id] at hPriced
      have hOwnOffers : menu.OffersGroup businessId locationId line.menuItemId group.id group :=
        ⟨hOffers.mem, hOffers.business, hOffers.active, rfl, hOffers.item⟩
      exact ((priceGroup_isOk hIds hOwnOffers hIn).mp hPriced).2 selection hMem hOffers.id.symm
    · obtain ⟨group, hOffers, rfl⟩ := (mem_listedGroups).mp hg
      have hOwn' : group.menuItemId = line.menuItemId := hOwn
      have hOwnOffers := hOwn' ▸ hOffers
      have hNeeded := (checkRequired_isOk).mp (hRequired _ ((mem_loadedGroups).mpr ⟨group, hOffers, hOwn' ▸ hIn, rfl⟩)) hOwn'
      have hBounds : 0 < line.selectedModifiers.countP (·.groupId = group.id) →
          group.minSelect ≤ line.selectedModifiers.countP (·.groupId = group.id) ∧
            line.selectedModifiers.countP (·.groupId = group.id) ≤ group.maxSelect := by
        intro hPos
        obtain ⟨selection, hMem, hSame⟩ := List.countP_pos_iff.mp hPos
        have hPriced := hSelected group.id ((mem_selectedGroups).mpr ⟨selection, hMem, of_decide_eq_true hSame⟩)
        exact ((@priceGroup_isOk locale _ _ _ _ _ hIds _ hOwnOffers hIn).mp hPriced).1
      have hMin : 0 < group.minSelect → 0 < line.selectedModifiers.countP (·.groupId = group.id) := hNeeded
      have hLimits : group.minSelect ≤ line.selectedModifiers.countP (·.groupId = group.id) ∧
          (0 < line.selectedModifiers.countP (·.groupId = group.id) →
            line.selectedModifiers.countP (·.groupId = group.id) ≤ group.maxSelect) := by
        omega
      exact hLimits
  · intro h
    have hOwn : ∀ {group : ModifierGroup}, menu.OffersGroup businessId locationId line.menuItemId group.id group →
        group.minSelect ≤ line.selectedModifiers.countP (·.groupId = group.id) ∧
          (0 < line.selectedModifiers.countP (·.groupId = group.id) →
            line.selectedModifiers.countP (·.groupId = group.id) ≤ group.maxSelect) := by
      intro group hOffers
      exact h.limits _ ((mem_listedGroups).mpr ⟨group, ⟨hOffers.mem, hOffers.business, hOffers.active, rfl, rfl⟩, rfl⟩) hOffers.item
    have hOffered : ∀ selection ∈ line.selectedModifiers,
        ∃ group, menu.OffersGroup businessId locationId line.menuItemId selection.groupId group := by
      intro selection hMem
      obtain ⟨o, ho⟩ := Option.isSome_iff_exists.mp (h.options selection hMem)
      obtain ⟨group, hOffers, -⟩ := (option?_eq_some hIds).mp ho
      exact ⟨group, hOffers⟩
    have hGroups : ∀ selection ∈ line.selectedModifiers, ∃ e,
        selectGroup (loadEffectiveModifierGroupsCanonical menu businessId locationId ids) line.menuItemId selection = .ok e := by
      intro selection hMem
      obtain ⟨group, hOffers⟩ := hOffered selection hMem
      exact ⟨_, (selectGroup_eq_ok hIds hIn).mpr ⟨group, hOffers, rfl⟩⟩
    have hSelected : ∀ groupId ∈ selectedGroups line.selectedModifiers, ∃ selected,
        priceGroup (loadEffectiveModifierGroupsCanonical menu businessId locationId ids) line.selectedModifiers groupId =
          .ok selected := by
      intro groupId hMem
      obtain ⟨selection, hSelection, rfl⟩ := (mem_selectedGroups).mp hMem
      obtain ⟨group, hOffers⟩ := hOffered selection hSelection
      have hOwnOffers : menu.OffersGroup businessId locationId line.menuItemId group.id group :=
        ⟨hOffers.mem, hOffers.business, hOffers.active, rfl, hOffers.item⟩
      have hPos : 0 < line.selectedModifiers.countP (·.groupId = group.id) :=
        List.countP_pos_iff.mpr ⟨selection, hSelection, decide_eq_true hOffers.id.symm⟩
      rw [← hOffers.id]
      exact (priceGroup_isOk hIds hOwnOffers hIn).mpr
        ⟨⟨(hOwn hOwnOffers).1, (hOwn hOwnOffers).2 hPos⟩, fun selection hMem _ => h.options selection hMem⟩
    have hRequired : ∀ e ∈ loadEffectiveModifierGroupsCanonical menu businessId locationId ids,
        ∃ u, checkRequired line.selectedModifiers line.menuItemId e = .ok u := by
      intro e he
      obtain ⟨group, hOffers, -, rfl⟩ := mem_loadedGroups.mp he
      refine (checkRequired_isOk).mpr fun hItem hMin => ?_
      have hItem : group.menuItemId = line.menuItemId := hItem
      exact hMin.trans_le (hOwn (hItem ▸ hOffers)).1
    obtain ⟨_, hGroups⟩ := Traversals.mapM_isOk_iff.mpr hGroups
    obtain ⟨selected, hSelected⟩ := Traversals.mapM_isOk_iff.mpr hSelected
    obtain ⟨_, hRequired⟩ := Traversals.mapM_isOk_iff.mpr hRequired
    rw [priceLine, hGroups, hSelected, hRequired, mapGet_loadedItems hIds hIn hFound]
    exact ⟨_, rfl⟩

end Loaded

theorem priceOrderItems_eq_ok {menu : Menu} {locationId businessId : Id}
    (hCanonical : resolveCanonicalBusinessId menu locationId = some businessId) {lines : List OrderLine} {priced : PricedOrder} :
    priceOrderItems menu locationId lines = .ok priced ↔
      allItemsLoaded (loadEffectiveMenuItemsCanonical menu businessId locationId (lines.map (·.menuItemId)))
        (lines.map (·.menuItemId)) = true ∧
      lines.mapM (priceLine (loadEffectiveMenuItemsCanonical menu businessId locationId (lines.map (·.menuItemId)))
        (loadEffectiveModifierGroupsCanonical menu businessId locationId (lines.map (·.menuItemId)))) = .ok priced.items ∧
      priced.subtotal = (priced.items.map (·.lineTotal)).sum := by
  rw [priceOrderItems, hCanonical]
  dsimp only
  cases hLoaded : allItemsLoaded (loadEffectiveMenuItemsCanonical menu businessId locationId (lines.map (·.menuItemId)))
      (lines.map (·.menuItemId)) with
  | false =>
    rw [Bool.not_false, if_pos rfl]
    constructor
    · rintro ⟨⟩
    · rintro ⟨⟨⟩, -⟩
  | true =>
    rw [Bool.not_true, if_neg Bool.false_ne_true]
    constructor
    · intro h
      obtain ⟨items, hItems, h⟩ := Traversals.bind_ok h
      cases h
      exact ⟨rfl, hItems, rfl⟩
    · rintro ⟨-, hItems, hSubtotal⟩
      rw [hItems]
      exact congrArg (fun subtotal => Except.ok (PricedOrder.mk priced.items subtotal)) hSubtotal.symm

/-- The items, options and prices of an order are those of the location's menu,
and an order is priced exactly if the menu accepts each of its lines. -/
theorem order_charged_as_listed (locale : Locale) {menu : Menu} {locationId businessId : Id} (hIds : menu.IdsUnique)
    (hCanonical : resolveCanonicalBusinessId menu locationId = some businessId) (lines : List OrderLine) :
    (allItemsLoaded (loadEffectiveMenuItemsCanonical menu businessId locationId (lines.map (·.menuItemId)))
        (lines.map (·.menuItemId)) = true ↔
      ∀ line ∈ lines, ((resolveMenuForLocation locale menu businessId locationId false).item? line.menuItemId).isSome = true) ∧
    (∀ line ∈ lines, ∀ selection,
      (∃ e, selectGroup (loadEffectiveModifierGroupsCanonical menu businessId locationId (lines.map (·.menuItemId)))
          line.menuItemId selection = .ok e ∧ ∃ p, selectOption e selection = .ok p) ↔
        ((resolveMenuForLocation locale menu businessId locationId false).option? line.menuItemId selection).isSome = true) ∧
    ((∃ priced, priceOrderItems menu locationId lines = .ok priced) ↔
      ∀ line ∈ lines, (resolveMenuForLocation locale menu businessId locationId false).Accepts line) ∧
    ∀ priced, priceOrderItems menu locationId lines = .ok priced →
      priced.items.map (·.lineTotal) = lines.map (resolveMenuForLocation locale menu businessId locationId false).lineTotal ∧
      priced.subtotal = (priced.items.map (·.lineTotal)).sum := by
  have hItems : allItemsLoaded (loadEffectiveMenuItemsCanonical menu businessId locationId (lines.map (·.menuItemId)))
        (lines.map (·.menuItemId)) = true ↔
      ∀ line ∈ lines, ((resolveMenuForLocation locale menu businessId locationId false).item? line.menuItemId).isSome = true := by
    rw [allItemsLoaded_iff hIds, List.forall_mem_map]
  have hIn : ∀ line ∈ lines, line.menuItemId ∈ lines.map (·.menuItemId) := fun line hMem => List.mem_map_of_mem hMem
  refine ⟨hItems, fun line hMem => selectable_iff hIds (hIn line hMem), ?_, ?_⟩
  · constructor
    · rintro ⟨priced, h⟩ line hMem
      obtain ⟨hLoaded, hPriced, -⟩ := (priceOrderItems_eq_ok hCanonical).mp h
      exact (priceLine_isOk hIds (hIn line hMem) (hItems.mp hLoaded line hMem)).mp (Traversals.mapM_isOk_iff.mp ⟨_, hPriced⟩ line hMem)
    · intro h
      obtain ⟨items, hPriced⟩ := Traversals.mapM_isOk_iff.mpr fun line hMem =>
        (priceLine_isOk hIds (hIn line hMem) (h line hMem).item).mpr (h line hMem)
      exact ⟨⟨items, (items.map (·.lineTotal)).sum⟩,
        (priceOrderItems_eq_ok hCanonical).mpr ⟨hItems.mpr fun line hMem => (h line hMem).item, hPriced, rfl⟩⟩
  · intro priced h
    obtain ⟨hLoaded, hPriced, hSubtotal⟩ := (priceOrderItems_eq_ok hCanonical).mp h
    exact ⟨Traversals.map_of_mapM hPriced fun line hMem item hItem =>
      priceLine_lineTotal hIds (hIn line hMem) (hItems.mp hLoaded line hMem) hItem, hSubtotal⟩

namespace Pizzeria

def menu : Menu where
  restaurants := [{ id := 2, businessId := some 1 }]
  categories := [{ id := 3, businessId := some 1, name := "Pizza".toList }]
  items := [{ id := 4, businessId := some 1, categoryId := 3, name := "Margherita".toList, price := 9 }]
  groups := [{
    id := 5
    businessId := some 1
    menuItemId := 4
    name := "Size".toList
    options := [
      { id := 6, name := "Small".toList, priceAdjustment := 0 },
      { id := 7, name := "Medium".toList, priceAdjustment := 2 },
      { id := 8, name := "Large".toList, priceAdjustment := 4 }] }]
  itemOverrides := [{ businessId := 1, locationId := 2, menuItemId := 4, priceOverride := some 10 }]
  groupOverrides := [{
    businessId := 1
    locationId := 2
    modifierGroupId := 5
    optionOverrides := [{ optionId := 7, priceAdjustmentOverride := some 3 }, { optionId := 8, isActive := some false }] }]

def medium : OrderLine where
  menuItemId := 4
  quantity := 2
  selectedModifiers := [{ groupId := 5, optionId := 7 }]

theorem idsUnique : menu.IdsUnique where
  items := by decide
  groups := by decide
  options := by decide

end Pizzeria

theorem medium_charged_as_listed : ∃ priced, priceOrderItems Pizzeria.menu 2 [Pizzeria.medium] = .ok priced ∧ priced.subtotal = 26 ∧
    priced.items.map (·.lineTotal) = [(resolveMenuForLocation {} Pizzeria.menu 1 2 false).lineTotal Pizzeria.medium] := by
  have hPriced : ∃ priced, priceOrderItems Pizzeria.menu 2 [Pizzeria.medium] = .ok priced ∧ priced.subtotal = 26 := by
    refine ⟨_, rfl, ?_⟩
    decide +kernel
  obtain ⟨priced, hOk, hSubtotal⟩ := hPriced
  obtain ⟨-, -, -, hCharged⟩ := @order_charged_as_listed {} _ 2 1 Pizzeria.idsUnique (by decide) [Pizzeria.medium]
  exact ⟨priced, hOk, hSubtotal, (hCharged priced hOk).1⟩

end RestaurantOs.Menus
