import RestaurantOs.Menus.Clone

/-!
# Orders without choices

A line that selects no modifiers is priced just if the location's menu lists its
item and none of the item's groups requires a choice, and then at the listed
price, whichever documents the menu is made of.
-/

namespace RestaurantOs.Menus

def effectiveItems (menu : Menu) (restaurantId : Id) (menuItemIds : List Id) : List EffectivePricingItem :=
  match resolveCanonicalBusinessId menu restaurantId with
  | some businessId => loadEffectiveMenuItemsCanonical menu businessId restaurantId menuItemIds
  | none => loadEffectiveMenuItemsLegacy menu restaurantId menuItemIds

def effectiveGroups (menu : Menu) (restaurantId : Id) (menuItemIds : List Id) : List EffectivePricingGroup :=
  match resolveCanonicalBusinessId menu restaurantId with
  | some businessId => loadEffectiveModifierGroupsCanonical menu businessId restaurantId menuItemIds
  | none => loadEffectiveModifierGroupsLegacy menu restaurantId menuItemIds

section Loaded

variable {locale : Locale} {menu : Menu} {locationId : Id} {ids : List Id}

theorem mem_legacy_items {item : ResolvedMenuItem} : item ∈ (loadLegacyPublicMenu menu locationId).items ↔
    ∃ doc ∈ menu.items, doc.restaurantId = some locationId ∧ doc.isAvailable = true ∧ item = doc.toJSON locationId := by
  simp only [loadLegacyPublicMenu, List.mem_map, Sorting.mem_sorted, List.mem_filter, decide_eq_true_eq]
  constructor
  · rintro ⟨doc, ⟨⟨hMem, hOwn⟩, hAvailable⟩, rfl⟩
    exact ⟨doc, hMem, hOwn, hAvailable, rfl⟩
  · rintro ⟨doc, hMem, hOwn, hAvailable, rfl⟩
    exact ⟨doc, ⟨⟨hMem, hOwn⟩, hAvailable⟩, rfl⟩

theorem mem_legacy_groups {group : ResolvedModifierGroup} : group ∈ (loadLegacyPublicMenu menu locationId).modifierGroups ↔
    ∃ doc ∈ menu.groups, doc.restaurantId = some locationId ∧ doc.isActive = true ∧
      group = (doc.toJSON locationId).withoutHidden := by
  simp only [loadLegacyPublicMenu, List.mem_map, Sorting.mem_sorted, List.mem_filter, decide_eq_true_eq]
  constructor
  · rintro ⟨doc, ⟨⟨hMem, hOwn⟩, hActive⟩, rfl⟩
    exact ⟨doc, hMem, hOwn, hActive, rfl⟩
  · rintro ⟨doc, hMem, hOwn, hActive, rfl⟩
    exact ⟨doc, ⟨⟨hMem, hOwn⟩, hActive⟩, rfl⟩

theorem mem_effectiveItems {e : EffectivePricingItem} : e ∈ effectiveItems menu locationId ids ↔
    ∃ item ∈ (publicMenu locale menu locationId).items, item.id ∈ ids ∧ e = item.effective := by
  unfold effectiveItems publicMenu
  cases resolveCanonicalBusinessId menu locationId with
  | some businessId => exact mem_loadedItems
  | none =>
    simp only [loadEffectiveMenuItemsLegacy, List.mem_map, List.mem_filter, Bool.and_eq_true, List.contains_iff_mem, decide_eq_true_eq,
      mem_legacy_items]
    constructor
    · rintro ⟨doc, ⟨hMem, ⟨hIn, hOwn⟩, hAvailable⟩, rfl⟩
      exact ⟨_, ⟨doc, hMem, hOwn, hAvailable, rfl⟩, hIn, rfl⟩
    · rintro ⟨item, ⟨doc, hMem, hOwn, hAvailable, rfl⟩, hIn, rfl⟩
      exact ⟨doc, ⟨hMem, ⟨hIn, hOwn⟩, hAvailable⟩, rfl⟩

theorem required_effectiveGroups {id : Id} (hIn : id ∈ ids) :
    (∃ e ∈ effectiveGroups menu locationId ids, e.menuItemId = id ∧ 0 < e.minSelect) ↔
      ∃ group ∈ (publicMenu locale menu locationId).modifierGroups, group.menuItemId = id ∧ 0 < group.minSelect := by
  unfold effectiveGroups publicMenu
  cases resolveCanonicalBusinessId menu locationId with
  | some businessId =>
    constructor
    · rintro ⟨e, hMem, hItem, hMin⟩
      obtain ⟨group, hOffers, -, rfl⟩ := mem_loadedGroups.mp hMem
      exact ⟨_, mem_listedGroups.mpr ⟨group, hOffers, rfl⟩, hItem, hMin⟩
    · rintro ⟨e, hMem, hItem, hMin⟩
      obtain ⟨group, hOffers, rfl⟩ := mem_listedGroups.mp hMem
      have hItem' : group.menuItemId = id := hItem
      exact ⟨_, mem_loadedGroups.mpr ⟨group, hOffers, hItem' ▸ hIn, rfl⟩, hItem, hMin⟩
  | none =>
    simp only [loadEffectiveModifierGroupsLegacy, List.mem_map, List.mem_filter, Bool.and_eq_true, List.contains_iff_mem,
      decide_eq_true_eq, mem_legacy_groups]
    constructor
    · rintro ⟨e, ⟨doc, ⟨hMem, ⟨-, hOwn⟩, hActive⟩, rfl⟩, hItem, hMin⟩
      exact ⟨_, ⟨doc, hMem, hOwn, hActive, rfl⟩, hItem, hMin⟩
    · rintro ⟨e, ⟨doc, hMem, hOwn, hActive, rfl⟩, hItem, hMin⟩
      have hItem' : doc.menuItemId = id := hItem
      exact ⟨_, ⟨doc, ⟨hMem, ⟨hItem' ▸ hIn, hOwn⟩, hActive⟩, rfl⟩, hItem, hMin⟩

theorem publicMenu_item_unique (hIds : menu.IdsUnique) {i j : ResolvedMenuItem} (hi : i ∈ (publicMenu locale menu locationId).items)
    (hj : j ∈ (publicMenu locale menu locationId).items) (hEq : i.id = j.id) : i = j := by
  unfold publicMenu at hi hj
  cases hScope : resolveCanonicalBusinessId menu locationId with
  | some businessId =>
    rw [hScope] at hi hj
    exact item_unique hIds hi hj hEq
  | none =>
    rw [hScope] at hi hj
    obtain ⟨doc, hMem, -, -, rfl⟩ := (mem_legacy_items).mp hi
    obtain ⟨doc', hMem', -, -, rfl⟩ := (mem_legacy_items).mp hj
    rw [Tables.eq_of_id hIds.items hMem hMem' hEq]

theorem mapGet_effectiveItems (hIds : menu.IdsUnique) {id : Id} (hIn : id ∈ ids) {e : EffectivePricingItem} :
    mapGet (·.id) (effectiveItems menu locationId ids) id = some e ↔
      ∃ item ∈ (publicMenu locale menu locationId).items, item.id = id ∧ e = item.effective := by
  constructor
  · intro h
    obtain ⟨hMem, rfl⟩ := mem_of_mapGet h
    obtain ⟨item, hItem, -, rfl⟩ := (@mem_effectiveItems locale _ _ _ _).mp hMem
    exact ⟨item, hItem, rfl, rfl⟩
  · rintro ⟨item, hItem, rfl, rfl⟩
    refine mapGet_of_unique ((@mem_effectiveItems locale _ _ _ _).mpr ⟨item, hItem, hIn, rfl⟩) rfl fun e he hKey => ?_
    obtain ⟨item', hItem', -, rfl⟩ := (@mem_effectiveItems locale _ _ _ _).mp he
    rw [publicMenu_item_unique hIds hItem' hItem hKey]

theorem allItemsLoaded_effective : allItemsLoaded (effectiveItems menu locationId ids) ids = true ↔
    ∀ id ∈ ids, ∃ item ∈ (publicMenu locale menu locationId).items, item.id = id := by
  have hSubset : (effectiveItems menu locationId ids).map (·.id) ⊆ ids := by
    intro id hMem
    obtain ⟨e, he, rfl⟩ := List.mem_map.mp hMem
    obtain ⟨item, -, hIn, rfl⟩ := (@mem_effectiveItems locale _ _ _ _).mp he
    exact hIn
  rw [allItemsLoaded, decide_eq_true_eq, length_dedup_eq_iff hSubset]
  refine forall₂_congr fun id hIn => ?_
  rw [List.mem_map]
  constructor
  · rintro ⟨e, he, rfl⟩
    obtain ⟨item, hItem, -, rfl⟩ := (@mem_effectiveItems locale _ _ _ _).mp he
    exact ⟨item, hItem, rfl⟩
  · rintro ⟨item, hItem, rfl⟩
    exact ⟨item.effective, (@mem_effectiveItems locale _ _ _ _).mpr ⟨item, hItem, hIn, rfl⟩, rfl⟩

end Loaded

/-! ## Lines without choices -/

def OrderLine.plain (line : OrderLine) (item : EffectivePricingItem) : PricedOrderItem where
  menuItemId := item.id
  name := item.name
  unitPrice := item.price
  quantity := line.quantity
  selectedModifiers := []
  lineTotal := item.price * line.quantity
  specialInstructions := line.specialInstructions

theorem checkRequired_plain {id : Id} {group : EffectivePricingGroup} :
    (∃ u, checkRequired [] id group = .ok u) ↔ ¬ (group.menuItemId = id ∧ 0 < group.minSelect) := by
  unfold checkRequired
  split
  · rename_i hRequired
    constructor
    · rintro ⟨_, ⟨⟩⟩
    · intro hNot
      exact absurd ⟨hRequired.1, hRequired.2.1⟩ hNot
  · rename_i hFree
    refine iff_of_true ⟨(), rfl⟩ fun hRequired => hFree ?_
    exact ⟨hRequired.1, hRequired.2, Bool.false_ne_true⟩

theorem priceLine_plain {items : List EffectivePricingItem} {groups : List EffectivePricingGroup} {line : OrderLine}
    (hPlain : line.selectedModifiers = []) {priced : PricedOrderItem} : priceLine items groups line = .ok priced ↔
      (¬ ∃ group ∈ groups, group.menuItemId = line.menuItemId ∧ 0 < group.minSelect) ∧
        ∃ item, mapGet (·.id) items line.menuItemId = some item ∧ priced = line.plain item := by
  have hChecks : (∃ r, groups.mapM (checkRequired [] line.menuItemId) = .ok r) ↔
      ¬ ∃ group ∈ groups, group.menuItemId = line.menuItemId ∧ 0 < group.minSelect := by
    rw [Traversals.mapM_isOk_iff, not_exists]
    refine forall_congr' fun group => ?_
    rw [not_and]
    exact forall_congr' fun _ => checkRequired_plain
  have hLine : priceLine items groups line = (groups.mapM (checkRequired [] line.menuItemId) >>= fun _ =>
      (mapGet (·.id) items line.menuItemId).elim (.error Payments.Err.nullDocument)
        fun item => .ok { line.plain item with lineTotal := (item.price + 0) * line.quantity }) := by
    rw [priceLine, hPlain]
    cases mapGet (·.id) items line.menuItemId <;> rfl
  have hPlainTotal (item : EffectivePricingItem) :
      ({ line.plain item with lineTotal := (item.price + 0) * line.quantity } : PricedOrderItem) = line.plain item := by
    rw [add_zero]
    rfl
  rw [hLine, ← hChecks]
  constructor
  · intro h
    obtain ⟨r, hr, h⟩ := Traversals.bind_ok h
    refine ⟨⟨r, hr⟩, ?_⟩
    cases hItem : mapGet (·.id) items line.menuItemId with
    | none =>
      rw [hItem] at h
      cases h
    | some item =>
      rw [hItem] at h
      cases h
      exact ⟨item, rfl, hPlainTotal item⟩
  · rintro ⟨⟨r, hr⟩, item, hItem, rfl⟩
    rw [hr, hItem]
    exact congrArg Except.ok (hPlainTotal item)

def OrderLine.Listed (locale : Locale) (menu : Menu) (locationId : Id) (line : OrderLine) (item : ResolvedMenuItem) : Prop :=
  item ∈ (publicMenu locale menu locationId).items ∧ item.id = line.menuItemId ∧
    ¬ ∃ group ∈ (publicMenu locale menu locationId).modifierGroups, group.menuItemId = line.menuItemId ∧ 0 < group.minSelect

section Plain

variable {menu : Menu} {locationId : Id} {lines : List OrderLine} {priced : PricedOrder}

theorem priceOrderItems_ok_iff : priceOrderItems menu locationId lines = .ok priced ↔
    allItemsLoaded (effectiveItems menu locationId (lines.map (·.menuItemId))) (lines.map (·.menuItemId)) = true ∧
      lines.mapM (priceLine (effectiveItems menu locationId (lines.map (·.menuItemId)))
        (effectiveGroups menu locationId (lines.map (·.menuItemId)))) = .ok priced.items ∧
      priced.subtotal = (priced.items.map (·.lineTotal)).sum := by
  have hEq : priceOrderItems menu locationId lines =
      if !allItemsLoaded (effectiveItems menu locationId (lines.map (·.menuItemId))) (lines.map (·.menuItemId)) then
        .error (.api (.badRequest "One or more menu items are unavailable or do not exist for this restaurant"))
      else lines.mapM (priceLine (effectiveItems menu locationId (lines.map (·.menuItemId)))
          (effectiveGroups menu locationId (lines.map (·.menuItemId)))) >>= fun priced =>
        .ok { items := priced, subtotal := (priced.map (·.lineTotal)).sum } := rfl
  rw [hEq]
  cases allItemsLoaded (effectiveItems menu locationId (lines.map (·.menuItemId))) (lines.map (·.menuItemId)) with
  | false =>
    rw [Bool.not_false, if_pos rfl]
    constructor
    · rintro ⟨⟩
    · rintro ⟨⟨⟩, -⟩
  | true =>
    rw [Bool.not_true, if_neg Bool.false_ne_true]
    constructor
    · intro h
      obtain ⟨items, hItems, h⟩ := Traversals.bind_ok h
      cases h
      exact ⟨rfl, hItems, rfl⟩
    · rintro ⟨-, hItems, hSubtotal⟩
      rw [hItems]
      exact congrArg (fun subtotal => Except.ok (PricedOrder.mk priced.items subtotal)) hSubtotal.symm

theorem forall₂_congr_mem {α β : Type} {R S : α → β → Prop} {l : List α} {r : List β} (h : ∀ a ∈ l, ∀ b, R a b ↔ S a b) :
    List.Forall₂ R l r ↔ List.Forall₂ S l r := by
  induction l generalizing r with
  | nil => rw [List.forall₂_nil_left_iff, List.forall₂_nil_left_iff]
  | cons a l ih =>
    cases r with
    | nil => exact iff_of_false (fun hR => nomatch hR) fun hS => nomatch hS
    | cons b r =>
      rw [List.forall₂_cons, List.forall₂_cons, h a List.mem_cons_self, ih fun x hx => h x (List.mem_cons_of_mem a hx)]

theorem priceOrderItems_plain (locale : Locale) (hIds : menu.IdsUnique) (hPlain : ∀ line ∈ lines, line.selectedModifiers = []) :
    priceOrderItems menu locationId lines = .ok priced ↔
      List.Forall₂ (fun line p => ∃ item, line.Listed locale menu locationId item ∧ p = line.plain item.effective) lines priced.items ∧
        priced.subtotal = (priced.items.map (·.lineTotal)).sum := by
  have hLine {line : OrderLine} (hMem : line ∈ lines) {p : PricedOrderItem} :
      priceLine (effectiveItems menu locationId (lines.map (·.menuItemId)))
          (effectiveGroups menu locationId (lines.map (·.menuItemId))) line = .ok p ↔
        ∃ item, line.Listed locale menu locationId item ∧ p = line.plain item.effective := by
    have hIn : line.menuItemId ∈ lines.map (·.menuItemId) := List.mem_map_of_mem hMem
    rw [priceLine_plain (hPlain line hMem), @required_effectiveGroups locale _ _ _ _ hIn]
    constructor
    · rintro ⟨hFree, e, hGet, rfl⟩
      obtain ⟨item, hItem, hId, rfl⟩ := (@mapGet_effectiveItems locale _ _ _ hIds _ hIn _).mp hGet
      exact ⟨item, ⟨hItem, hId, hFree⟩, rfl⟩
    · rintro ⟨item, ⟨hItem, hId, hFree⟩, rfl⟩
      exact ⟨hFree, _, (@mapGet_effectiveItems locale _ _ _ hIds _ hIn _).mpr ⟨item, hItem, hId, rfl⟩, rfl⟩
  have hLines : lines.mapM (priceLine (effectiveItems menu locationId (lines.map (·.menuItemId)))
        (effectiveGroups menu locationId (lines.map (·.menuItemId)))) = .ok priced.items ↔
      List.Forall₂ (fun line p => ∃ item, line.Listed locale menu locationId item ∧ p = line.plain item.effective) lines priced.items := by
    rw [Traversals.mapM_ok_iff]
    exact forall₂_congr_mem fun line hMem p => hLine hMem
  rw [priceOrderItems_ok_iff, ← hLines, and_iff_right_of_imp]
  rintro ⟨hPriced, -⟩
  refine (@allItemsLoaded_effective locale _ _ _).mpr fun id hIn => ?_
  obtain ⟨line, hMem, rfl⟩ := List.mem_map.mp hIn
  obtain ⟨p, hp⟩ := Traversals.mapM_isOk_iff.mp ⟨_, hPriced⟩ line hMem
  obtain ⟨item, hListed, -⟩ := (hLine hMem).mp hp
  exact ⟨item, hListed.1, hListed.2.1⟩

end Plain

end RestaurantOs.Menus
