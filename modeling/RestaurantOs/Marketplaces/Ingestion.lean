import RestaurantOs.Marketplaces.MenuSync
import RestaurantOs.Menus.PlainOrders

/-!
# Orders from a marketplace

An order that comes in from a marketplace names items by the ids that a sync
brought back. The rows lead each of them to the item that was pushed under it;
the order is then priced as any other.
-/

namespace RestaurantOs.MarketplaceMenus

open Menus
open Marketplaces (RestaurantMarketplaceIntegration)

structure MarketplaceOrderModifier where
  externalOptionId : String
  name : String
  priceCents : ℤ
  deriving DecidableEq

structure MarketplaceOrderLineItem where
  externalItemId : String
  name : String
  quantity : Nat
  unitPriceCents : ℤ
  modifiers : List MarketplaceOrderModifier := []
  deriving DecidableEq

structure MarketplaceOrder where
  externalOrderId : String
  items : List MarketplaceOrderLineItem

/-- What `computeAvailability` says of the restaurant now. -/
inductive Availability
  | isOpen
  | closed (reason : Option String)
  | paused (reason : Option String)
  deriving DecidableEq

structure OrderSettings where
  active : Bool := true
  availability : Availability := .isOpen
  pickupEnabled : Bool := true
  minOrderAmount : ℚ := 0

/-! ## Ingestion -/

/-- `ModifierGroup.findOne({ "options._id": ... })` -/
def resolveModifier (mappings : Mappings) (menu : Menu) (integrationId : Id) (modifier : MarketplaceOrderModifier) :
    Option SelectedModifierInput := do
  let optionMapping ← mappings.findExternal integrationId .modifierOption modifier.externalOptionId
  let group ← menu.groups.find? fun g => g.options.any (·.id = optionMapping.internalId)
  some { groupId := group.id, optionId := optionMapping.internalId }

def resolveLineItem (mappings : Mappings) (menu : Menu) (integrationId : Id) (item : MarketplaceOrderLineItem) : Option OrderLine := do
  let itemMapping ← mappings.findExternal integrationId .menuItem item.externalItemId
  let selectedModifiers ← item.modifiers.mapM (resolveModifier mappings menu integrationId)
  some { menuItemId := itemMapping.internalId, quantity := item.quantity, selectedModifiers := selectedModifiers }

def amountText (amount : ℚ) : String := toString amount

/-- An order for pickup of the channel `marketplace`, up to its pricing. -/
def createOrderForCustomer (restaurant : OrderSettings) (menu : Menu) (restaurantId : Id) (items : List OrderLine) :
    Except Err PricedOrder :=
  if !restaurant.active then .error (.api (.notFound "Restaurant not found"))
  else
    match restaurant.availability with
    | .closed reason => .error (.api (.badRequest (textOr reason "This restaurant is not accepting orders right now")))
    | .paused reason => .error (.api (.badRequest (textOr reason "This restaurant has temporarily paused ordering")))
    | .isOpen =>
      if !restaurant.pickupEnabled then .error (.api (.badRequest "Pickup is not available"))
      else do
        let priced ← priceOrderItems menu restaurantId items
        if priced.subtotal < restaurant.minOrderAmount then
          .error (.api (.badRequest s!"Minimum order amount is {amountText restaurant.minOrderAmount}"))
        else .ok priced

inductive Ingested
  | skipped
  | denied
  | failed (error : Err)
  | created (order : PricedOrder)
  deriving DecidableEq

/-- `order` is what the marketplace answers for the order. -/
def ingestMarketplaceOrder (integration : RestaurantMarketplaceIntegration) (mappings : Mappings) (restaurant : OrderSettings) (menu : Menu)
    (order : MarketplaceOrder) : Ingested :=
  if integration.status ≠ .active then .skipped
  else if textOr integration.externalStoreId "" = "" then .skipped
  else
    match order.items.mapM (resolveLineItem mappings menu integration.id) with
    | none => .denied
    | some resolvedItems =>
      match createOrderForCustomer restaurant menu integration.restaurantId resolvedItems with
      | .error error => .failed error
      | .ok priced => .created priced

/-! ## The rows after a sync -/

section Rows

variable {mappings mappings' : Mappings} {row : MarketplaceMenuMapping} {rows : List MarketplaceMenuMapping}

theorem rows_upsert (h : mappings.upsert row = .ok mappings') : mappings'.rows = row :: mappings.besides row := by
  unfold Mappings.upsert at h
  split at h
  · cases h
  · cases h
    rfl

theorem mem_of_upserts (h : rows.foldlM Mappings.upsert mappings = .ok mappings') (hMem : row ∈ rows ∨ row ∈ mappings.rows)
    (hOther : ∀ r ∈ rows, r.internalKey = row.internalKey → r = row) : row ∈ mappings'.rows := by
  induction rows generalizing mappings with
  | nil =>
    cases h
    exact hMem.resolve_left List.not_mem_nil
  | cons r rows ih =>
    rw [List.foldlM_cons] at h
    obtain ⟨next, hNext, h⟩ := Traversals.bind_ok h
    refine ih h ?_ fun r' hr' => hOther r' (List.mem_cons_of_mem r hr')
    rw [rows_upsert hNext]
    by_cases hKey : r.internalKey = row.internalKey
    · rw [hOther r List.mem_cons_self hKey]
      exact Or.inr List.mem_cons_self
    · cases hMem with
      | inl hIn =>
        cases hIn with
        | head => exact absurd rfl hKey
        | tail _ hIn => exact Or.inl hIn
      | inr hIn =>
        refine Or.inr (List.mem_cons_of_mem r (List.mem_filter.mpr ⟨hIn, ?_⟩))
        exact decide_eq_true (Ne.symm hKey)

theorem findExternal_of_mem (hMem : row ∈ mappings.rows) :
    mappings.findExternal row.integrationId row.internalType row.externalId = some row :=
  find?_of_unique hMem (decide_eq_true rfl) fun _ he hKey =>
    List.inj_on_of_nodup_map mappings.uniqueExternal he hMem (of_decide_eq_true hKey)

end Rows

/-! ## What comes back is what was sent -/

section Entries

variable {integration : RestaurantMarketplaceIntegration} {internalType : InternalType}

theorem row_eq_ok {entry : MenuSyncResultEntry} {row : MarketplaceMenuMapping} (h : entry.row integration internalType = .ok row) :
    entry.internalId = some row.internalId ∧ row.integrationId = integration.id ∧ row.internalType = internalType ∧
      row.externalId = entry.externalId := by
  unfold MenuSyncResultEntry.row at h
  split at h
  · cases h
  · rename_i hId
    cases h
    exact ⟨hId, rfl, rfl, rfl⟩

theorem entriesByIndex_sublist {sent : List Id} {answered : List String} :
    ((entriesByIndex sent (some answered)).filterMap (·.internalId)).Sublist sent := by
  induction answered generalizing sent with
  | nil => exact List.nil_sublist sent
  | cons externalId answered ih =>
    have hCons : entriesByIndex sent (some (externalId :: answered)) =
        { internalId := sent[0]?, externalId := externalId } :: entriesByIndex sent.tail (some answered) := by
      simp only [entriesByIndex, Option.getD_some, List.mapIdx_cons, List.getElem?_tail]
    rw [hCons, List.filterMap_cons]
    cases sent with
    | nil => exact ih
    | cons id sent => exact ih.cons_cons id

theorem pushMenu_internalIds {adapter : Adapter} {input : PushMenuInput} {result : PushMenuResult} (h : adapter.pushMenu input = .ok result) :
    (result.items.filterMap (·.internalId)).Sublist (input.items.map (·.internalId)) := by
  cases adapter with
  | uberEats request =>
    obtain ⟨_, -, h⟩ := Traversals.bind_ok h
    cases h
    simp [Adapter.uberEatsResult, List.filterMap_map]
  | doorDash request =>
    obtain ⟨res, -, h⟩ := Traversals.bind_ok h
    cases h
    cases hItems : res.items with
    | none => simp [Adapter.doorDashResult, hItems, entriesByIndex]
    | some answered =>
      simp only [Adapter.doorDashResult, hItems]
      exact entriesByIndex_sublist
  | foodpanda request =>
    obtain ⟨_, -, h⟩ := Traversals.bind_ok h
    cases h
    simp only [Adapter.foodpandaResult, List.filterMap_map, Function.comp_def, List.filterMap_eq_map']
    exact List.filter_sublist.map _
  | mock =>
    cases h
    simp [Adapter.mockResult, List.filterMap_map]

end Entries

/-! ## Lines by the ids of a sync -/

def Synced.pushedUnder (synced : Synced) (externalId : String) : Option MarketplaceMenuItemInput :=
  (synced.result.items.find? (·.externalId = externalId)).bind fun entry =>
    synced.sent.items.find? fun i => some i.internalId = entry.internalId

theorem forall₂_of_exists {α β : Type} {R : α → β → Prop} {l : List α} (h : ∀ a ∈ l, ∃ b, R a b) : ∃ r, List.Forall₂ R l r := by
  induction l with
  | nil => exact ⟨[], .nil⟩
  | cons a l ih =>
    obtain ⟨b, hb⟩ := h a List.mem_cons_self
    obtain ⟨r, hr⟩ := ih fun x hx => h x (List.mem_cons_of_mem a hx)
    exact ⟨b :: r, .cons hb hr⟩

theorem mapM_some {α β : Type} {f : α → Option β} {g : α → β} {l : List α} (h : ∀ a ∈ l, f a = some (g a)) :
    l.mapM f = some (l.map g) := by
  induction l with
  | nil => rfl
  | cons a l ih =>
    rw [List.mapM_cons, h a List.mem_cons_self, ih fun b hb => h b (List.mem_cons_of_mem a hb)]
    rfl

section Resolved

variable {adapter : Adapter} {arrival : List MarketplaceMenuMapping → List MarketplaceMenuMapping}
  {integration : RestaurantMarketplaceIntegration} {settings : Settings} {menu : Menu} {mappings : Mappings} {synced : Synced}

theorem nodup_sent (hIds : menu.IdsUnique)
    (h : syncMenuToMarketplace adapter arrival (some integration) settings menu mappings = .ok synced) :
    (synced.sent.items.map (·.internalId)).Nodup := by
  have hOffers := congrArg (List.map Offer.id) (sent_offers h)
  rw [List.map_map, List.map_map] at hOffers
  change synced.sent.items.map (·.internalId) = _ at hOffers
  rw [hOffers]
  exact hIds.items.sublist (List.filter_sublist.map _)

theorem row_of_entry (hIds : menu.IdsUnique) (hArrival : ∀ l, (arrival l).Perm l)
    (h : syncMenuToMarketplace adapter arrival (some integration) settings menu mappings = .ok synced) {entry : MenuSyncResultEntry}
    (hEntry : entry ∈ synced.result.items) : ∃ row ∈ synced.mappings.rows,
      row.externalKey = (integration.id, .menuItem, entry.externalId) ∧ entry.internalId = some row.internalId ∧
        row.internalId ∈ synced.sent.items.map (·.internalId) := by
  obtain ⟨-, categories, items, -, -, hResult, hCategories, hItems, hAfter⟩ := sync_eq_ok h
  have hSomeIds : items.map (fun row => some row.internalId) = synced.result.items.map (·.internalId) :=
    Traversals.map_of_mapM hItems fun entry _ row hRow => (row_eq_ok hRow).1.symm
  have hInternalIds : items.map (·.internalId) = synced.result.items.filterMap (·.internalId) := by
    have hIdIds := congrArg (List.filterMap id) hSomeIds
    rw [List.filterMap_map, List.filterMap_map] at hIdIds
    simpa [Function.comp_def] using hIdIds
  have hSublist := pushMenu_internalIds hResult
  rw [← hInternalIds] at hSublist
  have hNodup : (items.map (·.internalId)).Nodup := (nodup_sent hIds h).sublist hSublist
  obtain ⟨row, hRow, hRowOf⟩ := Traversals.exists_of_forall₂ (Traversals.mapM_ok_iff.mp hItems) hEntry
  obtain ⟨hInternal, hIntegration, hType, hExternal⟩ := row_eq_ok hRowOf
  refine ⟨row, ?_, ?_, hInternal, hSublist.subset (List.mem_map_of_mem hRow)⟩
  · refine mem_of_upserts hAfter (Or.inl ((hArrival _).mem_iff.mpr (List.mem_append_right categories hRow))) fun r hr hKey => ?_
    rw [Prod.mk.injEq, Prod.mk.injEq] at hKey
    obtain ⟨-, hTypes, hIdsEq⟩ := hKey
    cases List.mem_append.mp ((hArrival _).mem_iff.mp hr) with
    | inl hCategory =>
      obtain ⟨entry', -, hRow'⟩ := Traversals.exists_of_forall₂ (Traversals.mapM_ok_iff.mp hCategories).flip hCategory
      rw [hType, (row_eq_ok hRow').2.2.1] at hTypes
      cases hTypes
    | inr hItem => exact List.inj_on_of_nodup_map hNodup hItem hRow hIdsEq
  · rw [MarketplaceMenuMapping.externalKey, hIntegration, hType, hExternal]

theorem resolves_to_pushed (hIds : menu.IdsUnique) (hArrival : ∀ l, (arrival l).Perm l)
    (h : syncMenuToMarketplace adapter arrival (some integration) settings menu mappings = .ok synced) {item : MarketplaceOrderLineItem}
    (hPlain : item.modifiers = []) (hEntry : ∃ entry ∈ synced.result.items, entry.externalId = item.externalItemId) :
    ∃ sent ∈ synced.sent.items, synced.pushedUnder item.externalItemId = some sent ∧
      resolveLineItem synced.mappings menu integration.id item = some { menuItemId := sent.internalId, quantity := item.quantity } := by
  obtain ⟨entry, hEntry, hExternal⟩ := hEntry
  -- The first entry of the id leads to the same row as any other.
  cases hFound : synced.result.items.find? (·.externalId = item.externalItemId) with
  | none => exact absurd (decide_eq_true hExternal) (List.find?_eq_none.mp hFound entry hEntry)
  | some first =>
    have hFirst : first.externalId = item.externalItemId := by simpa using List.find?_some hFound
    obtain ⟨row, hRow, hKey, hInternal, hSent⟩ := row_of_entry hIds hArrival h (List.mem_of_find?_eq_some hFound)
    obtain ⟨i, hi, hId⟩ := List.mem_map.mp hSent
    have hSentFound : synced.sent.items.find? (fun i => some i.internalId = first.internalId) = some i := by
      refine find?_of_unique hi (decide_eq_true ?_) fun j hj hKeyJ => ?_
      · rw [hId, hInternal]
      · have hIdJ : some j.internalId = first.internalId := of_decide_eq_true hKeyJ
        rw [hInternal, ← hId, Option.some.injEq] at hIdJ
        exact List.inj_on_of_nodup_map (nodup_sent hIds h) hj hi hIdJ
    refine ⟨i, hi, ?_, ?_⟩
    · rw [Synced.pushedUnder, hFound]
      exact hSentFound
    · have hGet := findExternal_of_mem hRow
      rw [Prod.mk.injEq, Prod.mk.injEq] at hKey
      rw [hKey.1, hKey.2.1, hKey.2.2, hFirst] at hGet
      rw [resolveLineItem, hGet, hPlain, hId]
      rfl

end Resolved

/-! ## Orders of what was pushed -/

def ChargedAsPushed (synced : Synced) (item : MarketplaceOrderLineItem) (priced : PricedOrderItem) : Prop :=
  ∃ sent, synced.pushedUnder item.externalItemId = some sent ∧ priced.menuItemId = sent.internalId ∧ priced.quantity = item.quantity ∧
    priced.selectedModifiers = [] ∧ priced.unitPrice = sent.priceCents / 100 ∧ priced.lineTotal = sent.priceCents / 100 * item.quantity

structure IngestedAsPushed (integration : RestaurantMarketplaceIntegration) (synced : Synced) (restaurant : OrderSettings) (menu : Menu)
    (order : MarketplaceOrder) : Prop where
  resolved : ∀ item ∈ order.items, ∃ sent, synced.pushedUnder item.externalItemId = some sent ∧
    resolveLineItem synced.mappings menu integration.id item = some { menuItemId := sent.internalId, quantity := item.quantity }
  created : ∃ priced, ingestMarketplaceOrder integration synced.mappings restaurant menu order = .created priced ∧
    List.Forall₂ (ChargedAsPushed synced) order.items priced.items

def SoldAsPushed (locale : Menus.Locale) (menu : Menu) (locationId : Id) (sent : MarketplaceMenuItemInput) : Prop :=
  (∃ item ∈ (publicMenu locale menu locationId).items, item.id = sent.internalId ∧ item.price = sent.priceCents / 100) ∧
    ¬ ∃ group ∈ (publicMenu locale menu locationId).modifierGroups, group.menuItemId = sent.internalId ∧ 0 < group.minSelect

def pushedAmount (synced : Synced) (item : MarketplaceOrderLineItem) : ℚ :=
  (synced.pushedUnder item.externalItemId).elim 0 fun sent => sent.priceCents / 100 * item.quantity

structure TakesOrder (locale : Menus.Locale) (integration : RestaurantMarketplaceIntegration) (synced : Synced) (restaurant : OrderSettings)
    (menu : Menu) (order : MarketplaceOrder) : Prop where
  sold : ∀ item ∈ order.items, ∀ sent, synced.pushedUnder item.externalItemId = some sent →
    SoldAsPushed locale menu integration.restaurantId sent
  integrated : integration.status = .active
  active : restaurant.active = true
  available : restaurant.availability = .isOpen
  pickup : restaurant.pickupEnabled = true
  minimum : restaurant.minOrderAmount ≤ (order.items.map (pushedAmount synced)).sum

section Priced

variable {synced : Synced}

def lineOf (synced : Synced) (item : MarketplaceOrderLineItem) : OrderLine where
  menuItemId := (synced.pushedUnder item.externalItemId).elim 0 (·.internalId)
  quantity := item.quantity

theorem subtotal_of_charged {ordered : List MarketplaceOrderLineItem} {items : List PricedOrderItem}
    (h : List.Forall₂ (ChargedAsPushed synced) ordered items) :
    (items.map (·.lineTotal)).sum = (ordered.map (pushedAmount synced)).sum := by
  induction h with
  | nil => rfl
  | cons hCharged _ ih =>
    obtain ⟨sent, hSent, -, -, -, -, hTotal⟩ := hCharged
    rw [List.map_cons, List.map_cons, List.sum_cons, List.sum_cons, ih, hTotal, pushedAmount, hSent]
    rfl

theorem createOrder_eq_ok {restaurant : OrderSettings} {menu : Menu} {restaurantId : Id} {lines : List OrderLine} {priced : PricedOrder} :
    createOrderForCustomer restaurant menu restaurantId lines = .ok priced ↔
      restaurant.active = true ∧ restaurant.availability = .isOpen ∧ restaurant.pickupEnabled = true ∧
        priceOrderItems menu restaurantId lines = .ok priced ∧ restaurant.minOrderAmount ≤ priced.subtotal := by
  unfold createOrderForCustomer
  cases hActive : restaurant.active with
  | false => exact iff_of_false (by rintro ⟨⟩) nofun
  | true =>
    rw [Bool.not_true, if_neg Bool.false_ne_true]
    cases hAvailability : restaurant.availability with
    | closed reason => exact iff_of_false (by rintro ⟨⟩) nofun
    | paused reason => exact iff_of_false (by rintro ⟨⟩) nofun
    | isOpen =>
      dsimp only
      cases hPickup : restaurant.pickupEnabled with
      | false => exact iff_of_false (by rintro ⟨⟩) nofun
      | true =>
        rw [Bool.not_true, if_neg Bool.false_ne_true]
        constructor
        · intro h
          obtain ⟨p, hp, h⟩ := Traversals.bind_ok h
          split at h
          · cases h
          · rename_i hMin
            cases h
            exact ⟨rfl, rfl, rfl, hp, not_lt.mp hMin⟩
        · rintro ⟨-, -, -, hp, hMin⟩
          rw [hp]
          exact if_neg (not_lt.mpr hMin)

end Priced

/-- An order of what was pushed is created as pushed just if the location still
sells it so and takes the order. -/
theorem pushed_order_ingested {adapter : Adapter} {arrival : List MarketplaceMenuMapping → List MarketplaceMenuMapping}
    {integration : RestaurantMarketplaceIntegration} {settings : Settings} {menu : Menu} {mappings : Mappings} {synced : Synced}
    {order : MarketplaceOrder} (locale : Menus.Locale) (restaurant : OrderSettings) (hIds : menu.IdsUnique) (hArrival : ∀ l, (arrival l).Perm l)
    (hSynced : syncMenuToMarketplace adapter arrival (some integration) settings menu mappings = .ok synced)
    (hOrder : ∀ item ∈ order.items, item.modifiers = [] ∧ ∃ entry ∈ synced.result.items, entry.externalId = item.externalItemId) :
    IngestedAsPushed integration synced restaurant menu order ↔ TakesOrder locale integration synced restaurant menu order := by
  have hResolved : ∀ item ∈ order.items, ∃ sent, synced.pushedUnder item.externalItemId = some sent ∧
      resolveLineItem synced.mappings menu integration.id item = some { menuItemId := sent.internalId, quantity := item.quantity } := by
    intro item hItem
    obtain ⟨hPlain, hEntry⟩ := hOrder item hItem
    obtain ⟨sent, -, hBoth⟩ := resolves_to_pushed hIds hArrival hSynced hPlain hEntry
    exact ⟨sent, hBoth⟩
  have hLines : order.items.mapM (resolveLineItem synced.mappings menu integration.id) = some (order.items.map (lineOf synced)) := by
    refine mapM_some fun item hItem => ?_
    obtain ⟨sent, hSent, hLine⟩ := hResolved item hItem
    rw [hLine, lineOf, hSent]
    rfl
  have hStore : textOr integration.externalStoreId "" ≠ "" := by
    obtain ⟨externalStoreId, -, -, hStore, -⟩ := sync_eq_ok hSynced
    rw [textOr, hStore]
    exact of_decide_eq_true (Option.filter_eq_some_iff.mp hStore).2
  -- Ingestion is the creation of the resolved lines.
  have hIngested (priced : PricedOrder) : ingestMarketplaceOrder integration synced.mappings restaurant menu order = .created priced ↔
      integration.status = .active ∧
        createOrderForCustomer restaurant menu integration.restaurantId (order.items.map (lineOf synced)) = .ok priced := by
    rw [ingestMarketplaceOrder, hLines, if_neg hStore]
    by_cases hActive : integration.status = .active
    · rw [if_neg (not_not.mpr hActive)]
      dsimp only
      cases createOrderForCustomer restaurant menu integration.restaurantId (order.items.map (lineOf synced)) with
      | error => exact iff_of_false (by rintro ⟨⟩) nofun
      | ok created => simp [hActive]
    · rw [if_pos hActive]
      exact iff_of_false (by rintro ⟨⟩) fun h => hActive h.1
  have hPlain : ∀ line ∈ order.items.map (lineOf synced), line.selectedModifiers = [] := by
    intro line hMem
    obtain ⟨item, -, rfl⟩ := List.mem_map.mp hMem
    rfl
  constructor
  · rintro ⟨-, priced, hCreated, hCharged⟩
    obtain ⟨hStatus, hOk⟩ := (hIngested priced).mp hCreated
    obtain ⟨hActive, hOpen, hPickup, hPriced, hMin⟩ := (createOrder_eq_ok).mp hOk
    obtain ⟨hListed, hSubtotal⟩ := (priceOrderItems_plain locale hIds hPlain).mp hPriced
    rw [List.forall₂_map_left_iff] at hListed
    refine ⟨fun item hItem sent hSent => ?_, hStatus, hActive, hOpen, hPickup, ?_⟩
    · obtain ⟨p, -, ⟨sent', hSent', -, -, -, hUnit, -⟩, listed, ⟨hMem, hId, hFree⟩, hLine⟩ :=
        Traversals.exists_of_forall₂ (List.Forall₂.mp (fun _ _ hBoth hCharge => And.intro hCharge hBoth) hListed hCharged) hItem
      obtain rfl := Option.some.inj (hSent.symm.trans hSent')
      have hLineId : (lineOf synced item).menuItemId = sent.internalId := by
        rw [lineOf, hSent]
        rfl
      rw [hLineId] at hId hFree
      rw [hLine] at hUnit
      exact ⟨⟨listed, hMem, hId, hUnit⟩, hFree⟩
    · rw [← subtotal_of_charged hCharged, ← hSubtotal]
      exact hMin
  · rintro ⟨hSold, hStatus, hActive, hOpen, hPickup, hMin⟩
    refine ⟨hResolved, ?_⟩
    have hEach : ∀ item ∈ order.items, ∃ p, (∃ listed, (lineOf synced item).Listed locale menu integration.restaurantId listed ∧
        p = (lineOf synced item).plain listed.effective) ∧ ChargedAsPushed synced item p := by
      intro item hItem
      obtain ⟨sent, hSent, -⟩ := hResolved item hItem
      obtain ⟨⟨listed, hMem, hId, hPrice⟩, hFree⟩ := hSold item hItem sent hSent
      have hLineId : (lineOf synced item).menuItemId = sent.internalId := by
        rw [lineOf, hSent]
        rfl
      refine ⟨_, ⟨listed, ⟨hMem, ?_, ?_⟩, rfl⟩, sent, hSent, hId, rfl, rfl, hPrice, ?_⟩
      · rw [hLineId]
        exact hId
      · rw [hLineId]
        exact hFree
      · exact congrArg (· * (item.quantity : ℚ)) hPrice
    obtain ⟨items, hItems⟩ := forall₂_of_exists hEach
    have hCharged : List.Forall₂ (ChargedAsPushed synced) order.items items := hItems.imp fun _ _ hBoth => hBoth.2
    refine ⟨⟨items, (items.map (·.lineTotal)).sum⟩, (hIngested _).mpr ⟨hStatus, (createOrder_eq_ok).mpr ⟨hActive, hOpen, hPickup, ?_, ?_⟩⟩,
      hCharged⟩
    · refine (priceOrderItems_plain locale hIds hPlain).mpr ⟨?_, rfl⟩
      exact List.forall₂_map_left_iff.mpr (hItems.imp fun _ _ hBoth => hBoth.1)
    · rw [subtotal_of_charged hCharged]
      exact hMin

namespace Diner

def sentSoup : MarketplaceMenuItemInput where
  externalId := none
  internalId := 20
  name := "Soup".toList
  description := []
  priceCents := 700
  currency := "USD"
  isAvailable := true
  categoryExternalId := ""
  categoryInternalId := some 10

def twoSoups : MarketplaceOrder where
  externalOrderId := "order"
  items := [{ externalItemId := idText 20, name := "Soup", quantity := 2, unitPriceCents := 700 }]

def pushesSoup (synced : Synced) : Bool :=
  (synced.result.items.any fun entry => entry.externalId = idText 20) && synced.pushedUnder (idText 20) = some sentSoup

theorem twoSoups_pushed {synced : Synced} (h : pushesSoup synced = true) : ∀ item ∈ twoSoups.items, item.modifiers = [] ∧
    ∃ entry ∈ synced.result.items, entry.externalId = item.externalItemId := by
  intro item hItem
  obtain rfl := List.mem_singleton.mp hItem
  obtain ⟨entry, hEntry, hId⟩ := List.any_eq_true.mp (Bool.and_eq_true_iff.mp h).1
  exact ⟨rfl, entry, hEntry, of_decide_eq_true hId⟩

theorem twoSoups_created : ∃ synced, sync menu = .ok synced ∧ IngestedAsPushed integration synced {} menu twoSoups := by
  obtain ⟨synced, hSynced, hPushes⟩ := exists_of_check (show (sync menu).toOption.any pushesSoup = true by decide +kernel)
  have hSent : synced.pushedUnder (idText 20) = some sentSoup := of_decide_eq_true (Bool.and_eq_true_iff.mp hPushes).2
  refine ⟨synced, hSynced, (pushed_order_ingested {} {} ⟨by decide, by decide, by decide⟩ (fun _ => List.Perm.refl _) hSynced
    (twoSoups_pushed hPushes)).mpr ⟨?_, rfl, rfl, rfl, rfl, ?_⟩⟩
  · intro item hItem sent hItemSent
    obtain rfl := List.mem_singleton.mp hItem
    obtain rfl := Option.some.inj (hSent.symm.trans hItemSent)
    have hItems : (publicMenu {} menu 1).items = [soup.resolve 1 none] := by decide +kernel
    have hGroups : (publicMenu {} menu 1).modifierGroups = [] := by decide +kernel
    refine ⟨⟨soup.resolve 1 none, ?_, rfl, by decide +kernel⟩, ?_⟩
    · rw [show (publicMenu {} menu integration.restaurantId).items = _ from hItems]
      exact List.mem_singleton_self _
    · rw [show (publicMenu {} menu integration.restaurantId).modifierGroups = _ from hGroups]
      rintro ⟨_, hMem, -⟩
      cases hMem
  · have hSum : (twoSoups.items.map (pushedAmount synced)).sum = 700 / 100 * 2 + 0 := by
      change pushedAmount synced _ + 0 = _
      rw [pushedAmount, hSent]
      rfl
    rw [hSum]
    norm_num

def sized : Menu where
  restaurants := menu.restaurants
  categories := menu.categories
  items := menu.items
  groups := [{
    id := 30
    businessId := some 9
    menuItemId := 20
    name := "Size".toList
    minSelect := 1
    options := [{ id := 31, name := "Cup".toList, priceAdjustment := 0 }, { id := 32, name := "Bowl".toList, priceAdjustment := 2 }] }]

/-- The upload leaves the sizes out and the order is refused without one. -/
theorem sized_soup_fails : ¬ ∀ (adapter : Adapter) (arrival : List MarketplaceMenuMapping → List MarketplaceMenuMapping)
    (integration : RestaurantMarketplaceIntegration) (settings : Settings) (menu : Menu) (mappings : Mappings) (synced : Synced)
    (order : MarketplaceOrder), menu.IdsUnique → (∀ l, (arrival l).Perm l) → integration.status = .active →
    (∀ group ∈ menu.groups, group.minSelect ≤ (group.options.filter (·.isActive)).length) →
    syncMenuToMarketplace adapter arrival (some integration) settings menu mappings = .ok synced →
    (∀ item ∈ order.items, item.modifiers = [] ∧ ∃ entry ∈ synced.result.items, entry.externalId = item.externalItemId) →
    IngestedAsPushed integration synced {} menu order := by
  intro hClaim
  obtain ⟨synced, hSynced, hBoth⟩ := exists_of_check (show (sync sized).toOption.any (fun synced => pushesSoup synced &&
    ingestMarketplaceOrder integration synced.mappings {} sized twoSoups =
      .failed (.api (.badRequest "Modifier group \"Size\" requires a selection"))) = true by decide +kernel)
  rw [Bool.and_eq_true] at hBoth
  obtain ⟨-, priced, hCreated, -⟩ := hClaim _ _ _ _ _ _ synced twoSoups ⟨by decide, by decide, by decide⟩ (fun _ => List.Perm.refl _)
    rfl (by decide) hSynced (twoSoups_pushed hBoth.1)
  rw [of_decide_eq_true hBoth.2] at hCreated
  cases hCreated

end Diner

end RestaurantOs.MarketplaceMenus
