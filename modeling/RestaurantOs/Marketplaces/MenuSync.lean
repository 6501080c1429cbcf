import RestaurantOs.Connections.Marketplaces
import RestaurantOs.Menus.ItemEdits
import RestaurantOs.Payments.MinorUnits

/-!
# The menu at a marketplace

The menu that is pushed to a marketplace, and the ids that it gives back. What is
pushed is read from the documents as they are; what the storefront lists takes the
location's overrides into account.
-/

namespace RestaurantOs.MarketplaceMenus

open Menus Sorting
open Marketplaces (MarketplaceProviderName RestaurantMarketplaceIntegration)
open Payments (toMinorUnits)

structure BusinessHours where
  day : String
  isClosed : Bool
  opensAt : Option String := none
  closesAt : Option String := none
  deriving DecidableEq

structure Settings where
  currency : Option String := none
  businessHours : Option (List BusinessHours) := none

/-! ## The providers -/

structure MarketplaceMenuItemInput where
  externalId : Option String
  internalId : Id
  name : Text
  description : Text
  priceCents : ℤ
  currency : String
  isAvailable : Bool
  categoryExternalId : String
  categoryInternalId : Option Id
  deriving DecidableEq

structure MarketplaceMenuCategoryInput where
  externalId : Option String
  internalId : Id
  name : Text
  sortOrder : Int
  deriving DecidableEq

structure PushMenuInput where
  externalStoreId : String
  categories : List MarketplaceMenuCategoryInput
  items : List MarketplaceMenuItemInput
  serviceHours : List BusinessHours
  deriving DecidableEq

/-- `internalId` is `none` for an empty text. -/
structure MenuSyncResultEntry where
  internalId : Option Id
  externalId : String
  deriving DecidableEq

structure PushMenuResult where
  categories : List MenuSyncResultEntry
  items : List MenuSyncResultEntry
  deriving DecidableEq

/-- The ids that DoorDash answers with. -/
structure DoorDashMenuResponse where
  categories : Option (List String) := none
  items : Option (List String) := none

inductive Adapter
  | uberEats (request : PushMenuInput → Except Err Unit)
  | doorDash (request : PushMenuInput → Except Err DoorDashMenuResponse)
  | foodpanda (request : MarketplaceMenuItemInput → Except Err Unit)
  | mock

/-- `a || b` of a text that may be absent. -/
def textOr (a : Option String) (b : String) : String := (a.filter (· ≠ "")).getD b

/-- `(ids ?? []).map((i, idx) => ({ internalId: sent[idx]?.internalId ?? "", externalId: i.id }))` -/
def entriesByIndex (sent : List Id) (answered : Option (List String)) : List MenuSyncResultEntry :=
  (answered.getD []).mapIdx fun idx externalId => { internalId := sent[idx]?, externalId := externalId }

namespace Adapter

def uberEatsResult (input : PushMenuInput) : PushMenuResult where
  categories := input.categories.map fun c => { internalId := some c.internalId, externalId := textOr c.externalId (idText c.internalId) }
  items := input.items.map fun i => { internalId := some i.internalId, externalId := textOr i.externalId (idText i.internalId) }

def doorDashResult (input : PushMenuInput) (res : DoorDashMenuResponse) : PushMenuResult where
  categories := entriesByIndex (input.categories.map (·.internalId)) res.categories
  items := entriesByIndex (input.items.map (·.internalId)) res.items

/-- `input.items.filter((i) => Boolean(i.externalId))` -/
def alreadyMapped (input : PushMenuInput) : List MarketplaceMenuItemInput := input.items.filter fun i => textOr i.externalId "" ≠ ""

def foodpandaResult (input : PushMenuInput) : PushMenuResult where
  categories := []
  items := (alreadyMapped input).map fun i => { internalId := some i.internalId, externalId := i.externalId.getD "" }

def mockResult (input : PushMenuInput) : PushMenuResult where
  categories := input.categories.map fun c =>
    { internalId := some c.internalId, externalId := c.externalId.getD ("mock_cat_" ++ idText c.internalId) }
  items := input.items.map fun i =>
    { internalId := some i.internalId, externalId := i.externalId.getD ("mock_item_" ++ idText i.internalId) }

/-- `capabilities.menuSync` -/
def menuSync : Adapter → Bool
  | uberEats _ | doorDash _ | foodpanda _ | mock => true

def pushMenu : Adapter → PushMenuInput → Except Err PushMenuResult
  | uberEats request, input => do
    request input
    .ok (uberEatsResult input)
  | doorDash request, input => do
    let res ← request input
    .ok (doorDashResult input res)
  | foodpanda request, input => do
    (alreadyMapped input).forM request
    .ok (foodpandaResult input)
  | mock, input => .ok (mockResult input)

end Adapter

/-! ## The mapping rows -/

inductive InternalType
  | category | menuItem | modifierGroup | modifierOption
  deriving DecidableEq

structure MarketplaceMenuMapping where
  integrationId : Id
  restaurantId : Id
  provider : MarketplaceProviderName
  internalType : InternalType
  internalId : Id
  externalId : String
  deriving DecidableEq

namespace MarketplaceMenuMapping

abbrev internalKey (m : MarketplaceMenuMapping) : Id × InternalType × Id := (m.integrationId, m.internalType, m.internalId)

abbrev externalKey (m : MarketplaceMenuMapping) : Id × InternalType × String := (m.integrationId, m.internalType, m.externalId)

end MarketplaceMenuMapping

/-- The collection with its two unique indexes. -/
structure Mappings where
  rows : List MarketplaceMenuMapping
  uniqueInternal : (rows.map (·.internalKey)).Nodup
  uniqueExternal : (rows.map (·.externalKey)).Nodup

namespace Mappings

def empty : Mappings := ⟨[], List.nodup_nil, List.nodup_nil⟩

def besides (mappings : Mappings) (row : MarketplaceMenuMapping) : List MarketplaceMenuMapping :=
  mappings.rows.filter (·.internalKey ≠ row.internalKey)

/-- `updateOne({ integrationId, internalType, internalId }, ..., { upsert: true })` -/
def upsert (mappings : Mappings) (row : MarketplaceMenuMapping) : Except Err Mappings :=
  if hNew : row.externalKey ∈ (mappings.besides row).map (·.externalKey) then .error .duplicateKey
  else .ok {
    rows := row :: mappings.besides row
    uniqueInternal := List.nodup_cons.mpr ⟨fun hMem => by
      obtain ⟨m, hm, hKey⟩ := List.mem_map.mp hMem
      exact of_decide_eq_true (List.mem_filter.mp hm).2 hKey, mappings.uniqueInternal.sublist (List.filter_sublist.map _)⟩
    uniqueExternal := List.nodup_cons.mpr ⟨hNew, mappings.uniqueExternal.sublist (List.filter_sublist.map _)⟩ }

def findExternal (mappings : Mappings) (integrationId : Id) (internalType : InternalType) (externalId : String) :
    Option MarketplaceMenuMapping :=
  mappings.rows.find? (·.externalKey = (integrationId, internalType, externalId))

/-- `new Map(existingMappings.map((m) => [m.internalId.toString(), m])).get(id)?.externalId` -/
def existingExternalId (mappings : Mappings) (integrationId id : Id) : Option String :=
  (mapGet (·.internalId) (mappings.rows.filter fun m =>
    m.integrationId = integrationId && (m.internalType = .category || m.internalType = .menuItem)) id).map (·.externalId)

end Mappings

/-! ## The sync -/

def scopeFilter (businessId : Option Id) (locationId : Id) (docRestaurant docBusiness : Option Id) : Bool :=
  match businessId with
  | some businessId => docBusiness = some businessId
  | none => docRestaurant = some locationId

def pushMenuInput (integration : RestaurantMarketplaceIntegration) (externalStoreId : String) (businessId : Option Id)
    (settings : Settings) (menu : Menu) (mappings : Mappings) : PushMenuInput where
  externalStoreId := externalStoreId
  categories :=
    (sorted (compareOn (·.sortOrder)) (menu.categories.filter fun c =>
      scopeFilter businessId integration.restaurantId c.restaurantId c.businessId && c.isActive)).map fun c =>
        { externalId := mappings.existingExternalId integration.id c.id
          internalId := c.id
          name := c.name
          sortOrder := c.sortOrder }
  items :=
    (menu.items.filter fun i =>
      scopeFilter businessId integration.restaurantId i.restaurantId i.businessId && i.isAvailable).map fun i =>
        { externalId := mappings.existingExternalId integration.id i.id
          internalId := i.id
          name := i.name
          description := i.description
          priceCents := toMinorUnits i.price
          currency := settings.currency.getD "USD"
          isAvailable := i.isAvailable
          categoryExternalId := (mappings.existingExternalId integration.id i.categoryId).getD ""
          categoryInternalId := some i.categoryId }
  serviceHours := settings.businessHours.getD []

/-- An empty text is no `ObjectId`. -/
def MenuSyncResultEntry.row (integration : RestaurantMarketplaceIntegration) (internalType : InternalType) (entry : MenuSyncResultEntry) :
    Except Err MarketplaceMenuMapping :=
  match entry.internalId with
  | none => .error (.other "Cast to ObjectId failed")
  | some internalId =>
    .ok {
      integrationId := integration.id
      restaurantId := integration.restaurantId
      provider := integration.provider
      internalType := internalType
      internalId := internalId
      externalId := entry.externalId }

/-- What a sync sent, what came back and the rows after it. -/
structure Synced where
  sent : PushMenuInput
  result : PushMenuResult
  mappings : Mappings

/-- The updates of the rows arrive in the order that `arrival` makes of them. -/
def syncMenuToMarketplace (adapter : Adapter) (arrival : List MarketplaceMenuMapping → List MarketplaceMenuMapping)
    (integration : Option RestaurantMarketplaceIntegration) (settings : Settings) (menu : Menu) (mappings : Mappings) :
    Except Err Synced :=
  match integration with
  | none => .error (.api (.notFound "Marketplace integration not found"))
  | some integration =>
    match integration.externalStoreId.filter (· ≠ "") with
    | none => .error (.api (.badRequest "This integration has no connected store id yet"))
    | some externalStoreId =>
      match menu.restaurants.find? (·.id = integration.restaurantId) with
      | none => .error (.api (.notFound "Restaurant not found"))
      | some restaurant =>
        if !adapter.menuSync then .error (.api (.badRequest s!"{integration.provider.text} does not support menu sync"))
        else do
          let sent := pushMenuInput integration externalStoreId restaurant.businessId settings menu mappings
          let result ← adapter.pushMenu sent
          let categories ← result.categories.mapM (·.row integration .category)
          let items ← result.items.mapM (·.row integration .menuItem)
          let mappings ← (arrival (categories ++ items)).foldlM Mappings.upsert mappings
          .ok { sent := sent, result := result, mappings := mappings }

namespace Synced

def categoriesSynced (synced : Synced) : Nat := synced.result.categories.length

def itemsSynced (synced : Synced) : Nat := synced.result.items.length

end Synced

/-! ## What is sent -/

structure Offer where
  id : Id
  priceCents : ℤ
  categoryId : Option Id
  deriving DecidableEq

def MarketplaceMenuItemInput.offer (i : MarketplaceMenuItemInput) : Offer := ⟨i.internalId, i.priceCents, i.categoryInternalId⟩

def offerOfListed (i : ResolvedMenuItem) : Offer := ⟨i.id, toMinorUnits i.price, some i.categoryId⟩

def offerOfDoc (d : MenuItem) : Offer := ⟨d.id, toMinorUnits d.price, some d.categoryId⟩

def OverrideAgrees (override : Option MenuItemLocationOverride) (d : MenuItem) : Prop :=
  (override.bind (·.isAvailable)).getD d.isAvailable = d.isAvailable ∧
    (d.isAvailable = true → toMinorUnits ((override.bind (·.priceOverride)).getD d.price) = toMinorUnits d.price)

/-- The location's overrides say nothing new of an item, and no item of its own is
offered before the business has one. -/
def SyncAgrees (menu : Menu) (locationId : Id) : Prop :=
  match menu.businessOf locationId with
  | none => True
  | some businessId =>
    if businessHasCanonicalMenu menu businessId then
      ∀ d ∈ menu.items, d.businessId = some businessId → OverrideAgrees (menu.itemOverride locationId d.id) d
    else ∀ d ∈ menu.items, d.restaurantId = some locationId → d.isAvailable = false

section Sent

variable {adapter : Adapter} {arrival : List MarketplaceMenuMapping → List MarketplaceMenuMapping}
  {integration : RestaurantMarketplaceIntegration} {settings : Settings} {menu : Menu} {mappings : Mappings} {synced : Synced}

theorem sync_eq_ok (h : syncMenuToMarketplace adapter arrival (some integration) settings menu mappings = .ok synced) :
    ∃ externalStoreId categories items, integration.externalStoreId.filter (· ≠ "") = some externalStoreId ∧
      synced.sent = pushMenuInput integration externalStoreId (menu.businessOf integration.restaurantId) settings menu mappings ∧
      adapter.pushMenu synced.sent = .ok synced.result ∧
      synced.result.categories.mapM (·.row integration .category) = .ok categories ∧
      synced.result.items.mapM (·.row integration .menuItem) = .ok items ∧
      (arrival (categories ++ items)).foldlM Mappings.upsert mappings = .ok synced.mappings := by
  unfold syncMenuToMarketplace at h
  dsimp only at h
  split at h
  · cases h
  · rename_i externalStoreId hStore
    split at h
    · cases h
    · rename_i restaurant hFound
      split at h
      · cases h
      · obtain ⟨result, hResult, h⟩ := Traversals.bind_ok h
        obtain ⟨categories, hCategories, h⟩ := Traversals.bind_ok h
        obtain ⟨items, hItems, h⟩ := Traversals.bind_ok h
        obtain ⟨after, hAfter, h⟩ := Traversals.bind_ok h
        cases h
        refine ⟨externalStoreId, categories, items, hStore, ?_, hResult, hCategories, hItems, hAfter⟩
        rw [Menu.businessOf, hFound]
        rfl

theorem sent_offers (h : syncMenuToMarketplace adapter arrival (some integration) settings menu mappings = .ok synced) :
    synced.sent.items.map (·.offer) =
      (menu.items.filter fun i => scopeFilter (menu.businessOf integration.restaurantId) integration.restaurantId i.restaurantId
        i.businessId && i.isAvailable).map offerOfDoc := by
  obtain ⟨externalStoreId, -, -, -, hSent, -⟩ := sync_eq_ok h
  rw [hSent, pushMenuInput, List.map_map]
  rfl

end Sent

section Storefront

variable {locale : Menus.Locale} {menu : Menu} {businessId locationId : Id}

theorem legacy_offers : ((loadLegacyPublicMenu menu locationId).items.map offerOfListed).Perm
    ((menu.items.filter fun d => d.restaurantId = some locationId && d.isAvailable).map offerOfDoc) := by
  have hPerm := ((List.mergeSort_perm ((menu.items.filter (·.restaurantId = some locationId)).filter (·.isAvailable))
    fun a b => (compareItemDocs a b).isLE).map (MenuItem.toJSON locationId)).map offerOfListed
  refine hPerm.trans (List.Perm.of_eq ?_)
  rw [List.map_map, List.filter_filter]
  simp only [Bool.and_comm]
  rfl

theorem mem_canonical_offers {offer : Offer} :
    offer ∈ (resolveMenuForLocation locale menu businessId locationId false).items.map offerOfListed ↔
      ∃ d ∈ menu.items, d.businessId = some businessId ∧
        offer = offerOfListed (d.resolve locationId (menu.itemOverride locationId d.id)) ∧
        ((menu.itemOverride locationId d.id).bind (·.isAvailable)).getD d.isAvailable = true := by
  rw [List.mem_map]
  constructor
  · rintro ⟨item, hItem, rfl⟩
    obtain ⟨d, hMem, hBusiness, rfl, hAvailable⟩ := mem_items.mp hItem
    exact ⟨d, hMem, hBusiness, rfl, hAvailable⟩
  · rintro ⟨d, hMem, hBusiness, rfl, hAvailable⟩
    exact ⟨_, mem_items.mpr ⟨d, hMem, hBusiness, rfl, hAvailable⟩, rfl⟩

theorem canonical_offers_iff (hIds : menu.IdsUnique) :
    ((menu.items.filter fun d => d.businessId = some businessId && d.isAvailable).map offerOfDoc).Perm
        ((resolveMenuForLocation locale menu businessId locationId false).items.map offerOfListed) ↔
      ∀ d ∈ menu.items, d.businessId = some businessId → OverrideAgrees (menu.itemOverride locationId d.id) d := by
  constructor
  · intro hPerm d hMem hBusiness
    cases hAvailable : d.isAvailable with
    | true =>
      have hSent : offerOfDoc d ∈ (menu.items.filter fun d => d.businessId = some businessId && d.isAvailable).map offerOfDoc := by
        refine List.mem_map_of_mem (List.mem_filter.mpr ⟨hMem, ?_⟩)
        rw [hAvailable, Bool.and_true]
        exact decide_eq_true hBusiness
      obtain ⟨d', hMem', -, hOffer, hEffective⟩ := (mem_canonical_offers).mp (hPerm.subset hSent)
      have hId : d.id = d'.id := congrArg Offer.id hOffer
      obtain rfl := Tables.eq_of_id hIds.items hMem hMem' hId
      rw [OverrideAgrees, hEffective, hAvailable]
      exact ⟨rfl, fun _ => (congrArg Offer.priceCents hOffer).symm⟩
    | false =>
      refine ⟨?_, fun hTrue => absurd (hAvailable.symm.trans hTrue) Bool.false_ne_true⟩
      rw [hAvailable, ← Bool.not_eq_true]
      intro hEffective
      have hListed : offerOfListed (d.resolve locationId (menu.itemOverride locationId d.id)) ∈
          (resolveMenuForLocation locale menu businessId locationId false).items.map offerOfListed :=
        (mem_canonical_offers).mpr ⟨d, hMem, hBusiness, rfl, hAvailable ▸ hEffective⟩
      obtain ⟨d', hMem', hOffer⟩ := List.mem_map.mp (hPerm.symm.subset hListed)
      obtain ⟨hMem', hScope⟩ := List.mem_filter.mp hMem'
      have hId : d'.id = d.id := congrArg Offer.id hOffer
      obtain rfl := Tables.eq_of_id hIds.items hMem' hMem hId
      rw [hAvailable, Bool.and_false] at hScope
      cases hScope
  · intro hAgrees
    have hPerm := (List.mergeSort_perm (((menu.items.filter (·.businessId = some businessId)).map fun item =>
      item.resolve locationId (menu.itemOverride locationId item.id)).filter fun item => false || item.isAvailable)
        (compareItems locale)).map offerOfListed
    refine (hPerm.trans (List.Perm.of_eq ?_)).symm
    rw [List.filter_map, List.map_map, List.filter_filter]
    have hFilter : (menu.items.filter fun d => ((fun item : ResolvedMenuItem => false || item.isAvailable) ∘
          fun item => MenuItem.resolve locationId (menu.itemOverride locationId item.id) item) d && decide (d.businessId = some businessId)) =
        menu.items.filter fun d => d.businessId = some businessId && d.isAvailable := by
      refine List.filter_congr fun d hMem => ?_
      rw [Function.comp_apply, Bool.false_or, Bool.and_comm]
      cases hBusiness : decide (d.businessId = some businessId) with
      | false => rfl
      | true =>
        have hSame := (hAgrees d hMem (of_decide_eq_true hBusiness)).1
        rw [Bool.true_and, Bool.true_and]
        exact hSame
    rw [hFilter]
    refine List.map_congr_left fun d hMem => ?_
    obtain ⟨hMem, hBoth⟩ := List.mem_filter.mp hMem
    rw [Bool.and_eq_true, decide_eq_true_eq] at hBoth
    have hPrice := (hAgrees d hMem hBoth.1).2 hBoth.2
    exact congrArg (fun cents => Offer.mk d.id cents (some d.categoryId)) hPrice

end Storefront

/-- A sync sends what the storefront lists just where the documents that it reads
say what the location offers. -/
theorem sync_sends_storefront_menu {adapter : Adapter} {arrival : List MarketplaceMenuMapping → List MarketplaceMenuMapping}
    {integration : RestaurantMarketplaceIntegration} {settings : Settings} {menu : Menu} {mappings : Mappings} {synced : Synced}
    (locale : Menus.Locale) (hIds : menu.IdsUnique)
    (hSynced : syncMenuToMarketplace adapter arrival (some integration) settings menu mappings = .ok synced) :
    (synced.sent.items.map (·.offer)).Perm ((publicMenu locale menu integration.restaurantId).items.map offerOfListed) ↔
      SyncAgrees menu integration.restaurantId := by
  rw [sent_offers hSynced, SyncAgrees]
  cases hBusiness : menu.businessOf integration.restaurantId with
  | none =>
    have hLegacy : publicMenu locale menu integration.restaurantId = loadLegacyPublicMenu menu integration.restaurantId := by
      have hNone : resolveCanonicalBusinessId menu integration.restaurantId = none := by
        change (menu.businessOf integration.restaurantId).filter _ = none
        rw [hBusiness]
        rfl
      rw [publicMenu, hNone]
    rw [hLegacy]
    exact iff_of_true (legacy_offers).symm trivial
  | some businessId =>
    rw [publicMenu_of_business hBusiness]
    dsimp only
    cases hCanonical : businessHasCanonicalMenu menu businessId with
    | true =>
      rw [if_pos rfl, if_pos rfl]
      exact canonical_offers_iff hIds
    | false =>
      have hNone : (menu.items.filter fun i => scopeFilter (some businessId) integration.restaurantId i.restaurantId i.businessId &&
          i.isAvailable) = [] := by
        refine List.filter_eq_nil_iff.mpr fun d hMem hScope => ?_
        rw [Bool.and_eq_true] at hScope
        exact absurd hScope.1 (List.any_eq_false.mp hCanonical d hMem)
      rw [if_neg Bool.false_ne_true, if_neg Bool.false_ne_true, hNone, List.map_nil, List.nil_perm, ← List.perm_nil, List.Perm.congr_left legacy_offers, List.perm_nil,
        List.map_eq_nil_iff, List.filter_eq_nil_iff]
      refine forall₂_congr fun d _ => ?_
      simp

namespace Diner

def integration : RestaurantMarketplaceIntegration where
  id := 70
  restaurantId := 1
  provider := .uberEats
  status := .active
  externalStoreId := some "store"
  createdAt := 0

def soup : MenuItem := { id := 20, businessId := some 9, categoryId := 10, name := "Soup".toList, price := 7 }

def menu : Menu where
  restaurants := [{ id := 1, businessId := some 9 }]
  categories := [{ id := 10, businessId := some 9, name := "Starters".toList }]
  items := [soup]

def uberEats : Adapter := .uberEats fun _ => .ok ()

def sync (menu : Menu) : Except Err Synced := syncMenuToMarketplace uberEats id (some integration) {} menu .empty

theorem exists_of_check {result : Except Err Synced} {check : Synced → Bool} (h : result.toOption.any check = true) :
    ∃ synced, result = .ok synced ∧ check synced = true := by
  cases result with
  | error => cases h
  | ok synced => exact ⟨synced, rfl, h⟩

theorem soup_is_sent : ∃ synced, sync menu = .ok synced ∧
    (synced.sent.items.map (·.offer)).Perm ((publicMenu {} menu 1).items.map offerOfListed) := by
  obtain ⟨synced, hSynced, -⟩ := exists_of_check (show (sync menu).toOption.any (fun _ => true) = true by decide +kernel)
  refine ⟨synced, hSynced, (sync_sends_storefront_menu {} ⟨by decide, by decide, by decide⟩ hSynced).mpr ?_⟩
  have hAgrees : ∀ d ∈ menu.items, d.businessId = some 9 → OverrideAgrees (menu.itemOverride 1 d.id) d := by
    intro d hMem _
    obtain rfl := List.mem_singleton.mp hMem
    exact ⟨rfl, fun _ => rfl⟩
  exact hAgrees

def sold : Menu := { menu with itemOverrides := [{ businessId := 9, locationId := 1, menuItemId := 20, isAvailable := some false }] }

theorem hidden_soup_is_sent : ¬ ∀ (adapter : Adapter) (arrival : List MarketplaceMenuMapping → List MarketplaceMenuMapping)
    (integration : RestaurantMarketplaceIntegration) (settings : Settings) (menu : Menu) (mappings : Mappings) (synced : Synced)
    (locale : Menus.Locale), menu.IdsUnique → syncMenuToMarketplace adapter arrival (some integration) settings menu mappings = .ok synced →
    (synced.sent.items.map (·.offer)).Perm ((publicMenu locale menu integration.restaurantId).items.map offerOfListed) := by
  intro hClaim
  obtain ⟨synced, hSynced, -⟩ := exists_of_check (show (sync sold).toOption.any (fun _ => true) = true by decide +kernel)
  have hPerm := hClaim _ _ _ _ _ _ synced {} ⟨by decide, by decide, by decide⟩ hSynced
  have hSent : synced.sent.items.map (·.offer) = [offerOfDoc soup] := sent_offers hSynced
  have hListed : (publicMenu {} sold integration.restaurantId).items = [] := by decide +kernel
  rw [hSent, hListed] at hPerm
  exact absurd hPerm.length_eq (by decide)

end Diner

end RestaurantOs.MarketplaceMenus
