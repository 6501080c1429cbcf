import RestaurantOs.Connections.Couriers
import RestaurantOs.Connections.Marketplaces
import RestaurantOs.Payments.Requests

/-!
# Disconnecting a provider

Requests are served one after another. A disconnect picks the newest of the
records that count as connected: it has stopped the use of the provider as long as
every record that was begun or refused is older than the active one.
-/

namespace RestaurantOs.Async

/-- A table in which `ends` has left nothing active has nothing active until a
request makes a document active. -/
theorem Serves.none_active {Op : Type} {Resp : Op → Type} {ε σ ι η ρ α β : Type} {S : Store Op Resp ε σ ι η}
    {program : ρ → Prog Op Resp ε α} {s s' : σ} {history : List (Served ρ ε σ ι α)} {ends : Served ρ ε σ ι α → Prop}
    {id : β → Nat} {active : β → Bool} (table : σ → List β) (h : Serves S program s history s')
    (hEnds : ∀ step ∈ history, (program step.request).respond S step.answers step.before = (step.answer, step.after) → ends step →
      ∀ a ∈ table step.after, active a = false)
    (hEvent : ∀ e s, table (S.advance e s) = table s)
    (hSince : Since ends (fun step => Tables.Activates id active (table step.before) (table step.after)) history) :
    ∀ a ∈ table s', active a = false := by
  apply h.since (Q := fun s : σ => ∀ a ∈ table s, active a = false) hEnds ?_ ?_ hSince
  · intro step _ hStill hNone
    exact Tables.none_active_of_not_activates hStill hNone
  · intro e s hNone
    rwa [hEvent]

end RestaurantOs.Async

namespace RestaurantOs.Payments

open Async Prog

def RestaurantPaymentAccount.activeAt (restaurantId : Id) (account : RestaurantPaymentAccount) : Bool :=
  account.restaurantId = restaurantId && account.status = .active

def RestaurantPaymentAccount.connectedAt (restaurantId : Id) (account : RestaurantPaymentAccount) : Bool :=
  account.restaurantId = restaurantId &&
    (account.status = .active || account.status = .actionRequired || account.status = .pendingVerification)

def PicksActive (step : Served Request Err World Answer Unit) : Prop :=
  match step.request with
  | .disconnectAccount restaurantId _ =>
    Tables.ActiveNewest (·.id) (·.createdAt) (·.activeAt restaurantId) (·.connectedAt restaurantId) step.before.accounts
  | _ => True

def Disconnects (restaurantId : Id) (step : Served Request Err World Answer Unit) : Prop :=
  match step.request, step.answer with
  | .disconnectAccount id _, .ok _ => id = restaurantId
  | _, _ => False

def Activates (restaurantId : Id) (step : Served Request Err World Answer Unit) : Prop :=
  Tables.Activates (·.id) (·.activeAt restaurantId) step.before.accounts step.after.accounts

instance : DecidablePred PicksActive := fun ⟨request, _, _, _, _⟩ => by
  cases request <;> dsimp only [PicksActive] <;> infer_instance

instance (restaurantId : Id) : DecidablePred (Disconnects restaurantId) := fun ⟨request, _, _, answer, _⟩ => by
  cases request <;> cases answer <;> dsimp only [Disconnects] <;> infer_instance

instance (restaurantId : Id) : DecidablePred (Activates restaurantId) := fun step =>
  inferInstanceAs (Decidable (Tables.Activates _ _ step.before.accounts step.after.accounts))

def Unused (env : Env) (restaurantId : Id) (w : World) : Prop :=
  (∀ account ∈ w.accounts, account.restaurantId = restaurantId → account.status ≠ .active) ∧
    ∀ answers, (resolveRestaurantPaymentProvider env restaurantId).respond store answers w = (.ok none, w)

variable {env : Env} {w w' : World} {restaurantId userId : Id} {history : List (Served Request Err World Answer Unit)}

theorem Disconnects.request {step : Served Request Err World Answer Unit} (h : Disconnects restaurantId step) :
    ∃ userId, step.request = .disconnectAccount restaurantId userId ∧ step.answer = .ok () := by
  unfold Disconnects at h
  split at h
  · rename_i userId _ hRequest hAnswer
    exact ⟨userId, h ▸ hRequest, hAnswer⟩
  · exact h.elim

theorem RestaurantPaymentAccount.connectedAt_of_activeAt {account : RestaurantPaymentAccount}
    (h : account.activeAt restaurantId = true) : account.connectedAt restaurantId = true := by
  simp only [activeAt, connectedAt, Bool.and_eq_true, decide_eq_true_eq] at h ⊢
  simp [h.1, h.2]

theorem RestaurantPaymentAccount.saveOver_disconnected {loaded stored : RestaurantPaymentAccount}
    (h : loaded.connectedAt restaurantId = true) :
    (loaded.saveOver { loaded with status := .disconnected } stored).status = .disconnected := by
  have hStatus : loaded.status ≠ .disconnected := by
    intro hEq
    simp [connectedAt, hEq] at h
  exact if_neg (Ne.symm hStatus)

theorem disconnect_stops {answers : Nat → Answer}
    (h : (disconnectRestaurantPaymentAccount restaurantId userId).respond store answers w = (.ok (), w'))
    (hNewest : Tables.ActiveNewest (·.id) (·.createdAt) (·.activeAt restaurantId) (·.connectedAt restaurantId) w.accounts) :
    ∀ account ∈ w'.accounts, account.activeAt restaurantId = false := by
  simp only [disconnectRestaurantPaymentAccount, bind_eq, accountOp, respond_call_bind, Op.perform, AccountOp.perform] at h
  split at h
  · cases h
  · rename_i loaded hPicked
    have hConnected : loaded.connectedAt restaurantId = true :=
      (List.mem_filter.mp (Tables.mem_of_newest hPicked)).2
    simp only [respond_call_bind, recordAuditEvent, respond_call, Op.perform, AccountOp.perform] at h
    split at h
    · rename_i hSave
      split at hSave
      · cases hSave
      · split at hSave
        · cases hSave
        · cases hSave
          cases h
          apply Tables.none_active_of_newest hPicked (fun _ _ => RestaurantPaymentAccount.connectedAt_of_activeAt) hNewest
          intro account
          rw [RestaurantPaymentAccount.activeAt, RestaurantPaymentAccount.saveOver_disconnected hConnected]
          exact Bool.and_false _
    · cases h

theorem none_active_since (h : Serves store (Request.program env) w history w')
    (hPicks : ∀ step ∈ history, PicksActive step) (hSince : Async.Since (Disconnects restaurantId) (Activates restaurantId) history) :
    ∀ account ∈ w'.accounts, account.activeAt restaurantId = false := by
  apply h.none_active World.accounts ?_ (fun e w => Event.accounts_advance e) hSince
  rintro ⟨request, answers, before, answer, after⟩ hStep hServed hEnds
  obtain ⟨userId, rfl, rfl⟩ := Disconnects.request hEnds
  exact disconnect_stops hServed (hPicks _ hStep)

theorem findActive_none (hNone : ∀ account ∈ w.accounts, account.activeAt restaurantId = false) :
    w.accounts.find? (fun account => account.restaurantId = restaurantId && account.status = .active) = none := by
  rw [List.find?_eq_none]
  intro account hAccount
  have hNot := hNone account hAccount
  rw [RestaurantPaymentAccount.activeAt] at hNot
  rw [hNot]
  exact Bool.false_ne_true

theorem unused (hNone : ∀ account ∈ w.accounts, account.activeAt restaurantId = false) : Unused env restaurantId w := by
  constructor
  · intro account hMem hRestaurant hActive
    have hNot := hNone account hMem
    simp [RestaurantPaymentAccount.activeAt, hRestaurant, hActive] at hNot
  · intro answers
    simp only [resolveRestaurantPaymentProvider, bind_eq, accountOp, respond_call_bind, Op.perform, AccountOp.perform,
      findActive_none hNone, pure_eq, respond_ret]

end RestaurantOs.Payments

namespace RestaurantOs.Couriers

open Async Prog

def RestaurantDeliveryProviderAccount.activeAt (restaurantId : Id) (account : RestaurantDeliveryProviderAccount) : Bool :=
  account.restaurantId = restaurantId && account.status = .active

/-- What a disconnect finds: a refused account too. -/
def RestaurantDeliveryProviderAccount.connectedAt (restaurantId : Id) (account : RestaurantDeliveryProviderAccount) : Bool :=
  account.restaurantId = restaurantId && account.status.connected

def PicksActive (step : Served Request Err World Answer Unit) : Prop :=
  match step.request with
  | .disconnect restaurantId _ =>
    Tables.ActiveNewest (·.id) (·.createdAt) (·.activeAt restaurantId) (·.connectedAt restaurantId) step.before.accounts
  | _ => True

def Disconnects (restaurantId : Id) (step : Served Request Err World Answer Unit) : Prop :=
  match step.request, step.answer with
  | .disconnect id _, .ok _ => id = restaurantId
  | _, _ => False

def Activates (restaurantId : Id) (step : Served Request Err World Answer Unit) : Prop :=
  Tables.Activates (·.id) (·.activeAt restaurantId) step.before.accounts step.after.accounts

instance : DecidablePred PicksActive := fun ⟨request, _, _, _, _⟩ => by
  cases request <;> dsimp only [PicksActive] <;> infer_instance

instance (restaurantId : Id) : DecidablePred (Disconnects restaurantId) := fun ⟨request, _, _, answer, _⟩ => by
  cases request <;> cases answer <;> dsimp only [Disconnects] <;> infer_instance

instance (restaurantId : Id) : DecidablePred (Activates restaurantId) := fun step =>
  inferInstanceAs (Decidable (Tables.Activates _ _ step.before.accounts step.after.accounts))

def Unused (env : Env) (restaurantId : Id) (w : World) : Prop :=
  (∀ account ∈ w.accounts, account.restaurantId = restaurantId → account.status ≠ .active) ∧
    ∀ restaurant : Restaurant, restaurant.id = restaurantId → ∀ answers, ∃ resolution,
      (resolveDeliveryProviderForRestaurant env restaurant).respond store answers w = (.ok resolution, w) ∧
        resolution.provider = .manual

variable {env : Env} {w w' : World} {restaurantId userId : Id} {history : List (Served Request Err World Answer Unit)}

theorem Disconnects.request {step : Served Request Err World Answer Unit} (h : Disconnects restaurantId step) :
    ∃ userId, step.request = .disconnect restaurantId userId ∧ step.answer = .ok () := by
  unfold Disconnects at h
  split at h
  · rename_i userId _ hRequest hAnswer
    exact ⟨userId, h ▸ hRequest, hAnswer⟩
  · exact h.elim

theorem RestaurantDeliveryProviderAccount.connectedAt_of_activeAt {account : RestaurantDeliveryProviderAccount}
    (h : account.activeAt restaurantId = true) : account.connectedAt restaurantId = true := by
  simp only [activeAt, connectedAt, Bool.and_eq_true, decide_eq_true_eq] at h ⊢
  rw [h.2]
  exact ⟨h.1, rfl⟩

theorem disconnect_stops {answers : Nat → Answer}
    (h : (disconnectRestaurantDeliveryProviderAccount restaurantId userId).respond store answers w = (.ok (), w'))
    (hNewest : Tables.ActiveNewest (·.id) (·.createdAt) (·.activeAt restaurantId) (·.connectedAt restaurantId) w.accounts) :
    ∀ account ∈ w'.accounts, account.activeAt restaurantId = false := by
  simp only [disconnectRestaurantDeliveryProviderAccount, bind_eq, accountOp, respond_call_bind, Op.perform, AccountOp.perform] at h
  split at h
  · cases h
  · rename_i picked hPicked
    simp only [respond_call_bind, respond_call, Op.perform, AccountOp.perform] at h
    cases h
    apply Tables.none_active_of_newest hPicked (fun _ _ => RestaurantDeliveryProviderAccount.connectedAt_of_activeAt) hNewest
    intro account
    exact Bool.and_false _

theorem none_active_since (h : Serves store (Request.program env) w history w')
    (hPicks : ∀ step ∈ history, PicksActive step) (hSince : Since (Disconnects restaurantId) (Activates restaurantId) history) :
    ∀ account ∈ w'.accounts, account.activeAt restaurantId = false := by
  apply h.none_active World.accounts ?_ (fun _ _ => rfl) hSince
  rintro ⟨request, answers, before, answer, after⟩ hStep hServed hEnds
  obtain ⟨userId, rfl, rfl⟩ := Disconnects.request hEnds
  exact disconnect_stops hServed (hPicks _ hStep)

theorem findActive_none (hNone : ∀ account ∈ w.accounts, account.activeAt restaurantId = false)
    (provider : Option DeliveryProviderName) :
    w.accounts.find? (fun account =>
      account.restaurantId = restaurantId && provider.all (account.provider = ·) && account.status = .active) = none := by
  rw [List.find?_eq_none]
  intro account hAccount hFound
  have hNot := hNone account hAccount
  simp only [Bool.and_eq_true, decide_eq_true_eq] at hFound
  simp [RestaurantDeliveryProviderAccount.activeAt, hFound.1.1, hFound.2] at hNot

theorem unused (hNone : ∀ account ∈ w.accounts, account.activeAt restaurantId = false) : Unused env restaurantId w := by
  constructor
  · intro account hMem hRestaurant hActive
    have hNot := hNone account hMem
    simp [RestaurantDeliveryProviderAccount.activeAt, hRestaurant, hActive] at hNot
  · rintro restaurant rfl answers
    simp only [resolveDeliveryProviderForRestaurant]
    split
    · exact ⟨_, rfl, rfl⟩
    · refine ⟨fallBack "the courier account is not connected", ?_, rfl⟩
      simp only [bind_eq, accountOp, respond_call_bind, Op.perform, AccountOp.perform, findActive_none hNone, pure_eq, respond_ret]

end RestaurantOs.Couriers

namespace RestaurantOs.Marketplaces

open Async Prog

def RestaurantMarketplaceIntegration.activeAt (restaurantId : Id) (provider : MarketplaceProviderName)
    (integration : RestaurantMarketplaceIntegration) : Bool :=
  integration.restaurantId = restaurantId && integration.provider = provider && integration.status = .active

def RestaurantMarketplaceIntegration.connectedAt (restaurantId : Id) (provider : MarketplaceProviderName)
    (integration : RestaurantMarketplaceIntegration) : Bool :=
  integration.restaurantId = restaurantId && integration.provider = provider && integration.status.connected

def PicksActive (step : Served Request Err World Answer Unit) : Prop :=
  match step.request with
  | .disconnect restaurantId _ provider =>
    Tables.ActiveNewest (·.id) (·.createdAt) (·.activeAt restaurantId provider) (·.connectedAt restaurantId provider)
      step.before.integrations
  | _ => True

def Disconnects (restaurantId : Id) (provider : MarketplaceProviderName) (step : Served Request Err World Answer Unit) : Prop :=
  match step.request, step.answer with
  | .disconnect id _ name, .ok _ => id = restaurantId ∧ name = provider
  | _, _ => False

def Activates (restaurantId : Id) (provider : MarketplaceProviderName) (step : Served Request Err World Answer Unit) : Prop :=
  Tables.Activates (·.id) (·.activeAt restaurantId provider) step.before.integrations step.after.integrations

instance : DecidablePred PicksActive := fun ⟨request, _, _, _, _⟩ => by
  cases request <;> dsimp only [PicksActive] <;> infer_instance

instance (restaurantId : Id) (provider : MarketplaceProviderName) : DecidablePred (Disconnects restaurantId provider) :=
  fun ⟨request, _, _, answer, _⟩ => by
    cases request <;> cases answer <;> dsimp only [Disconnects] <;> infer_instance

instance (restaurantId : Id) (provider : MarketplaceProviderName) : DecidablePred (Activates restaurantId provider) :=
  fun step => inferInstanceAs (Decidable (Tables.Activates _ _ step.before.integrations step.after.integrations))

def Unused (restaurantId : Id) (provider : MarketplaceProviderName) (w : World) : Prop :=
  (∀ integration ∈ w.integrations, integration.restaurantId = restaurantId → integration.provider = provider →
    integration.status ≠ .active) ∧
    (∀ externalStoreId answers integration,
      ((resolveMarketplaceIntegrationByExternalStore provider externalStoreId).respond store answers w).1 = .ok (some integration) →
        integration.restaurantId ≠ restaurantId) ∧
    ∀ integrationId answers integration,
      ((ingestingIntegration integrationId provider).respond store answers w).1 = .ok (some integration) →
        integration.restaurantId ≠ restaurantId

variable {env : Env} {w w' : World} {restaurantId userId : Id} {provider : MarketplaceProviderName}
  {history : List (Served Request Err World Answer Unit)}

theorem Disconnects.request {step : Served Request Err World Answer Unit} (h : Disconnects restaurantId provider step) :
    ∃ userId, step.request = .disconnect restaurantId userId provider ∧ step.answer = .ok () := by
  unfold Disconnects at h
  split at h
  · rename_i userId _ _ hRequest hAnswer
    obtain ⟨rfl, rfl⟩ := h
    exact ⟨userId, hRequest, hAnswer⟩
  · exact h.elim

theorem RestaurantMarketplaceIntegration.connectedAt_of_activeAt {integration : RestaurantMarketplaceIntegration}
    (h : integration.activeAt restaurantId provider = true) : integration.connectedAt restaurantId provider = true := by
  simp only [activeAt, connectedAt, Bool.and_eq_true, decide_eq_true_eq] at h ⊢
  rw [h.2]
  exact ⟨h.1, rfl⟩

theorem disconnect_stops {answers : Nat → Answer}
    (h : (disconnectMarketplaceIntegration restaurantId userId provider).respond store answers w = (.ok (), w'))
    (hNewest : Tables.ActiveNewest (·.id) (·.createdAt) (·.activeAt restaurantId provider)
      (·.connectedAt restaurantId provider) w.integrations) :
    ∀ integration ∈ w'.integrations, integration.activeAt restaurantId provider = false := by
  simp only [disconnectMarketplaceIntegration, bind_eq, integrationOp, respond_call_bind, Op.perform, IntegrationOp.perform] at h
  split at h
  · cases h
  · rename_i picked hPicked
    simp only [respond_call_bind, Op.perform, IntegrationOp.perform] at h
    cases h
    apply Tables.none_active_of_newest hPicked (fun _ _ => RestaurantMarketplaceIntegration.connectedAt_of_activeAt) hNewest
    intro integration
    exact Bool.and_false _

theorem none_active_since (h : Serves store (Request.program env) w history w')
    (hPicks : ∀ step ∈ history, PicksActive step)
    (hSince : Since (Disconnects restaurantId provider) (Activates restaurantId provider) history) :
    ∀ integration ∈ w'.integrations, integration.activeAt restaurantId provider = false := by
  apply h.none_active World.integrations ?_ (fun _ _ => rfl) hSince
  rintro ⟨request, answers, before, answer, after⟩ hStep hServed hEnds
  obtain ⟨userId, rfl, rfl⟩ := Disconnects.request hEnds
  exact disconnect_stops hServed (hPicks _ hStep)

theorem not_at_of_find {p : RestaurantMarketplaceIntegration → Bool} {integration : RestaurantMarketplaceIntegration}
    (hNone : ∀ integration ∈ w.integrations, integration.activeAt restaurantId provider = false)
    (hp : ∀ integration, p integration = true → integration.provider = provider ∧ integration.status = .active)
    (h : w.integrations.find? p = some integration) : integration.restaurantId ≠ restaurantId := by
  intro hRestaurant
  obtain ⟨hProvider, hActive⟩ := hp integration (List.find?_some h)
  have hNot := hNone integration (List.mem_of_find?_eq_some h)
  simp [RestaurantMarketplaceIntegration.activeAt, hRestaurant, hProvider, hActive] at hNot

theorem unused (hNone : ∀ integration ∈ w.integrations, integration.activeAt restaurantId provider = false) :
    Unused restaurantId provider w := by
  refine ⟨?_, ?_, ?_⟩
  · intro integration hMem hRestaurant hProvider hActive
    have hNot := hNone integration hMem
    simp [RestaurantMarketplaceIntegration.activeAt, hRestaurant, hProvider, hActive] at hNot
  · intro externalStoreId answers integration h
    rw [resolveMarketplaceIntegrationByExternalStore, integrationOp, respond_call] at h
    apply not_at_of_find hNone ?_ (Except.ok.inj h)
    intro integration hPicked
    simp only [Bool.and_eq_true, decide_eq_true_eq] at hPicked
    exact ⟨hPicked.1.1, hPicked.2⟩
  · intro integrationId answers integration h
    rw [ingestingIntegration, integrationOp, respond_call] at h
    apply not_at_of_find hNone ?_ (Except.ok.inj h)
    intro integration hPicked
    simp only [Bool.and_eq_true, decide_eq_true_eq] at hPicked
    exact ⟨hPicked.1.2, hPicked.2⟩

end RestaurantOs.Marketplaces

namespace RestaurantOs.Connections

open Async Prog

/-- In every history in which each disconnect met no record as new as the
active one, a provider that was disconnected is not used until a request makes
a record active again. -/
theorem disconnect_stops_use (restaurantId : Payments.Id) :
    (∀ (env : Payments.Env) (w w' : Payments.World)
      (history : List (Served Payments.Request Payments.Err Payments.World Payments.Answer Unit)),
      Serves Payments.store (Payments.Request.program env) w history w' → (∀ step ∈ history, Payments.PicksActive step) →
        Since (Payments.Disconnects restaurantId) (Payments.Activates restaurantId) history →
          Payments.Unused env restaurantId w') ∧
    (∀ (env : Couriers.Env) (w w' : Couriers.World)
      (history : List (Served Couriers.Request Payments.Err Couriers.World Couriers.Answer Unit)),
      Serves Couriers.store (Couriers.Request.program env) w history w' → (∀ step ∈ history, Couriers.PicksActive step) →
        Since (Couriers.Disconnects restaurantId) (Couriers.Activates restaurantId) history →
          Couriers.Unused env restaurantId w') ∧
    ∀ (env : Marketplaces.Env) (w w' : Marketplaces.World)
      (history : List (Served Marketplaces.Request Payments.Err Marketplaces.World Marketplaces.Answer Unit))
      (provider : Marketplaces.MarketplaceProviderName),
      Serves Marketplaces.store (Marketplaces.Request.program env) w history w' →
        (∀ step ∈ history, Marketplaces.PicksActive step) →
          Since (Marketplaces.Disconnects restaurantId provider) (Marketplaces.Activates restaurantId provider) history →
            Marketplaces.Unused restaurantId provider w' := by
  refine ⟨?_, ?_, ?_⟩
  · intro env w w' history h hPicks hSince
    exact Payments.unused (Payments.none_active_since h hPicks hSince)
  · intro env w w' history h hPicks hSince
    exact Couriers.unused (Couriers.none_active_since h hPicks hSince)
  · intro env w w' history provider h hPicks hSince
    exact Marketplaces.unused (Marketplaces.none_active_since h hPicks hSince)

/-- A restaurant connects an account of each kind and then disconnects it. -/
theorem disconnect_stops_use_once :
    Payments.Unused {} 1 (serve Payments.store (Payments.Request.program {})
      [.inr (.connectAccount 1 7 "sealed", fun _ => {}), .inl (.tick 1), .inr (.disconnectAccount 1 7, fun _ => {})]
      ([], { restaurants := [{ id := 1, businessId := some 2, currency := "PKR" }] })).2 ∧
    Couriers.Unused {} 1 (serve Couriers.store (Couriers.Request.program {})
      [.inr (.connect 1 7 "sealed" true, fun _ => {}), .inl (.tick 1), .inr (.disconnect 1 7, fun _ => {})]
      ([], { restaurants := [{ id := 1, businessId := some 2 }] })).2 ∧
    Marketplaces.Unused 1 .foodpanda (serve Marketplaces.store (Marketplaces.Request.program {})
      [.inr (.connect 1 7 .foodpanda "store-1", fun _ => {}), .inl (.tick 1), .inr (.disconnect 1 7 .foodpanda, fun _ => {})]
      ([], { restaurants := [{ id := 1, businessId := some 2 }] })).2 := by
  refine ⟨?_, ?_, ?_⟩
  · exact (disconnect_stops_use 1).1 {} _ _ _ (serves_serve _ (c := ([], _)) .start) (by decide) (by decide)
  · exact (disconnect_stops_use 1).2.1 {} _ _ _ (serves_serve _ (c := ([], _)) .start) (by decide) (by decide)
  · exact (disconnect_stops_use 1).2.2 {} _ _ _ .foodpanda (serves_serve _ (c := ([], _)) .start) (by decide)
      (by decide)

/-- A Safepay account is active when Stripe's onboarding is begun, a courier's
and a marketplace's connection when a second one is refused: the disconnect
picks the newer record. -/
theorem disconnect_leaves_active :
    ¬ (∀ (env : Payments.Env) (w w' : Payments.World)
      (history : List (Served Payments.Request Payments.Err Payments.World Payments.Answer Unit)) (restaurantId : Payments.Id),
      Serves Payments.store (Payments.Request.program env) w history w' →
        Since (Payments.Disconnects restaurantId) (Payments.Activates restaurantId) history →
          Payments.Unused env restaurantId w') ∧
    ¬ (∀ (env : Couriers.Env) (w w' : Couriers.World)
      (history : List (Served Couriers.Request Payments.Err Couriers.World Couriers.Answer Unit)) (restaurantId : Payments.Id),
      Serves Couriers.store (Couriers.Request.program env) w history w' →
        Since (Couriers.Disconnects restaurantId) (Couriers.Activates restaurantId) history →
          Couriers.Unused env restaurantId w') ∧
    ¬ ∀ (env : Marketplaces.Env) (w w' : Marketplaces.World)
      (history : List (Served Marketplaces.Request Payments.Err Marketplaces.World Marketplaces.Answer Unit)) (restaurantId : Payments.Id)
      (provider : Marketplaces.MarketplaceProviderName),
      Serves Marketplaces.store (Marketplaces.Request.program env) w history w' →
        Since (Marketplaces.Disconnects restaurantId provider) (Marketplaces.Activates restaurantId provider) history →
          Marketplaces.Unused restaurantId provider w' := by
  refine ⟨?_, ?_, ?_⟩
  · intro h
    have hUnused := h {} { restaurants := [{ id := 1, businessId := some 2, currency := "PKR", country := some "US", email := some "a@b.c" }] }
      _ _ 1 (serves_serve [.inr (.connectAccount 1 7 "sealed", fun _ => {}), .inl (.tick 1), .inr (.connectStripe 1, fun _ => { text := .ok "acct_1" }),
        .inl (.tick 1), .inr (.disconnectAccount 1 7, fun _ => {})] (c := ([], _)) .start) (by decide)
    exact absurd hUnused.1 (by decide)
  · intro h
    have hUnused := h {} { restaurants := [{ id := 1, businessId := some 2 }] } _ _ 1
      (serves_serve [.inr (.connect 1 7 "sealed" true, fun _ => {}), .inl (.tick 1), .inr (.connect 1 7 "mistyped" true, fun _ => { verified := .ok false }),
        .inl (.tick 1), .inr (.disconnect 1 7, fun _ => {})] (c := ([], _)) .start) (by decide)
    exact absurd hUnused.1 (by decide)
  · intro h
    have hUnused := h {} { restaurants := [{ id := 1, businessId := some 2 }] } _ _ 1 .foodpanda
      (serves_serve [.inr (.connect 1 7 .foodpanda "store-1", fun _ => {}), .inl (.tick 1),
        .inr (.connect 1 7 .foodpanda "store-2", fun _ => { verified := .ok false }), .inl (.tick 1), .inr (.disconnect 1 7 .foodpanda, fun _ => {})]
        (c := ([], _)) .start) (by decide)
    exact absurd hUnused.1 (by decide)

end RestaurantOs.Connections
