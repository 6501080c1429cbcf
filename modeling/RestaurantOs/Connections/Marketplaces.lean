import RestaurantOs.Async.Sequential
import RestaurantOs.Support.Tickets

/-!
# Marketplace integrations

A restaurant's store at a marketplace: linking it, disconnecting it, and which
integration an order of the marketplace belongs to.
-/

namespace RestaurantOs.Marketplaces

open Async

export Payments (Id Time ApiError Err)

open Support (overwrite)

inductive MarketplaceProviderName
  | uberEats | doordash | foodpanda
  deriving DecidableEq

def MarketplaceProviderName.text : MarketplaceProviderName → String
  | uberEats => "uber_eats"
  | doordash => "doordash"
  | foodpanda => "foodpanda"

inductive IntegrationStatus
  | pendingVerification | active | actionRequired | pendingProviderApproval | invalid | disconnected
  deriving DecidableEq

structure RestaurantMarketplaceIntegration where
  id : Id
  restaurantId : Id
  provider : MarketplaceProviderName
  status : IntegrationStatus := .pendingVerification
  externalStoreId : Option String := none
  encryptedCredentials : Option String := none
  lastVerifiedAt : Option Time := none
  lastVerificationError : Option String := none
  createdAt : Time
  deriving DecidableEq

structure Restaurant where
  id : Id
  businessId : Option Id := none
  deriving DecidableEq

structure Env where
  manualStoreId : MarketplaceProviderName → Bool := fun _ => true

structure World where
  now : Time := 0
  nextId : Id := 0
  restaurants : List Restaurant := []
  integrations : List RestaurantMarketplaceIntegration := []

/-- `reactivate` is the save of an integration that was stored before, as it was loaded. -/
inductive IntegrationOp
  | findByStore (provider : MarketplaceProviderName) (externalStoreId : String)
  | findActiveByStore (provider : MarketplaceProviderName) (externalStoreId : String)
  | findActiveById (id : Id) (provider : MarketplaceProviderName)
  | findConnection (restaurantId : Id) (provider : MarketplaceProviderName)
  | disconnectOthers (restaurantId : Id) (provider : MarketplaceProviderName) (kept : Option Id)
  | insert (integration : RestaurantMarketplaceIntegration)
  | reactivate (loaded : RestaurantMarketplaceIntegration) (now : Time) (encryptedCredentials : Option String)
  | disconnect (integration : RestaurantMarketplaceIntegration)
  deriving DecidableEq

inductive AuditAction
  | connected | disconnected
  deriving DecidableEq

inductive Op
  | clock
  | restaurant (id : Id)
  | integration (op : IntegrationOp)
  | healthCheck (provider : MarketplaceProviderName)
  | audit (action : AuditAction) (targetId actorUserId : Id)
  deriving DecidableEq

@[reducible] def IntegrationOp.Resp : IntegrationOp → Type
  | insert _ => RestaurantMarketplaceIntegration
  | disconnectOthers _ _ _ | reactivate _ _ _ | disconnect _ => Unit
  | _ => Option RestaurantMarketplaceIntegration

@[reducible] def Op.Resp : Op → Type
  | clock => Time
  | restaurant _ => Option Restaurant
  | integration op => op.Resp
  | healthCheck _ => Bool
  | audit _ _ _ => Unit

structure Answer where
  verified : Except Err Bool := .ok true

inductive Event
  | tick (elapsed : Time)

/-- `status: { $in: ["active", "pending_verification", "invalid"] }` -/
def IntegrationStatus.connected : IntegrationStatus → Bool
  | active | pendingVerification | invalid => true
  | _ => false

/-- The unique indexes: one active integration with a marketplace, and one
record for a store. -/
def integrationTaken (integrations : List RestaurantMarketplaceIntegration) (integration : RestaurantMarketplaceIntegration) : Bool :=
  integrations.any fun other =>
    other.id ≠ integration.id && other.provider = integration.provider &&
      ((integration.status = .active && other.status = .active && other.restaurantId = integration.restaurantId) ||
        (integration.externalStoreId.isSome && other.externalStoreId = integration.externalStoreId))

def RestaurantMarketplaceIntegration.disconnected (integration : RestaurantMarketplaceIntegration) :
    RestaurantMarketplaceIntegration :=
  { integration with status := .disconnected }

def RestaurantMarketplaceIntegration.activated (integration : RestaurantMarketplaceIntegration) (now : Time)
    (encryptedCredentials : Option String) : RestaurantMarketplaceIntegration :=
  { integration with
    status := .active
    lastVerifiedAt := some now
    encryptedCredentials := encryptedCredentials.or integration.encryptedCredentials }

def RestaurantMarketplaceIntegration.saveOver (loaded saved stored : RestaurantMarketplaceIntegration) : RestaurantMarketplaceIntegration :=
  { stored with
    status := overwrite loaded.status saved.status stored.status
    lastVerifiedAt := overwrite loaded.lastVerifiedAt saved.lastVerifiedAt stored.lastVerifiedAt
    encryptedCredentials := overwrite loaded.encryptedCredentials saved.encryptedCredentials stored.encryptedCredentials }

def World.stamped (w : World) (draft : RestaurantMarketplaceIntegration) : RestaurantMarketplaceIntegration :=
  { draft with id := w.nextId, createdAt := w.now }

def IntegrationOp.perform : (op : IntegrationOp) → World → Except Err op.Resp × World
  | findByStore provider externalStoreId, w =>
    (.ok (w.integrations.find? fun i => i.provider = provider && i.externalStoreId = some externalStoreId), w)
  | findActiveByStore provider externalStoreId, w =>
    (.ok (w.integrations.find? fun i =>
      i.provider = provider && i.externalStoreId = some externalStoreId && i.status = .active), w)
  | findActiveById id provider, w =>
    (.ok (w.integrations.find? fun i => i.id = id && i.provider = provider && i.status = .active), w)
  | findConnection restaurantId provider, w =>
    (.ok (Tables.newest (·.createdAt) (w.integrations.filter fun i =>
      i.restaurantId = restaurantId && i.provider = provider && i.status.connected)), w)
  | disconnectOthers restaurantId provider kept, w =>
    (.ok (), { w with
      integrations := Tables.update
        (fun i => i.restaurantId = restaurantId && i.provider = provider && i.status = .active && kept ≠ some i.id)
        (·.disconnected) w.integrations })
  | insert draft, w =>
    if integrationTaken w.integrations (w.stamped draft) then (.error .duplicateKey, w)
    else (.ok (w.stamped draft), { w with integrations := w.integrations ++ [w.stamped draft], nextId := w.nextId + 1 })
  | reactivate loaded now encryptedCredentials, w =>
    if w.integrations.any fun stored => stored.id = loaded.id &&
        integrationTaken w.integrations (loaded.saveOver (loaded.activated now encryptedCredentials) stored) then (.error .duplicateKey, w)
    else (.ok (), { w with
      integrations := Tables.update (fun i => i.id = loaded.id) (loaded.saveOver (loaded.activated now encryptedCredentials)) w.integrations })
  | disconnect integration, w =>
    (.ok (), { w with integrations := Tables.update (fun i => i.id = integration.id) (·.disconnected) w.integrations })

def Op.perform : (op : Op) → Answer → World → Except Err op.Resp × World
  | clock, _, w => (.ok w.now, w)
  | restaurant id, _, w => (.ok (w.restaurants.find? (·.id = id)), w)
  | integration op, _, w => op.perform w
  | healthCheck _, a, w => (a.verified, w)
  | audit _ _ _, _, w => (.ok (), w)

def Event.advance : Event → World → World
  | tick elapsed, w => { w with now := w.now + elapsed }

@[reducible] def store : Store Op Op.Resp Err World Answer Event where
  perform := Op.perform
  advance := Event.advance

abbrev Promise (α : Type) := Prog Op Op.Resp Err α

def integrationOp (op : IntegrationOp) : Promise op.Resp := .call (Op.integration op)

def throwApi {α : Type} (error : ApiError) : Promise α := .raise (.api error)

def recordAuditEvent (action : AuditAction) (targetId actorUserId : Id) : Promise Unit := do
  let _ ← (.call (Op.audit action targetId actorUserId) : Promise Unit).attempt
  pure ()

/-! ## The requests -/

structure ActivateIntegrationInput where
  restaurantId : Id
  provider : MarketplaceProviderName
  externalStoreId : String
  actorUserId : Id
  encryptedCredentials : Option String := none
  deriving DecidableEq

def activateIntegration (input : ActivateIntegrationInput) : Promise Unit := do
  let existingForStore : Option RestaurantMarketplaceIntegration ←
    integrationOp (.findByStore input.provider input.externalStoreId)
  match existingForStore with
  | some existing =>
    if existing.restaurantId ≠ input.restaurantId then
      throwApi (.conflict "This store is already linked to another restaurant.")
    else do
      let now : Time ← .call Op.clock
      integrationOp (.disconnectOthers input.restaurantId input.provider (some existing.id))
      integrationOp (.reactivate existing now input.encryptedCredentials)
      recordAuditEvent .connected existing.id input.actorUserId
  | none => do
    let now : Time ← .call Op.clock
    integrationOp (.disconnectOthers input.restaurantId input.provider none)
    let integration : RestaurantMarketplaceIntegration ← integrationOp (.insert {
      id := 0
      restaurantId := input.restaurantId
      provider := input.provider
      status := .active
      externalStoreId := some input.externalStoreId
      encryptedCredentials := input.encryptedCredentials
      lastVerifiedAt := some now
      createdAt := 0 })
    recordAuditEvent .connected integration.id input.actorUserId

def verifyProvider (provider : MarketplaceProviderName) : Promise (Option String) := do
  let outcome : Except Err Bool ← (Prog.call (Op.healthCheck provider) : Promise Bool).attempt
  match outcome with
  | .ok true => pure none
  | .ok false => pure (some "Could not verify these platform credentials against this provider.")
  | .error (.other message) => pure (some message)
  | .error _ => pure (some "This provider is not currently configured on this deployment.")

def connectMarketplaceIntegration (env : Env) (restaurantId userId : Id) (provider : MarketplaceProviderName)
    (externalStoreId : String) : Promise Unit := do
  let restaurant : Option Restaurant ← .call (Op.restaurant restaurantId)
  match restaurant with
  | none => throwApi (.notFound "Restaurant not found")
  | some restaurant =>
    if restaurant.businessId.isNone then throwApi (.badRequest "This restaurant has no business association yet")
    else if ¬ env.manualStoreId provider then
      throwApi (.badRequest s!"\"{provider.text}\" is not connected by manually entering a store ID on this deployment.")
    else do
      let verificationError ← verifyProvider provider
      match verificationError with
      | some verificationError => do
        let _ ← integrationOp (.insert {
          id := 0
          restaurantId := restaurant.id
          provider
          status := .invalid
          externalStoreId := some externalStoreId
          lastVerificationError := some verificationError
          createdAt := 0 })
        pure ()
      | none =>
        activateIntegration { restaurantId := restaurant.id, provider, externalStoreId, actorUserId := userId }

def disconnectMarketplaceIntegration (restaurantId userId : Id) (provider : MarketplaceProviderName) : Promise Unit := do
  let integration : Option RestaurantMarketplaceIntegration ← integrationOp (.findConnection restaurantId provider)
  match integration with
  | none => throwApi (.notFound s!"This restaurant has no connected {provider.text} integration")
  | some integration => do
    integrationOp (.disconnect integration)
    recordAuditEvent .disconnected integration.id userId

def resolveMarketplaceIntegrationByExternalStore (provider : MarketplaceProviderName) (externalStoreId : String) :
    Promise (Option RestaurantMarketplaceIntegration) :=
  integrationOp (.findActiveByStore provider externalStoreId)

def ingestingIntegration (integrationId : Id) (provider : MarketplaceProviderName) :
    Promise (Option RestaurantMarketplaceIntegration) :=
  integrationOp (.findActiveById integrationId provider)

/-- `link` is a connection that was confirmed elsewhere: by the marketplace's
own authorization or by the platform's staff. -/
inductive Request
  | connect (restaurantId userId : Id) (provider : MarketplaceProviderName) (externalStoreId : String)
  | link (input : ActivateIntegrationInput)
  | disconnect (restaurantId userId : Id) (provider : MarketplaceProviderName)
  deriving DecidableEq

def Request.program (env : Env) : Request → Promise Unit
  | connect restaurantId userId provider externalStoreId =>
    connectMarketplaceIntegration env restaurantId userId provider externalStoreId
  | link input => activateIntegration input
  | disconnect restaurantId userId provider => disconnectMarketplaceIntegration restaurantId userId provider

end RestaurantOs.Marketplaces
