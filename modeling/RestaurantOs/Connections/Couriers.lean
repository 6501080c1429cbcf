import RestaurantOs.Async.Sequential
import RestaurantOs.Data.Tables
import RestaurantOs.Payments.Types

/-!
# Courier accounts

A restaurant's own account with a courier: connecting it, adding its webhook
secret, disconnecting it, and which provider a delivery is dispatched with.
-/

namespace RestaurantOs.Couriers

open Async

export Payments (Id Time ApiError Err)

inductive DeliveryProviderName
  | manual | uberDirect
  deriving DecidableEq

def DeliveryProviderName.text : DeliveryProviderName → String
  | manual => "manual"
  | uberDirect => "uber_direct"

inductive AccountStatus
  | pendingVerification | active | invalid | disconnected
  deriving DecidableEq

structure RestaurantDeliveryProviderAccount where
  id : Id
  restaurantId : Id
  provider : DeliveryProviderName := .uberDirect
  status : AccountStatus := .pendingVerification
  encryptedCredentials : String
  webhookSecretConfigured : Bool := false
  lastVerifiedAt : Option Time := none
  lastVerificationError : Option String := none
  createdAt : Time
  deriving DecidableEq

/-- `deliveryProvider` is the provider that the restaurant wants to use. -/
structure Restaurant where
  id : Id
  businessId : Option Id := none
  deliveryProvider : Option DeliveryProviderName := none
  deriving DecidableEq

structure Env where
  decrypts : String → Bool := fun _ => true
  withSecret : String → String → String := fun credentials _ => credentials

structure World where
  now : Time := 0
  nextId : Id := 0
  restaurants : List Restaurant := []
  accounts : List RestaurantDeliveryProviderAccount := []

inductive AccountOp
  | findActive (restaurantId : Id) (provider : Option DeliveryProviderName)
  | findConnection (restaurantId : Id)
  | disconnectActive (restaurantId : Id) (provider : DeliveryProviderName)
  | insert (account : RestaurantDeliveryProviderAccount)
  | disconnect (account : RestaurantDeliveryProviderAccount)
  | saveSecret (account : RestaurantDeliveryProviderAccount) (encryptedCredentials : String)
  deriving DecidableEq

inductive AuditAction
  | connected | disconnected | webhookSecretUpdated
  deriving DecidableEq

inductive Op
  | clock
  | restaurant (id : Id)
  | account (op : AccountOp)
  | healthCheck (account : RestaurantDeliveryProviderAccount)
  | audit (action : AuditAction) (targetId actorUserId : Id)
  deriving DecidableEq

@[reducible] def AccountOp.Resp : AccountOp → Type
  | findActive _ _ | findConnection _ => Option RestaurantDeliveryProviderAccount
  | insert _ => RestaurantDeliveryProviderAccount
  | disconnectActive _ _ | disconnect _ | saveSecret _ _ => Unit

@[reducible] def Op.Resp : Op → Type
  | clock => Time
  | restaurant _ => Option Restaurant
  | account op => op.Resp
  | healthCheck _ => Bool
  | audit _ _ _ => Unit

structure Answer where
  verified : Except Err Bool := .ok true

inductive Event
  | tick (elapsed : Time)

/-- `status: { $in: ["active", "pending_verification", "invalid"] }` -/
def AccountStatus.connected : AccountStatus → Bool
  | active | pendingVerification | invalid => true
  | disconnected => false

/-- The unique index on `{ restaurantId, provider }` where `status` is `active`. -/
def activeTaken (accounts : List RestaurantDeliveryProviderAccount) (account : RestaurantDeliveryProviderAccount) : Bool :=
  accounts.any fun other =>
    other.id ≠ account.id && other.restaurantId = account.restaurantId && other.provider = account.provider &&
      other.status = .active

def RestaurantDeliveryProviderAccount.disconnected (account : RestaurantDeliveryProviderAccount) :
    RestaurantDeliveryProviderAccount :=
  { account with status := .disconnected }

def AccountOp.perform : (op : AccountOp) → World → Except Err op.Resp × World
  | findActive restaurantId provider, w =>
    (.ok (w.accounts.find? fun a => a.restaurantId = restaurantId && provider.all (a.provider = ·) && a.status = .active), w)
  | findConnection restaurantId, w =>
    (.ok (Tables.newest (·.createdAt) (w.accounts.filter fun a => a.restaurantId = restaurantId && a.status.connected)), w)
  | disconnectActive restaurantId provider, w =>
    (.ok (), { w with
      accounts := Tables.update (fun a => a.restaurantId = restaurantId && a.provider = provider && a.status = .active)
        (·.disconnected) w.accounts })
  | insert account, w =>
    let account := { account with id := w.nextId, createdAt := w.now }
    if account.status = .active ∧ activeTaken w.accounts account then (.error .duplicateKey, w)
    else (.ok account, { w with accounts := w.accounts ++ [account], nextId := w.nextId + 1 })
  | disconnect account, w =>
    (.ok (), { w with accounts := Tables.update (fun a => a.id = account.id) (·.disconnected) w.accounts })
  | saveSecret account encryptedCredentials, w =>
    (.ok (), { w with
      accounts := Tables.update (fun a => a.id = account.id)
        (fun a => { a with encryptedCredentials, webhookSecretConfigured := true }) w.accounts })

def Op.perform : (op : Op) → Answer → World → Except Err op.Resp × World
  | clock, _, w => (.ok w.now, w)
  | restaurant id, _, w => (.ok (w.restaurants.find? (·.id = id)), w)
  | account op, _, w => op.perform w
  | healthCheck _, a, w => (a.verified, w)
  | audit _ _ _, _, w => (.ok (), w)

def Event.advance : Event → World → World
  | tick elapsed, w => { w with now := w.now + elapsed }

@[reducible] def store : Store Op Op.Resp Err World Answer Event where
  perform := Op.perform
  advance := Event.advance

abbrev Promise (α : Type) := Prog Op Op.Resp Err α

def accountOp (op : AccountOp) : Promise op.Resp := .call (Op.account op)

def throwApi {α : Type} (error : ApiError) : Promise α := .raise (.api error)

/-! ## The requests -/

inductive DeliveryProvider
  | manual
  | uberDirect (accountId : Id)
  deriving DecidableEq

def buildDeliveryProviderFromAccount (env : Env) (account : RestaurantDeliveryProviderAccount) : Except Err DeliveryProvider :=
  if account.provider = .uberDirect then
    if env.decrypts account.encryptedCredentials then .ok (.uberDirect account.id)
    else .error (.other "Unsupported state or unable to authenticate data")
  else .error (.other s!"\"{account.provider.text}\" is not a BYOC-eligible delivery provider.")

def connectUberDirectAccount (env : Env) (restaurantId userId : Id) (encryptedCredentials : String) (webhookSecret : Bool) :
    Promise Unit := do
  let restaurant : Option Restaurant ← .call (Op.restaurant restaurantId)
  match restaurant with
  | none => throwApi (.notFound "Restaurant not found")
  | some restaurant =>
    if restaurant.businessId.isNone then throwApi (.badRequest "This restaurant has no business association yet")
    else do
      let account : RestaurantDeliveryProviderAccount :=
        { id := 0, restaurantId := restaurant.id, encryptedCredentials, webhookSecretConfigured := webhookSecret, createdAt := 0 }
      let _ ← .ofExcept (buildDeliveryProviderFromAccount env account)
      let verified : Bool ← .call (Op.healthCheck account)
      if !verified then do
        let _ ← accountOp (.insert { account with
          status := .invalid
          lastVerificationError := some "These credentials could not be verified against Uber Direct." })
        pure ()
      else do
        accountOp (.disconnectActive restaurant.id .uberDirect)
        let now : Time ← .call Op.clock
        let saved : RestaurantDeliveryProviderAccount ←
          accountOp (.insert { account with status := .active, lastVerifiedAt := some now })
        .call (Op.audit .connected saved.id userId)

def updateDeliveryWebhookSigningSecret (env : Env) (restaurantId userId : Id) (secret : String) : Promise Unit := do
  let account : Option RestaurantDeliveryProviderAccount ← accountOp (.findActive restaurantId none)
  match account with
  | none => throwApi (.notFound "Connect a delivery provider account before adding its webhook signing secret")
  | some account =>
    if ¬ env.decrypts account.encryptedCredentials then
      .raise (.other "Unsupported state or unable to authenticate data")
    else do
      accountOp (.saveSecret account (env.withSecret account.encryptedCredentials secret))
      .call (Op.audit .webhookSecretUpdated account.id userId)

def disconnectRestaurantDeliveryProviderAccount (restaurantId userId : Id) : Promise Unit := do
  let account : Option RestaurantDeliveryProviderAccount ← accountOp (.findConnection restaurantId)
  match account with
  | none => throwApi (.notFound "This restaurant has no connected delivery provider account")
  | some account => do
    accountOp (.disconnect account)
    .call (Op.audit .disconnected account.id userId)

structure Resolution where
  provider : DeliveryProvider
  fellBackToManual : Bool := false
  fallbackReason : Option String := none
  deriving DecidableEq

def fallBack (reason : String) : Resolution := ⟨.manual, true, some reason⟩

def resolveDeliveryProviderForRestaurant (env : Env) (restaurant : Restaurant) : Promise Resolution :=
  let wanted := restaurant.deliveryProvider.getD .manual
  if wanted = .manual then pure ⟨.manual, false, none⟩
  else do
    let account : Option RestaurantDeliveryProviderAccount ← accountOp (.findActive restaurant.id (some wanted))
    match account with
    | none => pure (fallBack "the courier account is not connected")
    | some account =>
      if ¬ account.webhookSecretConfigured then
        pure (fallBack "the courier account's webhook signing secret hasn't been added yet (Settings → Delivery)")
      else
        match buildDeliveryProviderFromAccount env account with
        | .ok provider => pure ⟨provider, false, none⟩
        | .error _ => pure (fallBack "the courier account could not be loaded")

inductive Request
  | connect (restaurantId userId : Id) (encryptedCredentials : String) (webhookSecret : Bool)
  | updateSecret (restaurantId userId : Id) (secret : String)
  | disconnect (restaurantId userId : Id)
  deriving DecidableEq

def Request.program (env : Env) : Request → Promise Unit
  | connect restaurantId userId encryptedCredentials webhookSecret =>
    connectUberDirectAccount env restaurantId userId encryptedCredentials webhookSecret
  | updateSecret restaurantId userId secret => updateDeliveryWebhookSigningSecret env restaurantId userId secret
  | disconnect restaurantId userId => disconnectRestaurantDeliveryProviderAccount restaurantId userId

end RestaurantOs.Couriers
