import RestaurantOs.Async.Protocol
import RestaurantOs.Payments.Types

/-!
# Connecting a store by OAuth

The callback of Uber consumes the state, exchanges the code for the merchant's
token and links the store that the token covers; when it covers several, they are
kept on the state for the owner to pick one.
-/

namespace RestaurantOs.OAuthConnect

export Payments (Id Time ApiError Err)

open Async Prog

/-- A state value stands for its hash too. -/
abbrev Token := Nat

abbrev AccessToken := String

structure StoreCandidate where
  externalStoreId : String
  displayName : String
  deriving DecidableEq

/-- `pendingCredentials` is the merchant's token, which is stored encrypted. -/
structure OAuthConnectState where
  id : Id
  tokenHash : Token
  restaurantId : Id
  businessId : Id
  userId : Id
  redirectUri : String
  expiresAt : Time
  consumedAt : Option Time := none
  pendingCandidateStores : Option (List StoreCandidate) := none
  pendingCredentials : Option AccessToken := none
  deriving DecidableEq

structure Restaurant where
  id : Id
  businessId : Option Id := none
  deriving DecidableEq

structure World where
  now : Time := 0
  states : List OAuthConnectState := []
  restaurants : List Restaurant := []

structure ActivateIntegrationInput where
  restaurantId : Id
  businessId : Id
  externalStoreId : String
  actorUserId : Id
  encryptedCredentials : Option AccessToken
  deriving DecidableEq

inductive Op
  | consume (token : Token)
  | findRestaurant (id : Id)
  | exchangeCodeForToken (stateId : Id) (code redirectUri : String)
  | discoverStores (stateId : Id) (accessToken : AccessToken)
  | activateStore (stateId : Id) (accessToken : AccessToken) (externalStoreId : String) (restaurantId : Id)
  | activateIntegration (stateId : Id) (input : ActivateIntegrationInput)
  | savePendingStoreSelection (stateId : Id) (candidates : List StoreCandidate) (credentials : AccessToken)
  | findState (id : Id)
  deriving DecidableEq

@[reducible] def Op.Resp : Op → Type
  | consume _ | findState _ => Option OAuthConnectState
  | findRestaurant _ => Option Restaurant
  | exchangeCodeForToken _ _ _ => AccessToken
  | discoverStores _ _ => List StoreCandidate
  | activateStore _ _ _ _ | activateIntegration _ _ | savePendingStoreSelection _ _ _ => Unit

structure Answer where
  accessToken : AccessToken := ""
  stores : List StoreCandidate := []

namespace World

def consumable (w : World) (token : Token) (state : OAuthConnectState) : Bool :=
  state.tokenHash = token && state.consumedAt.isNone && w.now < state.expiresAt

def updateState (w : World) (id : Id) (f : OAuthConnectState → OAuthConnectState) : World :=
  { w with states := Tables.update (·.id = id) f w.states }

end World

def OAuthConnectState.consumed (now : Time) (state : OAuthConnectState) : OAuthConnectState := { state with consumedAt := some now }

def OAuthConnectState.withPending (candidates : List StoreCandidate) (credentials : AccessToken) (state : OAuthConnectState) :
    OAuthConnectState :=
  { state with pendingCandidateStores := some candidates, pendingCredentials := some credentials }

def Op.perform : (op : Op) → Answer → World → Except Err op.Resp × World
  | consume token, _, w =>
    match w.states.find? (w.consumable token) with
    | none => (.ok none, w)
    | some state => (.ok (some (state.consumed w.now)), w.updateState state.id (·.consumed w.now))
  | findRestaurant id, _, w => (.ok (w.restaurants.find? (·.id = id)), w)
  | exchangeCodeForToken _ _ _, a, w => (.ok a.accessToken, w)
  | discoverStores _ _, a, w => (.ok a.stores, w)
  | activateStore _ _ _ _, _, w => (.ok (), w)
  | activateIntegration _ _, _, w => (.ok (), w)
  | savePendingStoreSelection stateId candidates credentials, _, w =>
    (.ok (), w.updateState stateId (·.withPending candidates credentials))
  | findState id, _, w => (.ok (w.states.find? (·.id = id)), w)

inductive Event
  | tick (elapsed : Time)

def Event.advance : Event → World → World
  | tick elapsed, w => { w with now := w.now + elapsed }

@[reducible] def store : Store Op Op.Resp Err World (Except Err Answer) Event := Store.faulty ⟨Op.perform, Event.advance⟩ id

abbrev Promise (α : Type) := Prog Op Op.Resp Err α

def throwApi {α : Type} (error : ApiError) : Promise α := .raise (.api error)

def forbidden (message : String) : ApiError := ⟨403, "FORBIDDEN", message⟩

/-! ## Requests -/

structure Env where
  uberEatsConnectionsClosed : Bool := false

def UBER_EATS_CONNECTIONS_CLOSED_MESSAGE : String := "Uber Eats connections aren't open on GarnishTable yet."

def ACTIVATION_FAILED_MESSAGE : String :=
  "Uber Eats connected, but we couldn't activate GarnishTable for this store. Please try again."

inductive Response
  | expired
  | denied
  | failed (message : String)
  | connected (restaurantId : Id)
  | selectStore (stateId restaurantId : Id) (candidates : List StoreCandidate)
  deriving DecidableEq

/-- `activateStore` at Uber, then the link here. -/
def linkStore (stateId : Id) (accessToken : AccessToken) (input : ActivateIntegrationInput) : Promise Response := do
  let activated ← (.call (Op.activateStore stateId accessToken input.externalStoreId input.restaurantId) : Promise Unit).attempt
  match activated with
  | .error _ => pure (.failed ACTIVATION_FAILED_MESSAGE)
  | .ok _ => do
    .call (Op.activateIntegration stateId input)
    pure (.connected input.restaurantId)

def linkDiscovered (consumed : OAuthConnectState) (restaurantId businessId userId : Id) (accessToken : AccessToken) :
    List StoreCandidate → Promise Response
  | [] => pure (.failed "No Uber Eats stores were found for this account.")
  | [only] =>
    linkStore consumed.id accessToken
      { restaurantId, businessId, externalStoreId := only.externalStoreId, actorUserId := userId, encryptedCredentials := some accessToken }
  | stores => do
    .call (Op.savePendingStoreSelection consumed.id stores accessToken)
    pure (.selectStore consumed.id restaurantId stores)

def exchangeAndLink (consumed : OAuthConnectState) (restaurantId businessId userId : Id) (code : String) : Promise Response := do
  let exchanged ← (.call (Op.exchangeCodeForToken consumed.id code consumed.redirectUri) : Promise AccessToken).attempt
  match exchanged with
  | .error _ => pure (.failed "We couldn't complete the connection to Uber Eats. Please try again.")
  | .ok accessToken => do
    let discovered ← (.call (Op.discoverStores consumed.id accessToken) : Promise (List StoreCandidate)).attempt
    match discovered with
    | .error _ => pure (.failed "Uber Eats connected, but we couldn't look up your stores. Please try again.")
    | .ok stores => linkDiscovered consumed restaurantId businessId userId accessToken stores

def completeUberEatsConnect (env : Env) (userId : Id) (state : Token) (code error : Option String) : Promise Response :=
  if env.uberEatsConnectionsClosed then throwApi (forbidden UBER_EATS_CONNECTIONS_CLOSED_MESSAGE)
  else do
    let consumed : Option OAuthConnectState ← .call (Op.consume state)
    match consumed with
    | none => pure .expired
    | some consumed =>
      if consumed.userId ≠ userId then throwApi (forbidden "This connection was not started by your account.")
      else
        match error.filter (· ≠ ""), code.filter (· ≠ "") with
        | none, some code => do
          let restaurant : Option Restaurant ← .call (Op.findRestaurant consumed.restaurantId)
          match restaurant.bind fun restaurant => restaurant.businessId.map (restaurant.id, ·) with
          | none => pure (.failed "We couldn't find the restaurant this connection belongs to. Please start over.")
          | some (restaurantId, businessId) => exchangeAndLink consumed restaurantId businessId userId code
        | _, _ => pure .denied

def OAuthConnectState.candidate? (state : OAuthConnectState) (chosenExternalStoreId : String) (expectedUserId : Id) :
    Option StoreCandidate :=
  if state.userId ≠ expectedUserId then none
  else state.pendingCandidateStores.bind (·.find? (·.externalStoreId = chosenExternalStoreId))

def finalizePendingStoreSelection (stateId : Id) (chosenExternalStoreId : String) (expectedUserId : Id) :
    Promise (Option (OAuthConnectState × StoreCandidate)) := do
  let state : Option OAuthConnectState ← .call (Op.findState stateId)
  pure (state.bind fun state => (state.candidate? chosenExternalStoreId expectedUserId).map (state, ·))

def selectUberEatsStore (env : Env) (userId stateId : Id) (externalStoreId : String) : Promise Response :=
  if env.uberEatsConnectionsClosed then throwApi (forbidden UBER_EATS_CONNECTIONS_CLOSED_MESSAGE)
  else do
    let picked ← finalizePendingStoreSelection stateId externalStoreId userId
    match picked with
    | none => throwApi (.notFound "This connection attempt has expired or is no longer valid. Please start over.")
    | some (state, candidate) =>
      match state.pendingCredentials with
      | none => pure (.failed ACTIVATION_FAILED_MESSAGE)
      | some accessToken =>
        linkStore state.id accessToken
          { restaurantId := state.restaurantId
            businessId := state.businessId
            externalStoreId := candidate.externalStoreId
            actorUserId := userId
            encryptedCredentials := some accessToken }

inductive Request
  | completeUberEatsConnect (userId : Id) (state : Token) (code error : Option String)
  | selectUberEatsStore (userId stateId : Id) (externalStoreId : String)
  deriving DecidableEq

def Request.userId : Request → Id
  | completeUberEatsConnect userId _ _ _ | selectUberEatsStore userId _ _ => userId

def Request.program (env : Env) : Request → Promise Response
  | completeUberEatsConnect userId state code error => OAuthConnect.completeUberEatsConnect env userId state code error
  | selectUberEatsStore userId stateId externalStoreId => OAuthConnect.selectUberEatsStore env userId stateId externalStoreId

abbrev State := Config Op Op.Resp Err World Response

def State.start (env : Env) (w : World) (requests : List Request) : State := Config.initial w (requests.map (Request.program env))

end RestaurantOs.OAuthConnect
