import RestaurantOs.Async.Slots
import RestaurantOs.Entitlements.Resolution

/-!
# Businesses of an agency

An agency creates a business, with its owner and its first location, in a slot that
was reserved for it: the agency's count goes up only below the limit of its plan, and
a creation that fails gives its slot back.
-/

namespace RestaurantOs.AgencyBusinesses

export Payments (Id Time ApiError Err)

open Async Prog

open Entitlements (PlanDoc PlanEntitlement SubscriptionResolution getEntitlement resolveSubscriptionStateNow)

abbrev Text := List Char

abbrev Token := Nat

structure Agency where
  id : Id
  businessCount : Int := 0
  deriving DecidableEq

structure User where
  id : Id
  name : String
  email : Text
  passwordHash : String
  restaurantId : Option Id := none
  businessId : Option Id := none
  mustChangePassword : Bool := false
  inviteTokenHash : Option Token := none
  inviteExpiresAt : Option Time := none
  deriving DecidableEq

structure Business where
  id : Id
  name : String
  slug : String
  ownerId : Id
  agencyId : Id
  deriving DecidableEq

structure Restaurant where
  id : Id
  name : String
  slug : String
  ownerId : Id
  businessId : Id
  timezone : Option String := none
  currency : Option String := none
  deriving DecidableEq

structure World where
  billing : Billing.World := {}
  entitlements : List (Id × List PlanEntitlement) := []
  agencies : List Agency := []
  users : List User := []
  businesses : List Business := []
  restaurants : List Restaurant := []
  nextId : Id := 0

/-- The setter of the schema's `email`, which applies to queries too. -/
def lowercase (email : Text) : Text := email.map Char.toLower

namespace World

def entitled (w : World) : Entitlements.World := { billing := w.billing, entitlements := w.entitlements }

def agency? (w : World) (id : Id) : Option Agency := w.agencies.find? (·.id = id)

/-- `$inc: { businessCount }` -/
def count (w : World) (agencyId : Id) (change : Int) : World :=
  { w with agencies := Tables.update (·.id = agencyId) (fun a => { a with businessCount := a.businessCount + change }) w.agencies }

end World

inductive ProvisioningMode
  | invite | direct
  deriving DecidableEq

structure CreateAgencyBusinessInput where
  businessName : String
  businessSlug : String
  ownerName : String
  ownerEmail : Text
  locationName : String
  locationSlug : String
  timezone : Option String := none
  currency : Option String := none
  provisioningMode : ProvisioningMode := .invite
  deriving DecidableEq

/-! ## The limit -/

def NO_SUBSCRIPTION_DEFAULT_MAX_BUSINESSES : Int := 3

def planMaxBusinesses (plan : PlanDoc) : Int :=
  match getEntitlement plan "max_businesses" with
  | some (.number value) => if value > 0 then value else NO_SUBSCRIPTION_DEFAULT_MAX_BUSINESSES
  | _ => NO_SUBSCRIPTION_DEFAULT_MAX_BUSINESSES

def getMaxBusinesses (agencyId : Id) (w : World) : Except Err Int :=
  ((resolveSubscriptionStateNow .agency agencyId).at w.entitled).map fun
    | .never => NO_SUBSCRIPTION_DEFAULT_MAX_BUSINESSES
    | .lapsed => (w.agency? agencyId).elim 0 (·.businessCount)
    | .live plan _ => planMaxBusinesses plan

/-! ## Operations -/

def OWNER_INVITE_TTL_MS : Time := 7 * 24 * 60 * 60 * 1000

/-- `reserve` is the conditional update of a reservation, which returns the count
before it, `createBusiness` the transaction. -/
inductive Op
  | findBusinessSlug (slug : String)
  | findLocationSlug (slug : String)
  | findOwnerEmail (email : Text)
  | getMaxBusinesses (agencyId : Id)
  | reserve (agencyId : Id) (maxBusinesses : Int)
  | randomPassword (mode : ProvisioningMode)
  | hash (password : String)
  | generateSecureToken
  | startSession
  | createBusiness (agencyId : Id) (input : CreateAgencyBusinessInput) (passwordHash : String) (token : Token)
  | release (agencyId : Id)
  | endSession
  | recordAgencyAuditEvent (agencyId businessId : Id) (action : String)
  | recordAuditEvent (restaurantId : Id)
  | sendOwnerInvite (email : Text) (token : Token)
  deriving DecidableEq

@[reducible] def Op.Resp : Op → Type
  | findBusinessSlug _ => Option Business
  | findLocationSlug _ => Option Restaurant
  | findOwnerEmail _ => Option User
  | getMaxBusinesses _ => Int
  | reserve _ _ => Option Int
  | randomPassword _ | hash _ => String
  | generateSecureToken => Token
  | createBusiness _ _ _ _ => Business × Restaurant
  | startSession | release _ | endSession | recordAgencyAuditEvent _ _ _ | recordAuditEvent _ | sendOwnerInvite _ _ => Unit

structure Answer where
  text : String := ""
  token : Token := 0

namespace World

def taken (w : World) (input : CreateAgencyBusinessInput) : Bool :=
  w.users.any (·.email = lowercase input.ownerEmail) || w.businesses.any (·.slug = input.businessSlug) ||
    w.restaurants.any (·.slug = input.locationSlug)

def newBusiness (w : World) (agencyId : Id) (input : CreateAgencyBusinessInput) : Business :=
  { id := w.nextId + 1, name := input.businessName, slug := input.businessSlug, ownerId := w.nextId, agencyId }

def newRestaurant (w : World) (input : CreateAgencyBusinessInput) : Restaurant where
  id := w.nextId + 2
  name := input.locationName
  slug := input.locationSlug
  ownerId := w.nextId
  businessId := w.nextId + 1
  timezone := input.timezone
  currency := input.currency

def newOwner (w : World) (input : CreateAgencyBusinessInput) (passwordHash : String) (token : Token) : User where
  id := w.nextId
  name := input.ownerName
  email := lowercase input.ownerEmail
  passwordHash := passwordHash
  restaurantId := some (w.nextId + 2)
  businessId := some (w.nextId + 1)
  mustChangePassword := input.provisioningMode = .direct
  inviteTokenHash := if input.provisioningMode = .direct then none else some token
  inviteExpiresAt := if input.provisioningMode = .direct then none else some (w.billing.now + OWNER_INVITE_TTL_MS)

end World

def Op.perform : (op : Op) → Answer → World → Except Err op.Resp × World
  | findBusinessSlug slug, _, w => (.ok (w.businesses.find? (·.slug = slug)), w)
  | findLocationSlug slug, _, w => (.ok (w.restaurants.find? (·.slug = slug)), w)
  | findOwnerEmail email, _, w => (.ok (w.users.find? (·.email = lowercase email)), w)
  | getMaxBusinesses agencyId, _, w => (AgencyBusinesses.getMaxBusinesses agencyId w, w)
  | reserve agencyId maxBusinesses, _, w =>
    match (w.agency? agencyId).filter (·.businessCount < maxBusinesses) with
    | none => (.ok none, w)
    | some agency => (.ok (some agency.businessCount), w.count agencyId 1)
  | randomPassword _, a, w => (.ok a.text, w)
  | hash _, a, w => (.ok a.text, w)
  | generateSecureToken, a, w => (.ok a.token, w)
  | startSession, _, w => (.ok (), w)
  | createBusiness agencyId input passwordHash token, _, w =>
    if w.taken input then (.error .duplicateKey, w)
    else
      (.ok (w.newBusiness agencyId input, w.newRestaurant input),
        { w with
          users := w.users ++ [w.newOwner input passwordHash token]
          businesses := w.businesses ++ [w.newBusiness agencyId input]
          restaurants := w.restaurants ++ [w.newRestaurant input]
          nextId := w.nextId + 3 })
  | release agencyId, _, w => (.ok (), w.count agencyId (-1))
  | endSession, _, w => (.ok (), w)
  | recordAgencyAuditEvent _ _ _, _, w => (.ok (), w)
  | recordAuditEvent _, _, w => (.ok (), w)
  | sendOwnerInvite _ _, _, w => (.ok (), w)

/-- The subscriptions change, of whichever owner, and time passes. -/
inductive Event
  | subscriptions (billing : Billing.World)

def Event.advance : Event → World → World
  | subscriptions billing, w => { w with billing }

@[reducible] def store : Store Op Op.Resp Err World (Except Err Answer) Event := Store.faulty ⟨Op.perform, Event.advance⟩ id

abbrev Promise (α : Type) := Prog Op Op.Resp Err α

def throwApi {α : Type} (error : ApiError) : Promise α := .raise (.api error)

/-! ## Creating a business -/

def refuseTaken {α : Type} (existing : Option α) (message : String) : Promise Unit :=
  if existing.isSome then throwApi (.conflict message) else pure ()

def reserveBusinessSlot (agencyId : Id) : Promise Unit := do
  let maxBusinesses : Int ← .call (Op.getMaxBusinesses agencyId)
  let updated : Option Int ← .call (Op.reserve agencyId maxBusinesses)
  if updated.isNone then throwApi (.conflict s!"This agency has reached its business limit ({maxBusinesses})") else pure ()

/-- The `try` around the transaction. -/
def createOrRelease (agencyId : Id) (input : CreateAgencyBusinessInput) (passwordHash : String) (token : Token) :
    Promise (Business × Restaurant) := do
  let created ← (.call (Op.createBusiness agencyId input passwordHash token) : Promise (Business × Restaurant)).attempt
  match created with
  | .ok created => pure created
  | .error err => do
    .call (Op.release agencyId)
    if err.isDuplicateKey then throwApi (.conflict "That business/location slug or owner email is already in use") else .raise err

structure Response where
  business : Business
  restaurant : Restaurant
  ownerTemporaryPassword : Option String := none
  deriving DecidableEq

def recordAgencyAuditEvent (agencyId businessId : Id) (mode : ProvisioningMode) : Promise Unit := do
  let action := if mode = .direct then "agency.business_owner_access_created" else "agency.business_created"
  let _ ← (.call (Op.recordAgencyAuditEvent agencyId businessId action) : Promise Unit).attempt
  pure ()

def recordAuditEvent (restaurantId : Id) : Promise Unit := do
  let _ ← (.call (Op.recordAuditEvent restaurantId) : Promise Unit).attempt
  pure ()

def respond (input : CreateAgencyBusinessInput) (temporaryPassword : String) (token : Token) (business : Business)
    (restaurant : Restaurant) : Promise Response :=
  if input.provisioningMode = .direct then pure { business, restaurant, ownerTemporaryPassword := some temporaryPassword }
  else do
    let _ ← (.call (Op.sendOwnerInvite input.ownerEmail token) : Promise Unit).attempt
    pure { business, restaurant }

def createInSlot (agencyId : Id) (input : CreateAgencyBusinessInput) : Promise Response := do
  reserveBusinessSlot agencyId
  let temporaryPassword : String ← .call (Op.randomPassword input.provisioningMode)
  let passwordHash : String ← .call (Op.hash temporaryPassword)
  let token : Token ← .call Op.generateSecureToken
  .call Op.startSession
  let (business, restaurant) ←
    .finallyDo (createOrRelease agencyId input passwordHash token) (.call Op.endSession : Promise Unit)
  recordAgencyAuditEvent agencyId business.id input.provisioningMode
  recordAuditEvent restaurant.id
  respond input temporaryPassword token business restaurant

def createAgencyBusiness (agencyId : Id) (input : CreateAgencyBusinessInput) : Promise Response := do
  let existingBusinessSlug : Option Business ← .call (Op.findBusinessSlug input.businessSlug)
  let existingLocationSlug : Option Restaurant ← .call (Op.findLocationSlug input.locationSlug)
  let existingOwnerEmail : Option User ← .call (Op.findOwnerEmail input.ownerEmail)
  refuseTaken existingBusinessSlug "That business slug is already taken"
  refuseTaken existingLocationSlug "That location slug is already taken"
  refuseTaken existingOwnerEmail "An account with this email already exists"
  createInSlot agencyId input

inductive Request
  | createAgencyBusiness (agencyId : Id) (input : CreateAgencyBusinessInput)
  deriving DecidableEq

def Request.program : Request → Promise Response
  | createAgencyBusiness agencyId input => AgencyBusinesses.createAgencyBusiness agencyId input

abbrev State := Config Op Op.Resp Err World Response

def State.start (w : World) (requests : List Request) : State := Config.initial w (requests.map Request.program)

def Settled (c : State) : Prop := ∀ th ∈ c.threads, th.born.isSome = true → th.next?.isSome = false

instance (c : State) : Decidable (Settled c) :=
  inferInstanceAs (Decidable (∀ th ∈ c.threads, th.born.isSome = true → th.next?.isSome = false))

def commits (agencyId : Id) : Entry Op Op.Resp Err → Bool
  | ⟨_, .createBusiness id _ _ _, .ok _⟩ => id = agencyId
  | _ => false

def committed (agencyId : Id) (history : List (Entry Op Op.Resp Err)) : Nat := history.countP (commits agencyId)

def releasesSucceed (c : State) : Label (Except Err Answer) Event → Bool
  | .run t a =>
    match c.waiting? t with
    | some (.release _) => a.isOk
    | _ => true
  | _ => true

/-- What stands between the reservation and the `try` does not throw. -/
def preparationsSucceed (c : State) : Label (Except Err Answer) Event → Bool
  | .run t a =>
    match c.waiting? t with
    | some (.randomPassword _) | some (.hash _) | some .generateSecureToken | some .startSession => a.isOk
    | _ => true
  | _ => true

/-! ## Slots -/

def World.businessCount? (w : World) (agencyId : Id) : Option Int := (w.agency? agencyId).map (·.businessCount)

def Op.effect : (o : Op) → Except Err o.Resp → Slots.Effect Id
  | getMaxBusinesses agencyId, .ok maxBusinesses => .told agencyId maxBusinesses
  | reserve agencyId maxBusinesses, .ok (some count) => .reserved agencyId maxBusinesses count
  | createBusiness agencyId _ _ _, .ok _ => .committed agencyId
  | release agencyId, .ok _ => .released agencyId
  | randomPassword _, .error _ | hash _, .error _ | generateSecureToken, .error _ | startSession, .error _ | release _, .error _ => .failed
  | _, _ => .none

theorem businessCount?_count {w : World} {agencyId b : Id} {change : Int} :
    (w.count agencyId change).businessCount? b = (w.businessCount? b).map (· + if agencyId = b then change else 0) := by
  have hFind : (w.count agencyId change).agency? b = (w.agency? b).map fun stored =>
      if stored.id = agencyId then { stored with businessCount := stored.businessCount + change } else stored := by
    simp only [World.agency?, World.count]
    rw [Tables.find?_update]
    · simp only [decide_eq_true_eq]
    · intro stored _
      split <;> rfl
  rw [World.businessCount?, World.businessCount?, hFind]
  cases hStored : w.agency? b with
  | none => rfl
  | some stored =>
    have hId : stored.id = b := by simpa using List.find?_some hStored
    simp only [Option.map_some, hId, @eq_comm _ b agencyId]
    split
    · rfl
    · simp

theorem businessCount?_perform (o : Op) (a : Except Err Answer) (w : World) (agencyId : Id) :
    (store.perform o a w).2.businessCount? agencyId =
      (w.businessCount? agencyId).map (· + (o.effect (store.perform o a w).1).change agencyId) := by
  have hSame : w.businessCount? agencyId = (w.businessCount? agencyId).map (· + 0) := by simp
  cases a with
  | error fault => cases o <;> exact hSame
  | ok a =>
    cases o with
    | getMaxBusinesses id =>
      simp only [Op.perform]
      cases getMaxBusinesses id w <;> exact hSame
    | reserve id maxBusinesses =>
      simp only [Op.perform]
      split
      · exact hSame
      · exact businessCount?_count
    | createBusiness id input passwordHash token =>
      simp only [Op.perform]
      split <;> exact hSame
    | release id => exact businessCount?_count
    | _ => exact hSame

theorem lt_of_reserved {o : Op} {a : Except Err Answer} {w : World} {agencyId : Id} {maxBusinesses count : Int}
    (h : o.effect (store.perform o a w).1 = .reserved agencyId maxBusinesses count) :
    w.businessCount? agencyId = some count ∧ count < maxBusinesses := by
  cases a with
  | error fault => cases o <;> cases h
  | ok a =>
    cases o with
    | reserve id limit =>
      simp only [Op.perform] at h
      split at h
      · cases h
      · rename_i agency hFound
        cases h
        obtain ⟨hStored, hBelow⟩ := Option.filter_eq_some_iff.mp hFound
        exact ⟨by rw [World.businessCount?, hStored]; rfl, of_decide_eq_true hBelow⟩
    | getMaxBusinesses id =>
      simp only [Op.perform] at h
      cases hMax : getMaxBusinesses id w <;> rw [hMax] at h <;> cases h
    | createBusiness id input passwordHash token =>
      simp only [Op.perform] at h
      split at h <;> cases h
    | _ => cases h

def slots : Slots.Counter store Id where
  effect := Op.effect
  count := World.businessCount?
  perform := businessCount?_perform
  below _ _ _ _ _ _ := lt_of_reserved
  advance _ _ _ := rfl

end RestaurantOs.AgencyBusinesses
