import RestaurantOs.Agencies.Domains
import RestaurantOs.Async.Translate
import RestaurantOs.Data.Sorting

/-!
# Custom domains of locations

A hostname is mapped to a location and shows that it is held by a token in the
DNS, or by lying in the verified domain of the business's agency, which is looked
up when a domain is added, when it is checked, and each time it is resolved.
-/

namespace RestaurantOs.Domains

export Payments (Id ApiError Err)

open Async Prog
open Agencies (Text Token Agency)

inductive MappingStatus
  | pendingVerification | verified | active
  deriving DecidableEq

structure DomainMapping where
  id : Id
  hostname : Text
  businessId : Id
  locationId : Id
  status : MappingStatus := .pendingVerification
  verificationToken : Token
  deriving DecidableEq

/-- A location; `active` is its status. -/
structure Restaurant where
  id : Id
  businessId : Option Id := none
  active : Bool := true
  deriving DecidableEq

/-- `customDomains` says whether it is entitled to the feature. -/
structure Business where
  id : Id
  agencyId : Option Id := none
  customDomains : Bool := true
  deriving DecidableEq

structure World where
  agencies : Agencies.World := {}
  restaurants : List Restaurant := []
  businesses : List Business := []
  mappings : List DomainMapping := []
  nextId : Id := 0

/-! ## Namespaces -/

/-- `hostname.toLowerCase().replace(/\.$/, "").split(".")` -/
def labels (hostname : Text) : List Text :=
  let lower := Agencies.lowercase hostname
  (if lower.getLast? = some '.' then lower.dropLast else lower).splitOn '.'

def hostnameSuffixes (hostname : Text) : List Text :=
  ((labels hostname).tails.filter (2 ≤ ·.length)).map (List.intercalate ['.'])

def contains (hostname : Text) (agency : Agency) : Bool :=
  agency.domain.any (hostnameSuffixes hostname).contains && agency.domainStatus = some .verified

/-- `agency.domain?.length ?? 0` -/
def domainLength (agency : Agency) : Nat := agency.domain.elim 0 List.length

/-- `(a, b) => (b.domain?.length ?? 0) - (a.domain?.length ?? 0)` -/
def compareLonger (a b : Agency) : Ordering := compare (domainLength b) (domainLength a)

namespace World

def findVerifiedAgencyForHostname (w : World) (hostname : Text) : Option Agency :=
  (Sorting.sorted compareLonger (w.agencies.agencies.filter (contains hostname))).head?

def restaurant? (w : World) (id : Id) : Option Restaurant := w.restaurants.find? (·.id = id)

def business? (w : World) (id : Id) : Option Business := w.businesses.find? (·.id = id)

def mapping? (w : World) (hostname : Text) : Option DomainMapping := w.mappings.find? (·.hostname = hostname)

def updateMapping (w : World) (id : Id) (f : DomainMapping → DomainMapping) : World :=
  { w with mappings := Tables.update (·.id = id) f w.mappings }

end World

/-! ## Resolution -/

inductive CustomDomainDenyReason
  | malformedHostname | platformHostname | notMapped | notActive | restaurantInactive | notEntitled | agencyNamespaceConflict
  deriving DecidableEq

inductive CustomDomainDecision
  | live (hostname : Text) (restaurantId : Id)
  | denied (hostname : Option Text) (reason : CustomDomainDenyReason)
  deriving DecidableEq

/-- `canonicalCustomDomain` gives the canonical form of a hostname. -/
structure Env extends Agencies.Env where
  canonicalCustomDomain : Text → Option Text := some

def resolveCustomDomain (env : Env) (w : World) (raw : Text) : CustomDomainDecision :=
  match env.canonicalCustomDomain raw with
  | none => .denied none .malformedHostname
  | some hostname =>
    if Agencies.isSelfClaim hostname env.platformHostnames then .denied (some hostname) .platformHostname
    else
      match w.mapping? hostname with
      | none => .denied (some hostname) .notMapped
      | some mapping =>
        if mapping.status ≠ .active then .denied (some hostname) .notActive
        else
          match (w.restaurant? mapping.locationId).filter (·.active) with
          | none => .denied (some hostname) .restaurantInactive
          | some restaurant =>
            if restaurant.businessId.any fun id => !(w.business? id).any (·.customDomains) then .denied (some hostname) .notEntitled
            else
              match w.findVerifiedAgencyForHostname hostname with
              | none => .live hostname restaurant.id
              | some namespaceOwner =>
                if ((restaurant.businessId.bind w.business?).bind (·.agencyId)) = some namespaceOwner.id then
                  .live hostname restaurant.id
                else .denied (some hostname) .agencyNamespaceConflict

/-! ## Operations -/

/-- `create` and `saveVerified` with `byAgency` rest on an agency's domain.
`saveStatus` and `saveVerified` are `mapping.save()` with a new status,
`saveChecked` is the one without. -/
inductive Op
  | agency (op : Agencies.Op)
  | findRestaurant (id : Id)
  | findByHostname (hostname : Text)
  | findVerifiedAgency (hostname : Text)
  | findBusiness (id : Id)
  | create (hostname : Text) (businessId locationId : Id) (byAgency : Bool)
  | findOwned (id restaurantId : Id)
  | checkDomainVerification (hostname : Text) (expectedToken : Token)
  | saveVerified (loaded : DomainMapping) (byAgency : Bool)
  | saveChecked (loaded : DomainMapping)
  | saveStatus (loaded : DomainMapping) (status : MappingStatus)
  | deleteOne (id : Id)
  | recordAuditEvent (restaurantId : Id) (action : String)
  deriving DecidableEq

@[reducible] def Op.Resp : Op → Type
  | agency op => op.Resp
  | findRestaurant _ => Option Restaurant
  | findByHostname _ | findOwned _ _ => Option DomainMapping
  | findVerifiedAgency _ => Option Agency
  | findBusiness _ => Option Business
  | create _ _ _ _ => DomainMapping
  | checkDomainVerification _ _ => Bool
  | saveVerified _ _ | saveChecked _ | saveStatus _ _ | deleteOne _ | recordAuditEvent _ _ => Unit

namespace World

def newMapping (w : World) (hostname : Text) (businessId locationId : Id) (byAgency : Bool) : DomainMapping where
  id := w.nextId
  hostname := Agencies.lowercase hostname
  businessId := businessId
  locationId := locationId
  status := if byAgency then .verified else .pendingVerification
  verificationToken := w.agencies.nextToken

def activeElsewhere (w : World) (loaded : DomainMapping) : Bool :=
  w.mappings.any fun m => m.id ≠ loaded.id && m.locationId = loaded.locationId && m.status = .active

end World

def Op.perform : (op : Op) → World → Except Err op.Resp × World
  | agency op, w =>
    let (r, agencies) := op.perform w.agencies
    (r, { w with agencies := agencies })
  | findRestaurant id, w => (.ok (w.restaurant? id), w)
  | findByHostname hostname, w => (.ok (w.mapping? (Agencies.lowercase hostname)), w)
  | findVerifiedAgency hostname, w => (.ok (w.findVerifiedAgencyForHostname hostname), w)
  | findBusiness id, w => (.ok (w.business? id), w)
  | create hostname businessId locationId byAgency, w =>
    if w.mappings.any (·.hostname = Agencies.lowercase hostname) then (.error .duplicateKey, w)
    else
      (.ok (w.newMapping hostname businessId locationId byAgency),
        { w with
          mappings := w.mappings ++ [w.newMapping hostname businessId locationId byAgency]
          nextId := w.nextId + 1
          agencies := { w.agencies with nextToken := w.agencies.nextToken + 1 } })
  | findOwned id restaurantId, w => (.ok (w.mappings.find? fun m => m.id = id && m.locationId = restaurantId), w)
  | checkDomainVerification hostname expectedToken, w => (.ok (w.agencies.records.contains (hostname, expectedToken)), w)
  | saveVerified loaded _, w => (.ok (), w.updateMapping loaded.id ({ · with status := .verified }))
  | saveChecked _, w => (.ok (), w)
  | saveStatus loaded status, w =>
    if status = .active && w.activeElsewhere loaded then (.error .duplicateKey, w)
    else (.ok (), w.updateMapping loaded.id ({ · with status := status }))
  | deleteOne id, w => (.ok (), { w with mappings := w.mappings.filter (·.id ≠ id) })
  | recordAuditEvent _ _, w => (.ok (), w)

inductive Event
  | dns (event : Agencies.Event)
  | restaurant (id : Id) (businessId : Option Id) (active : Bool)
  | business (id : Id) (agencyId : Option Id) (customDomains : Bool)
  deriving DecidableEq

def Event.advance : Event → World → World
  | dns event, w => { w with agencies := event.advance w.agencies }
  | restaurant id businessId active, w =>
    { w with restaurants := Tables.update (·.id = id) ({ · with businessId := businessId, active := active }) w.restaurants }
  | business id agencyId customDomains, w =>
    { w with businesses := Tables.update (·.id = id) ({ · with agencyId := agencyId, customDomains := customDomains }) w.businesses }

@[reducible] def store : Store Op Op.Resp Err World (Except Err Unit) Event :=
  Store.faulty ⟨fun o _ w => o.perform w, Event.advance⟩ id

abbrev Promise (α : Type) := Prog Op Op.Resp Err α

def throwApi {α : Type} (error : ApiError) : Promise α := .raise (.api error)

/-! ## Requests -/

inductive Response
  | agency (response : Agencies.Response)
  | domain (mapping : DomainMapping)
  | verification (verified : Bool) (mapping : DomainMapping)
  | removed
  deriving DecidableEq

def recordAuditEvent (restaurantId : Id) (action : String) : Promise Unit := do
  let _ ← (.call (Op.recordAuditEvent restaurantId action) : Promise Unit).attempt
  pure ()

inductive Namespace
  | none | own | foreign
  deriving DecidableEq

def agencyNamespaceFor (hostname : Text) (businessId : Id) : Promise Namespace := do
  let agency : Option Agency ← .call (Op.findVerifiedAgency hostname)
  match agency with
  | .none => pure .none
  | some agency => do
    let business : Option Business ← .call (Op.findBusiness businessId)
    pure (if business.bind (·.agencyId) = some agency.id then .own else .foreign)

def claimed : ApiError := .conflict "This domain is already claimed on this platform"

/-- A hostname that another request has taken meanwhile is claimed as well. -/
def createMapping (hostname : Text) (businessId locationId : Id) (byAgency : Bool) : Promise DomainMapping := do
  let r ← (.call (Op.create hostname businessId locationId byAgency) : Promise DomainMapping).attempt
  match r with
  | .ok mapping => pure mapping
  | .error err => if err.isDuplicateKey then throwApi claimed else .raise err

def addDomain (env : Env) (restaurantId : Id) (hostname : Text) : Promise Response := do
  if Agencies.isSelfClaim hostname env.platformHostnames then
    throwApi (.badRequest "This platform's own domain can't be claimed as a custom domain")
  else
    let restaurant : Option Restaurant ← .call (Op.findRestaurant restaurantId)
    match restaurant with
    | none => throwApi (.notFound "Restaurant not found")
    | some restaurant =>
      match restaurant.businessId with
      | none => throwApi (.badRequest "This restaurant has no business association yet")
      | some businessId => do
        let existing : Option DomainMapping ← .call (Op.findByHostname hostname)
        if existing.isSome then throwApi claimed
        else do
          let namespaceOf ← agencyNamespaceFor hostname businessId
          if namespaceOf = .foreign then throwApi (.conflict "This hostname is under another agency's verified domain")
          else do
            let mapping ← createMapping hostname businessId restaurant.id (namespaceOf = .own)
            recordAuditEvent restaurant.id "domain.added"
            if namespaceOf = .own then recordAuditEvent restaurant.id "domain.verified" else pure ()
            pure (.domain mapping)

def findOwnedMapping (restaurantId mappingId : Id) : Promise DomainMapping := do
  let mapping : Option DomainMapping ← .call (Op.findOwned mappingId restaurantId)
  match mapping with
  | none => throwApi (.notFound "Domain not found")
  | some mapping => pure mapping

def recordCheck (mapping : DomainMapping) (verified byAgency : Bool) : Promise Response :=
  if verified && mapping.status = .pendingVerification then do
    .call (Op.saveVerified mapping byAgency)
    recordAuditEvent mapping.locationId "domain.verified"
    pure (.verification verified { mapping with status := .verified })
  else do
    .call (Op.saveChecked mapping)
    pure (.verification verified mapping)

def checkDomainVerificationStatus (restaurantId mappingId : Id) : Promise Response := do
  let mapping ← findOwnedMapping restaurantId mappingId
  let namespaceOf ← agencyNamespaceFor mapping.hostname mapping.businessId
  match namespaceOf with
  | .foreign => throwApi (.conflict "This hostname is under another agency's verified domain")
  | .own => recordCheck mapping true true
  | .none => do
    let verified : Bool ← .call (Op.checkDomainVerification mapping.hostname mapping.verificationToken)
    recordCheck mapping verified false

def saveActive (mapping : DomainMapping) : Promise Unit := do
  let r ← (.call (Op.saveStatus mapping .active) : Promise Unit).attempt
  match r with
  | .ok _ => pure ()
  | .error err =>
    if err.isDuplicateKey then
      throwApi (.conflict "This location already has an active domain — deactivate or remove it first")
    else .raise err

def activateDomain (restaurantId mappingId : Id) : Promise Response := do
  let mapping ← findOwnedMapping restaurantId mappingId
  match mapping.status with
  | .pendingVerification => throwApi (.badRequest "This domain must pass verification before it can be activated")
  | .active => pure (.domain mapping)
  | .verified => do
    saveActive mapping
    recordAuditEvent mapping.locationId "domain.activated"
    pure (.domain { mapping with status := .active })

def deactivateDomain (restaurantId mappingId : Id) : Promise Response := do
  let mapping ← findOwnedMapping restaurantId mappingId
  if mapping.status ≠ .active then pure (.domain mapping)
  else do
    .call (Op.saveStatus mapping .verified)
    recordAuditEvent mapping.locationId "domain.deactivated"
    pure (.domain { mapping with status := .verified })

def removeDomain (restaurantId mappingId : Id) : Promise Response := do
  let mapping ← findOwnedMapping restaurantId mappingId
  .call (Op.deleteOne mapping.id)
  recordAuditEvent mapping.locationId "domain.removed"
  pure .removed

inductive Request
  | agency (request : Agencies.Request)
  | addDomain (restaurantId : Id) (hostname : Text)
  | checkDomainVerificationStatus (restaurantId mappingId : Id)
  | activateDomain (restaurantId mappingId : Id)
  | deactivateDomain (restaurantId mappingId : Id)
  | removeDomain (restaurantId mappingId : Id)
  deriving DecidableEq

def ofAgency {α : Type} (p : Agencies.Promise α) : Promise α := p.translate fun o : Agencies.Op => (.call (Op.agency o) : Promise o.Resp)

def Request.program (env : Env) : Request → Promise Response
  | agency request => do
    let response ← ofAgency (request.program env.toEnv)
    pure (.agency response)
  | addDomain restaurantId hostname => Domains.addDomain env restaurantId hostname
  | checkDomainVerificationStatus restaurantId mappingId => Domains.checkDomainVerificationStatus restaurantId mappingId
  | activateDomain restaurantId mappingId => Domains.activateDomain restaurantId mappingId
  | deactivateDomain restaurantId mappingId => Domains.deactivateDomain restaurantId mappingId
  | removeDomain restaurantId mappingId => Domains.removeDomain restaurantId mappingId

abbrev State := Config Op Op.Resp Err World Response

def State.start (env : Env) (w : World) (requests : List Request) : State := Config.initial w (requests.map (Request.program env))

end RestaurantOs.Domains
