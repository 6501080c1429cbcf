import RestaurantOs.Async.Protocol
import RestaurantOs.Payments.Types

/-!
# The domain of an agency

An agency records a domain, proves it by a token that it publishes in the DNS,
and asks for an email sender on it. A save writes the fields that its request
changed over whatever is stored by then.
-/

namespace RestaurantOs.Agencies

export Payments (Id ApiError Err)

open Async Prog

abbrev Text := List Char

abbrev Token := Nat

inductive DomainStatus
  | pendingVerification | verified
  deriving DecidableEq

inductive EmailSenderStatus
  | pendingDomain | pendingAuthorization | verified | failed
  deriving DecidableEq

structure EmailSender where
  address : Text
  status : EmailSenderStatus
  deriving DecidableEq

structure Agency where
  id : Id
  domain : Option Text := none
  domainStatus : Option DomainStatus := none
  domainVerificationToken : Option Token := none
  emailSender : Option EmailSender := none
  deriving DecidableEq

/-- `records` are the verification tokens that the DNS holds for a hostname,
`nextToken` is the next one to be generated. -/
structure World where
  agencies : List Agency := []
  records : List (Text × Token) := []
  nextToken : Token := 0

/-- `address.split("@")[1]` -/
def addressDomain (address : Text) : Option Text := (address.splitOn '@')[1]?

/-- The setter of the schema's `domain`; a domain has no white space. -/
def lowercase (domain : Text) : Text := domain.map Char.toLower

namespace Agency

def movesSender (agency : Agency) : Bool :=
  agency.emailSender.any fun sender => sender.status = .pendingDomain && addressDomain sender.address = agency.domain

def withVerified (movesSender : Bool) (agency : Agency) : Agency :=
  { agency with
    domainStatus := some .verified
    emailSender := if movesSender then agency.emailSender.map ({ · with status := .pendingAuthorization }) else agency.emailSender }

def withDomain (domain : Text) (token : Token) (senderReset : Bool) (agency : Agency) : Agency :=
  { agency with
    domain := some (lowercase domain)
    domainStatus := some .pendingVerification
    domainVerificationToken := some token
    emailSender := if senderReset then agency.emailSender.map ({ · with status := .pendingDomain }) else agency.emailSender }

end Agency

/-- `saveVerified` and `saveSender` are `agency.save()` on the agency as it was
loaded, `update` is the `findByIdAndUpdate` of a domain with a new token. -/
inductive Op
  | findById (id : Id)
  | existsVerified (otherThan : Id) (domain : Text)
  | checkDomainVerification (hostname : Text) (expectedToken : Token)
  | update (id : Id) (domain : Text) (senderReset : Bool)
  | saveVerified (loaded : Agency)
  | saveSender (loaded : Agency) (sender : EmailSender)
  | recordAuditEvent (agencyId : Id) (action : String)
  deriving DecidableEq

@[reducible] def Op.Resp : Op → Type
  | findById _ | update _ _ _ => Option Agency
  | existsVerified _ _ | checkDomainVerification _ _ => Bool
  | saveVerified _ | saveSender _ _ | recordAuditEvent _ _ => Unit

namespace World

def agency? (w : World) (id : Id) : Option Agency := w.agencies.find? (·.id = id)

/-- `Agency.exists({ _id: { $ne: id }, domain, domainStatus: "verified" })` -/
def verifiedElsewhere (w : World) (id : Id) (domain : Text) : Bool :=
  w.agencies.any fun other => other.id ≠ id && other.domain = some domain && other.domainStatus = some .verified

def updateAgency (w : World) (id : Id) (f : Agency → Agency) : World := { w with agencies := Tables.update (·.id = id) f w.agencies }

end World

def Op.perform : (op : Op) → World → Except Err op.Resp × World
  | findById id, w => (.ok (w.agency? id), w)
  | existsVerified otherThan domain, w => (.ok (w.verifiedElsewhere otherThan (lowercase domain)), w)
  | checkDomainVerification hostname expectedToken, w => (.ok (w.records.contains (hostname, expectedToken)), w)
  | update id domain senderReset, w =>
    (.ok ((w.agency? id).map (Agency.withDomain domain w.nextToken senderReset)),
      { w.updateAgency id (Agency.withDomain domain w.nextToken senderReset) with nextToken := w.nextToken + 1 })
  | saveVerified loaded, w => (.ok (), w.updateAgency loaded.id (Agency.withVerified loaded.movesSender))
  | saveSender loaded sender, w => (.ok (), w.updateAgency loaded.id ({ · with emailSender := some sender }))
  | recordAuditEvent _ _, w => (.ok (), w)

inductive Event
  | publish (hostname : Text) (token : Token)
  | unpublish (hostname : Text) (token : Token)
  deriving DecidableEq

def Event.advance : Event → World → World
  | publish hostname token, w => { w with records := (hostname, token) :: w.records }
  | unpublish hostname token, w => { w with records := w.records.filter (· ≠ (hostname, token)) }

@[reducible] def store : Store Op Op.Resp Err World (Except Err Unit) Event :=
  Store.faulty ⟨fun o _ w => o.perform w, Event.advance⟩ id

abbrev Promise (α : Type) := Prog Op Op.Resp Err α

def throwApi {α : Type} (error : ApiError) : Promise α := .raise (.api error)

/-! ## Requests -/

inductive Response
  | agency (agency : Agency)
  | domainSet (agency : Agency) (verificationRecordHost : Text)
  | verification (verified : Bool) (agency : Agency)
  deriving DecidableEq

structure Env where
  platformHostnames : List Text := []

def isSelfClaim (hostname : Text) (platformHostnames : List Text) : Bool :=
  platformHostnames.any fun p => hostname = p || ('.' :: p).isSuffixOf hostname

def verificationRecordHost (hostname : Text) : Text := "_garnishtable-verify.".toList ++ hostname

def recordAgencyAuditEvent (agencyId : Id) (action : String) : Promise Unit := do
  let _ ← (.call (Op.recordAuditEvent agencyId action) : Promise Unit).attempt
  pure ()

def findAgencyOrThrow (agencyId : Id) : Promise Agency := do
  let agency : Option Agency ← .call (Op.findById agencyId)
  match agency with
  | none => throwApi (.notFound "Agency not found")
  | some agency => pure agency

def refuseVerifiedElsewhere (agencyId : Id) (domain : Text) : Promise Unit := do
  let taken : Bool ← .call (Op.existsVerified agencyId domain)
  if taken then throwApi (.conflict "This domain is already verified by another agency") else pure ()

def setAgencyDomain (env : Env) (agencyId : Id) (domain : Text) : Promise Response := do
  if isSelfClaim domain env.platformHostnames then
    throwApi (.badRequest "This platform's own domain can't be claimed as a white-label domain")
  else
    refuseVerifiedElsewhere agencyId domain
    let existing ← findAgencyOrThrow agencyId
    let senderReset := existing.emailSender.isSome && existing.domain ≠ some domain
    let agency : Option Agency ← .call (Op.update agencyId domain senderReset)
    match agency with
    | none => throwApi (.notFound "Agency not found")
    | some agency => do
      recordAgencyAuditEvent agencyId "agency.domain_set"
      pure (.domainSet agency (verificationRecordHost domain))

def recordVerification (agency : Agency) (verified : Bool) : Promise Response :=
  if verified && agency.domainStatus ≠ some .verified then do
    .call (Op.saveVerified agency)
    recordAgencyAuditEvent agency.id "agency.domain_verified"
    pure (.verification verified (agency.withVerified agency.movesSender))
  else pure (.verification verified agency)

def verifyAgencyDomain (agencyId : Id) : Promise Response := do
  let agency ← findAgencyOrThrow agencyId
  match agency.domain.filter (· ≠ []), agency.domainVerificationToken with
  | some domain, some token => do
    refuseVerifiedElsewhere agency.id domain
    let verified : Bool ← .call (Op.checkDomainVerification domain token)
    recordVerification agency verified
  | _, _ => throwApi (.badRequest "No domain has been configured for this agency yet")

def setAgencyEmailSender (agencyId : Id) (address : Text) : Promise Response := do
  let agency ← findAgencyOrThrow agencyId
  match agency.domain.filter (· ≠ []) with
  | none => throwApi (.badRequest "Add your agency domain first — the sender address must be on it")
  | some domain =>
    if addressDomain address ≠ some domain then
      throwApi (.badRequest s!"The sender address must be on your agency domain ({String.ofList domain})")
    else if agency.emailSender.any fun sender => sender.address = address && sender.status ≠ .failed then
      pure (.agency agency)
    else do
      let sender : EmailSender :=
        { address := address
          status := if agency.domainStatus = some .verified then .pendingAuthorization else .pendingDomain }
      .call (Op.saveSender agency sender)
      recordAgencyAuditEvent agencyId "agency.email_sender_requested"
      pure (.agency { agency with emailSender := some sender })

inductive Request
  | setAgencyDomain (agencyId : Id) (domain : Text)
  | verifyAgencyDomain (agencyId : Id)
  | setAgencyEmailSender (agencyId : Id) (address : Text)
  deriving DecidableEq

def Request.program (env : Env) : Request → Promise Response
  | setAgencyDomain agencyId domain => Agencies.setAgencyDomain env agencyId domain
  | verifyAgencyDomain agencyId => Agencies.verifyAgencyDomain agencyId
  | setAgencyEmailSender agencyId address => Agencies.setAgencyEmailSender agencyId address

abbrev State := Config Op Op.Resp Err World Response

def State.start (env : Env) (w : World) (requests : List Request) : State := Config.initial w (requests.map (Request.program env))

end RestaurantOs.Agencies
