import RestaurantOs.Async.Protocol
import RestaurantOs.Support.Tickets

/-!
# The members of an agency

A member is invited by a token that goes out by mail, accepts with it, and is
later given another role or removed. Each request works on a copy of the
membership that it has read; a save writes what it changed on the copy.
-/

namespace RestaurantOs.Memberships

export Payments (Id Time ApiError Err)
export Support (UserRole overwrite)

open Async Prog

/-- A token stands for its hash too. -/
abbrev Token := Nat

abbrev Email := String

def MEMBER_INVITE_TTL_MS : Time := 7 * 24 * 60 * 60 * 1000

inductive MemberRole
  | agencyOwner | agencyAdmin | agencyStaff
  deriving DecidableEq

inductive MembershipStatus
  | invited | active | revoked | deactivated
  deriving DecidableEq

structure AgencyMembership where
  id : Id
  agencyId : Id
  userId : Id
  role : MemberRole
  status : MembershipStatus := .invited
  businessIds : Option (List Id) := none
  invitedBy : Option Id := none
  inviteTokenHash : Option Token := none
  inviteExpiresAt : Option Time := none
  acceptedAt : Option Time := none
  deriving DecidableEq

structure User where
  id : Id
  email : Email
  role : UserRole
  inviteTokenHash : Option Token := none
  inviteExpiresAt : Option Time := none
  deriving DecidableEq

structure World where
  now : Time := 0
  agencies : List Id := []
  users : List User := []
  memberships : List AgencyMembership := []
  nextId : Id := 0
  nextToken : Token := 0
  deriving DecidableEq

def AgencyMembership.isActiveOwner (m : AgencyMembership) (agencyId : Id) : Bool :=
  m.agencyId = agencyId && m.role = .agencyOwner && m.status = .active

def AgencyMembership.saveOver (loaded saved stored : AgencyMembership) : AgencyMembership :=
  { stored with
    role := overwrite loaded.role saved.role stored.role
    status := overwrite loaded.status saved.status stored.status
    businessIds := overwrite loaded.businessIds saved.businessIds stored.businessIds
    invitedBy := overwrite loaded.invitedBy saved.invitedBy stored.invitedBy
    inviteTokenHash := overwrite loaded.inviteTokenHash saved.inviteTokenHash stored.inviteTokenHash
    inviteExpiresAt := overwrite loaded.inviteExpiresAt saved.inviteExpiresAt stored.inviteExpiresAt }

def User.saveOver (loaded saved stored : User) : User :=
  { stored with
    inviteTokenHash := overwrite loaded.inviteTokenHash saved.inviteTokenHash stored.inviteTokenHash
    inviteExpiresAt := overwrite loaded.inviteExpiresAt saved.inviteExpiresAt stored.inviteExpiresAt }

/-- `consumeToken` and `activate` are the two `findOneAndUpdate` of an
acceptance, each for a document that still has the token. -/
inductive Op
  | clock
  | generateSecureToken
  | findAgency (id : Id)
  | findUserByEmail (email : Email)
  | findUser (id : Id)
  | createUser (email : Email) (token : Token) (expiresAt : Time)
  | saveUser (loaded saved : User)
  | consumeToken (userId : Id) (token : Option Token)
  | setAgencyMember (userId : Id)
  | findMembershipOf (agencyId userId : Id)
  | findMembership (id agencyId : Id)
  | findInvited (token : Token)
  | countOwners (agencyId : Id)
  | createMembership (agencyId userId : Id) (role : MemberRole) (invitedBy : Id) (token : Token) (expiresAt : Time)
  | saveMembership (loaded saved : AgencyMembership)
  | activate (id : Id) (token : Token)
  | sendInvite (email : Email) (token : Token)
  | recordAuditEvent (agencyId : Id) (action : String)
  deriving DecidableEq

@[reducible] def Op.Resp : Op → Type
  | clock => Time
  | generateSecureToken => Token
  | findAgency _ => Bool
  | findUserByEmail _ | findUser _ | consumeToken _ _ => Option User
  | createUser _ _ _ => User
  | findMembershipOf _ _ | findMembership _ _ | findInvited _ | activate _ _ => Option AgencyMembership
  | countOwners _ => Nat
  | saveUser _ _ | setAgencyMember _ | createMembership _ _ _ _ _ _ | saveMembership _ _ | sendInvite _ _ | recordAuditEvent _ _ => Unit

namespace World

def updateUsers (w : World) (sel : User → Bool) (f : User → User) : World := { w with users := Tables.update sel f w.users }

def updateMemberships (w : World) (sel : AgencyMembership → Bool) (f : AgencyMembership → AgencyMembership) : World :=
  { w with memberships := Tables.update sel f w.memberships }

/-- `countDocuments({ agencyId, role: "agency_owner", status: "active" })` -/
def ownerCount (w : World) (agencyId : Id) : Nat := (w.memberships.filter (·.isActiveOwner agencyId)).length

end World

def AgencyMembership.accepted (now : Time) (m : AgencyMembership) : AgencyMembership :=
  { m with status := .active, acceptedAt := some now, inviteTokenHash := none, inviteExpiresAt := none }

def Op.perform : (op : Op) → World → Except Err op.Resp × World
  | clock, w => (.ok w.now, w)
  | generateSecureToken, w => (.ok w.nextToken, { w with nextToken := w.nextToken + 1 })
  | findAgency id, w => (.ok (w.agencies.contains id), w)
  | findUserByEmail email, w => (.ok (w.users.find? (·.email = email)), w)
  | findUser id, w => (.ok (w.users.find? (·.id = id)), w)
  | createUser email token expiresAt, w =>
    if w.users.any (·.email = email) then (.error .duplicateKey, w)
    else
      let user : User :=
        { id := w.nextId, email, role := .agencyMember, inviteTokenHash := some token, inviteExpiresAt := some expiresAt }
      (.ok user, { w with users := w.users ++ [user], nextId := w.nextId + 1 })
  | saveUser loaded saved, w => (.ok (), w.updateUsers (·.id = loaded.id) (loaded.saveOver saved))
  | consumeToken userId token, w =>
    (.ok (w.users.find? fun u => u.id = userId && u.inviteTokenHash = token),
      w.updateUsers (fun u => u.id = userId && u.inviteTokenHash = token) ({ · with inviteTokenHash := none, inviteExpiresAt := none }))
  | setAgencyMember userId, w => (.ok (), w.updateUsers (·.id = userId) ({ · with role := .agencyMember }))
  | findMembershipOf agencyId userId, w => (.ok (w.memberships.find? fun m => m.agencyId = agencyId && m.userId = userId), w)
  | findMembership id agencyId, w => (.ok (w.memberships.find? fun m => m.id = id && m.agencyId = agencyId), w)
  | findInvited token, w =>
    (.ok (w.memberships.find? fun m => m.inviteTokenHash = some token && m.inviteExpiresAt.any (w.now < ·)), w)
  | countOwners agencyId, w => (.ok (w.ownerCount agencyId), w)
  | createMembership agencyId userId role invitedBy token expiresAt, w =>
    if w.memberships.any fun m => m.agencyId = agencyId && m.userId = userId then (.error .duplicateKey, w)
    else
      let m : AgencyMembership :=
        { id := w.nextId, agencyId, userId, role, invitedBy := some invitedBy, inviteTokenHash := some token, inviteExpiresAt := some expiresAt }
      (.ok (), { w with memberships := w.memberships ++ [m], nextId := w.nextId + 1 })
  | saveMembership loaded saved, w => (.ok (), w.updateMemberships (·.id = loaded.id) (loaded.saveOver saved))
  | activate id token, w =>
    (.ok ((w.memberships.find? fun m => m.id = id && m.inviteTokenHash = some token).map (AgencyMembership.accepted w.now)),
      w.updateMemberships (fun m => m.id = id && m.inviteTokenHash = some token) (AgencyMembership.accepted w.now))
  | sendInvite _ _, w | recordAuditEvent _ _, w => (.ok (), w)

def advance (elapsed : Time) (w : World) : World := { w with now := w.now + elapsed }

@[reducible] def store : Store Op Op.Resp Err World Unit Time := ⟨fun o _ w => o.perform w, advance⟩

abbrev Promise (α : Type) := Prog Op Op.Resp Err α

def throwApi {α : Type} (error : ApiError) : Promise α := .raise (.api error)

/-! ## Requests -/

inductive Response
  | message (text : String)
  | accepted (userId : Id)
  | membership (membership : AgencyMembership)
  deriving DecidableEq

def orConflict {α : Type} (p : Promise α) (message : String) : Promise α := do
  let r ← p.attempt
  match r with
  | .ok a => pure a
  | .error .duplicateKey => throwApi (.conflict message)
  | .error err => .raise err

def findOrCreateUser (found : Option User) (email : Email) (token : Token) (expiresAt : Time) : Promise User :=
  match found with
  | some user => pure user
  | none => orConflict (.call (Op.createUser email token expiresAt)) "An account with this email already exists"

def alreadyMember : String := "This person is already a member of (or has a pending invite for) this agency"

def recordInvite (existing : Option AgencyMembership) (inviterId agencyId userId : Id) (role : MemberRole) (token : Token)
    (expiresAt : Time) : Promise Unit :=
  match existing with
  | some m =>
    if m.status = .invited || m.status = .active then throwApi (.conflict alreadyMember)
    else
      .call (Op.saveMembership m
        { m with role, status := .invited, invitedBy := some inviterId, inviteTokenHash := some token, inviteExpiresAt := some expiresAt })
  | none => orConflict (.call (Op.createMembership agencyId userId role inviterId token expiresAt)) alreadyMember

def announceInvite (inviterId agencyId : Id) (email : Email) (token : Token) (action : String) : Promise Unit := do
  let _ : Option User ← .call (Op.findUser inviterId)
  .call (Op.sendInvite email token)
  .call (Op.recordAuditEvent agencyId action)

def inviteMember (inviterId agencyId : Id) (email : Email) (role : MemberRole) : Promise Response := do
  let agency : Bool ← .call (Op.findAgency agencyId)
  if !agency then throwApi (.notFound "Agency not found")
  else do
    let found : Option User ← .call (Op.findUserByEmail email)
    if found.any fun user => user.role ≠ .customer && user.role ≠ .agencyMember then
      throwApi (.badRequest "This account type cannot be added as an agency member")
    else do
      let token : Token ← .call Op.generateSecureToken
      let now : Time ← .call Op.clock
      let user ← findOrCreateUser found email token (now + MEMBER_INVITE_TTL_MS)
      let existing : Option AgencyMembership ← .call (Op.findMembershipOf agencyId user.id)
      recordInvite existing inviterId agencyId user.id role token (now + MEMBER_INVITE_TTL_MS)
      announceInvite inviterId agencyId email token "agency.member_invited"
      pure (.message s!"Invitation sent to {email}.")

def findMembershipOrThrow (id agencyId : Id) : Promise AgencyMembership := do
  let m : Option AgencyMembership ← .call (Op.findMembership id agencyId)
  match m with
  | none => throwApi (.notFound "Membership not found")
  | some m => pure m

/-- The account's own token follows the membership's while it was never used. -/
def renewUserToken (user : User) (token : Token) (expiresAt : Time) : Promise Unit :=
  if user.inviteTokenHash.isSome then
    .call (Op.saveUser user { user with inviteTokenHash := some token, inviteExpiresAt := some expiresAt })
  else pure ()

def resendMemberInvite (inviterId agencyId membershipId : Id) : Promise Response := do
  let m ← findMembershipOrThrow membershipId agencyId
  if m.status ≠ .invited then
    throwApi (.badRequest "This invitation has already been accepted (or is no longer pending).")
  else do
    let user : Option User ← .call (Op.findUser m.userId)
    match user with
    | none => throwApi (.notFound "This member's account no longer exists")
    | some user => do
      let token : Token ← .call Op.generateSecureToken
      let now : Time ← .call Op.clock
      .call (Op.saveMembership m { m with inviteTokenHash := some token, inviteExpiresAt := some (now + MEMBER_INVITE_TTL_MS) })
      renewUserToken user token (now + MEMBER_INVITE_TTL_MS)
      let _ : Bool ← .call (Op.findAgency agencyId)
      announceInvite inviterId agencyId user.email token "agency.member_invite_resent"
      pure (.message s!"Invitation resent to {user.email}.")

def invalidLink {α : Type} : Promise α := throwApi (.badRequest "This invitation link is invalid or has expired")

/-- A new account sets its password and uses up its own token first. -/
def acceptForUser (user : User) (password : Option String) : Promise Unit :=
  if user.inviteTokenHash.isSome then
    if password.isNone then throwApi (.badRequest "A password is required to accept this invitation")
    else do
      let updatedUser : Option User ← .call (Op.consumeToken user.id user.inviteTokenHash)
      if updatedUser.isNone then invalidLink else pure ()
  else pure ()

def acceptAgencyInvite (token : Token) (password : Option String) : Promise Response := do
  let m : Option AgencyMembership ← .call (Op.findInvited token)
  match m with
  | none => invalidLink
  | some m => do
    let user : Option User ← .call (Op.findUser m.userId)
    match user with
    | none => invalidLink
    | some user => do
      acceptForUser user password
      let updatedMembership : Option AgencyMembership ← .call (Op.activate m.id token)
      if updatedMembership.isNone then invalidLink
      else do
        if user.role = .customer then .call (Op.setAgencyMember user.id) else pure ()
        .call (Op.recordAuditEvent m.agencyId "agency.member_accepted")
        pure (.accepted user.id)

structure MembershipUpdates where
  role : Option MemberRole := none
  status : Option { status : MembershipStatus // status ≠ .invited } := none
  businessIds : Option (List Id) := none
  deriving DecidableEq

def MembershipUpdates.revoke : MembershipUpdates := { status := some ⟨.revoked, nofun⟩ }

def MembershipUpdates.apply (updates : MembershipUpdates) (m : AgencyMembership) : AgencyMembership :=
  { m with
    role := updates.role.getD m.role
    status := (updates.status.map Subtype.val).getD m.status
    businessIds := updates.businessIds.or m.businessIds }

def demotingOrRemovingAnOwner (m : AgencyMembership) (updates : MembershipUpdates) : Bool :=
  m.role = .agencyOwner && (updates.role.any (· ≠ .agencyOwner) || updates.status.any (·.val ≠ .active))

def keepAnOwner (m : AgencyMembership) (updates : MembershipUpdates) (agencyId : Id) : Promise Unit :=
  if demotingOrRemovingAnOwner m updates then do
    let ownerCount : Nat ← .call (Op.countOwners agencyId)
    if ownerCount ≤ 1 then throwApi (.badRequest "An agency must always have at least one active owner") else pure ()
  else pure ()

def updateMember (agencyId membershipId : Id) (updates : MembershipUpdates) : Promise Response := do
  let m ← findMembershipOrThrow membershipId agencyId
  keepAnOwner m updates agencyId
  .call (Op.saveMembership m (updates.apply m))
  let action := if updates.status.any (·.val = .revoked) then "agency.member_removed" else "agency.member_role_changed"
  .call (Op.recordAuditEvent agencyId action)
  pure (.membership (updates.apply m))

inductive Request
  | inviteMember (inviterId agencyId : Id) (email : Email) (role : MemberRole)
  | resendMemberInvite (inviterId agencyId membershipId : Id)
  | acceptAgencyInvite (token : Token) (password : Option String)
  | updateMember (agencyId membershipId : Id) (updates : MembershipUpdates)
  deriving DecidableEq

def Request.program : Request → Promise Response
  | inviteMember inviterId agencyId email role => Memberships.inviteMember inviterId agencyId email role
  | resendMemberInvite inviterId agencyId membershipId => Memberships.resendMemberInvite inviterId agencyId membershipId
  | acceptAgencyInvite token password => Memberships.acceptAgencyInvite token password
  | updateMember agencyId membershipId updates => Memberships.updateMember agencyId membershipId updates

abbrev State := Config Op Op.Resp Err World Response

def State.start (w : World) (requests : List Request) : State := Config.initial w (requests.map Request.program)

end RestaurantOs.Memberships
