import RestaurantOs.Async.Translate
import RestaurantOs.Memberships.Requests
import RestaurantOs.Sessions.Requests

/-!
# Requests for an account

Signing in, accepting an invitation, changing the password, editing the profile and
deleting the account all work on one document. Those that are behind `requireAuth`
are let in by an access token, which stays valid until it expires.
-/

namespace RestaurantOs.ClosedAccounts

export Payments (Id Time ApiError Err)
export Support (UserRole overwrite)

open Async Prog
open Memberships (AgencyMembership Token)
open Sessions (Env RefreshToken unauthorized)

/-- The document of `User`: the sessions read the part that it extends. -/
structure Account extends Sessions.User where
  name : String
  phone : Option String := none
  role : UserRole := .customer
  addresses : List String := []
  emailVerifiedAt : Option Time := none
  inviteTokenHash : Option Token := none
  inviteExpiresAt : Option Time := none
  mustChangePassword : Bool := false
  pendingEmail : Option String := none
  emailChangeTokenHash : Option String := none
  emailChangeExpiresAt : Option Time := none
  deletedAt : Option Time := none
  deriving DecidableEq

structure AccessToken where
  userId : Id
  expiresAt : Time
  deriving DecidableEq

structure World where
  now : Time := 0
  accessTokenTtl : Time := 15 * 60 * 1000
  accounts : List Account := []
  memberships : List AgencyMembership := []
  issued : List Sessions.Issued := []
  active : List RefreshToken := []
  nextJti : Sessions.Jti := 0
  accessTokens : List AccessToken := []

/-! ## The parts of the document -/

namespace Account

def asMember (account : Account) : Memberships.User where
  id := account.id
  email := account.email
  role := account.role
  inviteTokenHash := account.inviteTokenHash
  inviteExpiresAt := account.inviteExpiresAt

def withUser (account : Account) (user : Sessions.User) : Account := { account with toUser := user }

def withMember (account : Account) (member : Memberships.User) : Account :=
  { account with
    role := member.role
    inviteTokenHash := member.inviteTokenHash
    inviteExpiresAt := member.inviteExpiresAt }

end Account

namespace World

def sessions (w : World) : Sessions.World where
  now := w.now
  users := w.accounts.map Account.toUser
  issued := w.issued
  active := w.active
  nextJti := w.nextJti

def withSessions (w : World) (s : Sessions.World) : World :=
  { w with
    accounts := w.accounts.zipWith Account.withUser s.users
    issued := s.issued
    active := s.active
    nextJti := s.nextJti }

def members (w : World) : Memberships.World where
  now := w.now
  users := w.accounts.map Account.asMember
  memberships := w.memberships

def withMembers (w : World) (m : Memberships.World) : World :=
  { w with
    accounts := w.accounts.zipWith Account.withMember m.users
    memberships := m.memberships }

def updateAccounts (w : World) (sel : Account → Bool) (f : Account → Account) : World :=
  { w with accounts := Tables.update sel f w.accounts }

def invited (w : World) (token : Token) (account : Account) : Bool :=
  account.inviteTokenHash = some token && account.inviteExpiresAt.any (w.now < ·)

end World

/-! ## Operations -/

structure ProfileUpdates where
  name : Option String := none
  phone : Option String := none
  deriving DecidableEq

namespace Account

def withProfile (account : Account) (updates : ProfileUpdates) : Account :=
  { account with name := updates.name.getD account.name, phone := updates.phone.or account.phone }

def accepted (now : Time) (passwordHash : String) (account : Account) : Account :=
  { account with passwordHash, emailVerifiedAt := some now, inviteTokenHash := none, inviteExpiresAt := none }

def deletedName : String := "Deleted user"

def deletedEmail (id : Id) : String := s!"deleted-{id}@deleted.invalid"

/-- What `deleteMe` makes of its copy. -/
def scrubbed (now : Time) (passwordHash : String) (account : Account) : Account :=
  { account with
    name := deletedName
    email := deletedEmail account.id
    passwordHash
    phone := none
    addresses := []
    isActive := false
    deletedAt := some now
    pendingEmail := none
    emailChangeTokenHash := none
    emailChangeExpiresAt := none
    passwordResetTokenHash := none
    passwordResetExpiresAt := none }

def saveOver (loaded saved stored : Account) : Account :=
  { stored with
    name := overwrite loaded.name saved.name stored.name
    email := overwrite loaded.email saved.email stored.email
    passwordHash := overwrite loaded.passwordHash saved.passwordHash stored.passwordHash
    phone := overwrite loaded.phone saved.phone stored.phone
    addresses := overwrite loaded.addresses saved.addresses stored.addresses
    isActive := overwrite loaded.isActive saved.isActive stored.isActive
    deletedAt := saved.deletedAt
    pendingEmail := overwrite loaded.pendingEmail saved.pendingEmail stored.pendingEmail
    emailChangeTokenHash := overwrite loaded.emailChangeTokenHash saved.emailChangeTokenHash stored.emailChangeTokenHash
    emailChangeExpiresAt := overwrite loaded.emailChangeExpiresAt saved.emailChangeExpiresAt stored.emailChangeExpiresAt
    passwordResetTokenHash :=
      overwrite loaded.passwordResetTokenHash saved.passwordResetTokenHash stored.passwordResetTokenHash
    passwordResetExpiresAt :=
      overwrite loaded.passwordResetExpiresAt saved.passwordResetExpiresAt stored.passwordResetExpiresAt }

end Account

/-- `verifyAccess` is `verifyAccessToken`. `freshUser` is the account that
`acceptAgencyInvite` reads again before it signs in. `setPassword` is what the
acceptance of a new account writes besides its token. -/
inductive Op
  | session (o : Sessions.Op)
  | member (o : Memberships.Op)
  | setPassword (userId : Id) (token : Option Token) (passwordHash : String)
  | verifyAccess (token : AccessToken)
  | loadUser (id : Id)
  | freshUser (id : Id)
  | acceptInvite (token : Token) (passwordHash : String)
  | updateProfile (userId : Id) (updates : ProfileUpdates)
  | saveDeleted (loaded : Account) (passwordHash : String)
  deriving DecidableEq

@[reducible] def Op.Resp : Op → Type
  | session o => o.Resp
  | member o => o.Resp
  | setPassword _ _ _ => Option Memberships.User
  | loadUser _ | freshUser _ | acceptInvite _ _ | updateProfile _ _ => Option Account
  | verifyAccess _ | saveDeleted _ _ => Unit

def World.besides (w : World) : Sessions.Op → World
  | .set userId _ => { w with accessTokens := { userId, expiresAt := w.now + w.accessTokenTtl } :: w.accessTokens }
  | .savePassword userId _ => w.updateAccounts (·.id = userId) ({ · with mustChangePassword := false })
  | _ => w

def Op.perform : (op : Op) → World → Except Err op.Resp × World
  | session o, w =>
    let (r, s) := o.perform w.sessions
    (r, (w.withSessions s).besides o)
  | member o, w =>
    let (r, m) := o.perform w.members
    (r, w.withMembers m)
  | setPassword userId token passwordHash, w =>
    let (r, m) := (Memberships.Op.consumeToken userId token).perform w.members
    (r, (w.updateAccounts (fun account => account.id = userId && account.inviteTokenHash = token) ({ · with passwordHash })).withMembers m)
  | verifyAccess token, w =>
    (if w.accessTokens.contains token && w.now < token.expiresAt then .ok () else .error (.other "invalid token"), w)
  | loadUser id, w | freshUser id, w => (.ok (w.accounts.find? (·.id = id)), w)
  | acceptInvite token passwordHash, w =>
    match w.accounts.find? (w.invited token) with
    | none => (.ok none, w)
    | some account =>
      (.ok (some (account.accepted w.now passwordHash)), w.updateAccounts (·.id = account.id) (Account.accepted w.now passwordHash))
  | updateProfile userId updates, w =>
    (.ok ((w.accounts.find? (·.id = userId)).map (·.withProfile updates)),
      w.updateAccounts (·.id = userId) (·.withProfile updates))
  | saveDeleted loaded passwordHash, w =>
    if !w.accounts.any (·.id = loaded.id) then (.error (.other "DocumentNotFoundError"), w)
    -- the unique index on the email
    else if (w.accounts.any fun account => account.id ≠ loaded.id && account.email = Account.deletedEmail loaded.id) then
      (.error .duplicateKey, w)
    else
      (.ok (), w.updateAccounts (·.id = loaded.id) (loaded.saveOver (loaded.scrubbed w.now passwordHash)))

/-- Time passes, a key expires, staff or a platform admin sets whether an account is
active, tokens are sent out, or an account is made. -/
inductive Event
  | tick (elapsed : Time)
  | expire (token : RefreshToken)
  | setStatus (userId : Id) (isActive : Bool)
  | sendReset (userId : Id) (tokenHash : String) (expiresAt : Time)
  | sendInvite (userId : Id) (token : Token) (expiresAt : Time)
  | inviteMember (membership : AgencyMembership)
  | register (account : Account)

def Event.advance : Event → World → World
  | tick elapsed, w => { w with now := w.now + elapsed }
  | expire token, w => { w with active := w.active.filter (· ≠ token) }
  | setStatus userId isActive, w => w.updateAccounts (·.id = userId) fun account => { account with isActive }
  | sendReset userId tokenHash expiresAt, w =>
    w.updateAccounts (·.id = userId) fun account =>
      { account with passwordResetTokenHash := some tokenHash, passwordResetExpiresAt := some expiresAt }
  | sendInvite userId token expiresAt, w =>
    w.updateAccounts (·.id = userId) ({ · with inviteTokenHash := some token, inviteExpiresAt := some expiresAt })
  | inviteMember membership, w =>
    { w with memberships := w.memberships.filter (·.id ≠ membership.id) ++ [membership] }
  | register account, w =>
    if w.accounts.any (·.id = account.id) then w else { w with accounts := w.accounts ++ [account] }

@[reducible] def store : Store Op Op.Resp Err World (Except Err Unit) Event :=
  Store.faulty ⟨fun o _ w => o.perform w, Event.advance⟩ id

abbrev Promise (α : Type) := Prog Op Op.Resp Err α

def throwApi {α : Type} (error : ApiError) : Promise α := .raise (.api error)

def session {α : Type} (p : Sessions.Promise α) : Promise α := p.translate fun o => .call (Op.session o)

/-! ## Requests -/

/-- `requireAuth`; the routes below may all be used before a temporary password is changed. -/
def requireAuth (token : AccessToken) : Promise Id := do
  let verified ← (.call (Op.verifyAccess token) : Promise Unit).attempt
  match verified with
  | .error _ => throwApi (unauthorized "Invalid or expired access token")
  | .ok _ => pure token.userId

def login (env : Env) (email password : String) : Promise Unit := session (Sessions.login env email password)

def refresh (token : RefreshToken) : Promise Unit := session (Sessions.refresh token)

def resetPassword (env : Env) (token password : String) : Promise Unit := session (Sessions.resetPassword env token password)

def changePassword (env : Env) (token : AccessToken) (currentPassword newPassword : String) : Promise Unit := do
  let userId ← requireAuth token
  session (Sessions.changePassword env userId currentPassword newPassword)

def acceptInvite (env : Env) (token : Token) (password : String) : Promise Unit := do
  let user : Option Account ← .call (Op.acceptInvite token (env.hash password))
  match user with
  | none => throwApi (.badRequest "This invitation link is invalid or has expired")
  | some user => session (Sessions.respondWithSession user.toUser none)

def acceptanceOp (passwordHash : String) : (o : Memberships.Op) → Promise o.Resp
  | .consumeToken userId token => .call (Op.setPassword userId token passwordHash)
  | .recordAuditEvent agencyId action => do
    let _ ← (.call (Op.member (.recordAuditEvent agencyId action)) : Promise Unit).attempt
    pure ()
  | o => .call (Op.member o)

def acceptAgencyInvite (env : Env) (token : Token) (password : Option String) : Promise Unit := do
  let response ← (Memberships.acceptAgencyInvite token password).translate (acceptanceOp (env.hash (password.getD "")))
  match response with
  | .accepted userId => do
    let freshUser : Option Account ← .call (Op.freshUser userId)
    match freshUser with
    | none => .raise (.other "TypeError")
    | some user => session (Sessions.respondWithSession user.toUser none)
  | _ => pure ()

def updateMe (token : AccessToken) (updates : ProfileUpdates) : Promise Unit := do
  let userId ← requireAuth token
  let user : Option Account ← .call (Op.updateProfile userId updates)
  match user with
  | none => throwApi (unauthorized "User no longer exists")
  | some user => do
    session (.call (Sessions.Op.agencyMemberships user.id))
    session (.call Sessions.Op.sendSuccess)

def notSelfDeletable : String :=
  "Restaurant staff and owner accounts can't be self-deleted here — contact platform support to transfer ownership or remove your staff access first."

/-- `secret` is the password that is generated for the deleted account. -/
def deleteMe (env : Env) (token : AccessToken) (currentPassword secret : String) : Promise Unit := do
  let userId ← requireAuth token
  let user : Option Account ← .call (Op.loadUser userId)
  match user with
  | none => throwApi (unauthorized "User no longer exists")
  | some user =>
    if user.role ≠ .customer then throwApi (.badRequest notSelfDeletable)
    else if !env.compare currentPassword user.passwordHash then throwApi (.badRequest "Current password is incorrect")
    else do
      .call (Op.saveDeleted user (env.hash secret))
      session (Sessions.revokeAllRefreshTokens user.id)
      session (.call Sessions.Op.sendSuccess)

inductive Request
  | login (email password : String)
  | refresh (token : RefreshToken)
  | acceptInvite (token : Token) (password : String)
  | acceptAgencyInvite (token : Token) (password : Option String)
  | resetPassword (token password : String)
  | changePassword (token : AccessToken) (currentPassword newPassword : String)
  | updateMe (token : AccessToken) (updates : ProfileUpdates)
  | deleteMe (token : AccessToken) (currentPassword secret : String)
  deriving DecidableEq

def Request.program (env : Env) : Request → Promise Unit
  | login email password => ClosedAccounts.login env email password
  | refresh token => ClosedAccounts.refresh token
  | acceptInvite token password => ClosedAccounts.acceptInvite env token password
  | acceptAgencyInvite token password => ClosedAccounts.acceptAgencyInvite env token password
  | resetPassword token password => ClosedAccounts.resetPassword env token password
  | changePassword token currentPassword newPassword => ClosedAccounts.changePassword env token currentPassword newPassword
  | updateMe token updates => ClosedAccounts.updateMe token updates
  | deleteMe token currentPassword secret => ClosedAccounts.deleteMe env token currentPassword secret

abbrev State := Config Op Op.Resp Err World Unit

def State.start (env : Env) (w : World) (requests : List Request) : State := Config.initial w (requests.map (Request.program env))

end RestaurantOs.ClosedAccounts
