import RestaurantOs.Async.Protocol
import RestaurantOs.Payments.Types

/-!
# Sessions

A session is a refresh token whose key is in the store. Refreshing exchanges the
token for a new one; a reset or a change of the password lists the keys of the
user and deletes them.
-/

namespace RestaurantOs.Sessions

export Payments (Id Time ApiError Err)

open Async Prog

abbrev Jti := Nat

structure RefreshToken where
  userId : Id
  jti : Jti
  deriving DecidableEq

structure Issued where
  token : RefreshToken
  parent : Option Jti := none
  deriving DecidableEq

structure User where
  id : Id
  email : String
  passwordHash : String
  isActive : Bool := true
  passwordResetTokenHash : Option String := none
  passwordResetExpiresAt : Option Time := none
  deriving DecidableEq

/-- `issued` has the newest token first, `active` are the keys of the store. -/
structure World where
  now : Time := 0
  users : List User := []
  issued : List Issued := []
  active : List RefreshToken := []
  nextJti : Jti := 0

def ancestors : List Issued → Jti → List Jti
  | [], _ => []
  | newest :: older, jti =>
    if newest.token.jti = jti then jti :: newest.parent.elim [] (ancestors older) else ancestors older jti

/-- `verify` is `verifyRefreshToken`: only a token that was issued passes. `set`
signs a token under a new `jti` and sets its key; `parent` is the token that it is
exchanged for. `keys` and `delAll` are the two commands of
`revokeAllRefreshTokens`. -/
inductive Op
  | findUserByEmail (email : String)
  | findUserById (id : Id)
  | resetUser (tokenHash passwordHash : String)
  | savePassword (userId : Id) (passwordHash : String)
  | agencyMemberships (userId : Id)
  | verify (token : RefreshToken)
  | get (token : RefreshToken)
  | set (userId : Id) (parent : Option Jti)
  | del (token : RefreshToken)
  | keys (userId : Id)
  | delAll (tokens : List RefreshToken)
  | sendSuccess
  deriving DecidableEq

@[reducible] def Op.Resp : Op → Type
  | findUserByEmail _ | findUserById _ | resetUser _ _ => Option User
  | get _ => Bool
  | set _ _ => RefreshToken
  | keys _ => List RefreshToken
  | savePassword _ _ | agencyMemberships _ | verify _ | del _ | delAll _ | sendSuccess => Unit

def World.resettable (w : World) (tokenHash : String) (user : User) : Bool :=
  user.passwordResetTokenHash = some tokenHash && user.passwordResetExpiresAt.any (w.now < ·)

def World.updateUser (w : World) (sel : User → Bool) (f : User → User) : Option User × World :=
  match w.users.find? sel with
  | none => (none, w)
  | some user => (some (f user), { w with users := Tables.update (·.id = user.id) f w.users })

def Op.perform : (op : Op) → World → Except Err op.Resp × World
  | findUserByEmail email, w => (.ok (w.users.find? (·.email = email)), w)
  | findUserById id, w => (.ok (w.users.find? (·.id = id)), w)
  | resetUser tokenHash passwordHash, w =>
    let (user, w') := w.updateUser (w.resettable tokenHash) fun user =>
      { user with passwordHash, passwordResetTokenHash := none, passwordResetExpiresAt := none }
    (.ok user, w')
  | savePassword userId passwordHash, w => (.ok (), (w.updateUser (·.id = userId) ({ · with passwordHash })).2)
  | agencyMemberships _, w => (.ok (), w)
  | verify token, w => (if w.issued.any (·.token = token) then .ok () else .error (.other "invalid signature"), w)
  | get token, w => (.ok (w.active.contains token), w)
  | set userId parent, w =>
    let token : RefreshToken := { userId, jti := w.nextJti }
    (.ok token, { w with
      issued := { token, parent } :: w.issued
      active := token :: w.active
      nextJti := w.nextJti + 1 })
  | del token, w => (.ok (), { w with active := w.active.filter (· ≠ token) })
  | keys userId, w => (.ok (w.active.filter (·.userId = userId)), w)
  | delAll tokens, w => (.ok (), { w with active := w.active.filter fun token => !tokens.contains token })
  | sendSuccess, w => (.ok (), w)

inductive Event
  | tick (elapsed : Time)
  | expire (token : RefreshToken)
  | edit (users : List User)

def Event.advance : Event → World → World
  | tick elapsed, w => { w with now := w.now + elapsed }
  | expire token, w => { w with active := w.active.filter (· ≠ token) }
  | edit users, w => { w with users }

@[reducible] def store : Store Op Op.Resp Err World (Except Err Unit) Event :=
  Store.faulty ⟨fun o _ w => o.perform w, Event.advance⟩ id

abbrev Promise (α : Type) := Prog Op Op.Resp Err α

def throwApi {α : Type} (error : ApiError) : Promise α := .raise (.api error)

def unauthorized (message : String) : ApiError := ⟨401, "UNAUTHORIZED", message⟩

def forbidden (message : String) : ApiError := ⟨403, "FORBIDDEN", message⟩

/-! ## Tokens -/

def verifyRefreshToken (token : RefreshToken) : Promise Unit := .call (Op.verify token)

def issueRefreshToken (userId : Id) (parent : Option Jti) : Promise RefreshToken := .call (Op.set userId parent)

def isRefreshTokenActive (token : RefreshToken) : Promise Bool := .call (Op.get token)

def revokeRefreshToken (token : RefreshToken) : Promise Unit := .call (Op.del token)

def revokeAllRefreshTokens (userId : Id) : Promise Unit := do
  let keys : List RefreshToken ← .call (Op.keys userId)
  .onlyIf (keys.length > 0) (.call (Op.delAll keys))

/-! ## Requests -/

structure Env where
  hash : String → String := id
  compare : String → String → Bool := fun password passwordHash => password = passwordHash
  hashToken : String → String := id

def respondWithSession (user : User) (parent : Option Jti) : Promise Unit := do
  .call (Op.agencyMemberships user.id)
  let _ ← issueRefreshToken user.id parent
  .call Op.sendSuccess

def login (env : Env) (email password : String) : Promise Unit := do
  let user : Option User ← .call (Op.findUserByEmail email)
  match user with
  | none => throwApi (unauthorized "Invalid email or password")
  | some user =>
    if !env.compare password user.passwordHash then throwApi (unauthorized "Invalid email or password")
    else if !user.isActive then throwApi (forbidden "This account has been deactivated")
    else respondWithSession user none

def exchange (token : RefreshToken) : Promise Unit := do
  let user : Option User ← .call (Op.findUserById token.userId)
  match user with
  | none => throwApi (unauthorized "User no longer exists")
  | some user =>
    if !user.isActive then throwApi (forbidden "This account has been deactivated")
    else do
      revokeRefreshToken token
      respondWithSession user (some token.jti)

def refresh (token : RefreshToken) : Promise Unit := do
  let verified ← (verifyRefreshToken token).attempt
  match verified with
  | .error _ => throwApi (unauthorized "Invalid or expired refresh token")
  | .ok _ => do
    let active ← isRefreshTokenActive token
    if !active then do
      revokeAllRefreshTokens token.userId
      throwApi (unauthorized "Refresh token has been revoked")
    else exchange token

/-- Whatever is thrown, the cookie is cleared and the request is answered. -/
def logout (token : RefreshToken) : Promise Unit := do
  let _ ← Prog.attempt (do verifyRefreshToken token; revokeRefreshToken token)
  .call Op.sendSuccess

def resetPassword (env : Env) (token password : String) : Promise Unit := do
  let user : Option User ← .call (Op.resetUser (env.hashToken token) (env.hash password))
  match user with
  | none => throwApi (.badRequest "This reset link is invalid or has expired")
  | some user => do
    revokeAllRefreshTokens user.id
    .call Op.sendSuccess

def changePassword (env : Env) (userId : Id) (currentPassword newPassword : String) : Promise Unit := do
  let user : Option User ← .call (Op.findUserById userId)
  match user with
  | none => throwApi (unauthorized "User no longer exists")
  | some user =>
    if !env.compare currentPassword user.passwordHash then throwApi (.badRequest "Current password is incorrect")
    else do
      .call (Op.savePassword user.id (env.hash newPassword))
      revokeAllRefreshTokens user.id
      respondWithSession user none

inductive Request
  | login (email password : String)
  | refresh (token : RefreshToken)
  | logout (token : RefreshToken)
  | resetPassword (token password : String)
  | changePassword (userId : Id) (currentPassword newPassword : String)
  deriving DecidableEq

def Request.program (env : Env) : Request → Promise Unit
  | login email password => Sessions.login env email password
  | refresh token => Sessions.refresh token
  | logout token => Sessions.logout token
  | resetPassword token password => Sessions.resetPassword env token password
  | changePassword userId currentPassword newPassword => Sessions.changePassword env userId currentPassword newPassword

abbrev State := Config Op Op.Resp Err World Unit

def State.start (env : Env) (w : World) (requests : List Request) : State := Config.initial w (requests.map (Request.program env))

end RestaurantOs.Sessions
