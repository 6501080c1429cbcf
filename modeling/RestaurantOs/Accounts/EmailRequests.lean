import RestaurantOs.Agencies.Requests
import RestaurantOs.Support.Tickets

/-!
# The email address of an account

A new address waits on the account, beside the hash of the token that was mailed
there, until that token comes back. Every request works on the copy of the account
that it has loaded, and a save writes the fields that it changed on the copy.
-/

namespace RestaurantOs.Accounts

export Payments (Id Time ApiError Err)
export Support (overwrite)

open Async Prog
open Agencies (Text Token lowercase)

def EMAIL_CHANGE_TTL_MS : Time := 60 * 60 * 1000

def EMAIL_VERIFICATION_TTL_MS : Time := 24 * 60 * 60 * 1000

structure User where
  id : Id
  email : Text
  passwordHash : String
  emailVerifiedAt : Option Time := none
  emailVerificationTokenHash : Option Token := none
  emailVerificationExpiresAt : Option Time := none
  pendingEmail : Option Text := none
  emailChangeTokenHash : Option Token := none
  emailChangeExpiresAt : Option Time := none
  deriving DecidableEq

structure Mail where
  recipient : Text
  token : Token
  deriving DecidableEq

/-- Token `n` was generated to be mailed to the `n`th address of `addressees`;
`mailed` are the mails that went out. -/
structure World where
  now : Time := 0
  users : List User := []
  addressees : List Text := []
  mailed : List Mail := []

/-- What a request changes on its copy. The schema stores addresses in lower case. -/
inductive Edit
  | verification (hash : Token) (expiresAt : Time)
  | emailChange (newEmail : Text) (hash : Token) (expiresAt : Time)
  | confirmed
  deriving DecidableEq

namespace User

def edited (user : User) : Edit → User
  | .verification hash expiresAt =>
    { user with emailVerificationTokenHash := some hash, emailVerificationExpiresAt := some expiresAt }
  | .emailChange newEmail hash expiresAt =>
    { user with
      pendingEmail := some (lowercase newEmail)
      emailChangeTokenHash := some hash
      emailChangeExpiresAt := some expiresAt }
  | .confirmed =>
    { user with
      email := user.pendingEmail.getD user.email
      pendingEmail := none
      emailChangeTokenHash := none
      emailChangeExpiresAt := none }

def saveOver (loaded saved stored : User) : User :=
  { stored with
    email := overwrite loaded.email saved.email stored.email
    emailVerificationTokenHash :=
      overwrite loaded.emailVerificationTokenHash saved.emailVerificationTokenHash stored.emailVerificationTokenHash
    emailVerificationExpiresAt :=
      overwrite loaded.emailVerificationExpiresAt saved.emailVerificationExpiresAt stored.emailVerificationExpiresAt
    pendingEmail := overwrite loaded.pendingEmail saved.pendingEmail stored.pendingEmail
    emailChangeTokenHash := overwrite loaded.emailChangeTokenHash saved.emailChangeTokenHash stored.emailChangeTokenHash
    emailChangeExpiresAt := overwrite loaded.emailChangeExpiresAt saved.emailChangeExpiresAt stored.emailChangeExpiresAt }

def withVerified (now : Time) (user : User) : User :=
  { user with emailVerifiedAt := some now, emailVerificationTokenHash := none, emailVerificationExpiresAt := none }

end User

/-- `generateSecureToken` notes the address that the token is for. `verify` is the
`findOneAndUpdate` that consumes a verification token. -/
inductive Op
  | clock
  | generateSecureToken (addressee : Text)
  | findById (id : Id)
  | findByEmail (email : Text)
  | findByChangeToken (token : Token)
  | findOther (email : Text) (id : Id)
  | verify (token : Token)
  | saveUser (loaded : User) (edit : Edit)
  | send (mail : Mail)
  deriving DecidableEq

@[reducible] def Op.Resp : Op → Type
  | clock => Time
  | generateSecureToken _ => Token
  | findById _ | findByEmail _ | findByChangeToken _ | findOther _ _ | verify _ => Option User
  | saveUser _ _ | send _ => Unit

namespace World

def verifiable (w : World) (token : Token) (user : User) : Bool :=
  user.emailVerificationTokenHash = some token && user.emailVerificationExpiresAt.any (w.now < ·)

def changeable (w : World) (token : Token) (user : User) : Bool :=
  user.emailChangeTokenHash = some token && user.emailChangeExpiresAt.any (w.now < ·)

def updateUser (w : World) (id : Id) (f : User → User) : World := { w with users := Tables.update (·.id = id) f w.users }

end World

def Op.perform : (op : Op) → World → Except Err op.Resp × World
  | clock, w => (.ok w.now, w)
  | generateSecureToken addressee, w => (.ok w.addressees.length, { w with addressees := w.addressees ++ [addressee] })
  | findById id, w => (.ok (w.users.find? (·.id = id)), w)
  | findByEmail email, w => (.ok (w.users.find? (·.email = lowercase email)), w)
  | findByChangeToken token, w => (.ok (w.users.find? (w.changeable token)), w)
  | findOther email id, w => (.ok (w.users.find? fun user => user.email = lowercase email && user.id ≠ id), w)
  | verify token, w =>
    match w.users.find? (w.verifiable token) with
    | none => (.ok none, w)
    | some user => (.ok (some (user.withVerified w.now)), w.updateUser user.id (·.withVerified w.now))
  | saveUser loaded edit, w =>
    -- the unique index on the email
    if (loaded.edited edit).email ≠ loaded.email &&
        w.users.any fun user => user.id ≠ loaded.id && user.email = (loaded.edited edit).email then (.error .duplicateKey, w)
    else (.ok (), w.updateUser loaded.id (loaded.saveOver (loaded.edited edit)))
  | send mail, w => (.ok (), { w with mailed := mail :: w.mailed })

inductive Event
  | tick (elapsed : Time)

def Event.advance : Event → World → World
  | tick elapsed, w => { w with now := w.now + elapsed }

@[reducible] def store : Store Op Op.Resp Err World (Except Err Unit) Event :=
  Store.faulty ⟨fun o _ w => o.perform w, Event.advance⟩ id

abbrev Promise (α : Type) := Prog Op Op.Resp Err α

def throwApi {α : Type} (error : ApiError) : Promise α := .raise (.api error)

def unauthorized (message : String) : ApiError := ⟨401, "UNAUTHORIZED", message⟩

/-! ## Requests -/

structure Env where
  compare : String → String → Bool := fun password passwordHash => password = passwordHash

inductive Response
  | emailVerified (email : Text)
  | alreadyVerified
  | linkSent (email : Text)
  | emailUpdated (email : Text)
  deriving DecidableEq

def findUserOrThrow (userId : Id) : Promise User := do
  let user : Option User ← .call (Op.findById userId)
  match user with
  | none => throwApi (unauthorized "User no longer exists")
  | some user => pure user

def sendMail (recipient : Text) (token : Token) : Promise Unit := do
  let _ ← (.call (Op.send ⟨recipient, token⟩) : Promise Unit).attempt
  pure ()

def sendVerificationEmail (user : User) : Promise Unit := do
  let hash : Token ← .call (Op.generateSecureToken user.email)
  let now : Time ← .call Op.clock
  .call (Op.saveUser user (.verification hash (now + EMAIL_VERIFICATION_TTL_MS)))
  sendMail user.email hash

def verifyEmail (token : Token) : Promise Response := do
  let user : Option User ← .call (Op.verify token)
  match user with
  | none => throwApi (.badRequest "This verification link is invalid or has expired")
  | some user => pure (.emailVerified user.email)

def resendVerification (userId : Id) : Promise Response := do
  let user ← findUserOrThrow userId
  if user.emailVerifiedAt.isSome then pure .alreadyVerified
  else
    sendVerificationEmail user
    pure (.linkSent user.email)

def refuseTaken (existing : Option User) : Promise Unit :=
  if existing.isSome then throwApi (.conflict "An account with this email already exists") else pure ()

def requestEmailChange (env : Env) (userId : Id) (newEmail : Text) (currentPassword : String) : Promise Response := do
  let user ← findUserOrThrow userId
  if !env.compare currentPassword user.passwordHash then throwApi (.badRequest "Current password is incorrect")
  else if newEmail = user.email then throwApi (.badRequest "That's already your current email address")
  else
    let existing : Option User ← .call (Op.findByEmail newEmail)
    refuseTaken existing
    let hash : Token ← .call (Op.generateSecureToken newEmail)
    let now : Time ← .call Op.clock
    .call (Op.saveUser user (.emailChange newEmail hash (now + EMAIL_CHANGE_TTL_MS)))
    sendMail newEmail hash
    pure (.linkSent newEmail)

def confirmEmailChange (token : Token) : Promise Response := do
  let user : Option User ← .call (Op.findByChangeToken token)
  match user with
  | none => throwApi (.badRequest "This confirmation link is invalid or has expired")
  | some user =>
    match user.pendingEmail with
    | none => throwApi (.badRequest "This confirmation link is invalid or has expired")
    | some pendingEmail => do
      let stillAvailable : Option User ← .call (Op.findOther pendingEmail user.id)
      refuseTaken stillAvailable
      .call (Op.saveUser user .confirmed)
      pure (.emailUpdated pendingEmail)

inductive Request
  | resendVerification (userId : Id)
  | verifyEmail (token : Token)
  | requestEmailChange (userId : Id) (newEmail : Text) (currentPassword : String)
  | confirmEmailChange (token : Token)
  deriving DecidableEq

def Request.program (env : Env) : Request → Promise Response
  | resendVerification userId => Accounts.resendVerification userId
  | verifyEmail token => Accounts.verifyEmail token
  | requestEmailChange userId newEmail currentPassword => Accounts.requestEmailChange env userId newEmail currentPassword
  | confirmEmailChange token => Accounts.confirmEmailChange token

abbrev State := Config Op Op.Resp Err World Response

def State.start (env : Env) (w : World) (requests : List Request) : State := Config.initial w (requests.map (Request.program env))

end RestaurantOs.Accounts
