import RestaurantOs.Accounts.EmailRequests

/-!
# Proved addresses

The address of an account changes only to one that is proved by a token mailed to
it, and a verified account has a proved address, as long as the pending address
stays beside the hash of the token that was mailed there.
-/

namespace RestaurantOs.Accounts

open Async Prog
open Agencies (Text Token lowercase)

def presents (token : Token) : Entry Op Op.Resp Err → Bool
  | ⟨_, .verify token', .ok (some _)⟩ | ⟨_, .findByChangeToken token', .ok (some _)⟩ => token' = token
  | _ => false

/-- The mail went to the address, which the schema may have put in lower case since. -/
def Mail.Reached (mail : Mail) (email : Text) : Prop := mail.recipient = email ∨ lowercase mail.recipient = email

def Proved (mailed : List Mail) (history : List (Entry Op Op.Resp Err)) (email : Text) : Prop :=
  ∃ mail ∈ mailed, mail.Reached email ∧ ∃ e ∈ history, presents mail.token e = true

def VerifiedProved (c : State) : Prop :=
  ∀ user ∈ c.state.users, user.emailVerifiedAt.isSome = true → Proved c.state.mailed c.history user.email

/-- An address changes in a step of a confirmation only, and to the address that the
token of the confirmation was mailed to. -/
def ChangesProved (requests : List Request) (c : State) (l : Label (Except Err Unit) Event) (c' : State) : Prop :=
  ∀ user ∈ c.state.users, ∀ user' ∈ c'.state.users, user'.id = user.id → user'.email ≠ user.email →
    ∃ t a token, l = .run t a ∧ requests[t]? = some (.confirmEmailChange token) ∧
      ∃ mail ∈ c.state.mailed, mail.token = token ∧ mail.Reached user'.email

/-- Accounts as registration leaves them. -/
structure World.IsRegistered (w : World) : Prop where
  ids : (w.users.map (·.id)).Nodup
  unverified : ∀ user ∈ w.users, user.emailVerifiedAt = none
  unchanged : ∀ user ∈ w.users, user.pendingEmail = none ∧ user.emailChangeTokenHash = none
  addressed : ∀ user ∈ w.users, ∀ hash, user.emailVerificationTokenHash = some hash → w.addressees[hash]? = some user.email
  mails : ∀ mail ∈ w.mailed, w.addressees[mail.token]? = some mail.recipient

def unforged (c : State) : Label (Except Err Unit) Event → Bool
  | .run t _ =>
    match c.waiting? t with
    | some (.verify token) | some (.findByChangeToken token) => c.state.mailed.any (·.token = token)
    | _ => true
  | _ => true

/-- A change request that finds its address pending on its copy, and so saves the
new hash alone, finds it pending still when it saves, or none. -/
def addressKept (c : State) : Label (Except Err Unit) Event → Bool
  | .run t _ =>
    match c.waiting? t with
    | some (.saveUser loaded (.emailChange newEmail _ _)) =>
      loaded.pendingEmail ≠ some (lowercase newEmail) ||
        c.state.users.all fun stored => stored.id ≠ loaded.id || stored.pendingEmail = loaded.pendingEmail || stored.pendingEmail.isNone
    | _ => true
  | _ => true

/-! ## Where a request stands -/

inductive Point
  | start (request : Request)
  | loaded (user : User)
  | tokened (user : User) (recipient : Text) (token : Token)
  | confirming (user : User) (token : Token)
  | finished
  deriving DecidableEq

namespace Point

def after (pt : Point) (o : Op) (r : Except Err o.Resp) : Point :=
  match pt, o, r with
  | start _, .findById _, .ok (some user) => loaded user
  | start _, .findByChangeToken token, .ok (some user) => confirming user token
  | loaded user, .generateSecureToken recipient, .ok token => tokened user recipient token
  | loaded user, .findByEmail _, _ => loaded user
  | tokened user recipient token, _, _ => tokened user recipient token
  | confirming user token, .findOther _ _, _ => confirming user token
  | _, _, _ => .finished

def Allows : Point → Op → Prop
  | start _, .findById _ | start _, .verify _ => True
  | start request, .findByChangeToken token => request = .confirmEmailChange token
  | loaded _, .findByEmail _ | loaded _, .generateSecureToken _ => True
  | tokened _ _ _, .clock => True
  | tokened user recipient token, .saveUser copy edit => copy = user ∧ ∃ expiresAt,
      edit = .verification token expiresAt ∧ recipient = user.email ∨ edit = .emailChange recipient token expiresAt
  | tokened _ recipient token, .send mail => mail = ⟨recipient, token⟩
  | confirming _ _, .findOther _ _ => True
  | confirming user _, .saveUser copy edit => copy = user ∧ edit = .confirmed ∧ user.pendingEmail.isSome = true
  | _, _ => False

def copy? : Point → Option User
  | loaded user | tokened user _ _ | confirming user _ => some user
  | _ => none

end Point

@[reducible] def proving : Protocol Op World (Except Err Unit) where
  Point := Point
  Move o a w pt pt' := pt.Allows o ∧ pt' = pt.after o (store.perform o a w).1
  Rest _ := True

section Walk

variable {pt : Point}

theorem follows_step {o : Op} (hAllows : pt.Allows o) {Q : o.Resp → Point → Prop} (hQ : ∀ v, Q v (pt.after o (.ok v))) :
    (Prog.call o : Promise o.Resp).Follows store proving pt Q fun _ _ => True := by
  refine follows_call.mpr fun a w => ⟨_, ⟨hAllows, rfl⟩, ?_⟩
  cases (store.perform o a w).1 with
  | ok v => exact hQ v
  | error err => trivial

theorem findUserOrThrow_follows {request : Request} {userId : Id} :
    (findUserOrThrow userId).Follows store proving (.start request) (fun user pt => pt = .loaded user) fun _ _ => True := by
  unfold findUserOrThrow
  rw [bind_eq, follows_bind]
  refine follows_step (o := .findById userId) (by trivial) fun user => ?_
  cases user <;> trivial

theorem sendMail_follows {user : User} {recipient : Text} {token : Token} :
    (sendMail recipient token).Follows store proving (.tokened user recipient token) (fun _ _ => True) fun _ _ => True := by
  unfold sendMail
  rw [bind_eq, follows_bind, follows_attempt]
  refine follows_call.mpr fun a w => ⟨_, ⟨rfl, rfl⟩, ?_⟩
  cases (store.perform (.send ⟨recipient, token⟩) a w).1 <;> trivial

theorem sendVerificationEmail_follows {user : User} :
    (sendVerificationEmail user).Follows store proving (.loaded user) (fun _ _ => True) fun _ _ => True := by
  unfold sendVerificationEmail
  rw [bind_eq, follows_bind]
  refine follows_step (o := .generateSecureToken user.email) (by trivial) fun token => ?_
  rw [bind_eq, follows_bind]
  refine follows_step (o := .clock) (by trivial) fun now => ?_
  rw [bind_eq, follows_bind]
  refine follows_step (o := .saveUser user (.verification token (now + EMAIL_VERIFICATION_TTL_MS)))
    (by exact ⟨rfl, _, .inl ⟨rfl, rfl⟩⟩) fun _ => ?_
  exact sendMail_follows

theorem verifyEmail_follows {request : Request} {token : Token} :
    (verifyEmail token).Follows store proving (.start request) (fun _ _ => True) fun _ _ => True := by
  unfold verifyEmail
  rw [bind_eq, follows_bind]
  refine follows_step (o := .verify token) (by trivial) fun user => ?_
  cases user <;> trivial

theorem resendVerification_follows {request : Request} {userId : Id} :
    (resendVerification userId).Follows store proving (.start request) (fun _ _ => True) fun _ _ => True := by
  unfold resendVerification
  rw [bind_eq, follows_bind]
  refine (findUserOrThrow_follows).mono ?_ fun _ _ _ => trivial
  rintro user pt rfl
  rw [follows_ite]
  refine ⟨fun _ => trivial, fun _ => ?_⟩
  rw [bind_eq, follows_bind]
  exact (sendVerificationEmail_follows).mono (fun _ _ _ => trivial) fun _ _ _ => trivial

theorem refuseTaken_follows {existing : Option User} :
    (refuseTaken existing).Follows store proving pt (fun _ pt' => pt' = pt) fun _ _ => True := by
  unfold refuseTaken
  rw [follows_ite]
  exact ⟨fun _ => trivial, fun _ => rfl⟩

theorem requestEmailChange_follows {env : Env} {request : Request} {userId : Id} {newEmail : Text} {currentPassword : String} :
    (requestEmailChange env userId newEmail currentPassword).Follows store proving (.start request) (fun _ _ => True)
      fun _ _ => True := by
  unfold requestEmailChange
  rw [bind_eq, follows_bind]
  refine (findUserOrThrow_follows).mono ?_ fun _ _ _ => trivial
  rintro user pt rfl
  rw [follows_ite]
  refine ⟨fun _ => trivial, fun _ => ?_⟩
  rw [follows_ite]
  refine ⟨fun _ => trivial, fun _ => ?_⟩
  rw [bind_eq, follows_bind]
  refine follows_step (o := .findByEmail newEmail) (by trivial) fun existing => ?_
  rw [bind_eq, follows_bind]
  refine (refuseTaken_follows).mono ?_ fun _ _ _ => trivial
  rintro _ pt rfl
  rw [bind_eq, follows_bind]
  refine follows_step (o := .generateSecureToken newEmail) (by trivial) fun token => ?_
  rw [bind_eq, follows_bind]
  refine follows_step (o := .clock) (by trivial) fun now => ?_
  rw [bind_eq, follows_bind]
  refine follows_step (o := .saveUser user (.emailChange newEmail token (now + EMAIL_CHANGE_TTL_MS)))
    (by exact ⟨rfl, _, .inr rfl⟩) fun _ => ?_
  rw [bind_eq, follows_bind]
  exact (sendMail_follows).mono (fun _ _ _ => trivial) fun _ _ _ => trivial

theorem confirmEmailChange_follows {token : Token} :
    (confirmEmailChange token).Follows store proving (.start (.confirmEmailChange token)) (fun _ _ => True) fun _ _ => True := by
  unfold confirmEmailChange
  rw [bind_eq, follows_bind]
  refine follows_step (o := .findByChangeToken token) (by rfl) fun user => ?_
  cases user with
  | none => trivial
  | some user =>
    dsimp only
    cases hPending : user.pendingEmail with
    | none => trivial
    | some pendingEmail =>
      dsimp only
      rw [bind_eq, follows_bind]
      refine follows_step (o := .findOther pendingEmail user.id) (by trivial) fun stillAvailable => ?_
      rw [bind_eq, follows_bind]
      refine (refuseTaken_follows).mono ?_ fun _ _ _ => trivial
      rintro _ pt rfl
      rw [bind_eq, follows_bind]
      exact follows_step (o := .saveUser user .confirmed) (by exact ⟨rfl, rfl, by rw [hPending]; rfl⟩) fun _ => trivial

theorem Request.program_follows (env : Env) (r : Request) :
    (r.program env).Follows store proving (.start r) (fun _ _ => True) fun _ _ => True := by
  cases r with
  | resendVerification userId => exact resendVerification_follows
  | verifyEmail token => exact verifyEmail_follows
  | requestEmailChange userId newEmail currentPassword => exact requestEmailChange_follows
  | confirmEmailChange token => exact confirmEmailChange_follows

end Walk

/-! ## Writes -/

section Writes

variable {w : World} {o : Op} {a : Except Err Unit} {user : User}

structure World.Grows (w w' : World) : Prop where
  mailed : ∀ mail ∈ w.mailed, mail ∈ w'.mailed
  addressed : ∀ {token : Token} {recipient : Text}, w.addressees[token]? = some recipient → w'.addressees[token]? = some recipient

theorem grows_perform : w.Grows (store.perform o a w).2 := by
  cases a with
  | error fault => exact ⟨fun _ h => h, fun h => h⟩
  | ok _ =>
    cases o with
    | generateSecureToken addressee =>
      refine ⟨fun _ h => h, fun {token recipient} h => ?_⟩
      exact (List.getElem?_append_left (List.getElem?_eq_some_iff.mp h).1).trans h
    | send mail => exact ⟨fun _ h => List.mem_cons_of_mem _ h, fun h => h⟩
    | verify token =>
      simp only [Op.perform]
      split <;> exact ⟨fun _ h => h, fun h => h⟩
    | saveUser loaded edit =>
      simp only [Op.perform]
      split <;> exact ⟨fun _ h => h, fun h => h⟩
    | _ => exact ⟨fun _ h => h, fun h => h⟩

theorem mem_updateUser {id : Id} {f : User → User} (h : user ∈ (w.updateUser id f).users) :
    ∃ stored ∈ w.users, user = stored ∨ stored.id = id ∧ user = f stored := by
  obtain ⟨stored, hMem, rfl⟩ := Tables.mem_update.mp h
  refine ⟨stored, hMem, ?_⟩
  split
  · rename_i hId
    exact .inr ⟨of_decide_eq_true hId, rfl⟩
  · exact .inl rfl

inductive Written (w : World) (o : Op) (r : Except Err o.Resp) (user : User) : Prop
  | kept (hMem : user ∈ w.users)
  | verified (token : Token) (stored : User) (hOp : o = .verify token) (hAccepted : ∀ t, presents token ⟨t, o, r⟩ = true)
      (hMem : stored ∈ w.users) (hToken : stored.emailVerificationTokenHash = some token) (hUser : user = stored.withVerified w.now)
  | saved (loaded : User) (edit : Edit) (stored : User) (hOp : o = .saveUser loaded edit) (hMem : stored ∈ w.users)
      (hId : stored.id = loaded.id) (hUser : user = loaded.saveOver (loaded.edited edit) stored)

theorem written_of_mem (hIds : (w.users.map (·.id)).Nodup) (h : user ∈ (store.perform o a w).2.users) :
    Written w o (store.perform o a w).1 user := by
  cases a with
  | error fault => exact .kept h
  | ok _ =>
    cases o with
    | verify token =>
      simp only [Op.perform] at h ⊢
      split at h
      · exact .kept h
      · rename_i found hFound
        obtain ⟨stored, hMem, rfl | ⟨hId, rfl⟩⟩ := mem_updateUser h
        · exact .kept hMem
        · have hSame : stored = found := Tables.eq_of_id hIds hMem (List.mem_of_find?_eq_some hFound) hId
          have hVerifiable : w.verifiable token stored = true := by
            rw [hSame]
            exact List.find?_some hFound
          refine .verified token stored rfl (fun t => ?_) hMem (of_decide_eq_true (Bool.and_eq_true_iff.mp hVerifiable).1) rfl
          exact decide_eq_true rfl
    | saveUser loaded edit =>
      simp only [Op.perform] at h ⊢
      split at h
      · exact .kept h
      · obtain ⟨stored, hMem, rfl | ⟨hId, rfl⟩⟩ := mem_updateUser h
        · exact .kept hMem
        · exact .saved loaded edit stored rfl hMem hId rfl
    | _ => exact .kept h

theorem ids_perform (hIds : (w.users.map (·.id)).Nodup) : ((store.perform o a w).2.users.map (·.id)).Nodup := by
  have hUpdate : ∀ (id : Id) (f : User → User), (∀ user, (f user).id = user.id) →
      ((w.updateUser id f).users.map (·.id)).Nodup := by
    intro id f hf
    have hSame : (w.updateUser id f).users.map (·.id) = w.users.map (·.id) := Tables.map_update_eq User.id hf
    rw [hSame]
    exact hIds
  cases a with
  | error fault => exact hIds
  | ok _ =>
    cases o with
    | verify token =>
      simp only [Op.perform]
      split
      · exact hIds
      · exact hUpdate _ _ fun _ => rfl
    | saveUser loaded edit =>
      simp only [Op.perform]
      split
      · exact hIds
      · exact hUpdate _ _ fun _ => rfl
    | _ => exact hIds

theorem copy_of_after {pt : Point} {copy : User} (h : (pt.after o (store.perform o a w).1).copy? = some copy) :
    pt.copy? = some copy ∨ copy ∈ w.users := by
  cases pt with
  | start request =>
    right
    cases o with
    | findById id =>
      cases a with
      | error fault => cases h
      | ok _ =>
        cases hFound : w.users.find? (·.id = id) with
        | none => simp [Point.after, Op.perform, hFound, Point.copy?] at h
        | some found =>
          simp only [Point.after, Op.perform, hFound, Point.copy?, Option.some.injEq] at h
          exact h ▸ List.mem_of_find?_eq_some hFound
    | findByChangeToken token =>
      cases a with
      | error fault => cases h
      | ok _ =>
        cases hFound : w.users.find? (w.changeable token) with
        | none => simp [Point.after, Op.perform, hFound, Point.copy?] at h
        | some found =>
          simp only [Point.after, Op.perform, hFound, Point.copy?, Option.some.injEq] at h
          exact h ▸ List.mem_of_find?_eq_some hFound
    | _ => cases h
  | loaded user =>
    left
    cases o with
    | findByEmail email => exact h
    | generateSecureToken recipient =>
      cases a with
      | error fault => cases h
      | ok _ => exact h
    | _ => cases h
  | tokened user recipient token => exact .inl h
  | confirming user token =>
    left
    cases o with
    | findOther email id => exact h
    | _ => cases h
  | finished => cases h

end Writes

/-! ## Runs -/

def Addressed (w : World) (token : Token) (pendingEmail : Option Text) : Prop :=
  ∃ recipient, w.addressees[token]? = some recipient ∧ ∀ email, pendingEmail = some email → lowercase recipient = email

def Known (w : World) (history : List (Entry Op Op.Resp Err)) : Point → Prop
  | .loaded user => ∀ hash, user.emailChangeTokenHash = some hash → Addressed w hash user.pendingEmail
  | .tokened user recipient token => w.addressees[token]? = some recipient ∧ user.emailChangeTokenHash ≠ some token
  | .confirming user token =>
    (∃ mail ∈ w.mailed, mail.token = token) ∧ (∃ e ∈ history, presents token e = true) ∧ Addressed w token user.pendingEmail
  | _ => True

/-- The account has the address that it registered with, on every copy too, and its
verification token is for that address. -/
structure Unmoved (email : Text) (w : World) (pts : List Point) (id : Id) : Prop where
  stored : ∀ user ∈ w.users, user.id = id → user.email = email ∧
    ∀ hash, user.emailVerificationTokenHash = some hash → w.addressees[hash]? = some email
  copies : ∀ pt ∈ pts, ∀ copy, pt.copy? = some copy → copy.id = id → copy.email = email

structure Sound (requests : List Request) (c : State) (pts : List Point) : Prop where
  ids : (c.state.users.map (·.id)).Nodup
  mails : ∀ mail ∈ c.state.mailed, c.state.addressees[mail.token]? = some mail.recipient
  hashes : ∀ user ∈ c.state.users, ∀ hash, user.emailChangeTokenHash = some hash → Addressed c.state hash user.pendingEmail
  known : ∀ pt ∈ pts, Known c.state c.history pt
  started : ∀ {t : Nat} {r : Request}, pts[t]? = some (.start r) → requests[t]? = some r
  confirms : ∀ {t : Nat} {user : User} {token : Token}, pts[t]? = some (.confirming user token) →
    requests[t]? = some (.confirmEmailChange token)
  settled : ∀ id, (∀ user ∈ c.state.users, user.id = id → Proved c.state.mailed c.history user.email) ∨
    ∃ email, Unmoved email c.state pts id
  verified : VerifiedProved c

section Run

variable {requests : List Request} {c c' : State} {pts : List Point} {t : Nat} {a : Except Err Unit} {o : Op}
  {th : Thread Op Op.Resp Err World Response} {k : Except Err o.Resp → Promise Response} {pt : Point} {w w' : World}
  {history : List (Entry Op Op.Resp Err)} {token : Token}

theorem Addressed.mono {pendingEmail : Option Text} (h : Addressed w token pendingEmail) (hGrows : w.Grows w') :
    Addressed w' token pendingEmail := by
  obtain ⟨recipient, hAt, hLower⟩ := h
  exact ⟨recipient, hGrows.addressed hAt, hLower⟩

theorem Addressed.forget {pendingEmail : Option Text} (h : Addressed w token pendingEmail) : Addressed w token none := by
  obtain ⟨recipient, hAt, -⟩ := h
  exact ⟨recipient, hAt, fun _ hNone => by cases hNone⟩

theorem Proved.mono {email : Text} (h : Proved w.mailed history email) (hGrows : w.Grows w') (e : Entry Op Op.Resp Err) :
    Proved w'.mailed (e :: history) email := by
  obtain ⟨mail, hMail, hReached, entry, hEntry, hPresents⟩ := h
  exact ⟨mail, hGrows.mailed mail hMail, hReached, entry, List.mem_cons_of_mem _ hEntry, hPresents⟩

theorem Known.mono (h : Known w history pt) (hGrows : w.Grows w') (e : Entry Op Op.Resp Err) : Known w' (e :: history) pt := by
  cases pt with
  | loaded user => exact fun hash hHash => (h hash hHash).mono hGrows
  | tokened user recipient token => exact ⟨hGrows.addressed h.1, h.2⟩
  | confirming user token =>
    obtain ⟨⟨mail, hMail, hToken⟩, ⟨entry, hEntry, hPresents⟩, hAddressed⟩ := h
    exact ⟨⟨mail, hGrows.mailed mail hMail, hToken⟩, ⟨entry, List.mem_cons_of_mem _ hEntry, hPresents⟩, hAddressed.mono hGrows⟩
  | _ => trivial

theorem Sound.proved_pending (h : Sound requests c pts) {user : User} {email : Text} (hPoint : pts[t]? = some (.confirming user token))
    (hPending : user.pendingEmail = some email) :
    (∃ mail ∈ c.state.mailed, mail.token = token ∧ mail.Reached email) ∧ Proved c.state.mailed c.history email := by
  obtain ⟨⟨mail, hMail, rfl⟩, hPresented, recipient, hAt, hLower⟩ := h.known _ (List.mem_of_getElem? hPoint)
  have hRecipient : mail.recipient = recipient := Option.some.inj ((h.mails mail hMail).symm.trans hAt)
  have hReached : mail.Reached email := .inr (by rw [hRecipient]; exact hLower email hPending)
  exact ⟨⟨mail, hMail, rfl, hReached⟩, mail, hMail, hReached, hPresented⟩

theorem save_cases {loaded : User} {edit : Edit} (hAllows : pt.Allows (.saveUser loaded edit)) :
    (∃ recipient token expiresAt, pt = .tokened loaded recipient token ∧
      (edit = .verification token expiresAt ∧ recipient = loaded.email ∨ edit = .emailChange recipient token expiresAt)) ∨
    ∃ token email, pt = .confirming loaded token ∧ edit = .confirmed ∧ loaded.pendingEmail = some email := by
  cases pt with
  | tokened user recipient token =>
    obtain ⟨rfl, expiresAt, hEdit⟩ := hAllows
    exact .inl ⟨recipient, token, expiresAt, rfl, hEdit⟩
  | confirming user token =>
    obtain ⟨rfl, hEdit, hSome⟩ := hAllows
    obtain ⟨email, hEmail⟩ := Option.isSome_iff_exists.mp hSome
    exact .inr ⟨token, email, rfl, hEdit, hEmail⟩
  | _ => cases hAllows

theorem saved_email {loaded : User} {edit : Edit} (stored : User) (hAllows : pt.Allows (.saveUser loaded edit)) :
    (loaded.saveOver (loaded.edited edit) stored).email = stored.email ∨
      ∃ token email, pt = .confirming loaded token ∧ loaded.pendingEmail = some email ∧
        (loaded.saveOver (loaded.edited edit) stored).email = email := by
  rcases save_cases hAllows with ⟨recipient, token, expiresAt, -, ⟨rfl, -⟩ | rfl⟩ | ⟨token, email, rfl, rfl, hEmail⟩
  · exact .inl (if_pos rfl)
  · exact .inl (if_pos rfl)
  · simp only [User.saveOver, User.edited, hEmail, Option.getD_some, overwrite]
    split
    · exact .inl rfl
    · exact .inr ⟨token, email, rfl, rfl, rfl⟩

theorem addressKept_run {loaded : User} {newEmail : Text} {hash : Token} {expiresAt : Time}
    (h : addressKept c (.run t a) = true) (hWaiting : c.waiting? t = some (.saveUser loaded (.emailChange newEmail hash expiresAt)))
    {stored : User} (hMem : stored ∈ c.state.users) (hId : stored.id = loaded.id) (hSame : loaded.pendingEmail = some (lowercase newEmail)) :
    stored.pendingEmail = loaded.pendingEmail ∨ stored.pendingEmail = none := by
  simp only [addressKept, hWaiting, hSame, ne_eq, not_true_eq_false, decide_false, Bool.false_or, List.all_eq_true, Bool.or_eq_true,
    decide_eq_true_eq, Option.isNone_iff_eq_none] at h
  rcases h stored hMem with (hNe | hKept) | hNone
  · exact absurd hId hNe
  · exact .inl (hKept.trans hSame.symm)
  · exact .inr hNone

theorem unforged_run (h : unforged c (.run t a) = true)
    (hWaiting : c.waiting? t = some (.verify token) ∨ c.waiting? t = some (.findByChangeToken token)) :
    ∃ mail ∈ c.state.mailed, mail.token = token := by
  have hAny : c.state.mailed.any (·.token = token) = true := by
    rcases hWaiting with hWaiting | hWaiting <;> simpa only [unforged, hWaiting] using h
  obtain ⟨mail, hMem, hToken⟩ := List.any_eq_true.mp hAny
  exact ⟨mail, hMem, of_decide_eq_true hToken⟩

theorem Sound.hashes_ran (h : Sound requests c pts) (hKept : addressKept c (.run t a) = true) (hRan : store.Ran c t a o th k c')
    (hPoint : pts[t]? = some pt) (hAllows : pt.Allows o) :
    ∀ user ∈ c'.state.users, ∀ hash, user.emailChangeTokenHash = some hash → Addressed c'.state hash user.pendingEmail := by
  intro user hMem hash hHash
  have hGrows : c.state.Grows c'.state := by
    rw [hRan.state]
    exact grows_perform
  rw [hRan.state] at hMem
  refine Addressed.mono ?_ hGrows
  cases written_of_mem h.ids hMem with
  | kept hOld => exact h.hashes user hOld hash hHash
  | verified token stored hOp hAccepted hOld hToken hUser =>
    subst hUser
    exact h.hashes stored hOld hash hHash
  | saved loaded edit stored hOp hOld hId hUser =>
    subst hOp hUser
    rcases save_cases hAllows with ⟨recipient, token, expiresAt, rfl, ⟨rfl, -⟩ | rfl⟩ | ⟨token, email, rfl, rfl, hEmail⟩
    · simp only [User.saveOver, User.edited, overwrite, if_true] at hHash ⊢
      exact h.hashes stored hOld hash hHash
    · obtain ⟨hAt, hFresh⟩ := h.known _ (List.mem_of_getElem? hPoint)
      have hToken : overwrite loaded.emailChangeTokenHash (some token) stored.emailChangeTokenHash = some token := if_neg hFresh.symm
      cases hToken.symm.trans hHash
      refine ⟨recipient, hAt, fun email hPending => ?_⟩
      replace hPending : overwrite loaded.pendingEmail (some (lowercase recipient)) stored.pendingEmail = some email := hPending
      by_cases hSame : some (lowercase recipient) = loaded.pendingEmail
      · rw [overwrite, if_pos hSame] at hPending
        rcases addressKept_run hKept hRan.waiting? hOld hId hSame.symm with hStored | hNone
        · rw [hStored, ← hSame] at hPending
          exact Option.some.inj hPending
        · rw [hNone] at hPending
          cases hPending
      · rw [overwrite, if_neg hSame] at hPending
        exact Option.some.inj hPending
    · have hPending : overwrite loaded.pendingEmail none stored.pendingEmail = none := if_neg (by rw [hEmail]; simp)
      replace hHash : overwrite loaded.emailChangeTokenHash none stored.emailChangeTokenHash = some hash := hHash
      show Addressed c.state hash (overwrite loaded.pendingEmail none stored.pendingEmail)
      rw [hPending]
      unfold overwrite at hHash
      split at hHash
      · exact (h.hashes stored hOld hash hHash).forget
      · cases hHash

theorem Sound.known_after (h : Sound requests c pts) (hUnforged : unforged c (.run t a) = true) (hRan : store.Ran c t a o th k c')
    (hPoint : pts[t]? = some pt) : Known c'.state c'.history (pt.after o (store.perform o a c.state).1) := by
  have hGrows : c.state.Grows c'.state := by
    rw [hRan.state]
    exact grows_perform
  have hKnown := (h.known pt (List.mem_of_getElem? hPoint)).mono hGrows ⟨t, o, (store.perform o a c.state).1⟩
  rw [← hRan.history] at hKnown
  cases pt with
  | start request =>
    cases o with
    | findById id =>
      cases a with
      | error fault => trivial
      | ok _ =>
        cases hFound : c.state.users.find? (·.id = id) with
        | none => simp [Point.after, Op.perform, hFound, Known]
        | some found =>
          simp only [Point.after, Op.perform, hFound, Known]
          exact fun hash hHash => (h.hashes found (List.mem_of_find?_eq_some hFound) hash hHash).mono hGrows
    | findByChangeToken token =>
      cases a with
      | error fault => trivial
      | ok _ =>
        cases hFound : c.state.users.find? (c.state.changeable token) with
        | none => simp [Point.after, Op.perform, hFound, Known]
        | some found =>
          simp only [Point.after, Op.perform, hFound, Known]
          have hChangeable : c.state.changeable token found = true := List.find?_some hFound
          have hHash := of_decide_eq_true (Bool.and_eq_true_iff.mp hChangeable).1
          obtain ⟨mail, hMail, hToken⟩ := unforged_run hUnforged (.inr hRan.waiting?)
          refine ⟨⟨mail, hGrows.mailed mail hMail, hToken⟩, ⟨⟨t, .findByChangeToken token, .ok (some found)⟩, ?_, decide_eq_true rfl⟩,
            (h.hashes found (List.mem_of_find?_eq_some hFound) token hHash).mono hGrows⟩
          rw [hRan.history]
          simp only [Op.perform, hFound]
          exact List.mem_cons_self
    | _ => trivial
  | loaded user =>
    cases o with
    | findByEmail email => exact hKnown
    | generateSecureToken recipient =>
      cases a with
      | error fault => trivial
      | ok _ =>
        refine ⟨?_, fun hSame => ?_⟩
        · rw [hRan.state]
          exact List.getElem?_concat_length
        · obtain ⟨other, hAt, -⟩ := h.known _ (List.mem_of_getElem? hPoint) _ hSame
          rw [List.getElem?_eq_none (Nat.le_refl _)] at hAt
          cases hAt
    | _ => trivial
  | tokened user recipient token => exact hKnown
  | confirming user token =>
    cases o with
    | findOther email id => exact hKnown
    | _ => trivial
  | finished => trivial

theorem Sound.written (h : Sound requests c pts) (hRan : store.Ran c t a o th k c') (hAllows : pt.Allows o) {user : User} (hMem : user ∈ c'.state.users) :
    ∃ stored ∈ c.state.users, stored.id = user.id ∧ (user.email = stored.email ∨
      ∃ token copy, pt = .confirming copy token ∧ copy.pendingEmail = some user.email) := by
  rw [hRan.state] at hMem
  cases written_of_mem h.ids hMem with
  | kept hOld => exact ⟨user, hOld, rfl, .inl rfl⟩
  | verified token stored hOp hAccepted hOld hToken hUser => exact ⟨stored, hOld, by rw [hUser]; rfl, .inl (by rw [hUser]; rfl)⟩
  | saved loaded edit stored hOp hOld hId hUser =>
    subst hOp
    refine ⟨stored, hOld, by rw [hUser]; rfl, ?_⟩
    rcases saved_email stored hAllows with hSame | ⟨token, email, hConfirming, hPending, hEmail⟩
    · exact .inl (by rw [hUser]; exact hSame)
    · exact .inr ⟨token, loaded, hConfirming, by rw [hUser, hEmail]; exact hPending⟩

theorem saved_verification (loaded stored : User) (edit : Edit) :
    (loaded.saveOver (loaded.edited edit) stored).emailVerificationTokenHash = stored.emailVerificationTokenHash ∨
      ∃ token expiresAt, edit = .verification token expiresAt ∧
        (loaded.saveOver (loaded.edited edit) stored).emailVerificationTokenHash = some token := by
  cases edit with
  | verification token expiresAt =>
    by_cases hSame : some token = loaded.emailVerificationTokenHash
    · exact .inl (if_pos hSame)
    · exact .inr ⟨token, expiresAt, rfl, if_neg hSame⟩
  | _ => exact .inl (if_pos rfl)

theorem Unmoved.verification {email : Text} {id : Id} (h : Unmoved email c.state pts id) (hSound : Sound requests c pts)
    (hRan : store.Ran c t a o th k c') (hPoint : pts[t]? = some pt) (hAllows : pt.Allows o) {user : User} (hMem : user ∈ c'.state.users)
    (hId : user.id = id) {hash : Token} (hHash : user.emailVerificationTokenHash = some hash) :
    c.state.addressees[hash]? = some email := by
  rw [hRan.state] at hMem
  cases written_of_mem hSound.ids hMem with
  | kept hOld => exact (h.stored user hOld hId).2 hash hHash
  | verified token stored hOp hAccepted hOld hToken hUser =>
    subst hUser
    cases hHash
  | saved loaded edit stored hOp hOld hIdS hUser =>
    subst hOp hUser
    rcases saved_verification loaded stored edit with hSame | ⟨token, expiresAt, rfl, hNew⟩
    · exact (h.stored stored hOld hId).2 hash (hSame.symm.trans hHash)
    · cases hNew.symm.trans hHash
      rcases save_cases hAllows with ⟨recipient, token', expiresAt', rfl, ⟨hEdit, hRecipient⟩ | hEdit⟩ | ⟨_, _, -, hEdit, -⟩
      · cases hEdit
        have hMemPoint := List.mem_of_getElem? hPoint
        have hCopy : loaded.email = email := h.copies _ hMemPoint loaded rfl (hIdS.symm.trans hId)
        rw [← hCopy, ← hRecipient]
        exact (hSound.known _ hMemPoint).1
      · cases hEdit
      · cases hEdit

theorem Sound.settled_ran (h : Sound requests c pts) (hRan : store.Ran c t a o th k c') (hPoint : pts[t]? = some pt)
    (hAllows : pt.Allows o) (id : Id) :
    (∀ user ∈ c'.state.users, user.id = id → Proved c'.state.mailed c'.history user.email) ∨
      ∃ email, Unmoved email c'.state (pts.set t (pt.after o (store.perform o a c.state).1)) id := by
  have hGrows : c.state.Grows c'.state := by
    rw [hRan.state]
    exact grows_perform
  have hMono : ∀ {email : Text}, Proved c.state.mailed c.history email → Proved c'.state.mailed c'.history email := by
    intro email hProved
    rw [hRan.history]
    exact hProved.mono hGrows _
  rcases h.settled id with hProved | ⟨email, hUnmoved⟩
  · refine .inl fun user hMem hId => ?_
    obtain ⟨stored, hOld, hIdS, hSame | ⟨token, copy, rfl, hPending⟩⟩ := h.written hRan hAllows hMem
    · rw [hSame]
      exact hMono (hProved stored hOld (hIdS.trans hId))
    · exact hMono (h.proved_pending hPoint hPending).2
  · by_cases hMoves : ∃ user ∈ c'.state.users, user.id = id ∧ ∃ token copy, pt = .confirming copy token ∧ copy.pendingEmail = some user.email
    · obtain ⟨moved, hMoved, hIdM, token, copy, rfl, hPending⟩ := hMoves
      refine .inl fun user hMem hId => ?_
      have hIds : (c'.state.users.map (·.id)).Nodup := by
        rw [hRan.state]
        exact ids_perform h.ids
      rw [Tables.eq_of_id hIds hMem hMoved (hId.trans hIdM.symm)]
      exact hMono (h.proved_pending hPoint hPending).2
    · refine .inr ⟨email, fun user hMem hId => ⟨?_, fun hash hHash => ?_⟩, fun ptU hU copy hCopy hId => ?_⟩
      · obtain ⟨stored, hOld, hIdS, hSame | hMove⟩ := h.written hRan hAllows hMem
        · rw [hSame]
          exact (hUnmoved.stored stored hOld (hIdS.trans hId)).1
        · exact absurd ⟨user, hMem, hId, hMove⟩ hMoves
      · exact hGrows.addressed (hUnmoved.verification h hRan hPoint hAllows hMem hId hHash)
      · rcases List.mem_or_eq_of_mem_set hU with hOld | rfl
        · exact hUnmoved.copies ptU hOld copy hCopy hId
        · rcases copy_of_after hCopy with hOwn | hStored
          · exact hUnmoved.copies pt (List.mem_of_getElem? hPoint) copy hOwn hId
          · exact (hUnmoved.stored copy hStored hId).1

theorem Sound.verified_ran (h : Sound requests c pts) (hUnforged : unforged c (.run t a) = true) (hRan : store.Ran c t a o th k c')
    (hPoint : pts[t]? = some pt) (hAllows : pt.Allows o) : VerifiedProved c' := by
  have hGrows : c.state.Grows c'.state := by
    rw [hRan.state]
    exact grows_perform
  have hMono : ∀ {email : Text}, Proved c.state.mailed c.history email → Proved c'.state.mailed c'.history email := by
    intro email hProved
    rw [hRan.history]
    exact hProved.mono hGrows _
  intro user hMem hVerified
  rw [hRan.state] at hMem
  cases written_of_mem h.ids hMem with
  | kept hOld => exact hMono (h.verified user hOld hVerified)
  | verified token stored hOp hAccepted hOld hToken hUser =>
    subst hOp hUser
    rcases h.settled stored.id with hProved | ⟨email, hUnmoved⟩
    · exact hMono (hProved stored hOld rfl)
    · obtain ⟨hEmail, hHashes⟩ := hUnmoved.stored stored hOld rfl
      obtain ⟨mail, hMail, rfl⟩ := unforged_run hUnforged (.inl hRan.waiting?)
      have hRecipient : mail.recipient = email := Option.some.inj ((h.mails mail hMail).symm.trans (hHashes _ hToken))
      refine ⟨mail, hGrows.mailed mail hMail, .inl (hRecipient.trans hEmail.symm), _, ?_, hAccepted t⟩
      rw [hRan.history]
      exact List.mem_cons_self
  | saved loaded edit stored hOp hOld hId hUser =>
    subst hOp hUser
    rcases saved_email stored hAllows with hSame | ⟨token, email, rfl, hPending, hEmail⟩
    · rw [hSame]
      exact hMono (h.verified stored hOld hVerified)
    · rw [hEmail]
      exact hMono (h.proved_pending hPoint hPending).2

theorem Point.after_start {r : Except Err o.Resp} {request : Request} : pt.after o r ≠ .start request := by
  unfold Point.after
  split <;> simp

theorem Point.after_confirming {r : Except Err o.Resp} {copy : User} (h : pt.after o r = .confirming copy token) :
    pt = .confirming copy token ∨ ∃ request, pt = .start request ∧ o = .findByChangeToken token := by
  unfold Point.after at h
  split at h <;> cases h
  · exact .inr ⟨_, rfl, rfl⟩
  · exact .inl rfl

theorem mails_perform (h : ∀ mail ∈ c.state.mailed, c.state.addressees[mail.token]? = some mail.recipient)
    (hKnown : ∀ pt ∈ pts, Known c.state c.history pt) (hPoint : pts[t]? = some pt) (hAllows : pt.Allows o) :
    ∀ mail ∈ (store.perform o a c.state).2.mailed, (store.perform o a c.state).2.addressees[mail.token]? = some mail.recipient := by
  have hGrows : c.state.Grows (store.perform o a c.state).2 := grows_perform
  intro mail hMail
  have hOld : mail ∈ c.state.mailed ∨ o = .send mail := by
    cases a with
    | error fault => exact .inl hMail
    | ok _ =>
      cases o with
      | send sent =>
        rcases List.mem_cons.mp hMail with rfl | hOld
        · exact .inr rfl
        · exact .inl hOld
      | verify token =>
        simp only [Op.perform] at hMail
        split at hMail <;> exact .inl hMail
      | saveUser loaded edit =>
        simp only [Op.perform] at hMail
        split at hMail <;> exact .inl hMail
      | _ => exact .inl hMail
  rcases hOld with hOld | rfl
  · exact hGrows.addressed (h mail hOld)
  · cases pt with
    | tokened user recipient token =>
      have hMailEq : mail = ⟨recipient, token⟩ := hAllows
      subst hMailEq
      exact hGrows.addressed (hKnown _ (List.mem_of_getElem? hPoint)).1
    | _ => cases hAllows

theorem Sound.ran (h : Sound requests c pts) (hUnforged : unforged c (.run t a) = true) (hKept : addressKept c (.run t a) = true)
    (hRan : store.Ran c t a o th k c') (hPoint : pts[t]? = some pt) (hAllows : pt.Allows o) :
    Sound requests c' (pts.set t (pt.after o (store.perform o a c.state).1)) := by
  refine ⟨?_, ?_, h.hashes_ran hKept hRan hPoint hAllows, ?_, ?_, ?_, h.settled_ran hRan hPoint hAllows,
    h.verified_ran hUnforged hRan hPoint hAllows⟩
  · rw [hRan.state]
    exact ids_perform h.ids
  · rw [hRan.state]
    exact mails_perform h.mails h.known hPoint hAllows
  · intro ptU hU
    rcases List.mem_or_eq_of_mem_set hU with hOld | rfl
    · have hKnown := (h.known ptU hOld).mono (grows_perform (o := o) (a := a)) ⟨t, o, (store.perform o a c.state).1⟩
      rwa [← hRan.state, ← hRan.history] at hKnown
    · exact h.known_after hUnforged hRan hPoint
  · intro u r hU
    rcases Tables.getElem?_set_cases hU with ⟨rfl, hNew⟩ | ⟨-, hOld⟩
    · exact absurd hNew.symm Point.after_start
    · exact h.started hOld
  · intro u copy token hU
    rcases Tables.getElem?_set_cases hU with ⟨rfl, hNew⟩ | ⟨-, hOld⟩
    · rcases Point.after_confirming hNew.symm with rfl | ⟨request, rfl, rfl⟩
      · exact h.confirms hPoint
      · have hRequest : request = .confirmEmailChange token := hAllows
        rw [← hRequest]
        exact h.started hPoint
    · exact h.confirms hOld

theorem Sound.changes (h : Sound requests c pts) (hTracks : Tracks store proving (requests.map Point.start) c pts)
    {l : Label (Except Err Unit) Event} (hStep : store.step l c = some c') : ChangesProved requests c l c' := by
  intro user hMem user' hMem' hId hChanged
  have hUnchanged : ∀ stored ∈ c.state.users, stored.id = user'.id → user'.email ≠ stored.email := by
    intro stored hStored hIdS hSame
    rw [Tables.eq_of_id h.ids hStored hMem (hIdS.trans hId)] at hSame
    exact hChanged hSame
  cases l with
  | run t a =>
    obtain ⟨o, th, k, hRan⟩ := Store.run_cases hStep
    obtain ⟨pt, pt', hPoint, ⟨hAllows, -⟩, -⟩ := hTracks.ran hRan
    obtain ⟨stored, hOld, hIdS, hSame | ⟨token, copy, rfl, hPending⟩⟩ := h.written hRan hAllows hMem'
    · exact absurd hSame (hUnchanged stored hOld hIdS)
    · obtain ⟨hMail, -⟩ := h.proved_pending hPoint hPending
      exact ⟨t, a, token, rfl, h.confirms hPoint, hMail⟩
  | stop t =>
    obtain ⟨th, -, rfl⟩ := Store.stop_cases hStep
    exact absurd rfl (hUnchanged user' hMem' rfl)
  | event e =>
    cases hStep
    exact absurd rfl (hUnchanged user' hMem' rfl)

end Run

theorem sound_start {env : Env} {w₀ : World} {requests : List Request} (h : w₀.IsRegistered) :
    Sound requests (State.start env w₀ requests) (requests.map Point.start) := by
  have hStart : ∀ pt ∈ requests.map Point.start, ∃ r, pt = .start r := by
    intro pt hMem
    obtain ⟨r, -, rfl⟩ := List.mem_map.mp hMem
    exact ⟨r, rfl⟩
  refine ⟨h.ids, h.mails, ?_, ?_, ?_, ?_, fun id => ?_, ?_⟩
  · intro user hMem hash hHash
    rw [(h.unchanged user hMem).2] at hHash
    cases hHash
  · intro pt hMem
    obtain ⟨r, rfl⟩ := hStart pt hMem
    trivial
  · intro t r hPoint
    rw [List.getElem?_map, Option.map_eq_some_iff] at hPoint
    obtain ⟨r', hRequest, hSame⟩ := hPoint
    cases hSame
    exact hRequest
  · intro t user token hPoint
    obtain ⟨r, hSame⟩ := hStart _ (List.mem_of_getElem? hPoint)
    cases hSame
  · by_cases hExists : ∃ user ∈ w₀.users, user.id = id
    · obtain ⟨user, hMem, hId⟩ := hExists
      refine .inr ⟨user.email, fun user' hMem' hId' => ?_, fun pt hPoint copy hCopy => ?_⟩
      · have hSame : user' = user := Tables.eq_of_id h.ids hMem' hMem (hId'.trans hId.symm)
        subst hSame
        exact ⟨rfl, h.addressed user' hMem⟩
      · obtain ⟨r, rfl⟩ := hStart pt hPoint
        cases hCopy
    · exact .inl fun user hMem hId => absurd ⟨user, hMem, hId⟩ hExists
  · intro user hMem hVerified
    rw [h.unverified user hMem] at hVerified
    cases hVerified

/-- While a saved hash stays beside the address that its token was mailed to, an
account's address changes only to one that a presented token was mailed to, and the
address of a verified account is proved. -/
theorem emails_proved {env : Env} {w₀ : World} {requests : List Request} {c : State} (hRegistered : w₀.IsRegistered)
    (h : store.Reach (fun c l => unforged c l && addressKept c l) (State.start env w₀ requests) c) :
    VerifiedProved c ∧ ∀ l c', store.step l c = some c' → ChangesProved requests c l c' := by
  have hTracks : Tracks store proving (requests.map Point.start) (State.start env w₀ requests) (requests.map Point.start) :=
    Tracks.initial fun r _ => r.program_follows env
  obtain ⟨pts, hTracks', hSound⟩ := Tracks.invariant (I := Sound requests) hTracks (sound_start hRegistered)
    (fun _ hSound hGuard hRan hPoint hMove _ => by
      rw [Bool.and_eq_true] at hGuard
      exact hMove.2 ▸ hSound.ran hGuard.1 hGuard.2 hRan hPoint hMove.1)
    (fun _ hSound _ _ => ⟨hSound.ids, hSound.mails, hSound.hashes, hSound.known, hSound.started, hSound.confirms, hSound.settled,
      hSound.verified⟩)
    (fun {c pts e} _ hSound _ => by
      cases e
      refine ⟨hSound.ids, hSound.mails, hSound.hashes, fun pt hMem => ?_, hSound.started, hSound.confirms, fun id => ?_, hSound.verified⟩
      · have hKnown := hSound.known pt hMem
        cases pt <;> exact hKnown
      · rcases hSound.settled id with hProved | ⟨email, hUnmoved⟩
        · exact .inl hProved
        · exact .inr ⟨email, hUnmoved.stored, hUnmoved.copies⟩) h
  exact ⟨hSound.verified, fun l c' hStep => hSound.changes hTracks' hStep⟩

/-! ### Two changes at once -/

def annAddress : Text := "ann@home.com".toList

def workAddress : Text := "ann@work.com".toList

def bobAddress : Text := "bob@home.com".toList

def ann : User where
  id := 1
  email := annAddress
  passwordHash := "secret"
  emailVerificationTokenHash := some 0
  emailVerificationExpiresAt := some EMAIL_VERIFICATION_TTL_MS

def annWorld : World := { users := [ann], addressees := [annAddress], mailed := [⟨annAddress, 0⟩] }

theorem annWorld_isRegistered : annWorld.IsRegistered := by
  refine ⟨by decide, ?_, ?_, ?_, ?_⟩
  · intro user hMem
    cases List.mem_singleton.mp hMem
    rfl
  · intro user hMem
    cases List.mem_singleton.mp hMem
    exact ⟨rfl, rfl⟩
  · intro user hMem hash hHash
    cases List.mem_singleton.mp hMem
    cases hHash
    rfl
  · intro mail hMem
    cases List.mem_singleton.mp hMem
    rfl

def moveToWork : List Request := [.verifyEmail 0, .requestEmailChange 1 workAddress "secret", .confirmEmailChange 1]

theorem ann_email_proved : ∃ c : State, (c.state.users.all fun user => user.email = workAddress && user.emailVerifiedAt.isSome) = true ∧
    VerifiedProved c ∧ ∀ l c', store.step l c = some c' → ChangesProved moveToWork c l c' := by
  obtain ⟨c, hReach, hMoved⟩ := store.exists_of_exec (fun c l => unforged c l && addressKept c l) (State.start {} annWorld moveToWork)
    (List.flatten [.run 0 (.ok ()) :: List.replicate 6 (.run 1 (.ok ())), List.replicate 3 (.run 2 (.ok ()))])
    (fun c : State => c.state.users.all fun user => user.email = workAddress && user.emailVerifiedAt.isSome) (by decide +kernel)
  exact ⟨c, hMoved, emails_proved annWorld_isRegistered hReach⟩

def twoChanges : List Request :=
  [.requestEmailChange 1 workAddress "secret", .requestEmailChange 1 workAddress "secret", .requestEmailChange 1 bobAddress "secret",
    .confirmEmailChange 3]

def twoChangesRun : List (Label (Except Err Unit) Event) :=
  List.replicate 6 (.run 0 (.ok ())) ++ [.run 1 (.ok ()), .run 1 (.ok ())] ++ List.replicate 6 (.run 2 (.ok ())) ++
    List.replicate 4 (.run 1 (.ok ())) ++ [.run 3 (.ok ()), .run 3 (.ok ())]

/-- The account is given the address of the third request by the token that was
mailed for the second. -/
theorem email_unproved : ¬ ∀ (env : Env) (w₀ : World) (requests : List Request) (c : State), w₀.IsRegistered →
    store.Reach (fun c l => unforged c l) (State.start env w₀ requests) c →
      VerifiedProved c ∧ ∀ l c', store.step l c = some c' → ChangesProved requests c l c' := by
  intro hClaim
  obtain ⟨c, hReach, hTaken⟩ := store.exists_of_exec unforged (State.start {} annWorld twoChanges) twoChangesRun
    (fun c : State => (c.state.users.all fun user => user.id = 1 && user.email = annAddress) && !c.state.users.isEmpty &&
      (c.state.mailed.all fun mail => mail.token ≠ 3 || mail.recipient = workAddress) &&
      (store.step (.run 3 (.ok ())) c).any fun c' => c'.state.users.any fun user => user.id = 1 && user.email = bobAddress)
    (by decide +kernel)
  simp only [Bool.and_eq_true, List.all_eq_true, Option.any_eq_true, List.any_eq_true, decide_eq_true_eq, Bool.or_eq_true,
    Bool.not_eq_true', List.isEmpty_eq_false_iff, ne_eq, decide_not, decide_eq_false_iff_not] at hTaken
  obtain ⟨⟨⟨hAnn, hSome⟩, hMails⟩, c', hStep, user', hMem', hId', hBob⟩ := hTaken
  obtain ⟨user, hMem⟩ := List.exists_mem_of_ne_nil _ hSome
  obtain ⟨hId, hEmail⟩ := hAnn user hMem
  have hChanged : user'.email ≠ user.email := by
    rw [hBob, hEmail]
    decide
  obtain ⟨t, a, token, hLabel, hRequest, mail, hMail, rfl, hReached⟩ :=
    (hClaim {} annWorld twoChanges c annWorld_isRegistered hReach).2 _ c' hStep user hMem user' hMem' (hId'.trans hId.symm) hChanged
  cases hLabel
  have hToken : mail.token = 3 := by
    injection Option.some.inj (hRequest : some (Request.confirmEmailChange 3) = _) with hSame
    exact hSame.symm
  rcases hMails mail hMail with hNot | hWork
  · exact hNot hToken
  · rw [Mail.Reached, hWork, hBob] at hReached
    revert hReached
    decide

end RestaurantOs.Accounts
