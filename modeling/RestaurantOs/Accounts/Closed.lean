import RestaurantOs.Accounts.ClosedRequests
import RestaurantOs.Async.Beside
import RestaurantOs.Data.Traversals

/-!
# Closed accounts

Signing in asks whether the account is active. Accepting an invitation and changing
the password sign in as well and do not ask; editing the profile asks neither. A
closed account stays closed in the runs in which none of them comes to one.
-/

namespace RestaurantOs.ClosedAccounts

open Async Prog
open Memberships (AgencyMembership Token)
open Sessions (Env RefreshToken)

/-! ## The vocabulary -/

def closed (w : World) (id : Id) : Bool := w.accounts.all fun account => account.id ≠ id || !account.isActive

def erased (w : World) (id : Id) : Bool :=
  w.accounts.any (·.id = id) && w.accounts.all fun account => account.id ≠ id || account.deletedAt.isSome

def tokensOf (w : World) (id : Id) : List Sessions.Issued × List AccessToken :=
  (w.issued.filter (·.token.userId = id), w.accessTokens.filter (·.userId = id))

def PutsNothingBack (id : Id) (w w' : World) : Prop :=
  List.Forall₂ (fun before after : Account => before.id = id →
    (after.name = before.name ∨ after.name = Account.deletedName) ∧
      (after.email = before.email ∨ after.email = Account.deletedEmail id) ∧
      (after.phone = before.phone ∨ after.phone = none)) w.accounts w'.accounts

/-- The operation signs in to an account that is closed, and was when the request
began, or edits the profile of one that was deleted. -/
def reopens (began w : World) : Op → Bool
  | .session (.savePassword userId _) => closed began userId && closed w userId
  | .acceptInvite token _ => (w.accounts.find? (w.invited token)).any fun account => closed began account.id && closed w account.id
  | .freshUser userId => closed began userId && closed w userId
  | .updateProfile userId _ => erased began userId && erased w userId
  | _ => false

def permitted (c : State) : Label (Except Err Unit) Event → Bool
  | .run t _ => c.threads[t]?.all fun th => th.next?.all fun o => !reopens (th.born.getD c.state) c.state o
  | _ => true

def notStarted (c : State) (t : Nat) : Bool := c.threads[t]?.any fun th => th.born.isNone

def answered (c : State) (t : Nat) : Bool := c.threads[t]?.any fun th =>
  match th.prog with
  | .ret _ => true
  | _ => false

theorem thread_of_notStarted {c : State} {t : Nat} (h : notStarted c t = true) : ∃ th, c.threads[t]? = some th ∧ th.born = none := by
  obtain ⟨th, hThread, hBorn⟩ := (Option.any_eq_true _ _).mp h
  exact ⟨th, hThread, Option.isNone_iff_eq_none.mp hBorn⟩

theorem ended_of_answered {c : State} {t : Nat} (h : answered c t = true) : ∃ th, c.threads[t]? = some th ∧ th.prog = .ret () := by
  obtain ⟨th, hThread, hProg⟩ := (Option.any_eq_true _ _).mp h
  refine ⟨th, hThread, ?_⟩
  split at hProg
  · assumption
  · cases hProg

theorem not_reopens {c c' : State} {t : Nat} {a : Except Err Unit} {o : Op} {th : Thread Op Op.Resp Err World Unit}
    {k : Except Err o.Resp → Promise Unit} (hPermitted : permitted c (.run t a)) (hRan : store.Ran c t a o th k c') :
    reopens (th.born.getD c.state) c.state o = false := by
  rw [permitted, hRan.thread, Option.all_some, Thread.next?, hRan.prog] at hPermitted
  have hNot : (!reopens (th.born.getD c.state) c.state o) = true := hPermitted
  simpa using hNot

theorem closed_iff {w : World} {id : Id} :
    closed w id = true ↔ ∀ account ∈ w.accounts, account.id = id → account.isActive = false := by
  simp [closed, imp_iff_not_or]

theorem erased_iff {w : World} {id : Id} :
    erased w id = true ↔ (∃ account ∈ w.accounts, account.id = id) ∧
      ∀ account ∈ w.accounts, account.id = id → account.deletedAt.isSome = true := by
  simp [erased, imp_iff_not_or]

/-! ## What a request knows -/

def vouch : (o : Sessions.Op) → Except Err o.Resp → List Id → List Id
  | .findUserByEmail _, .ok (some user), ids | .findUserById _, .ok (some user), ids => if user.isActive then user.id :: ids else ids
  | .savePassword userId _, .ok _, ids => userId :: ids
  | _, _, ids => ids

@[reducible] def vouching : Protocol Sessions.Op Sessions.World (Except Err Unit) where
  Point := List Id
  Move o a s ids ids' := (∀ userId parent, o = .set userId parent → userId ∈ ids) ∧ ids' = vouch o (Sessions.store.perform o a s).1 ids
  Rest _ := True

/-- The accounts that a request may sign in to, and those that it has deleted. -/
structure Standing where
  vouched : List Id := []
  deleted : List Id := []

def Standing.after : (o : Op) → Except Err o.Resp → Standing → Standing
  | .session o, r, pt => { pt with vouched := vouch o r pt.vouched }
  | .acceptInvite _ _, .ok (some account), pt => { pt with vouched := account.id :: pt.vouched }
  | .freshUser userId, _, pt => { pt with vouched := userId :: pt.vouched }
  | .saveDeleted loaded _, .ok _, pt => { pt with deleted := loaded.id :: pt.deleted }
  | _, _, pt => pt

@[reducible] def standing : Protocol Op World (Except Err Unit) where
  Point := Standing
  Move o a w pt pt' :=
    (∀ userId parent, o = .session (.set userId parent) → userId ∈ pt.vouched) ∧ pt' = pt.after o (store.perform o a w).1
  Rest _ := True

/-! ## The programs of the sessions -/

abbrev Vouches {α : Type} (p : Sessions.Promise α) (ids : List Id) (Q : α → List Id → Prop) : Prop :=
  p.Follows Sessions.store vouching ids Q fun _ _ => True

section

variable {α : Type} {env : Env} {ids : List Id}

theorem vouches_call {o : Sessions.Op} {Q : o.Resp → List Id → Prop} (hSet : ∀ userId parent, o = .set userId parent → userId ∈ ids)
    (h : ∀ s v, (o.perform s).1 = .ok v → Q v (vouch o (.ok v) ids)) : Vouches (.call o) ids Q := by
  rw [Vouches, follows_call]
  intro a s
  refine ⟨_, ⟨hSet, rfl⟩, ?_⟩
  cases a with
  | error fault => trivial
  | ok a =>
    cases hAnswer : (o.perform s).1 with
    | error err => trivial
    | ok v => exact h s v hAnswer

theorem respondWithSession_vouches {user : Sessions.User} {parent : Option Sessions.Jti} (hUser : user.id ∈ ids) :
    Vouches (Sessions.respondWithSession user parent) ids fun _ _ => True := by
  unfold Sessions.respondWithSession Sessions.issueRefreshToken
  simp only [bind_eq, follows_bind]
  refine vouches_call (fun _ _ h => by cases h) fun _ _ _ => ?_
  refine vouches_call (fun userId _ h => ?_) fun _ _ _ => ?_
  · cases h
    exact hUser
  · exact vouches_call (fun _ _ h => by cases h) fun _ _ _ => trivial

theorem login_vouches {email password : String} : Vouches (Sessions.login env email password) ids fun _ _ => True := by
  unfold Sessions.login
  simp only [bind_eq, follows_bind]
  refine vouches_call (fun _ _ h => by cases h) fun _ user _ => ?_
  cases user with
  | none => trivial
  | some user =>
    dsimp only
    split
    · trivial
    · split
      · trivial
      · rename_i hActive
        have hIsActive : user.isActive = true := by simpa using hActive
        exact respondWithSession_vouches (by simp [vouch, hIsActive])

theorem revokeAll_vouches {userId : Id} : Vouches (Sessions.revokeAllRefreshTokens userId) ids fun _ ids' => ids' = ids := by
  unfold Sessions.revokeAllRefreshTokens
  simp only [bind_eq, follows_bind]
  refine vouches_call (fun _ _ h => by cases h) fun _ keys _ => ?_
  refine follows_onlyIf (fun _ => ?_) fun _ => rfl
  exact vouches_call (fun _ _ h => by cases h) fun _ _ _ => rfl

theorem exchange_vouches {token : RefreshToken} : Vouches (Sessions.exchange token) ids fun _ _ => True := by
  unfold Sessions.exchange
  simp only [bind_eq, follows_bind]
  refine vouches_call (fun _ _ h => by cases h) fun _ user _ => ?_
  cases user with
  | none => trivial
  | some user =>
    dsimp only
    split
    · trivial
    · rename_i hActive
      have hIsActive : user.isActive = true := by simpa using hActive
      simp only [Sessions.revokeRefreshToken, follows_bind]
      refine vouches_call (fun _ _ h => by cases h) fun _ _ _ => ?_
      exact respondWithSession_vouches (by simp [vouch, hIsActive])

theorem refresh_vouches {token : RefreshToken} : Vouches (Sessions.refresh token) ids fun _ _ => True := by
  unfold Sessions.refresh
  simp only [bind_eq, follows_bind, follows_attempt]
  refine (vouches_call (fun _ _ h => by cases h) fun _ _ _ => ?_).mono (fun _ _ h => h) fun _ _ _ => trivial
  refine vouches_call (fun _ _ h => by cases h) fun _ active _ => ?_
  rw [follows_ite]
  constructor
  · intro _
    rw [follows_bind]
    exact (revokeAll_vouches).mono (fun _ _ _ => trivial) fun _ _ _ => trivial
  · exact fun _ => exchange_vouches

theorem resetPassword_vouches {token password : String} : Vouches (Sessions.resetPassword env token password) ids fun _ _ => True := by
  unfold Sessions.resetPassword
  simp only [bind_eq, follows_bind]
  refine vouches_call (fun _ _ h => by cases h) fun _ user _ => ?_
  cases user with
  | none => trivial
  | some user =>
    simp only [follows_bind]
    refine (revokeAll_vouches).mono (fun _ _ _ => ?_) fun _ _ _ => trivial
    exact vouches_call (fun _ _ h => by cases h) fun _ _ _ => trivial

theorem changePassword_vouches {userId : Id} {currentPassword newPassword : String} :
    Vouches (Sessions.changePassword env userId currentPassword newPassword) ids fun _ _ => True := by
  unfold Sessions.changePassword
  simp only [bind_eq, follows_bind]
  refine vouches_call (fun _ _ h => by cases h) fun _ user _ => ?_
  cases user with
  | none => trivial
  | some user =>
    dsimp only
    split
    · trivial
    · simp only [follows_bind]
      refine vouches_call (fun _ _ h => by cases h) fun _ _ _ => ?_
      refine (revokeAll_vouches).mono (fun _ ids' hSame => ?_) fun _ _ _ => trivial
      subst hSame
      exact respondWithSession_vouches List.mem_cons_self

end

/-! ## The requests -/

abbrev Stands {α : Type} (p : Promise α) (pt : Standing) (Q : α → Standing → Prop) : Prop :=
  p.Follows store standing pt Q fun _ _ => True

section

variable {α : Type} {env : Env} {pt : Standing}

theorem stands_call {o : Op} {Q : o.Resp → Standing → Prop} (hSet : ∀ userId parent, o = .session (.set userId parent) → userId ∈ pt.vouched)
    (h : ∀ w v, (o.perform w).1 = .ok v → Q v (pt.after o (.ok v))) : Stands (.call o) pt Q := by
  rw [Stands, follows_call]
  intro a w
  refine ⟨_, ⟨hSet, rfl⟩, ?_⟩
  cases a with
  | error fault => trivial
  | ok a =>
    cases hAnswer : (o.perform w).1 with
    | error err => trivial
    | ok v => exact h w v hAnswer

theorem perform_session {o : Sessions.Op} {a : Except Err Unit} {w : World} :
    (store.perform (.session o) a w).1 = (Sessions.store.perform o a w.sessions).1 := by
  cases a <;> rfl

theorem session_stands {p : Sessions.Promise α} (h : Vouches p pt.vouched fun _ _ => True) :
    Stands (session p) pt fun _ pt' => pt'.deleted = pt.deleted := by
  let point (ids : vouching.Point) : standing.Point := { pt with vouched := ids }
  refine Follows.mono (h.translate point fun o ids R hStep => ?_) ?_ fun _ _ _ => trivial
  · rw [follows_attempt, follows_call]
    intro a w
    obtain ⟨ids', ⟨hSet, rfl⟩, hRest⟩ := hStep a w.sessions
    rw [← perform_session] at hRest
    refine ⟨_, ⟨fun userId parent hEq => hSet userId parent (Op.session.inj hEq), rfl⟩, ?_⟩
    cases hAnswer : (store.perform (.session o) a w).1 <;>
    · rw [hAnswer] at hRest
      exact ⟨_, rfl, hRest⟩
  · rintro v pt' ⟨ids, rfl, -⟩
    rfl

theorem of_find {w : World} {account : Account} {userId : Id}
    (h : (.ok (w.accounts.find? (·.id = userId)) : Except Err (Option Account)) = .ok (some account)) : account.id = userId := by
  have hFound := Except.ok.inj h
  simpa using List.find?_some hFound

theorem requireAuth_stands {token : AccessToken} :
    Stands (requireAuth token) pt fun userId pt' => userId = token.userId ∧ pt' = pt := by
  unfold requireAuth
  simp only [bind_eq, follows_bind, follows_attempt]
  refine (stands_call (fun _ _ h => by cases h) fun _ _ _ => ?_).mono (fun _ _ h => h) fun _ _ _ => trivial
  exact ⟨rfl, rfl⟩

theorem acceptInvite_stands {token : Token} {password : String} : Stands (acceptInvite env token password) pt fun _ _ => True := by
  unfold acceptInvite
  simp only [bind_eq, follows_bind]
  refine stands_call (fun _ _ h => by cases h) fun _ user _ => ?_
  cases user with
  | none => trivial
  | some user =>
    exact (session_stands (respondWithSession_vouches List.mem_cons_self)).mono (fun _ _ _ => trivial) fun _ _ _ => trivial

/-- The operations of an acceptance up to the sign-in. -/
def Accepting : Op → Prop
  | .member _ | .setPassword _ _ _ => True
  | _ => False

theorem acceptanceOp_accepts {passwordHash : String} {o : Memberships.Op} : (acceptanceOp passwordHash o).Performs Accepting := by
  cases o with
  | recordAuditEvent agencyId action => exact (performs_call (o := Op.member _) trivial).attempt.bind fun _ => trivial
  | consumeToken userId token => exact performs_call (o := Op.setPassword userId token passwordHash) trivial
  | _ => exact performs_call (o := Op.member _) trivial

theorem Accepting.stays {o : Op} (h : Accepting o) (a : Except Err Unit) (w : World) : standing.Move o a w pt pt := by
  refine ⟨fun userId parent hEq => by rw [hEq] at h; exact h.elim, ?_⟩
  cases o with
  | member o => rfl
  | setPassword userId token passwordHash => rfl
  | _ => exact h.elim

theorem acceptAgencyInvite_stands {token : Token} {password : Option String} :
    Stands (acceptAgencyInvite env token password) pt fun _ _ => True := by
  unfold acceptAgencyInvite
  simp only [bind_eq, follows_bind]
  have hAccepts : ((Memberships.acceptAgencyInvite token password).translate (acceptanceOp (env.hash (password.getD "")))).Performs
      Accepting := (performs_all _).translate fun _ _ => acceptanceOp_accepts
  refine (hAccepts.follows fun o ho a w => Accepting.stays ho a w).mono (fun response pt' _ => ?_) fun _ _ _ => trivial
  cases response with
  | accepted userId =>
    simp only [follows_bind]
    refine stands_call (fun _ _ h => by cases h) fun w user hFound => ?_
    cases user with
    | none => trivial
    | some user =>
      have hUser : user.id = userId := of_find hFound
      exact (session_stands (respondWithSession_vouches (hUser ▸ List.mem_cons_self))).mono (fun _ _ _ => trivial)
        fun _ _ _ => trivial
  | _ => trivial

theorem updateMe_stands {token : AccessToken} {updates : ProfileUpdates} : Stands (updateMe token updates) pt fun _ _ => True := by
  unfold updateMe
  simp only [bind_eq, follows_bind]
  refine (requireAuth_stands).mono (fun userId pt' _ => ?_) fun _ _ _ => trivial
  refine stands_call (fun _ _ h => by cases h) fun _ user _ => ?_
  cases user with
  | none => trivial
  | some user =>
    simp only [follows_bind]
    refine (session_stands (vouches_call (fun _ _ h => by cases h) fun _ _ _ => trivial)).mono (fun _ _ _ => ?_) fun _ _ _ => trivial
    exact (session_stands (vouches_call (fun _ _ h => by cases h) fun _ _ _ => trivial)).mono (fun _ _ _ => trivial)
      fun _ _ _ => trivial

theorem deleteMe_stands {token : AccessToken} {currentPassword secret : String} :
    Stands (deleteMe env token currentPassword secret) pt fun _ pt' => token.userId ∈ pt'.deleted := by
  unfold deleteMe
  simp only [bind_eq, follows_bind]
  refine (requireAuth_stands).mono ?_ fun _ _ _ => trivial
  rintro userId pt' ⟨rfl, rfl⟩
  refine stands_call (fun _ _ h => by cases h) fun w user hFound => ?_
  cases user with
  | none => trivial
  | some user =>
    have hUser : user.id = token.userId := of_find hFound
    dsimp only
    split
    · trivial
    · split
      · trivial
      · simp only [follows_bind]
        refine stands_call (fun _ _ h => by cases h) fun _ _ _ => ?_
        refine (session_stands ((revokeAll_vouches).mono (fun _ _ _ => trivial) fun _ _ _ => trivial)).mono
          (fun _ pt₁ hRevoked => ?_) fun _ _ _ => trivial
        refine (session_stands (vouches_call (fun _ _ h => by cases h) fun _ _ _ => trivial)).mono (fun _ pt₂ hSent => ?_)
          fun _ _ _ => trivial
        rw [hSent, hRevoked, ← hUser]
        exact List.mem_cons_self

theorem program_stands {request : Request} : Stands (request.program env) pt fun _ _ => True := by
  have hSession {p : Sessions.Promise Unit} (h : Vouches p pt.vouched fun _ _ => True) : Stands (session p) pt fun _ _ => True :=
    (session_stands h).mono (fun _ _ _ => trivial) fun _ _ _ => trivial
  cases request with
  | login email password => exact hSession login_vouches
  | refresh token => exact hSession refresh_vouches
  | resetPassword token password => exact hSession resetPassword_vouches
  | acceptInvite token password => exact acceptInvite_stands
  | acceptAgencyInvite token password => exact acceptAgencyInvite_stands
  | updateMe token updates => exact updateMe_stands
  | deleteMe token currentPassword secret => exact (deleteMe_stands).mono (fun _ _ _ => trivial) fun _ _ _ => trivial
  | changePassword token currentPassword newPassword =>
    rw [Request.program, changePassword, bind_eq, Stands, follows_bind]
    refine (requireAuth_stands).mono (fun userId pt' _ => ?_) fun _ _ _ => trivial
    exact (session_stands changePassword_vouches).mono (fun _ _ _ => trivial) fun _ _ _ => trivial

end

/-! ## What an operation leaves of an account -/

structure Left (o : Op) (before after : Account) : Prop where
  id : after.id = before.id
  deletedAt : before.deletedAt.isSome = true → after.deletedAt.isSome = true
  contact : (∀ updates, o ≠ .updateProfile before.id updates) →
    (after.name = before.name ∨ after.name = Account.deletedName) ∧
      (after.email = before.email ∨ after.email = Account.deletedEmail before.id) ∧
      (after.phone = before.phone ∨ after.phone = none)

section

variable {o : Op} {w : World} {account : Account}

theorem Left.of_eq {after : Account} (hId : after.id = account.id) (hEmail : after.email = account.email)
    (hName : after.name = account.name) (hPhone : after.phone = account.phone) (hDeleted : after.deletedAt = account.deletedAt) :
    Left o account after where
  id := hId
  deletedAt := fun h => by rw [hDeleted]; exact h
  contact := fun _ => ⟨.inl hName, .inl hEmail, .inl hPhone⟩

theorem Left.refl : Left o account account := .of_eq rfl rfl rfl rfl rfl

theorem left_all : List.Forall₂ (Left o) w.accounts w.accounts := List.forall₂_same.mpr fun _ _ => .refl

theorem left_update {sel : Account → Bool} {f : Account → Account} (h : ∀ account, sel account = true → Left o account (f account)) :
    List.Forall₂ (Left o) w.accounts (w.updateAccounts sel f).accounts :=
  Tables.forall₂_update h fun _ => .refl

theorem users_perform (o : Sessions.Op) (s : Sessions.World) : ∃ g : Sessions.User → Sessions.User,
    (∀ user, (g user).id = user.id ∧ (g user).email = user.email) ∧ (o.perform s).2.users = s.users.map g := by
  have hUpdate {sel : Sessions.User → Bool} {f : Sessions.User → Sessions.User}
      (hf : ∀ user, (f user).id = user.id ∧ (f user).email = user.email) :
      ∃ g : Sessions.User → Sessions.User, (∀ user, (g user).id = user.id ∧ (g user).email = user.email) ∧
        (s.updateUser sel f).2.users = s.users.map g := by
    rw [Sessions.World.updateUser]
    split
    · exact ⟨id, fun _ => ⟨rfl, rfl⟩, s.users.map_id.symm⟩
    · rename_i user _
      refine ⟨fun other => if decide (other.id = user.id) then f other else other, fun other => ?_, rfl⟩
      dsimp only
      split
      · exact hf other
      · exact ⟨rfl, rfl⟩
  cases o with
  | resetUser tokenHash passwordHash => exact hUpdate fun _ => ⟨rfl, rfl⟩
  | savePassword userId passwordHash => exact hUpdate fun _ => ⟨rfl, rfl⟩
  | _ => exact ⟨id, fun _ => ⟨rfl, rfl⟩, s.users.map_id.symm⟩

theorem left_withSessions {o' : Sessions.Op} : List.Forall₂ (Left o) w.accounts (w.withSessions (o'.perform w.sessions).2).accounts := by
  obtain ⟨g, hg, hUsers⟩ := users_perform o' w.sessions
  rw [World.withSessions, hUsers, World.sessions, List.map_map, List.zipWith_map_right, List.zipWith_self,
    List.forall₂_map_right_iff]
  exact List.forall₂_same.mpr fun account _ => .of_eq (hg account.toUser).1 (hg account.toUser).2 rfl rfl rfl

theorem length_members {o : Memberships.Op} {m : Memberships.World} : m.users.length ≤ (o.perform m).2.users.length := by
  have hUpdate {sel : Memberships.User → Bool} {f : Memberships.User → Memberships.User} :
      m.users.length ≤ (m.updateUsers sel f).users.length := by
    simp [Memberships.World.updateUsers, Tables.update]
  cases o with
  | createUser email token expiresAt =>
    rw [Memberships.Op.perform]
    split
    · exact Nat.le_refl _
    · simp
  | createMembership agencyId userId role invitedBy token expiresAt =>
    rw [Memberships.Op.perform]
    split <;> exact Nat.le_refl _
  | saveUser loaded saved => exact hUpdate
  | consumeToken userId token => exact hUpdate
  | setAgencyMember userId => exact hUpdate
  | _ => exact Nat.le_refl _

theorem left_withMembers {w' : World} {m : Memberships.World} (h : List.Forall₂ (Left o) w.accounts w'.accounts)
    (hLength : w'.accounts.length ≤ m.users.length) : List.Forall₂ (Left o) w.accounts (w'.withMembers m).accounts :=
  Traversals.forall₂_zipWith h hLength fun _ _ _ hLeft => ⟨hLeft.id, hLeft.deletedAt, hLeft.contact⟩

theorem left_besides {w' : World} {o' : Sessions.Op} (h : List.Forall₂ (Left o) w.accounts w'.accounts) :
    List.Forall₂ (Left o) w.accounts (w'.besides o').accounts := by
  cases o' with
  | savePassword userId passwordHash =>
    refine (List.forall₂_map_right_iff.mpr (h.imp fun before after hLeft => ?_) :)
    split <;> exact ⟨hLeft.id, hLeft.deletedAt, hLeft.contact⟩
  | _ => exact h

theorem overwrite_cases {β : Type} [DecidableEq β] (loaded saved stored : β) :
    overwrite loaded saved stored = stored ∨ overwrite loaded saved stored = saved := by
  unfold overwrite
  split
  · exact .inl rfl
  · exact .inr rfl

theorem contact_scrubbed {loaded : Account} {now : Time} {passwordHash : String} (hId : account.id = loaded.id) :
    Left o account (loaded.saveOver (loaded.scrubbed now passwordHash) account) where
  id := rfl
  deletedAt := fun _ => rfl
  contact := fun _ => by
    refine ⟨?_, ?_, ?_⟩
    · exact overwrite_cases ..
    · rw [hId]
      exact overwrite_cases ..
    · exact overwrite_cases ..

theorem perform_leaves (o : Op) (a : Except Err Unit) (w : World) :
    List.Forall₂ (Left o) w.accounts (store.perform o a w).2.accounts := by
  cases a with
  | error fault => exact left_all
  | ok a =>
    cases o with
    | session o => exact left_besides left_withSessions
    | member o =>
      have hLength := length_members (o := o) (m := w.members)
      rw [World.members, List.length_map] at hLength
      exact left_withMembers left_all hLength
    | setPassword userId token passwordHash =>
      refine left_withMembers (left_update fun account _ => .of_eq rfl rfl rfl rfl rfl) ?_
      simp [World.updateAccounts, Tables.update, World.members, Memberships.World.updateUsers]
    | acceptInvite token passwordHash =>
      change List.Forall₂ _ _ (Op.perform _ w).2.accounts
      rw [Op.perform]
      split
      · exact left_all
      · exact left_update fun account _ => .of_eq rfl rfl rfl rfl rfl
    | updateProfile userId updates =>
      refine left_update fun account hSel => ⟨rfl, fun h => h, fun hOther => ?_⟩
      exact absurd (congrArg (Op.updateProfile · updates) (of_decide_eq_true hSel).symm) (hOther updates)
    | saveDeleted loaded passwordHash =>
      change List.Forall₂ _ _ (Op.perform _ w).2.accounts
      rw [Op.perform]
      split
      · exact left_all
      · split
        · exact left_all
        · exact left_update fun account hSel => contact_scrubbed (of_decide_eq_true hSel)
    | _ => exact left_all

end

/-! ## What stays -/

section

variable {w : World} {id : Id}

theorem erased_of_forall₂ {w' : World} {R : Account → Account → Prop} (h : List.Forall₂ R w.accounts w'.accounts)
    (hR : ∀ before after, R before after → after.id = before.id ∧ (before.deletedAt.isSome = true → after.deletedAt.isSome = true))
    (hErased : erased w id = true) : erased w' id = true := by
  rw [erased_iff] at hErased ⊢
  obtain ⟨⟨account, hAccount, hId⟩, hAll⟩ := hErased
  constructor
  · obtain ⟨after, hAfter, hLeft⟩ := Traversals.exists_of_forall₂ h hAccount
    exact ⟨after, hAfter, (hR _ _ hLeft).1.trans hId⟩
  · intro after hAfter hAfterId
    obtain ⟨before, hBefore, hLeft⟩ := Traversals.exists_of_forall₂ h.flip hAfter
    have hKept := hR _ _ hLeft
    exact hKept.2 (hAll before hBefore (hKept.1.symm.trans hAfterId))

theorem erased_perform {o : Op} {a : Except Err Unit} (h : erased w id = true) : erased (store.perform o a w).2 id = true :=
  erased_of_forall₂ (perform_leaves o a w) (fun _ _ hLeft => ⟨hLeft.id, hLeft.deletedAt⟩) h

theorem erased_advance {e : Event} (h : erased w id = true) : erased (e.advance w) id = true := by
  have hUpdate {sel : Account → Bool} {f : Account → Account}
      (hf : ∀ account, (f account).id = account.id ∧ (f account).deletedAt = account.deletedAt) :
      erased (w.updateAccounts sel f) id = true :=
    erased_of_forall₂ (R := fun before after => after.id = before.id ∧ after.deletedAt = before.deletedAt)
      (Tables.forall₂_update (fun account _ => hf account) fun _ => ⟨rfl, rfl⟩)
      (fun _ _ hKept => ⟨hKept.1, fun hSome => hKept.2 ▸ hSome⟩) h
  cases e with
  | setStatus userId isActive => exact hUpdate fun _ => ⟨rfl, rfl⟩
  | sendReset userId tokenHash expiresAt => exact hUpdate fun _ => ⟨rfl, rfl⟩
  | sendInvite userId token expiresAt => exact hUpdate fun _ => ⟨rfl, rfl⟩
  | register account =>
    rw [Event.advance]
    split
    · exact h
    · rename_i hFresh
      obtain ⟨⟨held, hHeld, hId⟩, hAll⟩ := erased_iff.mp h
      refine erased_iff.mpr ⟨⟨held, List.mem_append_left _ hHeld, hId⟩, fun other hOther hOtherId => ?_⟩
      rcases List.mem_append.mp hOther with hOther | hOther
      · exact hAll other hOther hOtherId
      · cases List.mem_singleton.mp hOther
        exact absurd (List.any_eq_true.mpr ⟨held, hHeld, decide_eq_true (hId.trans hOtherId.symm)⟩) hFresh
  | _ => exact h

theorem erased_saved {loaded : Account} {passwordHash : String} {a : Except Err Unit} {v : Unit}
    (h : (store.perform (.saveDeleted loaded passwordHash) a w).1 = .ok v) :
    erased (store.perform (.saveDeleted loaded passwordHash) a w).2 loaded.id = true := by
  cases a with
  | error fault => cases h
  | ok a =>
    change (Op.perform _ w).1 = _ at h
    change erased (Op.perform _ w).2 _ = _
    rw [Op.perform] at h ⊢
    split at h
    · cases h
    · split at h
      · cases h
      · rename_i hFound hFree
        rw [if_neg hFound, if_neg hFree]
        obtain ⟨account, hAccount, hId⟩ : ∃ account ∈ w.accounts, account.id = loaded.id := by simpa using hFound
        refine erased_iff.mpr ⟨⟨_, Tables.mem_update.mpr ⟨account, hAccount, rfl⟩, ?_⟩, fun saved hSaved hSavedId => ?_⟩
        · rw [if_pos (decide_eq_true hId)]
          exact hId
        · obtain ⟨stored, -, rfl⟩ := Tables.mem_update.mp hSaved
          split at hSavedId
          · rw [if_pos ‹_›]
            rfl
          · rename_i hOther
            exact absurd (decide_eq_true hSavedId) hOther

theorem tokens_perform {o : Op} {a : Except Err Unit} (h : ∀ parent, o ≠ .session (.set id parent)) :
    tokensOf (store.perform o a w).2 id = tokensOf w id := by
  cases a with
  | error fault => rfl
  | ok a =>
    cases o with
    | session o =>
      cases o with
      | set userId parent =>
        have hOther : userId ≠ id := fun hEq => h parent (by rw [hEq])
        simp [tokensOf, Op.perform, Sessions.Op.perform, World.besides, World.withSessions, World.sessions, hOther]
      | resetUser tokenHash passwordHash =>
        change tokensOf (World.withSessions w (Sessions.World.updateUser _ _ _).2) id = _
        rw [Sessions.World.updateUser]
        split <;> rfl
      | savePassword userId passwordHash =>
        change tokensOf (World.besides (World.withSessions w (Sessions.World.updateUser _ _ _).2) _) id = _
        rw [Sessions.World.updateUser]
        split <;> rfl
      | _ => rfl
    | acceptInvite token passwordHash =>
      change tokensOf (Op.perform _ w).2 id = _
      rw [Op.perform]
      split <;> rfl
    | saveDeleted loaded passwordHash =>
      change tokensOf (Op.perform _ w).2 id = _
      rw [Op.perform]
      split
      · rfl
      · split <;> rfl
    | _ => rfl

end

/-! ## The run -/

section

variable {env : Env} {w₀ : World} {requests : List Request} {c c' c₁ c₂ c₃ : State} {t : Nat} {a : Except Err Unit} {id : Id}
  {pt pt' : Standing} {o : Op} {th : Thread Op Op.Resp Err World Unit} {k : Except Err o.Resp → Promise Unit}

theorem not_vouched (hClosed : closed c.state id = true) (hBorn : BornIn (closed · id = true) t c)
    (hPermitted : permitted c (.run t a) = true) (hRan : store.Ran c t a o th k c') (hMove : standing.Move o a c.state pt pt')
    (hNot : id ∉ pt.vouched) : id ∉ pt'.vouched := by
  have hBegan : closed (th.born.getD c.state) id = true := hBorn.getD hClosed hRan.thread
  have hReopens := not_reopens hPermitted hRan
  have hInactive := closed_iff.mp hClosed
  obtain ⟨-, rfl⟩ := hMove
  cases o with
  | session o =>
    rw [perform_session]
    have hFound {sel : Sessions.User → Bool} {user : Sessions.User} (hUser : c.state.sessions.users.find? sel = some user) :
        id ∉ if user.isActive = true then user.id :: pt.vouched else pt.vouched := by
      split
      · rename_i hActive
        obtain ⟨account, hAccount, rfl⟩ := List.mem_map.mp (List.mem_of_find?_eq_some hUser)
        refine List.not_mem_cons_of_ne_of_not_mem (fun hId => ?_) hNot
        rw [hInactive account hAccount hId.symm] at hActive
        cases hActive
      · exact hNot
    cases o with
    | findUserByEmail email =>
      cases a with
      | error fault => exact hNot
      | ok a =>
        change id ∉ vouch (.findUserByEmail email) (.ok (c.state.sessions.users.find? (·.email = email))) pt.vouched
        cases hUser : c.state.sessions.users.find? (·.email = email) with
        | none => exact hNot
        | some user => exact hFound hUser
    | findUserById userId =>
      cases a with
      | error fault => exact hNot
      | ok a =>
        change id ∉ vouch (.findUserById userId) (.ok (c.state.sessions.users.find? (·.id = userId))) pt.vouched
        cases hUser : c.state.sessions.users.find? (·.id = userId) with
        | none => exact hNot
        | some user => exact hFound hUser
    | savePassword userId passwordHash =>
      cases a with
      | error fault => exact hNot
      | ok a =>
        refine List.not_mem_cons_of_ne_of_not_mem (fun hId => ?_) hNot
        subst hId
        rw [reopens, hBegan, hClosed] at hReopens
        cases hReopens
    | _ => exact hNot
  | acceptInvite token passwordHash =>
    cases a with
    | error fault => exact hNot
    | ok a =>
      change id ∉ (pt.after (.acceptInvite token passwordHash) (Op.perform (.acceptInvite token passwordHash) c.state).1).vouched
      rw [Op.perform]
      cases hAccount : c.state.accounts.find? (c.state.invited token) with
      | none => exact hNot
      | some account =>
        refine List.not_mem_cons_of_ne_of_not_mem (fun hId => ?_) hNot
        obtain rfl : id = account.id := hId
        rw [reopens, hAccount, Option.any_some, hBegan, hClosed] at hReopens
        cases hReopens
  | freshUser userId =>
    refine List.not_mem_cons_of_ne_of_not_mem (fun hId => ?_) hNot
    subst hId
    rw [reopens, hBegan, hClosed] at hReopens
    cases hReopens
  | saveDeleted loaded passwordHash =>
    generalize (store.perform (.saveDeleted loaded passwordHash) a c.state).1 = r
    cases r <;> exact hNot
  | _ => exact hNot

/-- What is known beside the request of an account that was closed before it started. -/
structure Shut (id : Id) (t : Nat) (c : State) (pt : Standing) : Prop where
  began : BornIn (closed · id = true) t c
  notVouched : id ∉ pt.vouched

theorem no_tokens {id : Id} (hBefore : store.Reach (fun _ _ => True) (State.start env w₀ requests) c₁) (hLater : notStarted c₁ t = true)
    (hReach : store.Reach (fun c l => permitted c l && closed c.state id) c₁ c₂)
    (hStep : store.step (.run t a) c₂ = some c₃) : tokensOf c₃.state id = tokensOf c₂.state id := by
  obtain ⟨th, hThread, hUnborn⟩ := thread_of_notStarted hLater
  obtain ⟨request, -, hProg⟩ := List.mem_map.mp (List.mem_of_getElem? (hBefore.prog_of_unborn hThread hUnborn))
  have hStands : th.prog.Follows store standing {} (fun _ _ => True) fun _ _ => True := hProg ▸ program_stands
  obtain ⟨th₂, pt, hThread₂, hFollows, hShut⟩ := hReach.beside (I := Shut id t) hThread hStands
    ⟨.of_unborn hThread hUnborn, List.not_mem_nil⟩
    (fun hShut hOk hRan hMove => by
      rw [Bool.and_eq_true] at hOk
      exact ⟨hShut.began.own hOk.2 hRan, not_vouched hOk.2 hShut.began hOk.1 hRan hMove hShut.notVouched⟩)
    fun hShut _ hStep hNot => ⟨hShut.began.other hStep hNot, hShut.notVouched⟩
  obtain ⟨o, th₂', k, hRan⟩ := Store.run_cases hStep
  cases hRan.thread.symm.trans hThread₂
  rw [hRan.prog] at hFollows
  obtain ⟨pt', ⟨hSet, -⟩, -⟩ := hFollows a c₂.state
  rw [hRan.state]
  exact tokens_perform fun parent hEq => hShut.notVouched (hSet id parent hEq)

theorem erased_step {l : Label (Except Err Unit) Event} (h : erased c.state id = true) (hStep : store.step l c = some c') :
    erased c'.state id = true := by
  cases l with
  | run u a =>
    obtain ⟨o, thU, k, hRan⟩ := Store.run_cases hStep
    rw [hRan.state]
    exact erased_perform h
  | stop u =>
    obtain ⟨thU, hThreadU, rfl⟩ := Store.stop_cases hStep
    exact h
  | event e =>
    cases hStep
    exact erased_advance h

def Erases (c : State) (pt : Standing) : Prop := ∀ id ∈ pt.deleted, erased c.state id = true

theorem erases_own (h : Erases c pt) (hRan : store.Ran c t a o th k c') (hMove : standing.Move o a c.state pt pt') : Erases c' pt' := by
  intro id hId
  rw [hRan.state]
  obtain ⟨-, rfl⟩ := hMove
  by_cases hOld : id ∈ pt.deleted
  · exact erased_perform (h id hOld)
  · cases o with
    | saveDeleted loaded passwordHash =>
      cases hAnswer : (store.perform (.saveDeleted loaded passwordHash) a c.state).1 with
      | error err =>
        rw [hAnswer] at hId
        exact absurd hId hOld
      | ok v =>
        rw [hAnswer] at hId
        obtain rfl : id = loaded.id := (List.mem_cons.mp hId).resolve_right hOld
        exact erased_saved hAnswer
    | acceptInvite token passwordHash =>
      generalize (store.perform (.acceptInvite token passwordHash) a c.state).1 = r at hId
      match r, hId with
      | .error _, hId | .ok none, hId | .ok (some _), hId => exact absurd hId hOld
    | _ => exact absurd hId hOld

theorem erased_of_deleted {d : Nat} {token : AccessToken} {currentPassword secret : String}
    (hRequest : requests[d]? = some (.deleteMe token currentPassword secret))
    (hBefore : store.Reach (fun _ _ => True) (State.start env w₀ requests) c₁) (hAnswered : answered c₁ d = true) :
    erased c₁.state token.userId = true := by
  obtain ⟨thD, hThread, hEnded⟩ := ended_of_answered hAnswered
  have hSent : (State.start env w₀ requests).threads[d]? = some { prog := deleteMe env token currentPassword secret } := by
    rw [State.start, Config.initial, List.getElem?_map, List.getElem?_map, hRequest]
    rfl
  have hDeletes : Stands (deleteMe env token currentPassword secret) {} fun _ pt' => token.userId ∈ pt'.deleted := deleteMe_stands
  obtain ⟨th', pt, hThread', hFollows, hErases⟩ := hBefore.beside (I := Erases) hSent hDeletes
    (fun id hId => absurd hId List.not_mem_nil) (fun hErases _ hRan hMove => erases_own hErases hRan hMove)
    fun hErases _ hStep _ id hId => erased_step (hErases id hId) hStep
  cases hThread.symm.trans hThread'
  rw [hEnded] at hFollows
  exact hErases _ hFollows

theorem nothing_put_back {id : Id} (hErased : erased c₁.state id = true) (hLater : notStarted c₁ t = true)
    (hReach : store.Reach (fun c l => permitted c l) c₁ c₂) (hPermitted : permitted c₂ (.run t a) = true)
    (hStep : store.step (.run t a) c₂ = some c₃) : PutsNothingBack id c₂.state c₃.state := by
  obtain ⟨th, hThread, hUnborn⟩ := thread_of_notStarted hLater
  obtain ⟨hErased₂, hBorn⟩ : erased c₂.state id = true ∧ BornIn (erased · id = true) t c₂ := by
    refine hReach.invariant (I := fun c => erased c.state id = true ∧ BornIn (erased · id = true) t c)
      ⟨hErased, .of_unborn hThread hUnborn⟩ fun c l c' hKept _ hNext => ?_
    refine ⟨erased_step hKept.1 hNext, ?_⟩
    by_cases hOwn : ∃ a, l = .run t a
    · obtain ⟨a, rfl⟩ := hOwn
      obtain ⟨o, th, k, hRan⟩ := Store.run_cases hNext
      exact hKept.2.own hKept.1 hRan
    · exact hKept.2.other hNext fun a hEq => hOwn ⟨a, hEq⟩
  obtain ⟨o, th₂, k, hRan⟩ := Store.run_cases hStep
  have hReopens := not_reopens hPermitted hRan
  rw [PutsNothingBack, hRan.state]
  refine (perform_leaves o a c₂.state).imp fun before after hLeft hId => ?_
  subst hId
  refine hLeft.contact fun updates hEq => ?_
  rw [hEq, reopens, hBorn.getD hErased₂ hRan.thread, hErased₂] at hReopens
  cases hReopens

end

/-! ## Closing -/

/-- No request that starts while an account is closed issues a token for it, as long as it stays closed, and none that
starts when a deletion has been answered puts back what it erased. -/
theorem closed_account_stays_closed {env : Env} {w₀ : World} {requests : List Request} :
    (∀ c₁ c₂ c₃ t a id, store.Reach (fun _ _ => True) (State.start env w₀ requests) c₁ → notStarted c₁ t = true →
      store.Reach (fun c l => permitted c l && closed c.state id) c₁ c₂ → store.step (.run t a) c₂ = some c₃ →
      tokensOf c₃.state id = tokensOf c₂.state id) ∧
    ∀ (c₁ c₂ c₃ : State) (d t : Nat) (a : Except Err Unit) (token : AccessToken) (currentPassword secret : String),
      requests[d]? = some (.deleteMe token currentPassword secret) →
      store.Reach (fun _ _ => True) (State.start env w₀ requests) c₁ → answered c₁ d = true → notStarted c₁ t = true →
      store.Reach (fun c l => permitted c l) c₁ c₂ → permitted c₂ (.run t a) = true → store.step (.run t a) c₂ = some c₃ →
      PutsNothingBack token.userId c₂.state c₃.state := by
  constructor
  · intro c₁ c₂ c₃ t a id hBefore hLater hReach hStep
    exact no_tokens hBefore hLater hReach hStep
  · intro c₁ c₂ c₃ d t a token currentPassword secret hRequest hBefore hAnswered hLater hReach hPermitted hStep
    exact nothing_put_back (erased_of_deleted hRequest hBefore hAnswered) hLater hReach hPermitted hStep

/-! An account is deactivated, or deleted, while its access token is still valid. -/

def guest : Account where
  id := 7
  email := "guest@example.com"
  passwordHash := "secret"
  name := "Guest"

def guestToken : AccessToken where
  userId := 7
  expiresAt := 900000

def guestWorld : World where
  accounts := [guest]
  accessTokens := [guestToken]

def guestRequests : List Request :=
  [.deleteMe guestToken "secret" "unguessable", .login "guest@example.com" "secret", .changePassword guestToken "secret" "other",
    .updateMe guestToken { name := some "Guest" }]

def ran (ts : List Nat) : List (Label (Except Err Unit) Event) := ts.map (.run · (.ok ()))

def deactivated : State :=
  { State.start {} guestWorld guestRequests with state := Event.advance (.setStatus 7 false) guestWorld }

theorem reach_deactivated : store.Reach (fun _ _ => True) (State.start {} guestWorld guestRequests) deactivated :=
  Store.Reach.start.step (l := .event (.setStatus 7 false)) trivial rfl

/-- The deactivated guest is refused; after the deletion the old password is. -/
theorem closed_guest_refused :
    (∃ c : State, tokensOf c.state 7 = tokensOf guestWorld 7) ∧ ∃ c c' : State, answered c 0 = true ∧ PutsNothingBack 7 c.state c'.state := by
  obtain ⟨hTokens, hContact⟩ := @closed_account_stays_closed {} guestWorld guestRequests
  constructor
  · obtain ⟨c₂, hReach, hNext⟩ := store.exists_of_exec (fun c l => permitted c l && closed c.state 7) deactivated (ran [2])
      (fun c : State => decide (tokensOf c.state 7 = tokensOf guestWorld 7) && (store.step (.run 1 (.ok ())) c).isSome) (by decide +kernel)
    obtain ⟨hNone, hRuns⟩ := Bool.and_eq_true_iff.mp hNext
    obtain ⟨c₃, hStep⟩ := Option.isSome_iff_exists.mp hRuns
    exact ⟨c₃, (hTokens deactivated c₂ c₃ 1 (.ok ()) 7 reach_deactivated (by decide) hReach hStep).trans (of_decide_eq_true hNone)⟩
  · obtain ⟨c₂, hReach, hNext⟩ := store.exists_of_exec (fun _ _ => true) (State.start {} guestWorld guestRequests) (ran [0, 0, 0, 0, 0])
      (fun c : State => answered c 0 && notStarted c 2 && permitted c (.run 2 (.ok ())) && (store.step (.run 2 (.ok ())) c).isSome)
      (by decide +kernel)
    simp only [Bool.and_eq_true] at hNext
    obtain ⟨⟨⟨hAnswered, hLater⟩, hPermitted⟩, hRuns⟩ := hNext
    obtain ⟨c₃, hStep⟩ := Option.isSome_iff_exists.mp hRuns
    exact ⟨c₂, c₃, hAnswered, hContact c₂ c₂ c₃ 0 2 (.ok ()) guestToken "secret" "unguessable" rfl (hReach.mono fun _ _ _ => trivial)
      hAnswered hLater .start hPermitted hStep⟩

def names (c : State) : List (Id × String) := c.state.accounts.map fun account => (account.id, account.name)

/-- The deactivated guest changes the password and is signed in; the deleted guest's name is put back. -/
theorem closed_guest_let_in :
    (¬ ∀ (env : Env) (w₀ : World) (requests : List Request) (c₁ c₂ c₃ : State) (t : Nat) (a : Except Err Unit) (id : Id),
      store.Reach (fun _ _ => True) (State.start env w₀ requests) c₁ → notStarted c₁ t = true →
      store.Reach (fun c _ => closed c.state id) c₁ c₂ → store.step (.run t a) c₂ = some c₃ →
      tokensOf c₃.state id = tokensOf c₂.state id) ∧
    ¬ ∀ (env : Env) (w₀ : World) (requests : List Request) (c₁ c₂ c₃ : State) (d t : Nat) (a : Except Err Unit)
      (token : AccessToken) (currentPassword secret : String), requests[d]? = some (.deleteMe token currentPassword secret) →
      store.Reach (fun _ _ => True) (State.start env w₀ requests) c₁ → answered c₁ d = true → notStarted c₁ t = true →
      store.Reach (fun _ _ => True) c₁ c₂ → store.step (.run t a) c₂ = some c₃ → PutsNothingBack token.userId c₂.state c₃.state := by
  constructor
  · intro hClaim
    obtain ⟨c₂, hReach, hNext⟩ := store.exists_of_exec (fun c _ => closed c.state 7) deactivated (ran [2, 2, 2, 2, 2])
      (fun c : State => (store.step (.run 2 (.ok ())) c).any fun c' => tokensOf c'.state 7 ≠ tokensOf c.state 7) (by decide +kernel)
    obtain ⟨c₃, hStep, hIssued⟩ := (Option.any_eq_true _ _).mp hNext
    exact of_decide_eq_true hIssued
      (hClaim {} guestWorld guestRequests deactivated c₂ c₃ 2 (.ok ()) 7 reach_deactivated (by decide) hReach hStep)
  · intro hClaim
    obtain ⟨c₁, hBefore, hNext⟩ := store.exists_of_exec (fun _ _ => true) (State.start {} guestWorld guestRequests) (ran [0, 0, 0, 0, 0])
      (fun c : State => answered c 0 && notStarted c 3 && (store.exec (fun _ _ => true) (ran [3]) c).any fun c₂ : State =>
        (store.step (.run 3 (.ok ())) c₂).any fun c₃ : State => names c₂ = [(7, Account.deletedName)] && names c₃ = [(7, "Guest")])
      (by decide +kernel)
    simp only [Bool.and_eq_true] at hNext
    obtain ⟨⟨hAnswered, hLater⟩, hRuns⟩ := hNext
    obtain ⟨c₂, hExec, hRuns⟩ := (Option.any_eq_true _ _).mp hRuns
    obtain ⟨c₃, hStep, hNames⟩ := (Option.any_eq_true _ _).mp hRuns
    have hContact := hClaim {} guestWorld guestRequests c₁ c₂ c₃ 0 3 (.ok ()) guestToken "secret" "unguessable" rfl
      (hBefore.mono fun _ _ _ => trivial) hAnswered hLater ((Store.Reach.of_exec _ hExec).mono fun _ _ _ => trivial) hStep
    obtain ⟨hBeforeName, hAfterName⟩ := Bool.and_eq_true_iff.mp hNames
    obtain ⟨before, hBefore, hDeleted⟩ := List.map_eq_singleton_iff.mp (of_decide_eq_true hBeforeName)
    obtain ⟨after, hAfter, hRestored⟩ := List.map_eq_singleton_iff.mp (of_decide_eq_true hAfterName)
    rw [PutsNothingBack, hBefore, hAfter, List.forall₂_cons] at hContact
    rcases (hContact.1 (Prod.mk.inj hDeleted).1).1 with hSame | hScrubbed
    · rw [(Prod.mk.inj hRestored).2, (Prod.mk.inj hDeleted).2] at hSame
      exact absurd hSame (by decide)
    · rw [(Prod.mk.inj hRestored).2] at hScrubbed
      exact absurd hScrubbed (by decide)

end RestaurantOs.ClosedAccounts
