import RestaurantOs.Sessions.Requests

/-!
# Rotation and revocation

A refresh token is exchanged once, as long as every refresh finds it still active.
A change of the password ends every session that it found, as long as no refresh
issues a token of such a session once the keys are listed.
-/

namespace RestaurantOs.Sessions

open Async Prog

/-! ## The properties -/

namespace Request

def changesPassword : Request → Bool
  | resetPassword _ _ | changePassword _ _ _ => true
  | _ => false

end Request

def Listed (history : List (Entry Op Op.Resp Err)) (t : Nat) (userId : Id) : Prop :=
  ∃ e ∈ history, e.thread = t ∧ e.op = .keys userId ∧ e.result.isOk = true

def Answered (history : List (Entry Op Op.Resp Err)) (t : Nat) : Prop :=
  ∃ e ∈ history, e.thread = t ∧ e.op = .sendSuccess ∧ e.result.isOk = true

instance (history : List (Entry Op Op.Resp Err)) (t : Nat) (userId : Id) : Decidable (Listed history t userId) :=
  inferInstanceAs (Decidable (∃ e ∈ history, e.thread = t ∧ e.op = .keys userId ∧ e.result.isOk = true))

instance (history : List (Entry Op Op.Resp Err)) (t : Nat) : Decidable (Answered history t) :=
  inferInstanceAs (Decidable (∃ e ∈ history, e.thread = t ∧ e.op = .sendSuccess ∧ e.result.isOk = true))

/-- A refresh revokes a token that is active, and issues no token of a session that a
change of the password has listed the keys of. -/
def undisturbed (requests : List Request) (c : State) : Label (Except Err Unit) Event → Bool
  | .run t _ =>
    match requests[t]?, c.waiting? t with
    | some (.refresh _), some (.del token) => c.state.active.contains token
    | _, some (.set userId (some parent)) =>
      (List.range requests.length).all fun u =>
        !(requests[u]?.any Request.changesPassword && Listed c.history u userId &&
          (c.threads[u]?.bind (·.born)).any fun before => (ancestors c.state.issued parent).any (· < before.nextJti))
    | _, _ => true
  | _ => true

/-! ## Where a request stands -/

inductive Point
  | other
  | refreshing (token : RefreshToken)
  | holding (jti : Jti)
  | spent
  | changing
  | listed (userId : Id) (tokens : List RefreshToken)
  deriving DecidableEq

namespace Point

def after (pt : Point) (o : Op) (r : Except Err o.Resp) : Point :=
  match pt, o, r with
  | refreshing _, .del token, .ok _ => holding token.jti
  | holding _, .set _ _, .ok _ => spent
  | changing, .keys userId, .ok tokens => listed userId tokens
  | listed userId _, .delAll _, .ok _ => listed userId []
  | pt, _, _ => pt

def Allows : Point → Op → Prop
  | other, .set _ parent => parent = none
  | refreshing token, .del token' => token' = token
  | refreshing _, .set _ _ => False
  | holding jti, .set _ parent => parent = some jti
  | spent, .set _ _ => False
  | changing, .set _ _ | changing, .sendSuccess => False
  | listed _ tokens, .set _ parent => parent = none ∧ tokens = []
  | listed _ tokens, .sendSuccess => tokens = []
  | listed _ tokens, .delAll tokens' => tokens' = tokens
  | listed _ _, .keys _ => False
  | _, _ => True

end Point

def Request.point : Request → Point
  | refresh token => .refreshing token
  | login _ _ | logout _ => .other
  | resetPassword _ _ | changePassword _ _ _ => .changing

@[reducible] def rotating : Protocol Op World (Except Err Unit) where
  Point := Point
  Move o a w pt pt' := pt.Allows o ∧ pt' = pt.after o (store.perform o a w).1
  Rest _ := True

section Walk

variable {pt : Point}

theorem follows_quiet (pt : Point) {o : Op} (hAllows : pt.Allows o) (hAfter : ∀ r, pt.after o r = pt) {Q : o.Resp → Point → Prop}
    (hQ : ∀ v, Q v pt) : (Prog.call o : Promise o.Resp).Follows store rotating pt Q fun _ _ => True := by
  refine follows_call.mpr fun a w => ⟨pt, ⟨hAllows, (hAfter _).symm⟩, ?_⟩
  cases (store.perform o a w).1 with
  | ok v => exact hQ v
  | error err => trivial

theorem respondWithSession_follows {user : User} {parent : Option Jti} (hMemberships : pt.Allows (.agencyMemberships user.id))
    (hQuiet : ∀ r, pt.after (.agencyMemberships user.id) r = pt) (hSet : pt.Allows (.set user.id parent))
    (hSuccess : ∀ r, (pt.after (.set user.id parent) (.ok r)).Allows .sendSuccess) :
    (respondWithSession user parent).Follows store rotating pt (fun _ _ => True) fun _ _ => True := by
  unfold respondWithSession issueRefreshToken
  rw [bind_eq, follows_bind]
  refine follows_quiet pt hMemberships hQuiet fun _ => ?_
  rw [bind_eq, follows_bind]
  refine follows_call.mpr fun a w => ⟨_, ⟨hSet, rfl⟩, ?_⟩
  cases (store.perform (.set user.id parent) a w).1 with
  | error err => trivial
  | ok token =>
    dsimp only
    refine follows_call.mpr fun a w => ⟨_, ⟨hSuccess token, rfl⟩, ?_⟩
    cases (store.perform .sendSuccess a w).1 <;> trivial

theorem revokeAllRefreshTokens_changing {userId : Id} : (revokeAllRefreshTokens userId).Follows store rotating .changing
    (fun _ pt => pt = .listed userId []) fun _ _ => True := by
  unfold revokeAllRefreshTokens
  rw [bind_eq, follows_bind]
  refine follows_call.mpr fun a w => ⟨_, ⟨trivial, rfl⟩, ?_⟩
  cases (store.perform (.keys userId) a w).1 with
  | error err => trivial
  | ok tokens =>
    dsimp only
    refine follows_onlyIf (fun _ => ?_) fun hNone => ?_
    · refine follows_call.mpr fun a w => ⟨_, ⟨rfl, rfl⟩, ?_⟩
      cases (store.perform (.delAll tokens) a w).1 with
      | error err => trivial
      | ok _ => rfl
    · have hEmpty : tokens = [] := List.eq_nil_of_length_eq_zero (Nat.eq_zero_of_not_pos hNone)
      rw [hEmpty]
      rfl

theorem login_follows {env : Env} {email password : String} :
    (login env email password).Follows store rotating .other (fun _ _ => True) fun _ _ => True := by
  unfold login
  rw [bind_eq, follows_bind]
  refine follows_quiet .other (o := .findUserByEmail email) trivial (fun _ => rfl) fun user => ?_
  cases user with
  | none => trivial
  | some user =>
    dsimp only
    split
    · trivial
    · split
      · trivial
      · exact respondWithSession_follows trivial (fun _ => rfl) rfl fun _ => trivial

theorem exchange_follows {token : RefreshToken} :
    (exchange token).Follows store rotating (.refreshing token) (fun _ _ => True) fun _ _ => True := by
  unfold exchange revokeRefreshToken
  rw [bind_eq, follows_bind]
  refine follows_quiet (.refreshing token) (o := .findUserById token.userId) trivial (fun _ => rfl) fun user => ?_
  cases user with
  | none => trivial
  | some user =>
    dsimp only
    split
    · trivial
    · rw [bind_eq, follows_bind]
      refine follows_call.mpr fun a w => ⟨_, ⟨rfl, rfl⟩, ?_⟩
      cases (store.perform (.del token) a w).1 with
      | error err => trivial
      | ok _ => exact respondWithSession_follows trivial (fun _ => rfl) rfl fun _ => trivial

theorem refresh_follows {token : RefreshToken} :
    (refresh token).Follows store rotating (.refreshing token) (fun _ _ => True) fun _ _ => True := by
  unfold refresh verifyRefreshToken isRefreshTokenActive revokeAllRefreshTokens
  rw [bind_eq, follows_bind, follows_attempt]
  refine follows_call.mpr fun a w => ⟨_, ⟨trivial, rfl⟩, ?_⟩
  cases (store.perform (.verify token) a w).1 with
  | error err => trivial
  | ok _ =>
    dsimp only
    rw [bind_eq, follows_bind]
    refine follows_quiet (.refreshing token) (o := .get token) trivial (fun _ => rfl) fun active => ?_
    split
    · rw [bind_eq, follows_bind, bind_eq, follows_bind]
      refine follows_quiet (.refreshing token) (o := .keys token.userId) trivial (fun _ => rfl) fun tokens => ?_
      refine follows_onlyIf (fun _ => ?_) fun _ => trivial
      exact follows_quiet (.refreshing token) (o := .delAll tokens) trivial (fun _ => rfl) fun _ => trivial
    · exact exchange_follows

theorem logout_follows {token : RefreshToken} :
    (logout token).Follows store rotating .other (fun _ _ => True) fun _ _ => True := by
  unfold logout verifyRefreshToken revokeRefreshToken
  rw [bind_eq, follows_bind, follows_attempt, bind_eq, follows_bind]
  have hSuccess : (Prog.call Op.sendSuccess : Promise Unit).Follows store rotating .other (fun _ _ => True) fun _ _ => True :=
    follows_quiet .other (o := .sendSuccess) trivial (fun _ => rfl) fun _ => trivial
  refine follows_call.mpr fun a w => ⟨_, ⟨trivial, rfl⟩, ?_⟩
  cases (store.perform (.verify token) a w).1 with
  | error err => exact hSuccess
  | ok _ =>
    refine follows_call.mpr fun a w => ⟨_, ⟨trivial, rfl⟩, ?_⟩
    cases (store.perform (.del token) a w).1 with
    | error err => exact hSuccess
    | ok _ => exact hSuccess

theorem resetPassword_follows {env : Env} {token password : String} :
    (resetPassword env token password).Follows store rotating .changing (fun _ _ => True) fun _ _ => True := by
  unfold resetPassword
  rw [bind_eq, follows_bind]
  refine follows_quiet .changing (o := .resetUser (env.hashToken token) (env.hash password)) trivial (fun _ => rfl) fun user => ?_
  cases user with
  | none => trivial
  | some user =>
    dsimp only
    rw [bind_eq, follows_bind]
    refine (revokeAllRefreshTokens_changing).mono ?_ fun _ _ _ => trivial
    rintro _ _ rfl
    exact follows_quiet (.listed user.id []) (o := .sendSuccess) rfl (fun _ => rfl) fun _ => trivial

theorem changePassword_follows {env : Env} {userId : Id} {currentPassword newPassword : String} :
    (changePassword env userId currentPassword newPassword).Follows store rotating .changing (fun _ _ => True) fun _ _ => True := by
  unfold changePassword
  rw [bind_eq, follows_bind]
  refine follows_quiet .changing (o := .findUserById userId) trivial (fun _ => rfl) fun user => ?_
  cases user with
  | none => trivial
  | some user =>
    dsimp only
    split
    · trivial
    · rw [bind_eq, follows_bind]
      refine follows_quiet .changing (o := .savePassword user.id (env.hash newPassword)) trivial (fun _ => rfl) fun _ => ?_
      rw [bind_eq, follows_bind]
      refine (revokeAllRefreshTokens_changing).mono ?_ fun _ _ _ => trivial
      rintro _ _ rfl
      exact respondWithSession_follows trivial (fun _ => rfl) ⟨rfl, rfl⟩ fun _ => rfl

theorem Request.program_follows {env : Env} (r : Request) :
    (r.program env).Follows store rotating r.point (fun _ _ => True) fun _ _ => True := by
  cases r with
  | login email password => exact login_follows
  | refresh token => exact refresh_follows
  | logout token => exact logout_follows
  | resetPassword token password => exact resetPassword_follows
  | changePassword userId currentPassword newPassword => exact changePassword_follows

end Walk

/-! ## What an operation does to the tokens -/

section Tokens

variable {w w' : World} {o : Op} {a : Except Err Unit}

/-- Nothing is issued, and no key is set. -/
structure Shrinks (w w' : World) : Prop where
  issued : w'.issued = w.issued
  nextJti : w'.nextJti = w.nextJti
  active : w'.active.Sublist w.active

theorem updateUser_tokens {sel : User → Bool} {f : User → User} : Shrinks w (w.updateUser sel f).2 := by
  unfold World.updateUser
  split <;> exact ⟨rfl, rfl, List.Sublist.refl _⟩

theorem perform_shrinks (h : ∀ userId parent, o ≠ .set userId parent) : Shrinks w (store.perform o a w).2 := by
  cases a with
  | error fault => exact ⟨rfl, rfl, List.Sublist.refl _⟩
  | ok _ =>
    cases o with
    | set userId parent => exact absurd rfl (h userId parent)
    | resetUser tokenHash passwordHash => exact updateUser_tokens
    | savePassword userId passwordHash => exact updateUser_tokens
    | del token => exact ⟨rfl, rfl, List.filter_sublist⟩
    | delAll tokens => exact ⟨rfl, rfl, List.filter_sublist⟩
    | _ => exact ⟨rfl, rfl, List.Sublist.refl _⟩

theorem perform_cases : (∃ userId parent, o = .set userId parent ∧ a = .ok ()) ∨ Shrinks w (store.perform o a w).2 := by
  by_cases hSet : ∃ userId parent, o = .set userId parent
  · obtain ⟨userId, parent, rfl⟩ := hSet
    cases a with
    | error fault => exact .inr ⟨rfl, rfl, List.Sublist.refl _⟩
    | ok _ => exact .inl ⟨userId, parent, rfl, rfl⟩
  · exact .inr (perform_shrinks fun userId parent hEq => hSet ⟨userId, parent, hEq⟩)

theorem ancestors_cons_of_ne {newest : Issued} {older : List Issued} {jti : Jti} (h : newest.token.jti ≠ jti) :
    ancestors (newest :: older) jti = ancestors older jti := if_neg h

theorem mem_ancestors_newest {newest : Issued} {older : List Issued} {jti : Jti} (h : jti ∈ ancestors (newest :: older) newest.token.jti) :
    jti = newest.token.jti ∨ ∃ parent, newest.parent = some parent ∧ jti ∈ ancestors older parent := by
  rw [ancestors, if_pos rfl] at h
  rcases List.mem_cons.mp h with rfl | hOlder
  · exact .inl rfl
  · cases hParent : newest.parent with
    | none =>
      rw [hParent] at hOlder
      cases hOlder
    | some parent =>
      rw [hParent] at hOlder
      exact .inr ⟨parent, rfl, hOlder⟩

end Tokens

theorem listed_cons {history : List (Entry Op Op.Resp Err)} {e : Entry Op Op.Resp Err} {t : Nat} {userId : Id} :
    Listed (e :: history) t userId ↔ (e.thread = t ∧ e.op = .keys userId ∧ e.result.isOk = true) ∨ Listed history t userId :=
  List.exists_mem_cons_iff _ _ _

theorem answered_cons {history : List (Entry Op Op.Resp Err)} {e : Entry Op Op.Resp Err} {t : Nat} :
    Answered (e :: history) t ↔ (e.thread = t ∧ e.op = .sendSuccess ∧ e.result.isOk = true) ∨ Answered history t :=
  List.exists_mem_cons_iff _ _ _

/-! ## One holder for a token -/

def World.exchanged (w : World) : List Jti := w.issued.filterMap (·.parent)

structure Exchanging (w : World) (pts : List Point) : Prop where
  activeJtis : (w.active.map (·.jti)).Nodup
  activeOld : ∀ token ∈ w.active, token.jti < w.nextJti
  once : w.exchanged.Nodup
  exchanged : ∀ jti ∈ w.exchanged, jti < w.nextJti ∧ ∀ token ∈ w.active, token.jti ≠ jti
  holding : ∀ (t : Nat) (jti : Jti), pts[t]? = some (.holding jti) →
    jti < w.nextJti ∧ jti ∉ w.exchanged ∧ ∀ token ∈ w.active, token.jti ≠ jti
  oneHolds : ∀ (t u : Nat) (jti : Jti), pts[t]? = some (.holding jti) → pts[u]? = some (.holding jti) → t = u

section Exchanging

variable {w w' : World} {pts : List Point} {t : Nat} {pt pt' : Point}

theorem Exchanging.shrinks (h : Exchanging w pts) (hShrinks : Shrinks w w') : Exchanging w' pts := by
  have hExchanged : w'.exchanged = w.exchanged := congrArg (List.filterMap Issued.parent) hShrinks.issued
  have hActive : ∀ token ∈ w'.active, token ∈ w.active := fun token hMem => hShrinks.active.subset hMem
  refine ⟨h.activeJtis.sublist (hShrinks.active.map _), fun token hMem => ?_, ?_, fun jti hMem => ?_, fun t jti hHolds => ?_, h.oneHolds⟩
  · rw [hShrinks.nextJti]
    exact h.activeOld token (hActive token hMem)
  · rw [hExchanged]
    exact h.once
  · rw [hExchanged] at hMem
    rw [hShrinks.nextJti]
    exact ⟨(h.exchanged jti hMem).1, fun token hToken => (h.exchanged jti hMem).2 token (hActive token hToken)⟩
  · obtain ⟨hOld, hNot, hInactive⟩ := h.holding t jti hHolds
    rw [hShrinks.nextJti, hExchanged]
    exact ⟨hOld, hNot, fun token hToken => hInactive token (hActive token hToken)⟩

theorem Exchanging.moves (h : Exchanging w pts) (hPoint : pts[t]? = some pt) (hHolds : ∀ jti, pt' = .holding jti → pt = .holding jti) :
    Exchanging w (pts.set t pt') := by
  have hBefore : ∀ (u : Nat) (jti : Jti), (pts.set t pt')[u]? = some (.holding jti) → pts[u]? = some (.holding jti) := by
    intro u jti hMoved
    rcases Tables.getElem?_set_cases hMoved with ⟨rfl, hEq⟩ | ⟨-, hOld⟩
    · rw [hPoint, hHolds jti hEq.symm]
    · exact hOld
  exact ⟨h.activeJtis, h.activeOld, h.once, h.exchanged, fun u jti hMoved => h.holding u jti (hBefore u jti hMoved),
    fun u v jti hu hv => h.oneHolds u v jti (hBefore u jti hu) (hBefore v jti hv)⟩

theorem Exchanging.revokes (h : Exchanging w pts) {token : RefreshToken} (hActive : token ∈ w.active) :
    Exchanging { w with active := w.active.filter (· ≠ token) } (pts.set t (.holding token.jti)) := by
  have hShrunk : Exchanging { w with active := w.active.filter (· ≠ token) } pts := h.shrinks ⟨rfl, rfl, List.filter_sublist⟩
  have hNone : ∀ (u : Nat), pts[u]? ≠ some (.holding token.jti) := fun u hHolds => (h.holding u _ hHolds).2.2 token hActive rfl
  refine ⟨hShrunk.activeJtis, hShrunk.activeOld, hShrunk.once, hShrunk.exchanged, fun u jti hMoved => ?_, fun u v jti hu hv => ?_⟩
  · rcases Tables.getElem?_set_cases hMoved with ⟨rfl, hEq⟩ | ⟨-, hOld⟩
    · cases hEq
      refine ⟨h.activeOld token hActive, fun hExchanged => (h.exchanged _ hExchanged).2 token hActive rfl, fun other hMem hSame => ?_⟩
      obtain ⟨hOther, hNe⟩ := List.mem_filter.mp hMem
      exact of_decide_eq_true hNe (List.inj_on_of_nodup_map h.activeJtis hOther hActive hSame)
    · exact hShrunk.holding u jti hOld
  · rcases Tables.getElem?_set_cases hu with ⟨rfl, hEq⟩ | ⟨-, hOld⟩
    · cases hEq
      rcases Tables.getElem?_set_cases hv with ⟨rfl, -⟩ | ⟨-, hOldV⟩
      · rfl
      · exact absurd hOldV (hNone v)
    · rcases Tables.getElem?_set_cases hv with ⟨rfl, hEq⟩ | ⟨-, hOldV⟩
      · cases hEq
        exact absurd hOld (hNone u)
      · exact h.oneHolds u v jti hOld hOldV

def World.issue (w : World) (userId : Id) (parent : Option Jti) : World :=
  { w with
    issued := { token := { userId, jti := w.nextJti }, parent } :: w.issued
    active := { userId, jti := w.nextJti } :: w.active
    nextJti := w.nextJti + 1 }

theorem Exchanging.issues (h : Exchanging w pts) {userId : Id} {parent : Option Jti} (hPoint : pts[t]? = some pt)
    (hParent : ∀ jti, parent = some jti → pt = .holding jti) (hSpent : ∀ jti, pt' ≠ .holding jti) :
    Exchanging (w.issue userId parent) (pts.set t pt') := by
  have hExchanged : (w.issue userId parent).exchanged = parent.toList ++ w.exchanged := by
    cases parent <;> rfl
  have hBefore : ∀ (u : Nat) (jti : Jti), (pts.set t pt')[u]? = some (.holding jti) → u ≠ t ∧ pts[u]? = some (.holding jti) := by
    intro u jti hMoved
    rcases Tables.getElem?_set_cases hMoved with ⟨rfl, hEq⟩ | ⟨hNe, hOld⟩
    · exact absurd hEq.symm (hSpent jti)
    · exact ⟨hNe, hOld⟩
  have hOldJti : ∀ token ∈ (w.issue userId parent).active, ∀ jti < w.nextJti, (∀ token ∈ w.active, token.jti ≠ jti) → token.jti ≠ jti := by
    intro token hMem jti hLt hInactive
    rcases List.mem_cons.mp hMem with rfl | hOld
    · exact Nat.ne_of_gt hLt
    · exact hInactive token hOld
  refine ⟨?_, fun token hMem => ?_, ?_, fun jti hMem => ?_, fun u jti hMoved => ?_, fun u v jti hu hv => ?_⟩
  · refine List.nodup_cons.mpr ⟨fun hMem => ?_, h.activeJtis⟩
    obtain ⟨token, hToken, hJti⟩ := List.mem_map.mp hMem
    exact Nat.ne_of_lt (h.activeOld token hToken) hJti
  · rcases List.mem_cons.mp hMem with rfl | hOld
    · exact Nat.lt_succ_self _
    · exact Nat.lt_succ_of_lt (h.activeOld token hOld)
  · rw [hExchanged]
    cases parent with
    | none => exact h.once
    | some jti =>
      rw [hParent jti rfl] at hPoint
      exact List.nodup_cons.mpr ⟨(h.holding t jti hPoint).2.1, h.once⟩
  · have hOld : jti < w.nextJti ∧ ∀ token ∈ w.active, token.jti ≠ jti := by
      rw [hExchanged, List.mem_append, Option.mem_toList] at hMem
      rcases hMem with hNew | hOld
      · rw [hParent jti hNew] at hPoint
        obtain ⟨hLt, -, hInactive⟩ := h.holding t jti hPoint
        exact ⟨hLt, hInactive⟩
      · exact h.exchanged jti hOld
    exact ⟨Nat.lt_succ_of_lt hOld.1, fun token hToken => hOldJti token hToken jti hOld.1 hOld.2⟩
  · obtain ⟨hNe, hOld⟩ := hBefore u jti hMoved
    obtain ⟨hLt, hNot, hInactive⟩ := h.holding u jti hOld
    refine ⟨Nat.lt_succ_of_lt hLt, fun hMem => ?_, fun token hToken => hOldJti token hToken jti hLt hInactive⟩
    rw [hExchanged, List.mem_append, Option.mem_toList] at hMem
    rcases hMem with hNew | hOldMem
    · rw [hParent jti hNew] at hPoint
      exact hNe (h.oneHolds u t jti hOld hPoint)
    · exact hNot hOldMem
  · exact h.oneHolds u v jti (hBefore u jti hu).2 (hBefore v jti hv).2

end Exchanging

/-! ## Sessions that a change has found -/

def Point.IsFor : Point → Request → Prop
  | other, r => r.changesPassword = false
  | refreshing _, r | holding _, r | spent, r => ∃ token, r = .refresh token
  | changing, r | listed _ _, r => r.changesPassword = true

section Points

variable {pt : Point} {r : Request} {o : Op} {result : Except Err o.Resp} {userId : Id} {tokens : List RefreshToken}

theorem Request.point_isFor : r.point.IsFor r := by
  cases r with
  | refresh token => exact ⟨token, rfl⟩
  | _ => rfl

theorem Point.IsFor.after (h : pt.IsFor r) : (pt.after o result).IsFor r := by
  unfold Point.after
  split <;> exact h

theorem after_eq_listed (h : pt.after o result = .listed userId tokens) :
    (pt = .changing ∧ o = .keys userId ∧ result.isOk = true) ∨ ∃ before, pt = .listed userId before := by
  unfold Point.after at h
  split at h <;> cases h
  · exact .inl ⟨rfl, rfl, rfl⟩
  · exact .inr ⟨_, rfl⟩
  · exact .inr ⟨_, rfl⟩

theorem after_eq_holding {jti : Jti} (h : pt.after o result = .holding jti) :
    pt = .holding jti ∨ ∃ token revoked, pt = .refreshing token ∧ o = .del revoked ∧ result.isOk = true := by
  unfold Point.after at h
  split at h <;> cases h
  · exact .inr ⟨_, _, rfl, rfl, rfl⟩
  · exact .inl rfl

theorem listed_after : ∃ later, (Point.listed userId tokens).after o result = .listed userId later ∧ (tokens = [] → later = []) := by
  cases o with
  | delAll deleted =>
    cases result with
    | ok _ => exact ⟨[], rfl, fun _ => rfl⟩
    | error err => exact ⟨tokens, rfl, id⟩
  | _ => exact ⟨tokens, by cases result <;> rfl, id⟩

theorem after_listed_cases {deleted : List RefreshToken} {a : Except Err Unit} {w : World} (hAllows : (Point.listed userId tokens).Allows o)
    (h : (Point.listed userId tokens).after o (store.perform o a w).1 = .listed userId deleted) :
    deleted = tokens ∨ o = .delAll tokens ∧ a = .ok () := by
  cases o with
  | delAll listed =>
    cases hAllows
    cases a with
    | ok _ => exact .inr ⟨rfl, rfl⟩
    | error fault =>
      cases h
      exact .inl rfl
  | _ =>
    cases a <;> cases h <;> exact .inl rfl

theorem keys_listed (hFor : pt.IsFor r) (hChanges : r.changesPassword = true) (hAllows : pt.Allows o) (hKeys : o = .keys userId)
    (hOk : result.isOk = true) : ∃ tokens, pt.after o result = .listed userId tokens := by
  subst hKeys
  cases result with
  | error err => cases hOk
  | ok tokens =>
    cases pt with
    | changing => exact ⟨tokens, rfl⟩
    | listed userId' tokens' => cases hAllows
    | other => exact absurd (hChanges.symm.trans hFor) (by decide)
    | _ =>
      obtain ⟨token, rfl⟩ := hFor
      cases hChanges

theorem answers_listed (hFor : pt.IsFor r) (hChanges : r.changesPassword = true) (hAllows : pt.Allows o) (hSuccess : o = .sendSuccess) :
    ∃ userId, pt.after o result = .listed userId [] := by
  subst hSuccess
  cases pt with
  | changing => cases hAllows
  | listed userId tokens =>
    cases hAllows
    exact ⟨userId, rfl⟩
  | other => exact absurd (hChanges.symm.trans hFor) (by decide)
  | _ =>
    obtain ⟨token, rfl⟩ := hFor
    cases hChanges

end Points

structure Revoking (requests : List Request) (c : State) (pts : List Point) : Prop where
  kinds : ∀ (t : Nat) (pt : Point), pts[t]? = some pt → ∃ r, requests[t]? = some r ∧ pt.IsFor r
  listedBy : ∀ (t : Nat) (userId : Id) (tokens : List RefreshToken), pts[t]? = some (.listed userId tokens) → Listed c.history t userId
  listedAt : ∀ (t : Nat) (r : Request) (userId : Id), requests[t]? = some r → r.changesPassword = true → Listed c.history t userId →
    ∃ tokens, pts[t]? = some (.listed userId tokens)
  answered : ∀ (t : Nat) (r : Request), requests[t]? = some r → r.changesPassword = true → Answered c.history t →
    ∃ userId, pts[t]? = some (.listed userId [])
  found : ∀ (t : Nat) (th : Thread Op Op.Resp Err World Unit) (before : World) (userId : Id) (tokens : List RefreshToken),
    pts[t]? = some (.listed userId tokens) → c.threads[t]? = some th → th.born = some before →
    ∀ token ∈ c.state.active, token.userId = userId → ∀ jti ∈ ancestors c.state.issued token.jti, jti < before.nextJti → token ∈ tokens
  born : ∀ (t : Nat) (th : Thread Op Op.Resp Err World Unit) (before : World), c.threads[t]? = some th → th.born = some before →
    before.nextJti ≤ c.state.nextJti

section Revoking

variable {requests : List Request} {c c' : State} {pts : List Point} {t : Nat} {a : Except Err Unit} {o : Op}
  {th : Thread Op Op.Resp Err World Unit} {k : Except Err o.Resp → Promise Unit} {pt : Point}

theorem Revoking.ran_points (h : Revoking requests c pts) (hRan : store.Ran c t a o th k c') (hPoint : pts[t]? = some pt)
    (hAllows : pt.Allows o) :
    (∀ (u : Nat) (ptU : Point), (pts.set t (pt.after o (store.perform o a c.state).1))[u]? = some ptU →
      ∃ r, requests[u]? = some r ∧ ptU.IsFor r) ∧
    (∀ (u : Nat) (userId : Id) (tokens : List RefreshToken),
      (pts.set t (pt.after o (store.perform o a c.state).1))[u]? = some (.listed userId tokens) → Listed c'.history u userId) ∧
    (∀ (u : Nat) (r : Request) (userId : Id), requests[u]? = some r → r.changesPassword = true → Listed c'.history u userId →
      ∃ tokens, (pts.set t (pt.after o (store.perform o a c.state).1))[u]? = some (.listed userId tokens)) ∧
    (∀ (u : Nat) (r : Request), requests[u]? = some r → r.changesPassword = true → Answered c'.history u →
      ∃ userId, (pts.set t (pt.after o (store.perform o a c.state).1))[u]? = some (.listed userId [])) := by
  obtain ⟨rt, hRequest, hFor⟩ := h.kinds t pt hPoint
  rw [hRan.history]
  refine ⟨fun u ptU hMoved => ?_, fun u userId tokens hMoved => ?_, fun u r userId hReq hChanges hListed => ?_,
    fun u r hReq hChanges hAnswered => ?_⟩
  · rcases Tables.getElem?_set_cases hMoved with ⟨rfl, rfl⟩ | ⟨-, hOld⟩
    · exact ⟨rt, hRequest, hFor.after⟩
    · exact h.kinds u ptU hOld
  · rw [listed_cons]
    rcases Tables.getElem?_set_cases hMoved with ⟨rfl, hEq⟩ | ⟨-, hOld⟩
    · rcases after_eq_listed hEq.symm with ⟨-, hKeys, hOk⟩ | ⟨before, rfl⟩
      · exact .inl ⟨rfl, hKeys, hOk⟩
      · exact .inr (h.listedBy u userId before hPoint)
    · exact .inr (h.listedBy u userId tokens hOld)
  · rcases (listed_cons).mp hListed with ⟨hThread, hKeys, hOk⟩ | hOld
    · have hThread' : t = u := hThread
      subst hThread'
      cases hRequest.symm.trans hReq
      obtain ⟨tokens, hAfter⟩ := keys_listed hFor hChanges hAllows hKeys hOk
      exact ⟨tokens, (Tables.getElem?_set_eq hPoint).trans (congrArg some hAfter)⟩
    · obtain ⟨tokens, hAt⟩ := h.listedAt u r userId hReq hChanges hOld
      by_cases hu : t = u
      · subst hu
        cases hPoint.symm.trans hAt
        obtain ⟨later, hAfter, -⟩ := @listed_after o (store.perform o a c.state).1 userId tokens
        exact ⟨later, (Tables.getElem?_set_eq hPoint).trans (congrArg some hAfter)⟩
      · exact ⟨tokens, by rw [List.getElem?_set_ne hu]; exact hAt⟩
  · rcases (answered_cons).mp hAnswered with ⟨hThread, hSuccess, -⟩ | hOld
    · have hThread' : t = u := hThread
      subst hThread'
      cases hRequest.symm.trans hReq
      obtain ⟨userId, hAfter⟩ := @answers_listed pt rt o (store.perform o a c.state).1 hFor hChanges hAllows hSuccess
      exact ⟨userId, (Tables.getElem?_set_eq hPoint).trans (congrArg some hAfter)⟩
    · obtain ⟨userId, hAt⟩ := h.answered u r hReq hChanges hOld
      by_cases hu : t = u
      · subst hu
        cases hPoint.symm.trans hAt
        obtain ⟨later, hAfter, hNone⟩ := @listed_after o (store.perform o a c.state).1 userId []
        rw [hNone rfl] at hAfter
        exact ⟨userId, (Tables.getElem?_set_eq hPoint).trans (congrArg some hAfter)⟩
      · exact ⟨userId, by rw [List.getElem?_set_ne hu]; exact hAt⟩

theorem ran_born (hRan : store.Ran c t a o th k c') {u : Nat} {thU : Thread Op Op.Resp Err World Unit} {before : World}
    (hThread : c'.threads[u]? = some thU) (hBorn : thU.born = some before) :
    (∃ old, c.threads[u]? = some old ∧ old.born = some before) ∨ u = t ∧ th.born = none ∧ before = c.state := by
  rw [hRan.threads] at hThread
  rcases Tables.getElem?_set_cases hThread with ⟨rfl, rfl⟩ | ⟨-, hOld⟩
  · cases hFirst : th.born with
    | none =>
      rw [hFirst] at hBorn
      exact .inr ⟨rfl, rfl, (Option.some.inj hBorn).symm⟩
    | some first =>
      rw [hFirst] at hBorn
      exact .inl ⟨th, hRan.thread, hFirst.trans hBorn⟩
  · exact .inl ⟨thU, hOld, hBorn⟩

theorem le_of_undisturbed (hGuard : undisturbed requests c (.run t a) = true) {userId : Id} {parent : Jti}
    (hWaiting : c.waiting? t = some (.set userId (some parent))) {u : Nat} {r : Request} (hRequest : requests[u]? = some r)
    (hChanges : r.changesPassword = true) (hListed : Listed c.history u userId) {thU : Thread Op Op.Resp Err World Unit} {before : World}
    (hThread : c.threads[u]? = some thU) (hBorn : thU.born = some before) {jti : Jti} (hMem : jti ∈ ancestors c.state.issued parent) :
    before.nextJti ≤ jti := by
  have hAll : ((List.range requests.length).all fun u =>
      !(requests[u]?.any Request.changesPassword && Listed c.history u userId &&
        (c.threads[u]?.bind (·.born)).any fun before => (ancestors c.state.issued parent).any (· < before.nextJti))) = true := by
    simpa only [undisturbed, hWaiting] using hGuard
  have hLt : u < requests.length := (List.getElem?_eq_some_iff.mp hRequest).1
  have hNone := List.all_eq_true.mp hAll u (List.mem_range.mpr hLt)
  rw [hRequest, hThread, Option.any_some, hChanges, Bool.true_and, decide_eq_true hListed, Bool.true_and, Option.bind_some, hBorn,
    Option.any_some, Bool.not_eq_true', List.any_eq_false] at hNone
  exact Nat.le_of_not_lt fun hOlder => hNone jti hMem (decide_eq_true hOlder)

theorem Revoking.ran_found (h : Revoking requests c pts) (hOld : ∀ token ∈ c.state.active, token.jti < c.state.nextJti)
    (hGuard : undisturbed requests c (.run t a) = true) (hRan : store.Ran c t a o th k c') (hPoint : pts[t]? = some pt)
    (hAllows : pt.Allows o) (hUnborn : th.born = none → ∀ userId tokens, pt ≠ .listed userId tokens)
    {u : Nat} {thU : Thread Op Op.Resp Err World Unit} {before : World} {userId : Id} {tokens : List RefreshToken}
    (hMoved : (pts.set t (pt.after o (store.perform o a c.state).1))[u]? = some (.listed userId tokens))
    (hThread : c'.threads[u]? = some thU) (hBorn : thU.born = some before) {token : RefreshToken} (hActive : token ∈ c'.state.active)
    (hUser : token.userId = userId) {jti : Jti} (hMem : jti ∈ ancestors c'.state.issued token.jti) (hLt : jti < before.nextJti) :
    token ∈ tokens := by
  -- a request that was at `listed` before had begun
  have hBegan : ∀ old, pts[u]? = some (.listed userId old) → ∃ thOld, c.threads[u]? = some thOld ∧ thOld.born = some before := by
    intro old hAt
    rcases ran_born hRan hThread hBorn with hFirst | ⟨rfl, hNone, -⟩
    · exact hFirst
    · cases hPoint.symm.trans hAt
      exact absurd rfl (hUnborn hNone userId old)
  have hFound : ∀ old, pts[u]? = some (.listed userId old) → token ∈ c.state.active → jti ∈ ancestors c.state.issued token.jti →
      token ∈ old := by
    intro old hAt hWas hMemWas
    obtain ⟨thOld, hThreadOld, hBornOld⟩ := hBegan old hAt
    exact h.found u thOld before userId old hAt hThreadOld hBornOld token hWas hUser jti hMemWas hLt
  rcases @perform_cases c.state o a with ⟨userId₀, parent, rfl, rfl⟩ | hShrinks
  · have hAt : pts[u]? = some (.listed userId tokens) := by
      rcases Tables.getElem?_set_cases hMoved with ⟨rfl, hEq⟩ | ⟨-, hAt⟩
      · rcases after_eq_listed hEq.symm with ⟨-, hKeys, -⟩ | ⟨old, rfl⟩
        · cases hKeys
        · rw [hPoint, hEq]
          rfl
      · exact hAt
    rw [hRan.state] at hActive hMem
    rcases List.mem_cons.mp hActive with rfl | hWas
    · obtain ⟨thOld, hThreadOld, hBornOld⟩ := hBegan tokens hAt
      exfalso
      rcases mem_ancestors_newest hMem with rfl | ⟨held, rfl, hOlder⟩
      · exact Nat.not_lt_of_le (h.born u thOld before hThreadOld hBornOld) hLt
      · obtain ⟨r, hRequest, hChanges⟩ := h.kinds u _ hAt
        have hSame : userId₀ = userId := hUser
        have hListed : Listed c.history u userId₀ := hSame ▸ h.listedBy u userId tokens hAt
        exact Nat.not_lt_of_le (le_of_undisturbed hGuard hRan.waiting? hRequest hChanges hListed hThreadOld hBornOld hOlder) hLt
    · have hSameAncestors : ancestors (c.state.issue userId₀ parent).issued token.jti = ancestors c.state.issued token.jti :=
        ancestors_cons_of_ne (Nat.ne_of_gt (hOld token hWas))
      exact hFound tokens hAt hWas (hSameAncestors ▸ hMem)
  · rw [← hRan.state] at hShrinks
    have hWas : token ∈ c.state.active := hShrinks.active.subset hActive
    rw [hShrinks.issued] at hMem
    rcases Tables.getElem?_set_cases hMoved with ⟨rfl, hEq⟩ | ⟨-, hAt⟩
    · rcases after_eq_listed hEq.symm with ⟨rfl, rfl, hOk⟩ | ⟨old, rfl⟩
      · cases a with
        | error fault => cases hOk
        | ok _ =>
          cases hEq
          exact List.mem_filter.mpr ⟨hWas, decide_eq_true hUser⟩
      · have hMemOld := hFound old hPoint hWas hMem
        rcases after_listed_cases hAllows hEq.symm with rfl | ⟨rfl, rfl⟩
        · exact hMemOld
        · rw [hRan.state] at hActive
          have hKept := (List.mem_filter.mp hActive).2
          rw [List.contains_iff_mem.mpr hMemOld] at hKept
          cases hKept
    · exact hFound tokens hAt hWas hMem

theorem Revoking.ran (h : Revoking requests c pts) (hOld : ∀ token ∈ c.state.active, token.jti < c.state.nextJti)
    (hGuard : undisturbed requests c (.run t a) = true) (hRan : store.Ran c t a o th k c') (hPoint : pts[t]? = some pt)
    (hAllows : pt.Allows o) (hUnborn : th.born = none → ∀ userId tokens, pt ≠ .listed userId tokens) :
    Revoking requests c' (pts.set t (pt.after o (store.perform o a c.state).1)) := by
  obtain ⟨hKinds, hListedBy, hListedAt, hAnswered⟩ := h.ran_points hRan hPoint hAllows
  refine ⟨hKinds, hListedBy, hListedAt, hAnswered, ?_, fun u thU before hThread hBorn => ?_⟩
  · intro u thU before userId tokens hMoved hThread hBorn token hActive hUser jti hMem hLt
    exact h.ran_found hOld hGuard hRan hPoint hAllows hUnborn hMoved hThread hBorn hActive hUser hMem hLt
  · have hLater : c.state.nextJti ≤ c'.state.nextJti := by
      rw [hRan.state]
      rcases @perform_cases c.state o a with ⟨userId, parent, rfl, rfl⟩ | hShrinks
      · exact Nat.le_succ _
      · exact Nat.le_of_eq hShrinks.nextJti.symm
    rcases ran_born hRan hThread hBorn with ⟨old, hThreadOld, hBornOld⟩ | ⟨-, -, rfl⟩
    · exact Nat.le_trans (h.born u old before hThreadOld hBornOld) hLater
    · exact hLater

theorem after_holding_cases {w : World} (hAllows : pt.Allows o) :
    (∀ jti, pt.after o (store.perform o a w).1 = .holding jti → pt = .holding jti) ∨
      ∃ token, pt = .refreshing token ∧ o = .del token ∧ a = .ok () := by
  by_cases hRevokes : ∃ token, pt = .refreshing token ∧ o = .del token ∧ a = .ok ()
  · exact .inr hRevokes
  · refine .inl fun jti hAfter => ?_
    rcases after_eq_holding hAfter with hHeld | ⟨token, revoked, rfl, rfl, hOk⟩
    · exact hHeld
    · cases hAllows
      cases a with
      | ok _ => exact absurd ⟨_, rfl, rfl, rfl⟩ hRevokes
      | error fault => cases hOk

theorem Exchanging.ran (h : Exchanging c.state pts) (hRevoking : Revoking requests c pts)
    (hGuard : undisturbed requests c (.run t a) = true) (hRan : store.Ran c t a o th k c') (hPoint : pts[t]? = some pt)
    (hAllows : pt.Allows o) : Exchanging c'.state (pts.set t (pt.after o (store.perform o a c.state).1)) := by
  rw [hRan.state]
  rcases @perform_cases c.state o a with ⟨userId, parent, rfl, rfl⟩ | hShrinks
  · refine h.issues hPoint (fun jti hSome => ?_) fun jti hHolds => ?_
    · subst hSome
      cases pt with
      | holding held =>
        cases hAllows
        rfl
      | listed listedUser tokens => cases hAllows.1
      | _ => cases hAllows
    · cases pt <;> cases hHolds
  · rcases after_holding_cases (w := c.state) (a := a) hAllows with hNone | ⟨token, rfl, rfl, rfl⟩
    · exact (h.shrinks hShrinks).moves hPoint hNone
    · obtain ⟨r, hRequest, refreshed, rfl⟩ := hRevoking.kinds t _ hPoint
      have hActive : c.state.active.contains token = true := by
        simpa only [undisturbed, hRequest, hRan.waiting?] using hGuard
      exact h.revokes (List.contains_iff_mem.mp hActive)

end Revoking

/-! ## Runs -/

structure World.IsNew (w : World) : Prop where
  issued : w.issued = []
  active : w.active = []

instance (w : World) : Decidable w.IsNew := decidable_of_iff (w.issued = [] ∧ w.active = []) ⟨fun h => ⟨h.1, h.2⟩, fun h => ⟨h.1, h.2⟩⟩

section Start

variable {env : Env} {w : World} {requests : List Request}

theorem point_of_start {t : Nat} {pt : Point} (h : (requests.map Request.point)[t]? = some pt) :
    ∃ r, requests[t]? = some r ∧ pt = r.point := by
  rw [List.getElem?_map] at h
  obtain ⟨r, hRequest, rfl⟩ := Option.map_eq_some_iff.mp h
  exact ⟨r, hRequest, rfl⟩

theorem Request.point_ne_listed (r : Request) (userId : Id) (tokens : List RefreshToken) : r.point ≠ .listed userId tokens := by
  cases r <;> rintro ⟨⟩

theorem Request.point_ne_holding (r : Request) (jti : Jti) : r.point ≠ .holding jti := by
  cases r <;> rintro ⟨⟩

theorem Exchanging.start (hNew : w.IsNew) : Exchanging w (requests.map Request.point) := by
  have hNone : ∀ (t : Nat) (jti : Jti), (requests.map Request.point)[t]? ≠ some (.holding jti) := by
    intro t jti hHolds
    obtain ⟨r, -, hPoint⟩ := point_of_start hHolds
    exact r.point_ne_holding jti hPoint.symm
  have hExchanged : w.exchanged = [] := congrArg (List.filterMap Issued.parent) hNew.issued
  refine ⟨?_, ?_, ?_, ?_, fun t jti hHolds => absurd hHolds (hNone t jti), fun t u jti hHolds => absurd hHolds (hNone t jti)⟩
  · rw [hNew.active]
    exact List.nodup_nil
  · rw [hNew.active]
    exact fun _ hMem => absurd hMem List.not_mem_nil
  · rw [hExchanged]
    exact List.nodup_nil
  · rw [hExchanged]
    exact fun _ hMem => absurd hMem List.not_mem_nil

theorem Revoking.start : Revoking requests (State.start env w requests) (requests.map Request.point) := by
  have hNotListed : ∀ (t : Nat) (userId : Id) (tokens : List RefreshToken),
      (requests.map Request.point)[t]? ≠ some (.listed userId tokens) := by
    intro t userId tokens hAt
    obtain ⟨r, -, hPoint⟩ := point_of_start hAt
    exact r.point_ne_listed userId tokens hPoint.symm
  refine ⟨fun t pt hAt => ?_, ?_, ?_, ?_, ?_, fun t th before hThread hBorn => ?_⟩
  · obtain ⟨r, hRequest, rfl⟩ := point_of_start hAt
    exact ⟨r, hRequest, r.point_isFor⟩
  · exact fun t userId tokens hAt => absurd hAt (hNotListed t userId tokens)
  · rintro t r userId - - ⟨e, hMem, -⟩
    cases hMem
  · rintro t r - - ⟨e, hMem, -⟩
    cases hMem
  · exact fun t th before userId tokens hAt => absurd hAt (hNotListed t userId tokens)
  · obtain ⟨p, -, rfl⟩ := List.mem_map.mp (List.mem_of_getElem? hThread)
    cases hBorn

end Start

section Still

variable {requests : List Request} {c c' : State} {pts : List Point}

theorem Revoking.still (h : Revoking requests c pts) (hHistory : c'.history = c.history) (hShrinks : Shrinks c.state c'.state)
    (hThreads : ∀ (t : Nat) (th : Thread Op Op.Resp Err World Unit), c'.threads[t]? = some th →
      ∃ old, c.threads[t]? = some old ∧ th.born = old.born) : Revoking requests c' pts := by
  refine ⟨h.kinds, ?_, ?_, ?_, ?_, fun t th before hThread hBorn => ?_⟩
  · rw [hHistory]
    exact h.listedBy
  · rw [hHistory]
    exact h.listedAt
  · rw [hHistory]
    exact h.answered
  · intro t th before userId tokens hAt hThread hBorn token hActive hUser jti hMem hLt
    obtain ⟨old, hThreadOld, hSame⟩ := hThreads t th hThread
    rw [hShrinks.issued] at hMem
    exact h.found t old before userId tokens hAt hThreadOld (hSame.symm.trans hBorn) token (hShrinks.active.subset hActive) hUser jti
      hMem hLt
  · obtain ⟨old, hThreadOld, hSame⟩ := hThreads t th hThread
    rw [hShrinks.nextJti]
    exact h.born t old before hThreadOld (hSame.symm.trans hBorn)

end Still

end RestaurantOs.Sessions
