import RestaurantOs.Memberships.Requests

/-!
# What the requests write

Each request follows a protocol: what it saves is the copy that it read with its
own changes, under the token that it issued or after the owners it counted.
-/

namespace RestaurantOs.Memberships

open Async Prog

structure World.Identified (w : World) : Prop where
  ids : (w.memberships.map AgencyMembership.id).Nodup
  given : ∀ m ∈ w.memberships, m.id < w.nextId

structure Point where
  request : Request
  pending : Option Token := none
  loaded : Option AgencyMembership := none
  counted : Option (Id × Nat) := none

def Op.counted? : (o : Op) → Except Err o.Resp → Option (Id × Nat)
  | .countOwners agencyId, .ok n => some (agencyId, n)
  | _, _ => none

namespace Point

def after (pt : Point) : (o : Op) → Except Err o.Resp → Point
  | .generateSecureToken, .ok token => { pt with pending := some token }
  | .findMembershipOf _ _, .ok m => { pt with loaded := m }
  | .findMembership _ _, .ok m => { pt with loaded := m }
  | .countOwners agencyId, .ok n => { pt with counted := some (agencyId, n) }
  | .saveMembership _ _, _ | .createMembership _ _ _ _ _ _, _ => { pt with pending := none }
  | _, _ => pt

def Brings (pt : Point) (saved : AgencyMembership) : Prop := ∃ token, pt.pending = some token ∧ saved.inviteTokenHash = some token

def Saves (pt : Point) (loaded saved : AgencyMembership) : Prop :=
  match pt.request with
  | .inviteMember _ _ _ _ => pt.Brings saved ∧ saved.status = .invited ∧ loaded.status ≠ .invited ∧ loaded.status ≠ .active
  | .resendMemberInvite _ _ _ => pt.Brings saved ∧ saved.status = loaded.status ∧ saved.role = loaded.role
  | .acceptAgencyInvite _ _ => False
  | .updateMember _ _ updates => saved = updates.apply loaded ∧
      (demotingOrRemovingAnOwner loaded updates = true → ∃ n, pt.counted = some (loaded.agencyId, n) ∧ 1 < n)

def Allows (pt : Point) : Op → Prop
  | .saveMembership loaded saved => pt.loaded = some loaded ∧ pt.Saves loaded saved
  | .createMembership _ _ _ _ token _ => pt.pending = some token ∧
      ∃ inviterId agencyId email role, pt.request = .inviteMember inviterId agencyId email role
  | _ => True

end Point

@[reducible] def writing : Protocol Op World Unit where
  Point := Point
  Move o a w pt pt' := pt.Allows o ∧ pt' = pt.after o (store.perform o a w).1
  Rest _ := True

section Walk

variable {pt : Point}

theorem follows_after {o : Op} (hAllows : pt.Allows o) {Q : o.Resp → Point → Prop} {E : Err → Point → Prop}
    (hQ : ∀ w v, (o.perform w).1 = .ok v → Q v (pt.after o (.ok v)))
    (hE : ∀ err, E err (pt.after o (.error err))) : (Prog.call o : Promise o.Resp).Follows store writing pt Q E := by
  refine follows_call.mpr fun a w => ⟨_, ⟨hAllows, rfl⟩, ?_⟩
  cases hAnswer : (store.perform o a w).1 with
  | ok v => exact hQ w v hAnswer
  | error err => exact hE err

theorem follows_quiet {o : Op} (hAllows : pt.Allows o) (hAfter : ∀ r, pt.after o r = pt) {Q : o.Resp → Point → Prop}
    (hQ : ∀ v, Q v pt) : (Prog.call o : Promise o.Resp).Follows store writing pt Q fun _ _ => True :=
  follows_after hAllows (fun _ v _ => by rw [hAfter]; exact hQ v) fun _ => trivial

theorem orConflict_follows {α : Type} {p : Promise α} {message : String} {Q : α → Point → Prop}
    (h : p.Follows store writing pt Q fun _ _ => True) : (orConflict p message).Follows store writing pt Q fun _ _ => True := by
  unfold orConflict
  rw [bind_eq, follows_bind, follows_attempt]
  refine h.mono (fun _ _ hQ => hQ) fun err _ _ => ?_
  cases err <;> trivial

theorem findOrCreateUser_follows {found : Option User} {email : Email} {token : Token} {expiresAt : Time} :
    (findOrCreateUser found email token expiresAt).Follows store writing pt (fun _ pt' => pt' = pt) fun _ _ => True := by
  unfold findOrCreateUser
  cases found with
  | some user => rfl
  | none => exact orConflict_follows (follows_quiet (o := Op.createUser email token expiresAt) trivial (fun _ => rfl) fun _ => rfl)

theorem announceInvite_follows {inviterId agencyId : Id} {email : Email} {token : Token} {action : String} :
    (announceInvite inviterId agencyId email token action).Follows store writing pt (fun _ _ => True) fun _ _ => True := by
  unfold announceInvite
  rw [bind_eq, follows_bind]
  refine follows_quiet (o := Op.findUser inviterId) trivial (fun _ => rfl) fun _ => ?_
  rw [bind_eq, follows_bind]
  refine follows_quiet (o := Op.sendInvite email token) trivial (fun _ => rfl) fun _ => ?_
  exact follows_quiet (o := Op.recordAuditEvent agencyId action) trivial (fun _ => rfl) fun _ => trivial

theorem recordInvite_follows {existing : Option AgencyMembership} {inviterId agencyId userId inviter agency : Id} {email : Email}
    {role role' : MemberRole} {token : Token} {expiresAt : Time} (hRequest : pt.request = .inviteMember inviter agency email role')
    (hPending : pt.pending = some token) (hLoaded : pt.loaded = existing) :
    (recordInvite existing inviterId agencyId userId role token expiresAt).Follows store writing pt (fun _ _ => True) fun _ _ => True := by
  unfold recordInvite
  cases existing with
  | none =>
    refine orConflict_follows (follows_after (o := Op.createMembership agencyId userId role inviterId token expiresAt) ?_
      (fun _ _ _ => trivial) fun _ => trivial)
    exact ⟨hPending, inviter, agency, email, role', hRequest⟩
  | some m =>
    dsimp only
    split
    · trivial
    · rename_i hStatus
      rw [Bool.or_eq_true, decide_eq_true_eq, decide_eq_true_eq, not_or] at hStatus
      refine follows_after (o := Op.saveMembership m _) ⟨hLoaded, ?_⟩ (fun _ _ _ => trivial) fun _ => trivial
      rw [Point.Saves, hRequest]
      exact ⟨⟨token, hPending, rfl⟩, rfl, hStatus.1, hStatus.2⟩

theorem inviteMember_follows {inviterId agencyId : Id} {email : Email} {role : MemberRole}
    (hRequest : pt.request = .inviteMember inviterId agencyId email role) :
    (inviteMember inviterId agencyId email role).Follows store writing pt (fun _ _ => True) fun _ _ => True := by
  unfold inviteMember
  rw [bind_eq, follows_bind]
  refine follows_quiet (o := Op.findAgency agencyId) trivial (fun _ => rfl) fun agency => ?_
  split
  · trivial
  · rw [bind_eq, follows_bind]
    refine follows_quiet (o := Op.findUserByEmail email) trivial (fun _ => rfl) fun found => ?_
    split
    · trivial
    · rw [bind_eq, follows_bind]
      refine follows_after (o := Op.generateSecureToken) trivial (fun _ token _ => ?_) fun _ => trivial
      rw [bind_eq, follows_bind]
      refine follows_quiet (o := Op.clock) trivial (fun _ => rfl) fun now => ?_
      rw [bind_eq, follows_bind]
      refine (findOrCreateUser_follows).mono ?_ fun _ _ _ => trivial
      rintro user _ rfl
      rw [bind_eq, follows_bind]
      refine follows_after (o := Op.findMembershipOf agencyId user.id) trivial (fun _ existing _ => ?_) fun _ => trivial
      rw [bind_eq, follows_bind]
      have hRecord : (recordInvite existing inviterId agencyId user.id role token (now + MEMBER_INVITE_TTL_MS)).Follows store writing
          { pt with pending := some token, loaded := existing } (fun _ _ => True) fun _ _ => True :=
        recordInvite_follows hRequest rfl rfl
      refine hRecord.mono (fun _ _ _ => ?_) fun _ _ _ => trivial
      rw [bind_eq, follows_bind]
      exact (announceInvite_follows).mono (fun _ _ _ => trivial) fun _ _ _ => trivial

theorem findMembershipOrThrow_follows {id agencyId : Id} : (findMembershipOrThrow id agencyId).Follows store writing pt
    (fun m pt' => pt' = { pt with loaded := some m } ∧ m.agencyId = agencyId) fun _ _ => True := by
  unfold findMembershipOrThrow
  rw [bind_eq, follows_bind]
  refine follows_after (o := Op.findMembership id agencyId) trivial (fun w m hAnswer => ?_) fun _ => trivial
  cases m with
  | none => trivial
  | some m =>
    have hFound := List.find?_some (Except.ok.inj hAnswer)
    rw [Bool.and_eq_true, decide_eq_true_eq, decide_eq_true_eq] at hFound
    exact ⟨rfl, hFound.2⟩

theorem renewUserToken_follows {user : User} {token : Token} {expiresAt : Time} :
    (renewUserToken user token expiresAt).Follows store writing pt (fun _ _ => True) fun _ _ => True := by
  unfold renewUserToken
  split
  · exact follows_quiet (o := Op.saveUser user _) trivial (fun _ => rfl) fun _ => trivial
  · trivial

theorem resendMemberInvite_follows {inviterId agencyId membershipId : Id}
    (hRequest : pt.request = .resendMemberInvite inviterId agencyId membershipId) :
    (resendMemberInvite inviterId agencyId membershipId).Follows store writing pt (fun _ _ => True) fun _ _ => True := by
  unfold resendMemberInvite
  rw [bind_eq, follows_bind]
  refine (findMembershipOrThrow_follows).mono ?_ fun _ _ _ => trivial
  rintro m _ ⟨rfl, -⟩
  split
  · trivial
  · rw [bind_eq, follows_bind]
    refine follows_quiet (o := Op.findUser m.userId) trivial (fun _ => rfl) fun user => ?_
    cases user with
    | none => trivial
    | some user =>
      dsimp only
      rw [bind_eq, follows_bind]
      refine follows_after (o := Op.generateSecureToken) trivial (fun _ token _ => ?_) fun _ => trivial
      rw [bind_eq, follows_bind]
      refine follows_quiet (o := Op.clock) trivial (fun _ => rfl) fun now => ?_
      rw [bind_eq, follows_bind]
      refine follows_after (o := Op.saveMembership m _) ⟨rfl, ?_⟩ (fun _ _ _ => ?_) fun _ => trivial
      · rw [Point.Saves, show (Point.after { pt with loaded := some m } .generateSecureToken (.ok token)).request = _ from hRequest]
        exact ⟨⟨token, rfl, rfl⟩, rfl, rfl⟩
      · rw [bind_eq, follows_bind]
        refine (renewUserToken_follows).mono (fun _ _ _ => ?_) fun _ _ _ => trivial
        rw [bind_eq, follows_bind]
        refine follows_quiet (o := Op.findAgency agencyId) trivial (fun _ => rfl) fun _ => ?_
        rw [bind_eq, follows_bind]
        exact (announceInvite_follows).mono (fun _ _ _ => trivial) fun _ _ _ => trivial

theorem acceptForUser_follows {user : User} {password : Option String} :
    (acceptForUser user password).Follows store writing pt (fun _ _ => True) fun _ _ => True := by
  unfold acceptForUser
  split
  · split
    · trivial
    · rw [bind_eq, follows_bind]
      refine follows_quiet (o := Op.consumeToken user.id user.inviteTokenHash) trivial (fun _ => rfl) fun updatedUser => ?_
      split <;> trivial
  · trivial

theorem acceptAgencyInvite_follows {token : Token} {password : Option String} :
    (acceptAgencyInvite token password).Follows store writing pt (fun _ _ => True) fun _ _ => True := by
  unfold acceptAgencyInvite
  rw [bind_eq, follows_bind]
  refine follows_quiet (o := Op.findInvited token) trivial (fun _ => rfl) fun m => ?_
  cases m with
  | none => trivial
  | some m =>
    dsimp only
    rw [bind_eq, follows_bind]
    refine follows_quiet (o := Op.findUser m.userId) trivial (fun _ => rfl) fun user => ?_
    cases user with
    | none => trivial
    | some user =>
      dsimp only
      rw [bind_eq, follows_bind]
      refine (acceptForUser_follows).mono (fun _ pt' _ => ?_) fun _ _ _ => trivial
      rw [bind_eq, follows_bind]
      refine follows_quiet (o := Op.activate m.id token) trivial (fun _ => rfl) fun updatedMembership => ?_
      split
      · trivial
      · have hLast : (Prog.call (Op.recordAuditEvent m.agencyId "agency.member_accepted") : Promise Unit).Follows store writing pt'
            (fun _ _ => True) fun _ _ => True :=
          follows_quiet (o := Op.recordAuditEvent m.agencyId _) trivial (fun _ => rfl) fun _ => trivial
        split
        · rw [bind_eq, follows_bind]
          refine follows_quiet (o := Op.setAgencyMember user.id) trivial (fun _ => rfl) fun _ => ?_
          rw [bind_eq, follows_bind]
          exact hLast.mono (fun _ _ _ => trivial) fun _ _ _ => trivial
        · rw [bind_eq, follows_bind]
          exact hLast.mono (fun _ _ _ => trivial) fun _ _ _ => trivial

theorem keepAnOwner_follows {m : AgencyMembership} {updates : MembershipUpdates} {agencyId : Id} :
    (keepAnOwner m updates agencyId).Follows store writing pt (fun _ pt' => ∃ counted, pt' = { pt with counted } ∧
      (demotingOrRemovingAnOwner m updates = true → ∃ n, counted = some (agencyId, n) ∧ 1 < n)) fun _ _ => True := by
  unfold keepAnOwner
  split
  · rw [bind_eq, follows_bind]
    refine follows_after (o := Op.countOwners agencyId) trivial (fun _ n _ => ?_) fun _ => trivial
    split
    · trivial
    · rename_i hMore
      exact ⟨some (agencyId, n), rfl, fun _ => ⟨n, rfl, Nat.lt_of_not_le hMore⟩⟩
  · rename_i hNot
    exact ⟨pt.counted, rfl, fun hDemoting => absurd hDemoting hNot⟩

theorem updateMember_follows {agencyId membershipId : Id} {updates : MembershipUpdates}
    (hRequest : pt.request = .updateMember agencyId membershipId updates) :
    (updateMember agencyId membershipId updates).Follows store writing pt (fun _ _ => True) fun _ _ => True := by
  unfold updateMember
  rw [bind_eq, follows_bind]
  refine (findMembershipOrThrow_follows).mono ?_ fun _ _ _ => trivial
  rintro m _ ⟨rfl, hAgency⟩
  rw [bind_eq, follows_bind]
  refine (keepAnOwner_follows).mono ?_ fun _ _ _ => trivial
  rintro _ _ ⟨counted, rfl, hCounted⟩
  rw [bind_eq, follows_bind]
  refine follows_after (o := Op.saveMembership m (updates.apply m)) ⟨rfl, ?_⟩ (fun _ _ _ => ?_) fun _ => trivial
  · simp only [Point.Saves, hRequest, hAgency]
    exact ⟨trivial, hCounted⟩
  · rw [bind_eq, follows_bind]
    exact follows_quiet (o := Op.recordAuditEvent agencyId _) trivial (fun _ => rfl) fun _ => trivial

theorem Request.program_follows (r : Request) :
    r.program.Follows store writing { request := r } (fun _ _ => True) fun _ _ => True := by
  cases r with
  | inviteMember inviterId agencyId email role => exact inviteMember_follows rfl
  | resendMemberInvite inviterId agencyId membershipId => exact resendMemberInvite_follows rfl
  | acceptAgencyInvite token password => exact acceptAgencyInvite_follows
  | updateMember agencyId membershipId updates => exact updateMember_follows rfl

end Walk

/-! ## What a write does -/

section Turn

variable {o : Op} {w : World} {m m' : AgencyMembership} {loaded saved : AgencyMembership} {agencyId : Id}

def Op.turn (o : Op) (w : World) (m : AgencyMembership) : AgencyMembership :=
  match o with
  | .saveMembership loaded saved => if m.id = loaded.id then loaded.saveOver saved m else m
  | .activate id token => if m.id = id && m.inviteTokenHash = some token then m.accepted w.now else m
  | _ => m

def Op.added (o : Op) (w : World) : List AgencyMembership :=
  match o with
  | .createMembership agencyId userId role invitedBy token expiresAt =>
    if w.memberships.any fun m => m.agencyId = agencyId && m.userId = userId then []
    else
      [{ id := w.nextId, agencyId, userId, role, invitedBy := some invitedBy, inviteTokenHash := some token, inviteExpiresAt := some expiresAt }]
  | _ => []

theorem Op.memberships_perform (o : Op) (w : World) :
    (o.perform w).2.memberships = w.memberships.map (o.turn w) ++ o.added w := by
  have hSame : w.memberships = w.memberships.map (fun m => m) ++ [] := by rw [List.map_id', List.append_nil]
  cases o with
  | createUser email token expiresAt =>
    simp only [perform]
    split <;> exact hSame
  | createMembership agencyId userId role invitedBy token expiresAt =>
    simp only [perform, added]
    split
    · exact hSame
    · exact congrArg (· ++ _) (List.map_id' _).symm
  | saveMembership loaded saved =>
    simp only [perform, World.updateMemberships, Tables.update, added, List.append_nil]
    exact List.map_congr_left fun m _ => by simp only [turn, decide_eq_true_eq]
  | activate id token =>
    simp only [perform, World.updateMemberships, Tables.update, added, List.append_nil]
    rfl
  | _ => exact hSame

theorem Op.nextId_perform (o : Op) (w : World) : w.nextId + (o.added w).length ≤ (o.perform w).2.nextId := by
  cases o with
  | createUser email token expiresAt =>
    simp only [perform, added]
    split
    · exact le_refl _
    · exact Nat.le_succ _
  | createMembership agencyId userId role invitedBy token expiresAt =>
    simp only [perform, added]
    split <;> exact le_refl _
  | _ => exact le_refl _

@[simp] theorem Op.turn_id (o : Op) (w : World) (m : AgencyMembership) : (o.turn w m).id = m.id := by
  unfold turn
  split
  · split <;> rfl
  · split <;> rfl
  · rfl

theorem Op.added_id (h : m ∈ o.added w) : m.id = w.nextId := by
  unfold added at h
  split at h
  · split at h
    · cases h
    · cases List.mem_singleton.mp h
      rfl
  · cases h

theorem Op.added_length_le (o : Op) (w : World) : (o.added w).length ≤ 1 := by
  unfold added
  split
  · split <;> simp
  · simp

theorem World.Identified.perform (h : w.Identified) (o : Op) : (o.perform w).2.Identified := by
  have hNext := o.nextId_perform w
  refine ⟨?_, ?_⟩
  · have hMap : (w.memberships.map (o.turn w)).map AgencyMembership.id = w.memberships.map AgencyMembership.id := by
      rw [List.map_map]
      exact List.map_congr_left fun m _ => o.turn_id w m
    rw [o.memberships_perform, List.map_append, hMap]
    refine List.nodup_append.mpr ⟨h.ids, ?_, ?_⟩
    · have hLength : ((o.added w).map AgencyMembership.id).length ≤ 1 := by
        rw [List.length_map]
        exact o.added_length_le w
      rcases Nat.le_one_iff_eq_zero_or_eq_one.mp hLength with hNone | hOne
      · rw [List.length_eq_zero_iff.mp hNone]
        exact List.nodup_nil
      · obtain ⟨id, hOnly⟩ := List.length_eq_one_iff.mp hOne
        rw [hOnly]
        exact List.nodup_singleton _
    · intro id hId id' hId'
      obtain ⟨m, hMem, rfl⟩ := List.mem_map.mp hId
      obtain ⟨m', hMem', rfl⟩ := List.mem_map.mp hId'
      rw [Op.added_id hMem']
      exact Nat.ne_of_lt (h.given m hMem)
  · intro m hMem
    rw [o.memberships_perform] at hMem
    rcases List.mem_append.mp hMem with hMem | hMem
    · obtain ⟨old, hOld, rfl⟩ := List.mem_map.mp hMem
      rw [Op.turn_id]
      exact (h.given old hOld).trans_le ((Nat.le_add_right _ _).trans hNext)
    · rw [Op.added_id hMem]
      have hPos := List.length_pos_of_mem hMem
      exact (Nat.lt_add_of_pos_right hPos).trans_le hNext

end Turn

end RestaurantOs.Memberships
