import RestaurantOs.Memberships.Writes

/-!
# An active owner

An agency keeps an active owner as long as what a save of one relies on still
holds: the copy is of an active owner, and no fewer owners are active than the
request counted.
-/

namespace RestaurantOs.Memberships

open Async Prog

def World.hasOwner (w : World) (agencyId : Id) : Bool := w.memberships.any (·.isActiveOwner agencyId)

/-- A save of an active owner lands with a copy that was read as one, and while
as many owners are active as the request has counted. -/
def ownersStand (agencyId : Id) (c : State) : Label Unit Time → Bool
  | .run t _ =>
    match c.waiting? t with
    | some (.saveMembership loaded _) =>
      !(c.state.memberships.any fun stored => stored.id = loaded.id && stored.isActiveOwner agencyId) ||
        (loaded.isActiveOwner agencyId && (c.latest? Op.counted? t).all fun counted => counted.2 ≤ c.state.ownerCount counted.1)
    | _ => true
  | _ => true

section Steps

variable {w : World} {o : Op} {m loaded saved : AgencyMembership} {agencyId id : Id} {pt : Point} {updates : MembershipUpdates}

theorem isActiveOwner_iff : m.isActiveOwner agencyId = true ↔ m.agencyId = agencyId ∧ m.role = .agencyOwner ∧ m.status = .active := by
  simp only [AgencyMembership.isActiveOwner, Bool.and_eq_true, decide_eq_true_eq, and_assoc]

theorem hasOwner_of_mem (hMem : m ∈ w.memberships) (hOwner : (o.turn w m).isActiveOwner agencyId = true) :
    (o.perform w).2.hasOwner agencyId = true := by
  rw [World.hasOwner, List.any_eq_true]
  exact ⟨_, by rw [o.memberships_perform]; exact List.mem_append_left _ (List.mem_map_of_mem hMem), hOwner⟩

theorem owner_besides (h : w.Identified) (hCount : 1 < w.ownerCount agencyId) (id : Id) :
    ∃ m ∈ w.memberships, m.isActiveOwner agencyId = true ∧ m.id ≠ id := by
  have hNodup : ((w.memberships.filter (·.isActiveOwner agencyId)).map AgencyMembership.id).Nodup :=
    h.ids.sublist (List.filter_sublist.map _)
  have hMem : ∀ m ∈ w.memberships.filter (·.isActiveOwner agencyId), m ∈ w.memberships ∧ m.isActiveOwner agencyId = true :=
    fun m hMem => List.mem_filter.mp hMem
  rw [World.ownerCount] at hCount
  rcases hOwners : w.memberships.filter (·.isActiveOwner agencyId) with _ | ⟨first, _ | ⟨second, rest⟩⟩
  · rw [hOwners] at hCount
    cases hCount
  · rw [hOwners] at hCount
    exact absurd hCount (Nat.lt_irrefl 1)
  · rw [hOwners] at hNodup hMem
    have hNe : first.id ≠ second.id := by
      intro hEq
      rw [List.map_cons, List.map_cons, List.nodup_cons] at hNodup
      exact hNodup.1 (hEq ▸ List.mem_cons_self)
    by_cases hFirst : first.id = id
    · obtain ⟨hIn, hOwner⟩ := hMem second (List.mem_cons_of_mem _ List.mem_cons_self)
      exact ⟨second, hIn, hOwner, fun hSecond => hNe (hFirst.trans hSecond.symm)⟩
    · obtain ⟨hIn, hOwner⟩ := hMem first List.mem_cons_self
      exact ⟨first, hIn, hOwner, hFirst⟩

theorem turn_of_ne (h : m.id ≠ loaded.id) : (Op.saveMembership loaded saved).turn w m = m := if_neg h

theorem saveOver_isActiveOwner (hRole : saved.role = loaded.role)
    (hStatus : saved.status = loaded.status) (h : m.isActiveOwner agencyId = true) :
    (loaded.saveOver saved m).isActiveOwner agencyId = true := by
  rw [isActiveOwner_iff] at h ⊢
  simp only [AgencyMembership.saveOver, overwrite, hRole, hStatus, if_true]
  exact h

theorem apply_of_not_demoting (hLoaded : loaded.isActiveOwner agencyId = true)
    (h : demotingOrRemovingAnOwner loaded updates = false) :
    (updates.apply loaded).role = loaded.role ∧ (updates.apply loaded).status = loaded.status := by
  obtain ⟨-, hRole, hStatus⟩ := (isActiveOwner_iff).mp hLoaded
  simp only [demotingOrRemovingAnOwner, hRole, decide_true, Bool.true_and, Bool.or_eq_false_iff] at h
  obtain ⟨hRoleKept, hStatusKept⟩ := h
  constructor
  · cases hUpdate : updates.role with
    | none => simp [MembershipUpdates.apply, hUpdate]
    | some role => simpa [MembershipUpdates.apply, hUpdate, hRole] using hRoleKept
  · cases hUpdate : updates.status with
    | none => simp [MembershipUpdates.apply, hUpdate]
    | some status => simpa [MembershipUpdates.apply, hUpdate, hStatus] using hStatusKept

end Steps

structure Owned (agencyId : Id) (c : State) (pts : List Point) : Prop where
  identified : c.state.Identified
  counted : ∀ {t : Nat} {pt : Point}, pts[t]? = some pt → c.latest? Op.counted? t = pt.counted
  owner : c.state.hasOwner agencyId = true

section Runs

variable {c c' : State} {pts : List Point} {agencyId : Id} {t : Nat} {o : Op} {pt : Point}
  {th : Thread Op Op.Resp Err World Response} {k : Except Err o.Resp → Promise Response}

theorem Point.after_counted (pt : Point) (o : Op) (r : Except Err o.Resp) :
    (pt.after o r).counted = (o.counted? r).or pt.counted := by
  cases o <;> cases r <;> rfl

theorem Owned.ran (h : Owned agencyId c pts) (hGuard : ownersStand agencyId c (.run t ()) = true)
    (hRan : store.Ran c t () o th k c') (hPoint : pts[t]? = some pt) (hAllows : pt.Allows o) :
    c'.state.hasOwner agencyId = true := by
  rw [hRan.state]
  obtain ⟨m, hMem, hOwner⟩ := List.any_eq_true.mp h.owner
  cases o with
  | saveMembership loaded saved =>
    by_cases hHit : (c.state.memberships.any fun stored => stored.id = loaded.id && stored.isActiveOwner agencyId) = true
    · have hStands : (loaded.isActiveOwner agencyId && (c.latest? Op.counted? t).all fun counted =>
          counted.2 ≤ c.state.ownerCount counted.1) = true := by
        simpa only [ownersStand, hRan.waiting?, hHit, Bool.not_true, Bool.false_or] using hGuard
      rw [Bool.and_eq_true, h.counted hPoint] at hStands
      obtain ⟨hLoaded, hCount⟩ := hStands
      obtain ⟨stored, hStored, hSel⟩ := List.any_eq_true.mp hHit
      rw [Bool.and_eq_true, decide_eq_true_eq] at hSel
      have hTurn : (Op.saveMembership loaded saved).turn c.state stored = loaded.saveOver saved stored := if_pos hSel.1
      have hSaves := hAllows.2
      unfold Point.Saves at hSaves
      split at hSaves
      · exact absurd ((isActiveOwner_iff).mp hLoaded).2.2 hSaves.2.2.2
      · refine hasOwner_of_mem hStored ?_
        rw [hTurn]
        exact saveOver_isActiveOwner hSaves.2.2 hSaves.2.1 hSel.2
      · exact hSaves.elim
      · obtain ⟨rfl, hCounted⟩ := hSaves
        cases hDemoting : demotingOrRemovingAnOwner loaded _ with
        | false =>
          obtain ⟨hRole, hStatus⟩ := apply_of_not_demoting hLoaded hDemoting
          refine hasOwner_of_mem hStored ?_
          rw [hTurn]
          exact saveOver_isActiveOwner hRole hStatus hSel.2
        | true =>
          obtain ⟨n, hPt, hMore⟩ := hCounted hDemoting
          rw [hPt, Option.all_some, decide_eq_true_eq, ((isActiveOwner_iff).mp hLoaded).1] at hCount
          obtain ⟨other, hOther, hOtherOwner, hNe⟩ := owner_besides h.identified (hMore.trans_le hCount) loaded.id
          refine hasOwner_of_mem hOther ?_
          rw [turn_of_ne hNe]
          exact hOtherOwner
    · have hNe : m.id ≠ loaded.id := by
        intro hEq
        exact hHit (List.any_eq_true.mpr ⟨m, hMem, by simp only [hOwner, hEq, decide_true, Bool.and_true]⟩)
      refine hasOwner_of_mem hMem ?_
      rw [turn_of_ne hNe]
      exact hOwner
  | activate id token =>
    refine hasOwner_of_mem hMem ?_
    obtain ⟨hAgency, hRole, -⟩ := (isActiveOwner_iff).mp hOwner
    unfold Op.turn
    dsimp only
    split
    · exact (isActiveOwner_iff).mpr ⟨hAgency, hRole, rfl⟩
    · exact hOwner
  | _ => exact hasOwner_of_mem hMem hOwner

theorem Owned.next (h : Owned agencyId c pts) (hGuard : ownersStand agencyId c (.run t ()) = true)
    (hRan : store.Ran c t () o th k c') (hPoint : pts[t]? = some pt) (hAllows : pt.Allows o) :
    Owned agencyId c' (pts.set t (pt.after o (store.perform o () c.state).1)) where
  identified := by
    rw [hRan.state]
    exact h.identified.perform o
  counted := by
    intro u ptU hPointU
    rw [hRan.latest?]
    rcases Tables.getElem?_set_cases hPointU with ⟨rfl, rfl⟩ | ⟨hNe, hPointU⟩
    · rw [if_pos rfl, h.counted hPoint, Point.after_counted]
    · rw [if_neg (Ne.symm hNe)]
      exact h.counted hPointU
  owner := h.ran hGuard hRan hPoint hAllows

/-- An agency with an active owner keeps one, in whatever order its members are
invited and updated. -/
theorem agency_keeps_active_owner {w : World} {requests : List Request} (hIds : w.Identified) (hOwner : w.hasOwner agencyId = true)
    (h : store.Reach (fun c l => ownersStand agencyId c l) (State.start w requests) c) : c.state.hasOwner agencyId = true := by
  have hTracks : Tracks store writing (requests.map fun r => ({ request := r } : Point)) (State.start w requests)
      (requests.map fun r => { request := r }) :=
    Tracks.initial fun r _ => r.program_follows
  have hStart : Owned agencyId (State.start w requests) (requests.map fun r => { request := r }) := by
    refine ⟨hIds, fun {t pt} hPoint => ?_, hOwner⟩
    rw [List.getElem?_map] at hPoint
    obtain ⟨r, -, rfl⟩ := Option.map_eq_some_iff.mp hPoint
    rfl
  obtain ⟨pts, -, hOwned⟩ := Tracks.invariant (I := Owned agencyId) hTracks hStart
    (fun _ hOwned hGuard hRan hPoint hMove _ => by
      obtain ⟨hAllows, rfl⟩ := hMove
      exact hOwned.next hGuard hRan hPoint hAllows)
    (fun _ hOwned _ _ => ⟨hOwned.identified, hOwned.counted, hOwned.owner⟩)
    (fun _ hOwned _ => ⟨⟨hOwned.identified.ids, hOwned.identified.given⟩, hOwned.counted, hOwned.owner⟩) h
  exact hOwned.owner

end Runs

/-! ### Two owners who remove each other -/

def ownedAgency : World where
  agencies := [1]
  users := [{ id := 2, email := "a@x.com", role := .agencyMember }, { id := 3, email := "b@x.com", role := .agencyMember }]
  memberships := [{ id := 4, agencyId := 1, userId := 2, role := .agencyOwner, status := .active },
    { id := 5, agencyId := 1, userId := 3, role := .agencyOwner, status := .active }]
  nextId := 6

theorem ownedAgency_identified : ownedAgency.Identified := ⟨by decide, by decide⟩

/-- One owner is removed, then the other one cannot be. -/
theorem ownedAgency_keeps_owner : ∃ c : State, (c.state.memberships.map AgencyMembership.status = [.revoked, .active]) ∧
    c.state.hasOwner 1 = true := by
  obtain ⟨c, hReach, hStatus⟩ := store.exists_of_exec (ownersStand 1) (State.start ownedAgency [.updateMember 1 4 .revoke, .updateMember 1 5 .revoke])
    (List.flatten [List.replicate 4 (.run 0 ()), List.replicate 2 (.run 1 ())])
    (fun c => c.state.memberships.map AgencyMembership.status = [.revoked, .active]) (by decide +kernel)
  exact ⟨c, of_decide_eq_true hStatus, agency_keeps_active_owner ownedAgency_identified (by decide) hReach⟩

/-- Both requests count two owners before either saves. -/
theorem agency_loses_owners : ¬ ∀ (w : World) (requests : List Request) (agencyId : Id) (c : State), w.Identified →
    w.hasOwner agencyId = true → store.Reach (fun _ _ => True) (State.start w requests) c → c.state.hasOwner agencyId = true := by
  intro hClaim
  obtain ⟨c, hReach, hNone⟩ := store.exists_of_exec (fun _ _ => true) (State.start ownedAgency [.updateMember 1 4 .revoke, .updateMember 1 5 .revoke])
    (List.flatten [List.replicate 2 (.run 0 ()), List.replicate 3 (.run 1 ()), [.run 0 ()]])
    (fun c => !c.state.hasOwner 1) (by decide +kernel)
  rw [hClaim ownedAgency _ 1 c ownedAgency_identified (by decide) (hReach.mono fun _ _ _ => trivial)] at hNone
  cases hNone

end RestaurantOs.Memberships
