import Mathlib.Data.List.Perm.Subperm
import RestaurantOs.Support.Tickets

/-!
# Staff and their locations

A staff account is created by an invitation to one restaurant and is later given
other locations of that restaurant's business. A request on a restaurant is
allowed at the account's own restaurant before its locations are looked at.
-/

namespace RestaurantOs.Staff

export Payments (Id Time ApiError)
export Support (UserRole)

/-- A token stands for its hash too. -/
abbrev Token := Nat

abbrev Email := String

def INVITE_TTL_MS : Time := 7 * 24 * 60 * 60 * 1000

def STAFF_ROLES : List UserRole := [.restaurantManager, .restaurantStaff, .kitchenStaff]

structure Restaurant where
  id : Id
  businessId : Option Id := none
  deriving DecidableEq

structure Business where
  id : Id
  ownerId : Option Id := none
  agencyId : Option Id := none
  deriving DecidableEq

structure User where
  id : Id
  name : String
  email : Email
  role : UserRole
  restaurantId : Option Id := none
  businessId : Option Id := none
  locationIds : List Id := []
  phone : Option String := none
  isActive : Bool := true
  inviteTokenHash : Option Token := none
  inviteExpiresAt : Option Time := none
  deriving DecidableEq

inductive AgencyMembershipRole
  | agencyOwner | agencyAdmin | agencyStaff
  deriving DecidableEq

structure AgencyMembership where
  agencyId : Id
  userId : Id
  isActive : Bool
  businessIds : List Id := []
  deriving DecidableEq

structure World where
  now : Time := 0
  restaurants : List Restaurant := []
  businesses : List Business := []
  users : List User := []
  memberships : List AgencyMembership := []
  nextId : Id := 0
  nextToken : Token := 0

/-! ## Access -/

/-- The claims of an access token. -/
structure TenantUser where
  id : Option Id := none
  role : UserRole
  restaurantId : Option Id := none
  businessId : Option Id := none
  locationIds : List Id := []
  agencyMemberships : List (Id × AgencyMembershipRole) := []

def User.claims (user : User) (agencyMemberships : List (Id × AgencyMembershipRole)) : TenantUser where
  id := some user.id
  role := user.role
  restaurantId := user.restaurantId
  businessId := user.businessId
  locationIds := user.locationIds
  agencyMemberships := agencyMemberships

structure TenantAccessResult where
  allowed : Bool
  agencyRole : Option AgencyMembershipRole := none
  ownerOfRecord : Bool := false
  deriving DecidableEq

def platformAdminOwnsBusiness (w : World) (user : TenantUser) : Option Id → Bool
  | none => false
  | some businessId =>
    match user.id with
    | some id => user.role = .platformAdmin && w.businesses.any fun b => b.id = businessId && b.ownerId = some id
    | none => false

def agencyGrantsBusinessAccess (w : World) (userId : Id) (memberships : List (Id × AgencyMembershipRole)) (targetBusinessId : Id) :
    Option AgencyMembershipRole := do
  let business ← w.businesses.find? fun b => b.id = targetBusinessId
  let agencyId ← business.agencyId
  let membership ← memberships.find? fun m => m.1 = agencyId
  match membership.2 with
  | .agencyStaff =>
    let row ← w.memberships.find? fun m => m.agencyId = agencyId && m.userId = userId && m.isActive
    if row.businessIds.contains targetBusinessId then some .agencyStaff else none
  | role => some role

def resolveTenantAccess (w : World) (user : TenantUser) : Option Id → TenantAccessResult
  | none => { allowed := false }
  | some targetRestaurantId =>
    if user.restaurantId = some targetRestaurantId then { allowed := true }
    else if user.role = .restaurantStaff || user.role = .kitchenStaff then { allowed := user.locationIds.contains targetRestaurantId }
    else
      let targetBusinessId := (w.restaurants.find? fun r => r.id = targetRestaurantId).bind (·.businessId)
      if user.businessId.isSome && targetBusinessId = user.businessId then { allowed := true }
      else if platformAdminOwnsBusiness w user targetBusinessId then { allowed := true, ownerOfRecord := true }
      else
        match targetBusinessId, user.id with
        | some businessId, some id =>
          match agencyGrantsBusinessAccess w id user.agencyMemberships businessId with
          | some agencyRole => { allowed := true, agencyRole := some agencyRole }
          | none => { allowed := false }
        | _, _ => { allowed := false }

/-! ## The requests of an owner -/

structure InviteStaffInput where
  name : String
  email : Email
  role : { role : UserRole // role ∈ STAFF_ROLES }
  phone : Option String := none

def createStaffInvite (w : World) (restaurant : Restaurant) (body : InviteStaffInput) : Except ApiError (User × World) :=
  if w.users.any (·.email = body.email) then .error (.conflict "An account with this email already exists")
  else
    let staff : User := {
      id := w.nextId
      name := body.name
      email := body.email
      role := body.role
      phone := body.phone
      restaurantId := some restaurant.id
      businessId := restaurant.businessId
      locationIds := [restaurant.id]
      inviteTokenHash := some w.nextToken
      inviteExpiresAt := some (w.now + INVITE_TTL_MS) }
    .ok (staff, { w with users := w.users ++ [staff], nextId := w.nextId + 1, nextToken := w.nextToken + 1 })

def inviteStaff (w : World) (restaurantId : Id) (body : InviteStaffInput) : Except ApiError (User × World) :=
  match w.restaurants.find? fun r => r.id = restaurantId with
  | none => .error (.notFound "Restaurant not found")
  | some restaurant => createStaffInvite w restaurant body

structure UpdateStaffInput where
  role : Option { role : UserRole // role ∈ STAFF_ROLES } := none
  isActive : Option Bool := none
  locationIds : Option (List Id) := none
  nonempty : role.isSome || isActive.isSome || locationIds.isSome

def UpdateStaffInput.apply (updates : UpdateStaffInput) (user : User) : User :=
  { user with
    role := (updates.role.map (·.1)).getD user.role
    isActive := updates.isActive.getD user.isActive
    locationIds := updates.locationIds.getD user.locationIds }

/-- `countDocuments({ _id: { $in: locationIds }, businessId })` -/
def validCount (w : World) (locationIds : List Id) (businessId : Id) : Nat :=
  (w.restaurants.filter fun r => locationIds.contains r.id && r.businessId = some businessId).length

def checkLocationIds (w : World) (restaurantId : Id) : Option (List Id) → Except ApiError Unit
  | none => .ok ()
  | some locationIds =>
    match w.restaurants.find? fun r => r.id = restaurantId with
    | none => .error (.notFound "Restaurant not found")
    | some callerRestaurant =>
      match callerRestaurant.businessId with
      | none =>
        if locationIds = [restaurantId] then .ok ()
        else .error (.badRequest "This restaurant has no business association yet — locationIds can only be its own id")
      | some businessId =>
        if validCount w locationIds businessId = locationIds.length then .ok ()
        else .error (.badRequest "locationIds must all belong to this staff member's own business")

def isStaffOf (restaurantId id : Id) (user : User) : Bool :=
  user.id = id && user.restaurantId = some restaurantId && STAFF_ROLES.contains user.role

def updateStaff (w : World) (restaurantId id : Id) (updates : UpdateStaffInput) : Except ApiError World :=
  match checkLocationIds w restaurantId updates.locationIds with
  | .error error => .error error
  | .ok () =>
    if w.users.any (isStaffOf restaurantId id) then
      .ok { w with users := Tables.update (isStaffOf restaurantId id) updates.apply w.users }
    else .error (.notFound "Staff member not found")

inductive Call
  | inviteStaff (restaurantId : Id) (body : InviteStaffInput)
  | updateStaff (restaurantId id : Id) (updates : UpdateStaffInput)

/-- A call that fails changes nothing. -/
def Call.perform (w : World) : Call → World
  | inviteStaff restaurantId body => ((Staff.inviteStaff w restaurantId body).map (·.2)).toOption.getD w
  | updateStaff restaurantId id updates => (Staff.updateStaff w restaurantId id updates).toOption.getD w

def run (w : World) (calls : List Call) : World := calls.foldl Call.perform w

/-! ## What an account is granted -/

structure World.Identified (w : World) : Prop where
  restaurants : (w.restaurants.map (·.id)).Nodup
  users : (w.users.map (·.id)).Nodup
  fresh : ∀ user ∈ w.users, user.id < w.nextId

def World.SameBusiness (w : World) (restaurant : Restaurant) (location : Id) : Prop :=
  location = restaurant.id ∨ ∃ r ∈ w.restaurants, r.id = location ∧ r.businessId.isSome = true ∧ r.businessId = restaurant.businessId

structure Granted (w : World) (restaurant : Restaurant) (user : User) : Prop where
  restaurantId_eq : user.restaurantId = some restaurant.id
  locations : ∀ location ∈ user.locationIds, w.SameBusiness restaurant location

section Grants

variable {w w' : World} {restaurant : Restaurant} {user : User} {restaurantId id : Id} {locationIds : List Id} {updates : UpdateStaffInput}

theorem mem_of_validCount {businessId : Id} (hIds : (w.restaurants.map (·.id)).Nodup) (h : validCount w locationIds businessId = locationIds.length)
    {location : Id} (hMem : location ∈ locationIds) : ∃ r ∈ w.restaurants, r.id = location ∧ r.businessId = some businessId := by
  let counted := w.restaurants.filter fun r => locationIds.contains r.id && r.businessId = some businessId
  have hNodup : (counted.map (·.id)).Nodup := hIds.sublist (List.filter_sublist.map _)
  have hSubset : counted.map (·.id) ⊆ locationIds := by
    intro l hl
    obtain ⟨r, hr, rfl⟩ := List.mem_map.mp hl
    have hSelected := (List.mem_filter.mp hr).2
    rw [Bool.and_eq_true] at hSelected
    exact List.contains_iff_mem.mp hSelected.1
  have hPerm : (counted.map (·.id)).Perm locationIds :=
    (List.subperm_of_subset hNodup hSubset).perm_of_length_le (by rw [List.length_map]; exact h.ge)
  obtain ⟨r, hr, hId⟩ := List.mem_map.mp (hPerm.mem_iff.mpr hMem)
  obtain ⟨hIn, hSelected⟩ := List.mem_filter.mp hr
  rw [Bool.and_eq_true] at hSelected
  exact ⟨r, hIn, hId, of_decide_eq_true hSelected.2⟩

theorem checkLocationIds_ok (hIds : (w.restaurants.map (·.id)).Nodup) (hRestaurant : restaurant ∈ w.restaurants)
    (h : checkLocationIds w restaurant.id (some locationIds) = .ok ()) : ∀ location ∈ locationIds, w.SameBusiness restaurant location := by
  have hFound : (w.restaurants.find? fun r => r.id = restaurant.id) = some restaurant := Tables.find?_id hIds hRestaurant
  unfold checkLocationIds at h
  dsimp only at h
  rw [hFound] at h
  dsimp only at h
  intro location hMem
  cases hBusiness : restaurant.businessId with
  | none =>
    rw [hBusiness] at h
    dsimp only at h
    split at h
    · rename_i hOnly
      rw [hOnly] at hMem
      exact .inl (List.mem_singleton.mp hMem)
    · cases h
  | some businessId =>
    rw [hBusiness] at h
    dsimp only at h
    split at h
    · rename_i hCount
      obtain ⟨r, hr, hId, hSame⟩ := mem_of_validCount hIds hCount hMem
      exact .inr ⟨r, hr, hId, by rw [hSame]; rfl, by rw [hSame, hBusiness]⟩
    · cases h

theorem apply_granted (hIds : (w.restaurants.map (·.id)).Nodup) (hRestaurant : restaurant ∈ w.restaurants) (hGranted : Granted w restaurant user)
    (hCheck : checkLocationIds w restaurant.id updates.locationIds = .ok ()) : Granted w restaurant (updates.apply user) := by
  refine ⟨hGranted.restaurantId_eq, ?_⟩
  cases hLocations : updates.locationIds with
  | none =>
    rw [UpdateStaffInput.apply, hLocations]
    exact hGranted.locations
  | some locationIds =>
    rw [UpdateStaffInput.apply, hLocations]
    rw [hLocations] at hCheck
    exact checkLocationIds_ok hIds hRestaurant hCheck

end Grants

/-- The account with the id is granted what it has, and holds `P`. -/
structure Stands (w₀ : World) (restaurant : Restaurant) (id : Id) (P : User → Prop) (w : World) : Prop where
  restaurants_eq : w.restaurants = w₀.restaurants
  users : (w.users.map (·.id)).Nodup
  fresh : ∀ user ∈ w.users, user.id < w.nextId
  known : id < w.nextId
  granted : ∀ user ∈ w.users, user.id = id → Granted w₀ restaurant user ∧ P user

section Runs

variable {w₀ w : World} {restaurant : Restaurant} {id : Id} {P : User → Prop}

theorem createStaffInvite_ok {w' : World} {inviting : Restaurant} {body : InviteStaffInput} {staff : User}
    (h : createStaffInvite w inviting body = .ok (staff, w')) :
    staff.id = w.nextId ∧ staff.restaurantId = some inviting.id ∧ staff.locationIds = [inviting.id] ∧
      w' = { w with users := w.users ++ [staff], nextId := w.nextId + 1, nextToken := w.nextToken + 1 } := by
  unfold createStaffInvite at h
  split at h
  · cases h
  · cases h
    exact ⟨rfl, rfl, rfl, rfl⟩

theorem nodup_invited {users : List User} {staff : User} {nextId : Id} (hUsers : (users.map (·.id)).Nodup)
    (hFresh : ∀ user ∈ users, user.id < nextId) (hId : staff.id = nextId) : ((users ++ [staff]).map (·.id)).Nodup := by
  rw [List.map_append, List.map_singleton, List.nodup_append]
  refine ⟨hUsers, List.nodup_singleton _, fun a ha b hb => ?_⟩
  obtain ⟨user, hUser, rfl⟩ := List.mem_map.mp ha
  rw [List.mem_singleton.mp hb, hId]
  exact (hFresh user hUser).ne

theorem Stands.perform (hIds : (w₀.restaurants.map (·.id)).Nodup) (hRestaurant : restaurant ∈ w₀.restaurants) (h : Stands w₀ restaurant id P w)
    (call : Call) (hKeeps : ∀ restaurantId updates, call = .updateStaff restaurantId id updates → ∀ user, P user → P (updates.apply user)) :
    Stands w₀ restaurant id P (call.perform w) := by
  cases call with
  | inviteStaff restaurantId body =>
    rw [Call.perform]
    cases hInvite : inviteStaff w restaurantId body with
    | error error => exact h
    | ok invited =>
      obtain ⟨staff, w'⟩ := invited
      unfold inviteStaff at hInvite
      split at hInvite
      · cases hInvite
      · obtain ⟨hId, -, -, rfl⟩ := createStaffInvite_ok hInvite
        refine ⟨h.restaurants_eq, nodup_invited h.users h.fresh hId, ?_, Nat.lt_succ_of_lt h.known, ?_⟩
        · intro user hUser
          rcases List.mem_append.mp hUser with hOld | hNew
          · exact Nat.lt_succ_of_lt (h.fresh user hOld)
          · rw [List.mem_singleton.mp hNew, hId]
            exact Nat.lt_succ_self _
        · intro user hUser hUserId
          rcases List.mem_append.mp hUser with hOld | hNew
          · exact h.granted user hOld hUserId
          · rw [List.mem_singleton.mp hNew, hId] at hUserId
            exact absurd (hUserId ▸ h.known) (Nat.lt_irrefl _)
  | updateStaff restaurantId id' updates =>
    rw [Call.perform]
    cases hUpdate : updateStaff w restaurantId id' updates with
    | error error => exact h
    | ok w' =>
      unfold updateStaff at hUpdate
      split at hUpdate
      · cases hUpdate
      · rename_i hCheck
        split at hUpdate
        · cases hUpdate
          refine ⟨h.restaurants_eq, ?_, ?_, h.known, ?_⟩
          · have hKeys : (Tables.update (isStaffOf restaurantId id') updates.apply w.users).map (·.id) = w.users.map (·.id) :=
              Tables.map_update_eq (f := updates.apply) (fun user : User => user.id) fun _ => rfl
            exact (congrArg List.Nodup hKeys).mpr h.users
          · intro user hUser
            obtain ⟨old, hOld, rfl⟩ := Tables.mem_update.mp hUser
            split
            · exact h.fresh old hOld
            · exact h.fresh old hOld
          · intro user hUser hUserId
            obtain ⟨old, hOld, rfl⟩ := Tables.mem_update.mp hUser
            split at hUserId
            · rename_i hSelected
              rw [if_pos hSelected]
              obtain ⟨hGranted, hP⟩ := h.granted old hOld hUserId
              have hStaff := hSelected
              unfold isStaffOf at hStaff
              rw [Bool.and_eq_true, Bool.and_eq_true, decide_eq_true_iff, decide_eq_true_iff] at hStaff
              obtain ⟨⟨hOldId, hOldRestaurant⟩, -⟩ := hStaff
              have hSame : restaurant.id = restaurantId := Option.some.inj (hGranted.restaurantId_eq.symm.trans hOldRestaurant)
              have hId : id' = id := hOldId.symm.trans hUserId
              subst hSame hId
              have hChecked : checkLocationIds w₀ restaurant.id updates.locationIds = .ok () := by
                unfold checkLocationIds validCount at hCheck ⊢
                rw [h.restaurants_eq] at hCheck
                exact hCheck
              exact ⟨apply_granted hIds hRestaurant hGranted hChecked, hKeeps _ _ rfl old hP⟩
            · rename_i hOther
              rw [if_neg hOther]
              exact h.granted old hOld hUserId
        · cases hUpdate

theorem Stands.run (hIds : (w₀.restaurants.map (·.id)).Nodup) (hRestaurant : restaurant ∈ w₀.restaurants) (h : Stands w₀ restaurant id P w)
    (calls : List Call)
    (hKeeps : ∀ call ∈ calls, ∀ restaurantId updates, call = .updateStaff restaurantId id updates → ∀ user, P user → P (updates.apply user)) :
    Stands w₀ restaurant id P (run w calls) := by
  induction calls generalizing w with
  | nil => exact h
  | cons call calls ih =>
    exact ih (h.perform hIds hRestaurant call (hKeeps call List.mem_cons_self)) fun c hc => hKeeps c (List.mem_cons_of_mem _ hc)

theorem Stands.invited {body : InviteStaffInput} {staff : User} {w₁ : World} (hWorld : w₀.Identified)
    (hInvite : createStaffInvite w₀ restaurant body = .ok (staff, w₁)) (hP : ∀ user : User, user.locationIds = [restaurant.id] → P user) :
    Stands w₀ restaurant staff.id P w₁ := by
  obtain ⟨hId, hRestaurantId, hLocations, rfl⟩ := createStaffInvite_ok hInvite
  refine ⟨rfl, nodup_invited hWorld.users hWorld.fresh hId, ?_, hId ▸ Nat.lt_succ_self _, ?_⟩
  · intro user hUser
    rcases List.mem_append.mp hUser with hOld | hNew
    · exact Nat.lt_succ_of_lt (hWorld.fresh user hOld)
    · rw [List.mem_singleton.mp hNew, hId]
      exact Nat.lt_succ_self _
  · intro user hUser hUserId
    rcases List.mem_append.mp hUser with hOld | hNew
    · exact absurd (hUserId.trans hId) (hWorld.fresh user hOld).ne
    · rw [List.mem_singleton.mp hNew]
      refine ⟨⟨hRestaurantId, fun location hMem => ?_⟩, hP staff hLocations⟩
      rw [hLocations] at hMem
      exact .inl (List.mem_singleton.mp hMem)

end Runs

/-! ## What an account reaches -/

/-- A token of the account as it is opens the restaurant. -/
def User.Reaches (w : World) (user : User) (memberships : List (Id × AgencyMembershipRole)) (restaurantId : Id) : Prop :=
  (resolveTenantAccess w (user.claims memberships) (some restaurantId)).allowed = true

def User.isLocationStaff (user : User) : Bool := user.role = .restaurantStaff || user.role = .kitchenStaff

def Call.keepsHome (id restaurantId : Id) : Call → Bool
  | inviteStaff _ _ => true
  | updateStaff _ id' updates => id' != id || updates.locationIds.all fun locationIds => locationIds.contains restaurantId

theorem reaches_iff {w : World} {user : User} {memberships : List (Id × AgencyMembershipRole)} {target : Id}
    (hRole : user.isLocationStaff = true) : user.Reaches w memberships target ↔ user.restaurantId = some target ∨ target ∈ user.locationIds := by
  unfold User.Reaches resolveTenantAccess
  dsimp only
  split
  · rename_i hHome
    exact iff_of_true rfl (.inl hHome)
  · rename_i hHome
    rw [if_pos (show (decide ((user.claims memberships).role = .restaurantStaff) || decide ((user.claims memberships).role = .kitchenStaff)) = true
      from hRole)]
    exact ⟨fun h => .inr (List.contains_iff_mem.mp h), fun h => List.contains_iff_mem.mpr (h.resolve_left hHome)⟩

/-- Whatever calls follow its invitation, a staff account reaches only locations of the
business, and it reaches just the locations it was last given if its own restaurant is
one of them. -/
theorem staff_reach (w₀ : World) (hWorld : w₀.Identified) (restaurant : Restaurant) (hRestaurant : restaurant ∈ w₀.restaurants)
    (body : InviteStaffInput) (staff : User) (w₁ : World) (hInvite : createStaffInvite w₀ restaurant body = .ok (staff, w₁)) (calls : List Call)
    (user : User) (hUser : user ∈ (run w₁ calls).users) (hId : user.id = staff.id) (hRole : user.isLocationStaff = true)
    (memberships : List (Id × AgencyMembershipRole)) :
    (∀ target, user.Reaches (run w₁ calls) memberships target → w₀.SameBusiness restaurant target) ∧
      ((∀ target, user.Reaches (run w₁ calls) memberships target ↔ target ∈ user.locationIds) ↔ restaurant.id ∈ user.locationIds) ∧
      ((∀ call ∈ calls, call.keepsHome staff.id restaurant.id = true) →
        ∀ target, user.Reaches (run w₁ calls) memberships target ↔ target ∈ user.locationIds) := by
  have hStands := (Stands.invited (P := fun _ => True) hWorld hInvite fun _ _ => trivial).run hWorld.restaurants hRestaurant calls
    fun _ _ _ _ _ _ _ => trivial
  obtain ⟨⟨hHome, hLocations⟩, -⟩ := hStands.granted user hUser hId
  have hExact : (∀ target, user.Reaches (run w₁ calls) memberships target ↔ target ∈ user.locationIds) ↔ restaurant.id ∈ user.locationIds := by
    constructor
    · intro h
      exact (h restaurant.id).mp ((reaches_iff hRole).mpr (.inl hHome))
    · intro hOwn target
      rw [reaches_iff hRole, hHome]
      refine ⟨fun h => h.elim (fun hEq => ?_) id, .inr⟩
      rw [← Option.some.inj hEq]
      exact hOwn
  refine ⟨fun target hReaches => ?_, hExact, fun hKeeps => hExact.mpr ?_⟩
  · rcases (reaches_iff hRole).mp hReaches with hOwn | hMem
    · exact .inl (Option.some.inj (hHome.symm.trans hOwn)).symm
    · exact hLocations target hMem
  · have hKept := (Stands.invited (P := fun user => restaurant.id ∈ user.locationIds) hWorld hInvite fun user hEq => by
      rw [hEq]; exact List.mem_singleton_self _).run hWorld.restaurants hRestaurant calls ?_
    · exact (hKept.granted user hUser hId).2
    · rintro call hCall restaurantId updates rfl user hMem
      have hHomeKept := hKeeps _ hCall
      rw [UpdateStaffInput.apply]
      cases hGiven : updates.locationIds with
      | none => exact hMem
      | some locationIds =>
        rw [Call.keepsHome, hGiven] at hHomeKept
        simpa using hHomeKept

namespace Harbour

def restaurants : List Restaurant := [{ id := 1, businessId := some 7 }, { id := 2, businessId := some 7 }]

def start : World where
  restaurants := restaurants
  nextId := 10

def body : InviteStaffInput where
  name := "Ines"
  email := "ines@harbour.example"
  role := ⟨.restaurantStaff, by decide⟩

def staff : User where
  id := 10
  name := "Ines"
  email := "ines@harbour.example"
  role := .restaurantStaff
  restaurantId := some 1
  businessId := some 7
  locationIds := [1]
  inviteTokenHash := some 0
  inviteExpiresAt := some INVITE_TTL_MS

def invited : World where
  restaurants := restaurants
  users := [staff]
  nextId := 11
  nextToken := 1

theorem invite_ok : createStaffInvite start { id := 1, businessId := some 7 } body = .ok (staff, invited) := rfl

theorem identified : start.Identified := ⟨by decide, by decide, by decide⟩

def move : Call := .updateStaff 1 10 { locationIds := some [2], nonempty := rfl }

def moved : User := { staff with locationIds := [2] }

theorem mem_moved : moved ∈ (run invited [move]).users := by decide

end Harbour

theorem moved_reach : Harbour.moved.Reaches (run Harbour.invited [Harbour.move]) [] 2 ∧
    Harbour.start.SameBusiness { id := 1, businessId := some 7 } 2 := by
  have hReaches : Harbour.moved.Reaches (run Harbour.invited [Harbour.move]) [] 2 := (reaches_iff rfl).mpr (.inr (by decide))
  exact ⟨hReaches, (staff_reach Harbour.start Harbour.identified { id := 1, businessId := some 7 } (by decide) Harbour.body Harbour.staff
    Harbour.invited Harbour.invite_ok [Harbour.move] Harbour.moved Harbour.mem_moved rfl rfl []).1 2 hReaches⟩

/-- The account still reaches the restaurant that was withdrawn from it. -/
theorem withdrawn_reached : ¬ ∀ (w₀ : World), w₀.Identified → ∀ restaurant ∈ w₀.restaurants, ∀ (body : InviteStaffInput) (staff : User) (w₁ : World),
    createStaffInvite w₀ restaurant body = .ok (staff, w₁) → ∀ (calls : List Call), ∀ user ∈ (run w₁ calls).users, user.id = staff.id →
      user.isLocationStaff = true → ∀ target, user.Reaches (run w₁ calls) [] target ↔ target ∈ user.locationIds := by
  intro hClaim
  have hIff := hClaim Harbour.start Harbour.identified { id := 1, businessId := some 7 } (by decide) Harbour.body Harbour.staff Harbour.invited
    Harbour.invite_ok [Harbour.move] Harbour.moved Harbour.mem_moved rfl rfl 1
  have hReaches : Harbour.moved.Reaches (run Harbour.invited [Harbour.move]) [] 1 := (reaches_iff rfl).mpr (.inl rfl)
  exact absurd (hIff.mp hReaches) (by decide)

end RestaurantOs.Staff
