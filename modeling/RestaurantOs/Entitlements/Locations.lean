import RestaurantOs.Async.Protocol
import RestaurantOs.Entitlements.Resolution

/-!
# Location slots

A location is created in a slot that was reserved for it. The reservation reads
the limit of the business and counts up only below it; a creation that fails
releases its slot.
-/

namespace RestaurantOs.Entitlements

open Async Prog

/-- `getMaxLocations` is the read of a reservation, `reserve` its conditional
update, which returns the count before it. `createLocation` is the transaction. -/
inductive Op
  | findBusiness (id : Id)
  | findSlug (slug : String)
  | findLocation (id businessId : Id)
  | getMaxLocations (businessId : Id)
  | reserve (businessId : Id) (maxLocations : Int)
  | release (businessId : Id)
  | startSession
  | createLocation (draft : Restaurant) (clonedFrom : Option Id)
  | endSession
  | recordAuditEvent (restaurantId : Id)
  deriving DecidableEq

@[reducible] def Op.Resp : Op → Type
  | findBusiness _ => Option Business
  | findSlug _ | findLocation _ _ => Option Restaurant
  | getMaxLocations _ => Int
  | reserve _ _ => Option Int
  | createLocation _ _ => Restaurant
  | release _ | startSession | endSession | recordAuditEvent _ => Unit

def World.count (w : World) (businessId : Id) (change : Int) : World :=
  { w with
    businesses := Tables.update (·.id = businessId) (fun b => { b with locationCount := b.locationCount + change }) w.businesses }

def Op.perform : (op : Op) → World → Except Err op.Resp × World
  | findBusiness id, w => (.ok (w.business? id), w)
  | findSlug slug, w => (.ok (w.restaurants.find? (·.slug = slug)), w)
  | findLocation id businessId, w => (.ok (w.restaurants.find? fun r => r.id = id && r.businessId = businessId), w)
  | getMaxLocations businessId, w => ((Entitlements.getMaxLocations businessId).at w, w)
  | reserve businessId maxLocations, w =>
    match (w.business? businessId).filter (·.locationCount < maxLocations) with
    | none => (.ok none, w)
    | some business => (.ok (some business.locationCount), w.count businessId 1)
  | release businessId, w => (.ok (), w.count businessId (-1))
  | startSession, w => (.ok (), w)
  | createLocation draft _, w =>
    let restaurant : Restaurant := { draft with id := w.nextId }
    if w.restaurants.any (·.slug = draft.slug) then (.error .duplicateKey, w)
    else (.ok restaurant, { w with restaurants := w.restaurants ++ [restaurant], nextId := w.nextId + 1 })
  | endSession, w => (.ok (), w)
  | recordAuditEvent _, w => (.ok (), w)

/-- The subscriptions change, of whichever owner, and time passes. -/
inductive Event
  | subscriptions (billing : Billing.World)

def Event.advance : Event → World → World
  | subscriptions billing, w => { w with billing }

/-- Any call may throw, without an effect. -/
@[reducible] def store : Store Op Op.Resp Err World (Except Err Unit) Event :=
  Store.faulty ⟨fun o _ w => o.perform w, Event.advance⟩ id

abbrev Promise (α : Type) := Prog Op Op.Resp Err α

def throwApi {α : Type} (error : ApiError) : Promise α := .raise (.api error)

/-! ## Creating a location -/

def reserveLocationSlot (businessId : Id) : Promise Unit := do
  let maxLocations : Int ← .call (Op.getMaxLocations businessId)
  let updated : Option Int ← .call (Op.reserve businessId maxLocations)
  if updated.isNone then throwApi (.conflict s!"This business has reached its location limit ({maxLocations})")
  else pure ()

def releaseLocationSlot (businessId : Id) : Promise Unit := .call (Op.release businessId)

/-- The `try` around the transaction. -/
def createOrRelease (draft : Restaurant) (clonedFrom : Option Id) (takenMessage : String) : Promise Restaurant := do
  let created ← (.call (Op.createLocation draft clonedFrom) : Promise Restaurant).attempt
  match created with
  | .ok restaurant => pure restaurant
  | .error err => do
    releaseLocationSlot draft.businessId
    if err.isDuplicateKey then throwApi (.conflict takenMessage) else .raise err

def createInSlot (draft : Restaurant) (clonedFrom : Option Id) (takenMessage : String) : Promise Unit := do
  reserveLocationSlot draft.businessId
  .call Op.startSession
  let restaurant ← .finallyDo (createOrRelease draft clonedFrom takenMessage) (.call Op.endSession : Promise Unit)
  .call (Op.recordAuditEvent restaurant.id)

def refuseSlug (slug : String) : Promise Unit := do
  let existingSlug : Option Restaurant ← .call (Op.findSlug slug)
  if existingSlug.isSome then throwApi (.conflict "That restaurant slug is already taken") else pure ()

def findBusinessOrThrow (businessId : Id) : Promise Business := do
  let business : Option Business ← .call (Op.findBusiness businessId)
  match business with
  | none => throwApi (.notFound "Business not found")
  | some business => pure business

def checkCloneSource (businessId : Id) : Option Id → Promise (Option Id)
  | none => pure none
  | some cloneFromLocationId => do
    let cloneSource : Option Restaurant ← .call (Op.findLocation cloneFromLocationId businessId)
    match cloneSource with
    | none => throwApi (.badRequest "cloneFromLocationId must be one of this business's own locations")
    | some cloneSource => pure (some cloneSource.id)

def createLocationForBusiness (businessId : Id) (name slug : String) (cloneFromLocationId : Option Id) : Promise Unit := do
  let business ← findBusinessOrThrow businessId
  refuseSlug slug
  let cloneSourceId ← checkCloneSource businessId cloneFromLocationId
  createInSlot { id := 0, name, slug, ownerId := business.ownerId, businessId } cloneSourceId
    "That restaurant slug is already in use"

/-- With a `businessId`: the location is added to an existing business. -/
def createRestaurant (businessId : Id) (name slug : String) : Promise Unit := do
  refuseSlug slug
  let existingBusiness ← findBusinessOrThrow businessId
  createInSlot { id := 0, name, slug, ownerId := existingBusiness.ownerId, businessId } none
    "That restaurant slug or owner email is already in use"

inductive Request
  | createLocationForBusiness (businessId : Id) (name slug : String) (cloneFromLocationId : Option Id)
  | createRestaurant (businessId : Id) (name slug : String)
  deriving DecidableEq

def Request.program : Request → Promise Unit
  | createLocationForBusiness businessId name slug cloneFromLocationId =>
    Entitlements.createLocationForBusiness businessId name slug cloneFromLocationId
  | createRestaurant businessId name slug => Entitlements.createRestaurant businessId name slug

abbrev State := Config Op Op.Resp Err World Unit

def State.start (w : World) (requests : List Request) : State := Config.initial w (requests.map Request.program)

def Settled (c : State) : Prop := ∀ th ∈ c.threads, th.born.isSome = true → th.next?.isSome = false

instance (c : State) : Decidable (Settled c) :=
  inferInstanceAs (Decidable (∀ th ∈ c.threads, th.born.isSome = true → th.next?.isSome = false))

def commits (businessId : Id) : Entry Op Op.Resp Err → Bool
  | ⟨_, .createLocation draft _, .ok _⟩ => draft.businessId = businessId
  | _ => false

def releasesSucceed (c : State) : Label (Except Err Unit) Event → Bool
  | .run t a =>
    match c.waiting? t with
    | some (.release _) => a.isOk
    | _ => true
  | _ => true

/-- `mongoose.startSession()` does not throw, which only a creation that has
reserved its slot calls. -/
def sessionsStart (c : State) : Label (Except Err Unit) Event → Bool
  | .run t a =>
    match c.waiting? t with
    | some .startSession => a.isOk
    | _ => true
  | _ => true

/-! ## What a creation holds -/

inductive Point
  | idle
  | told (businessId : Id) (maxLocations : Int)
  | held (businessId : Id) (maxLocations count : Int)
  | lost (businessId : Id)
  deriving DecidableEq

namespace Point

def after (pt : Point) (o : Op) (r : Except Err o.Resp) : Point :=
  match pt, o, r with
  | _, .getMaxLocations businessId, .ok maxLocations => told businessId maxLocations
  | _, .reserve businessId maxLocations, .ok (some count) => held businessId maxLocations count
  | held _ _ _, .createLocation _ _, .ok _ => idle
  | held _ _ _, .release _, .ok _ => idle
  | held businessId _ _, .startSession, .error _ => lost businessId
  | held businessId _ _, .release _, .error _ => lost businessId
  | pt, _, _ => pt

def Allows : Point → Op → Prop
  | idle, .reserve _ _ | idle, .release _ | idle, .createLocation _ _ => False
  | told businessId maxLocations, .reserve businessId' maxLocations' => businessId' = businessId ∧ maxLocations' = maxLocations
  | told _ _, .release _ | told _ _, .createLocation _ _ | told _ _, .getMaxLocations _ => False
  | held businessId _ _, .release businessId' => businessId' = businessId
  | held businessId _ _, .createLocation draft _ => draft.businessId = businessId
  | held _ _ _, .reserve _ _ | held _ _ _, .getMaxLocations _ => False
  | lost _, .reserve _ _ | lost _, .release _ | lost _, .createLocation _ _ | lost _, .getMaxLocations _ => False
  | _, _ => True

def Rest : Point → Prop
  | held _ _ _ => False
  | _ => True

def slots (businessId : Id) : Point → Int
  | held b _ _ | lost b => if b = businessId then 1 else 0
  | _ => 0

end Point

@[reducible] def creating : Protocol Op World (Except Err Unit) where
  Point := Point
  Move o a w pt pt' := pt.Allows o ∧ pt' = pt.after o (store.perform o a w).1
  Rest := Point.Rest

section Walk

variable {pt : Point}

theorem follows_quiet {o : Op} (hAllows : pt.Allows o) (hAfter : ∀ r, pt.after o r = pt) {Q : o.Resp → Point → Prop}
    {E : Err → Point → Prop} (hQ : ∀ v, Q v pt) (hE : ∀ err, E err pt) :
    (Prog.call o : Promise o.Resp).Follows store creating pt Q E := by
  refine follows_call.mpr fun a w => ⟨pt, ⟨hAllows, (hAfter _).symm⟩, ?_⟩
  cases (store.perform o a w).1 with
  | ok v => exact hQ v
  | error err => exact hE err

theorem reserveLocationSlot_follows {businessId : Id} :
    (reserveLocationSlot businessId).Follows store creating .idle
      (fun _ pt => ∃ maxLocations count, pt = .held businessId maxLocations count) fun _ pt => pt.Rest := by
  unfold reserveLocationSlot
  rw [bind_eq, follows_bind]
  refine follows_call.mpr fun a w => ⟨_, ⟨trivial, rfl⟩, ?_⟩
  cases (store.perform (.getMaxLocations businessId) a w).1 with
  | error err => trivial
  | ok maxLocations =>
    dsimp only
    rw [bind_eq, follows_bind]
    refine follows_call.mpr fun a w => ⟨_, ⟨⟨rfl, rfl⟩, rfl⟩, ?_⟩
    cases (store.perform (.reserve businessId maxLocations) a w).1 with
    | error err => trivial
    | ok updated =>
      cases updated with
      | none => trivial
      | some count => exact ⟨maxLocations, count, rfl⟩

theorem createOrRelease_follows {draft : Restaurant} {clonedFrom : Option Id} {takenMessage : String} {maxLocations count : Int} :
    (createOrRelease draft clonedFrom takenMessage).Follows store creating (.held draft.businessId maxLocations count)
      (fun _ pt => pt = .idle) fun _ pt => pt = .idle ∨ pt = .lost draft.businessId := by
  unfold createOrRelease releaseLocationSlot
  rw [bind_eq, follows_bind, follows_attempt]
  refine follows_call.mpr fun a w => ⟨_, ⟨rfl, rfl⟩, ?_⟩
  cases (store.perform (.createLocation draft clonedFrom) a w).1 with
  | ok restaurant => rfl
  | error err =>
    dsimp only
    rw [bind_eq, follows_bind]
    refine follows_call.mpr fun a w => ⟨_, ⟨rfl, rfl⟩, ?_⟩
    cases (store.perform (.release draft.businessId) a w).1 with
    | error failure => exact .inr rfl
    | ok _ =>
      dsimp only
      split <;> exact .inl rfl

theorem endSession_follows {Q : Unit → Point → Prop} (hAllows : pt.Allows .endSession)
    (hAfter : ∀ r, pt.after .endSession r = pt) (hQ : ∀ v, Q v pt) (hRest : pt.Rest) :
    (Prog.call Op.endSession : Promise Unit).Follows store creating pt Q fun _ pt => pt.Rest :=
  follows_quiet hAllows hAfter hQ fun _ => hRest

theorem createInSlot_follows {draft : Restaurant} {clonedFrom : Option Id} {takenMessage : String} :
    (createInSlot draft clonedFrom takenMessage).Follows store creating .idle (fun _ pt => pt.Rest) fun _ pt => pt.Rest := by
  unfold createInSlot
  rw [bind_eq, follows_bind]
  refine (reserveLocationSlot_follows).mono ?_ fun _ _ hRest => hRest
  rintro _ pt ⟨maxLocations, count, rfl⟩
  rw [bind_eq, follows_bind]
  refine follows_call.mpr fun a w => ⟨_, ⟨trivial, rfl⟩, ?_⟩
  cases (store.perform .startSession a w).1 with
  | error err => trivial
  | ok _ =>
    dsimp only
    rw [bind_eq, follows_bind, finallyDo, follows_bind, follows_attempt]
    refine (createOrRelease_follows).mono ?_ ?_
    · rintro restaurant pt rfl
      rw [follows_bind]
      refine endSession_follows trivial (fun _ => rfl) (fun _ => ?_) trivial
      refine follows_call.mpr fun a w => ⟨_, ⟨trivial, rfl⟩, ?_⟩
      cases (store.perform (.recordAuditEvent restaurant.id) a w).1 <;> trivial
    · rintro err pt (rfl | rfl)
      · rw [follows_bind]
        exact endSession_follows trivial (fun _ => rfl) (fun _ => trivial) trivial
      · rw [follows_bind]
        exact endSession_follows trivial (fun _ => rfl) (fun _ => trivial) trivial

theorem follows_idle {o : Op} {Q : o.Resp → Point → Prop} (hAllows : Point.idle.Allows o)
    (hAfter : ∀ r, Point.idle.after o r = .idle) (hQ : ∀ v, Q v .idle) :
    (Prog.call o : Promise o.Resp).Follows store creating .idle Q fun _ pt => pt = .idle :=
  follows_quiet hAllows hAfter hQ fun _ => rfl

theorem refuseSlug_follows {slug : String} :
    (refuseSlug slug).Follows store creating .idle (fun _ pt => pt = .idle) fun _ pt => pt = .idle := by
  unfold refuseSlug
  rw [bind_eq, follows_bind]
  refine follows_idle (o := .findSlug slug) trivial (fun _ => rfl) fun existingSlug => ?_
  split <;> rfl

theorem findBusinessOrThrow_follows {businessId : Id} :
    (findBusinessOrThrow businessId).Follows store creating .idle (fun _ pt => pt = .idle) fun _ pt => pt = .idle := by
  unfold findBusinessOrThrow
  rw [bind_eq, follows_bind]
  refine follows_idle (o := .findBusiness businessId) trivial (fun _ => rfl) fun business => ?_
  cases business <;> rfl

theorem checkCloneSource_follows {businessId : Id} {cloneFromLocationId : Option Id} :
    (checkCloneSource businessId cloneFromLocationId).Follows store creating .idle (fun _ pt => pt = .idle) fun _ pt => pt = .idle := by
  cases cloneFromLocationId with
  | none => rfl
  | some id =>
    unfold checkCloneSource
    dsimp only
    rw [bind_eq, follows_bind]
    refine follows_idle (o := .findLocation id businessId) trivial (fun _ => rfl) fun cloneSource => ?_
    cases cloneSource <;> rfl

theorem Point.rest_of_idle {pt : Point} (h : pt = .idle) : pt.Rest := by
  subst h
  trivial

theorem Request.program_follows (r : Request) :
    r.program.Follows store creating .idle (fun _ pt => pt.Rest) fun _ pt => pt.Rest := by
  cases r with
  | createLocationForBusiness businessId name slug cloneFromLocationId =>
    unfold Request.program Entitlements.createLocationForBusiness
    dsimp only
    rw [bind_eq, follows_bind]
    refine (findBusinessOrThrow_follows).mono ?_ fun _ _ => Point.rest_of_idle
    rintro business pt rfl
    rw [bind_eq, follows_bind]
    refine (refuseSlug_follows).mono ?_ fun _ _ => Point.rest_of_idle
    rintro _ pt rfl
    rw [bind_eq, follows_bind]
    refine (checkCloneSource_follows).mono ?_ fun _ _ => Point.rest_of_idle
    rintro cloneSourceId pt rfl
    exact createInSlot_follows
  | createRestaurant businessId name slug =>
    unfold Request.program Entitlements.createRestaurant
    dsimp only
    rw [bind_eq, follows_bind]
    refine (refuseSlug_follows).mono ?_ fun _ _ => Point.rest_of_idle
    rintro _ pt rfl
    rw [bind_eq, follows_bind]
    refine (findBusinessOrThrow_follows).mono ?_ fun _ _ => Point.rest_of_idle
    rintro business pt rfl
    exact createInSlot_follows

end Walk

/-! ## The count of a business -/

def World.locationCount? (w : World) (businessId : Id) : Option Int := (w.business? businessId).map (·.locationCount)

theorem locationCount?_count {w : World} {businessId b : Id} {change : Int} :
    (w.count businessId change).locationCount? b = (w.locationCount? b).map (· + if businessId = b then change else 0) := by
  have hFind : (w.count businessId change).business? b = (w.business? b).map fun stored =>
      if stored.id = businessId then { stored with locationCount := stored.locationCount + change } else stored := by
    simp only [World.business?, World.count]
    rw [Tables.find?_update]
    · simp only [decide_eq_true_eq]
    · intro stored _
      split <;> rfl
  rw [World.locationCount?, World.locationCount?, hFind]
  cases hStored : w.business? b with
  | none => rfl
  | some stored =>
    have hId : stored.id = b := by simpa using List.find?_some hStored
    simp only [Option.map_some, hId, @eq_comm _ b businessId]
    split
    · rfl
    · simp

def gain (b : Id) (t : Nat) (o : Op) (r : Except Err o.Resp) (pt : Point) : Int :=
  (if commits b ⟨t, o, r⟩ then 1 else 0) + ((pt.after o r).slots b - pt.slots b)

theorem locationCount?_perform {t : Nat} {o : Op} {a : Except Err Unit} {w : World} {pt : Point} {b : Id} (hAllows : pt.Allows o) :
    (store.perform o a w).2.locationCount? b = (w.locationCount? b).map (· + gain b t o (store.perform o a w).1 pt) := by
  have hSame : ∀ change : Int, change = 0 → w.locationCount? b = (w.locationCount? b).map (· + change) := by
    rintro change rfl
    simp
  cases a with
  | error fault =>
    refine hSame _ ?_
    cases pt <;> cases o <;> simp [gain, commits, Point.after, Point.slots]
  | ok a =>
    cases o with
    | getMaxLocations businessId =>
      refine hSame _ ?_
      cases pt with
      | idle => cases hAnswer : (store.perform (.getMaxLocations businessId) (.ok a) w).1 <;> rfl
      | _ => cases hAllows
    | reserve businessId maxLocations =>
      cases pt with
      | told b' maxLocations' =>
        obtain ⟨rfl, rfl⟩ := hAllows
        simp only [Op.perform]
        split
        · exact hSame _ rfl
        · rw [locationCount?_count]
          simp only [gain, commits, Point.after, Point.slots, Bool.false_eq_true, if_false, Int.zero_add, Int.sub_zero]
      | _ => cases hAllows
    | release businessId =>
      cases pt with
      | held b' maxLocations count =>
        cases hAllows
        rw [show (store.perform (.release businessId) (.ok a) w).2 = w.count businessId (-1) from rfl, locationCount?_count]
        simp only [gain, commits, Point.after, Op.perform, Point.slots, Bool.false_eq_true, if_false, Int.zero_add, Int.zero_sub]
        congr 1
        funext n
        split <;> rfl
      | _ => cases hAllows
    | createLocation draft clonedFrom =>
      cases pt with
      | held b' maxLocations count =>
        have hBusiness : draft.businessId = b' := hAllows
        have hCount : (store.perform (.createLocation draft clonedFrom) (.ok a) w).2.locationCount? b = w.locationCount? b := by
          simp only [Op.perform]
          split <;> rfl
        rw [hCount]
        refine hSame _ ?_
        simp only [Op.perform]
        split
        · simp only [gain, commits, Point.after, Point.slots, Bool.false_eq_true, if_false, Int.sub_self, Int.add_zero]
        · simp only [gain, commits, Point.after, Point.slots, hBusiness, decide_eq_true_eq]
          split <;> rfl
      | _ => cases hAllows
    | startSession => exact hSame _ (by cases pt <;> simp [gain, commits, Point.after, Point.slots, Op.perform])
    | _ => exact hSame _ (by cases pt <;> simp [gain, commits, Point.after, Point.slots])

/-! ## Every creation -/

theorem after_told {pt : Point} {o : Op} {r : Except Err o.Resp} {t : Nat} {b : Id} {maxLocations : Int}
    (h : pt.after o r = .told b maxLocations) :
    pt = .told b maxLocations ∨ (⟨t, o, r⟩ : Entry Op Op.Resp Err) = ⟨t, .getMaxLocations b, .ok maxLocations⟩ := by
  unfold Point.after at h
  split at h <;> first | exact .inl h | (cases h <;> exact .inr rfl)

theorem after_held {pt : Point} {o : Op} {r : Except Err o.Resp} {t : Nat} {b : Id} {maxLocations count : Int}
    (h : pt.after o r = .held b maxLocations count) :
    pt = .held b maxLocations count ∨ (⟨t, o, r⟩ : Entry Op Op.Resp Err) = ⟨t, .reserve b maxLocations, .ok (some count)⟩ := by
  unfold Point.after at h
  split at h <;> first | exact .inl h | (cases h <;> exact .inr rfl)

theorem lt_of_reserve {a : Except Err Unit} {w : World} {businessId : Id} {maxLocations count : Int}
    (h : (store.perform (.reserve businessId maxLocations) a w).1 = .ok (some count)) :
    w.locationCount? businessId = some count ∧ count < maxLocations := by
  cases a with
  | error fault => cases h
  | ok a =>
    simp only [Op.perform] at h
    split at h
    · cases h
    · rename_i business hFound
      cases h
      obtain ⟨hStored, hBelow⟩ := Option.filter_eq_some_iff.mp hFound
      exact ⟨by rw [World.locationCount?, hStored]; rfl, of_decide_eq_true hBelow⟩

def committed (businessId : Id) (history : List (Entry Op Op.Resp Err)) : Nat := history.countP (commits businessId)

/-- Request `t` was told a limit of the business and counted up below it. -/
def InLimit (history : List (Entry Op Op.Resp Err)) (t : Nat) (businessId : Id) : Prop :=
  ∃ maxLocations count, ⟨t, .getMaxLocations businessId, .ok maxLocations⟩ ∈ history ∧
    ⟨t, .reserve businessId maxLocations, .ok (some count)⟩ ∈ history ∧ count + 1 ≤ maxLocations

theorem InLimit.cons {history : List (Entry Op Op.Resp Err)} {t : Nat} {businessId : Id} {e : Entry Op Op.Resp Err}
    (h : InLimit history t businessId) : InLimit (e :: history) t businessId := by
  obtain ⟨maxLocations, count, hTold, hReserved, hLe⟩ := h
  exact ⟨maxLocations, count, List.mem_cons_of_mem _ hTold, List.mem_cons_of_mem _ hReserved, hLe⟩

def failed : Entry Op Op.Resp Err → Bool
  | ⟨_, .startSession, .error _⟩ | ⟨_, .release _, .error _⟩ => true
  | _ => false

theorem after_lost {pt : Point} {o : Op} {r : Except Err o.Resp} {b : Id} (h : pt.after o r = .lost b) :
    pt = .lost b ∨ (∃ maxLocations count, pt = .held b maxLocations count) ∧ ∀ t, failed ⟨t, o, r⟩ = true := by
  unfold Point.after at h
  split at h <;> first | exact .inl h | (cases h <;> exact .inr ⟨⟨_, _, rfl⟩, fun _ => rfl⟩)

structure Slots (w₀ : World) (c : State) (pts : List Point) : Prop where
  count : ∀ b, c.state.locationCount? b =
    (w₀.locationCount? b).map (· + (committed b c.history + Tables.total (Point.slots b) pts))
  told : ∀ {t : Nat} {b : Id} {maxLocations : Int}, pts[t]? = some (.told b maxLocations) →
    ⟨t, .getMaxLocations b, .ok maxLocations⟩ ∈ c.history
  held : ∀ {t : Nat} {b : Id} {maxLocations count : Int}, pts[t]? = some (.held b maxLocations count) → InLimit c.history t b
  lost : ∀ {t : Nat} {b : Id}, pts[t]? = some (.lost b) → InLimit c.history t b ∧ ∃ e ∈ c.history, failed e = true
  created : ∀ {b : Id}, ∀ e ∈ c.history, commits b e = true → InLimit c.history e.thread b

section Runs

variable {w₀ : World} {requests : List Request} {c c' : State} {pts : List Point} {t : Nat} {a : Except Err Unit} {o : Op}
  {th : Thread Op Op.Resp Err World Unit} {k : Except Err o.Resp → Promise Unit} {pt : Point}

theorem committed_cons {b : Id} {e : Entry Op Op.Resp Err} {history : List (Entry Op Op.Resp Err)} :
    (committed b (e :: history) : Int) = committed b history + if commits b e then 1 else 0 := by
  rw [committed, List.countP_cons]
  split <;> rfl

theorem Slots.ran (h : Slots w₀ c pts) (hPoint : pts[t]? = some pt) (hAllows : pt.Allows o) (hRan : store.Ran c t a o th k c') :
    Slots w₀ c' (pts.set t (pt.after o (store.perform o a c.state).1)) := by
  constructor
  · intro b
    rw [hRan.state, locationCount?_perform (t := t) hAllows, h.count b, Option.map_map, hRan.history, committed_cons,
      Tables.total_set hPoint]
    congr 1
    funext n
    simp only [Function.comp, gain]
    omega
  · intro u b maxLocations hU
    rw [hRan.history]
    rcases Tables.getElem?_set_cases hU with ⟨rfl, hNew⟩ | ⟨-, hOld⟩
    · rcases after_told (t := u) hNew.symm with hSame | hEntry
      · rw [hSame] at hPoint
        exact List.mem_cons_of_mem _ (h.told hPoint)
      · rw [← hEntry]
        exact List.mem_cons_self
    · exact List.mem_cons_of_mem _ (h.told hOld)
  · intro u b maxLocations count hU
    rw [hRan.history]
    rcases Tables.getElem?_set_cases hU with ⟨rfl, hNew⟩ | ⟨-, hOld⟩
    · rcases after_held (t := u) hNew.symm with hSame | hEntry
      · rw [hSame] at hPoint
        exact (h.held hPoint).cons
      · injection hEntry with _ hOp hResult
        subst hOp
        have hAnswer := eq_of_heq hResult
        cases pt with
        | told b' maxLocations' =>
          obtain ⟨rfl, rfl⟩ := hAllows
          refine ⟨maxLocations, count, List.mem_cons_of_mem _ (h.told hPoint), ?_, (lt_of_reserve hAnswer).2⟩
          rw [hAnswer]
          exact List.mem_cons_self
        | _ => cases hAllows
    · exact (h.held hOld).cons
  · intro u b hU
    rw [hRan.history]
    rcases Tables.getElem?_set_cases hU with ⟨rfl, hNew⟩ | ⟨-, hOld⟩
    · rcases after_lost hNew.symm with hSame | ⟨⟨maxLocations, count, hHeld⟩, hFailed⟩
      · rw [hSame] at hPoint
        obtain ⟨hLimit, e, hMem, hFailed⟩ := h.lost hPoint
        exact ⟨hLimit.cons, e, List.mem_cons_of_mem _ hMem, hFailed⟩
      · rw [hHeld] at hPoint
        exact ⟨(h.held hPoint).cons, _, List.mem_cons_self, hFailed u⟩
    · obtain ⟨hLimit, e, hMem, hFailed⟩ := h.lost hOld
      exact ⟨hLimit.cons, e, List.mem_cons_of_mem _ hMem, hFailed⟩
  · intro b e hMem hCommits
    rw [hRan.history] at hMem ⊢
    rcases List.mem_cons.mp hMem with rfl | hOld
    · cases o with
      | createLocation draft clonedFrom =>
        cases pt with
        | held b' maxLocations count =>
          have hBusiness : draft.businessId = b' := hAllows
          have hSame : b' = b := by
            simp only [commits] at hCommits
            split at hCommits
            · rename_i hEntry
              injection hEntry with _ hOp _
              injection hOp with hDraft _
              rw [← hBusiness, hDraft]
              exact of_decide_eq_true hCommits
            · cases hCommits
          rw [← hSame]
          exact (h.held hPoint).cons
        | _ => cases hAllows
      | _ => cases hCommits
    · exact (h.created e hOld hCommits).cons

theorem slots_of_reach {ok : State → Label (Except Err Unit) Event → Prop} (h : store.Reach ok (State.start w₀ requests) c) :
    ∃ pts, Tracks store creating (requests.map fun _ => Point.idle) c pts ∧ Slots w₀ c pts := by
  have hTracks : Tracks store creating (requests.map fun _ => Point.idle) (State.start w₀ requests)
      (requests.map fun _ => Point.idle) := Tracks.initial fun r _ => r.program_follows
  have hIdle : ∀ {u : Nat} {pt : Point}, (requests.map fun _ => Point.idle)[u]? = some pt → pt = .idle := by
    intro u pt hPoint
    rw [List.getElem?_map, Option.map_eq_some_iff] at hPoint
    obtain ⟨_, _, rfl⟩ := hPoint
    rfl
  refine hTracks.invariant (I := Slots w₀) ?_ (fun _ hI _ hRan hPoint hMove _ => ?_)
    (fun _ hI _ _ => ⟨hI.count, hI.told, hI.held, hI.lost, hI.created⟩)
    (fun _ hI _ => ⟨hI.count, hI.told, hI.held, hI.lost, hI.created⟩) h
  · refine ⟨fun b => ?_, fun hPoint => ?_, fun hPoint => ?_, fun hPoint => ?_, fun e hMem => ?_⟩
    · have hNone : Tables.total (Point.slots b) (requests.map fun _ => Point.idle) = 0 :=
        Tables.total_zero fun pt hMem => by
          obtain ⟨_, _, rfl⟩ := List.mem_map.mp hMem
          rfl
      rw [hNone]
      simp [State.start, Config.initial, committed]
    · cases hIdle hPoint
    · cases hIdle hPoint
    · cases hIdle hPoint
    · cases hMem
  · obtain ⟨hAllows, rfl⟩ := hMove
    exact hI.ran hPoint hAllows hRan

theorem none_failed_of_reach (h : store.Reach (fun c l => releasesSucceed c l && sessionsStart c l) (State.start w₀ requests) c) :
    ∀ e ∈ c.history, failed e = false := by
  induction h with
  | start =>
    intro e hMem
    cases hMem
  | @step c c' l _ hGuard hStep ih =>
    cases l with
    | run t a =>
      obtain ⟨o, th, k, hRan⟩ := Store.run_cases hStep
      rw [hRan.history]
      refine List.forall_mem_cons.mpr ⟨?_, ih⟩
      simp only [releasesSucceed, sessionsStart, hRan.waiting?, Bool.and_eq_true] at hGuard
      cases a with
      | ok a => cases o <;> rfl
      | error err =>
        cases o with
        | startSession => cases hGuard.2
        | release businessId => cases hGuard.1
        | _ => rfl
    | stop t =>
      obtain ⟨th, -, rfl⟩ := Store.stop_cases hStep
      exact ih
    | event e =>
      cases hStep
      exact ih

theorem slots_zero {b : Id} (hFree : ∀ {t : Nat} {pt : Point}, pts[t]? = some pt → pt.slots b = 0) :
    Tables.total (Point.slots b) pts = 0 := by
  refine Tables.total_zero fun pt hMem => ?_
  obtain ⟨t, hPoint⟩ := List.getElem?_of_mem hMem
  exact hFree hPoint

theorem rest_of_settled (hTracks : Tracks store creating (requests.map fun _ => Point.idle) c pts) (hSettled : Settled c)
    (hPoint : pts[t]? = some pt) : pt.Rest := by
  obtain ⟨th, hThread⟩ := hTracks.thread_exists hPoint
  cases hBorn : th.born with
  | some w =>
    exact hTracks.rest_of_ended hThread hPoint (hSettled th (List.mem_of_getElem? hThread) (by rw [hBorn]; rfl))
  | none =>
    have hStart := hTracks.unborn hThread hBorn
    rw [hPoint, List.getElem?_map] at hStart
    obtain ⟨_, -, rfl⟩ := Option.map_eq_some_iff.mp hStart.symm
    trivial

/-- While a business is lapsed, its limit is the count that it had, and no slot
is reserved. -/
structure Frozen (w₀ : World) (b : Id) (history : List (Entry Op Op.Resp Err)) : Prop where
  told : ∀ t maxLocations, ⟨t, .getMaxLocations b, .ok maxLocations⟩ ∈ history → maxLocations = (w₀.locationCount? b).getD 0
  unreserved : ∀ t maxLocations count, ⟨t, .reserve b maxLocations, .ok (some count)⟩ ∉ history

theorem Frozen.count {b : Id} (h : Frozen w₀ b c.history) (hSlots : Slots w₀ c pts) :
    c.state.locationCount? b = w₀.locationCount? b := by
  have hNever : ∀ {t : Nat}, ¬ InLimit c.history t b := by
    rintro t ⟨maxLocations, count, -, hReserved, -⟩
    exact h.unreserved t maxLocations count hReserved
  have hCommitted : committed b c.history = 0 :=
    List.countP_eq_zero.mpr fun e hMem hCommits => hNever (hSlots.created e hMem hCommits)
  have hFree : Tables.total (Point.slots b) pts = 0 := by
    refine slots_zero fun {t pt} hPoint => ?_
    cases pt with
    | held b' maxLocations count => exact if_neg fun hEq => hNever (hEq ▸ hSlots.held hPoint)
    | lost b' => exact if_neg fun hEq => hNever (hEq ▸ (hSlots.lost hPoint).1)
    | _ => rfl
  rw [hSlots.count b, hCommitted, hFree]
  simp

theorem Frozen.ran {b : Id} (h : Frozen w₀ b c.history) (hLapsed : (resolveBusinessPlanWithInheritance b).at c.state = .ok .lapsed)
    (hSlots : Slots w₀ c pts) (hPoint : pts[t]? = some pt) (hAllows : pt.Allows o) (hRan : store.Ran c t a o th k c') :
    Frozen w₀ b c'.history := by
  have hCount := h.count hSlots
  constructor
  · intro u maxLocations hMem
    rw [hRan.history] at hMem
    rcases List.mem_cons.mp hMem with hNew | hOld
    · injection hNew with _ hOp hResult
      subst hOp
      have hAnswer := eq_of_heq hResult
      cases a with
      | error fault => cases hAnswer
      | ok a =>
        have hMax : maxLocations = c.state.maxLocations b := Except.ok.inj (hAnswer.trans getMaxLocations_at)
        rw [resolveBusinessPlanWithInheritance_at] at hLapsed
        rw [hMax, ← hCount, World.maxLocations, Except.ok.inj hLapsed, World.locationCount?]
        cases c.state.business? b <;> rfl
    · exact h.told u maxLocations hOld
  · intro u maxLocations count hMem
    rw [hRan.history] at hMem
    rcases List.mem_cons.mp hMem with hNew | hOld
    · injection hNew with _ hOp hResult
      subst hOp
      obtain ⟨hStored, hBelow⟩ := lt_of_reserve (eq_of_heq hResult).symm
      cases pt with
      | told b' maxLocations' =>
        obtain ⟨rfl, rfl⟩ := hAllows
        have hLimit := h.told _ _ (hSlots.told hPoint)
        rw [← hCount, hStored] at hLimit
        exact absurd hBelow (by rw [hLimit]; exact Int.lt_irrefl _)
      | _ => cases hAllows
    · exact h.unreserved u maxLocations count hOld

theorem frozen_of_reach {b : Id}
    (h : store.Reach (fun c _ => (resolveBusinessPlanWithInheritance b).at c.state = .ok .lapsed) (State.start w₀ requests) c) :
    Frozen w₀ b c.history := by
  induction h with
  | start =>
    constructor
    · intro t maxLocations hMem
      cases hMem
    · intro t maxLocations count hMem
      cases hMem
  | @step c c' l hReach hLapsed hStep ih =>
    cases l with
    | run t a =>
      obtain ⟨o, th, k, hRan⟩ := Store.run_cases hStep
      obtain ⟨pts, hTracks, hSlots⟩ := slots_of_reach hReach
      obtain ⟨pt, pt', hPoint, hMove, -⟩ := hTracks.ran hRan
      exact ih.ran hLapsed hSlots hPoint hMove.1 hRan
    | stop t =>
      obtain ⟨th, -, rfl⟩ := Store.stop_cases hStep
      exact ih
    | event e =>
      cases hStep
      exact ih

end Runs

/-- As long as sessions start, the count of a business is exact whenever no
creation is in progress, every location was created within a limit, and a
business that stays lapsed gets no new one. -/
theorem locations_within_plan {w₀ : World} {requests : List Request} {c : State}
    (h : store.Reach (fun c l => releasesSucceed c l && sessionsStart c l) (State.start w₀ requests) c) :
    (Settled c → ∀ b, c.state.locationCount? b = (w₀.locationCount? b).map (· + (committed b c.history : Int))) ∧
      (∀ b, ∀ e ∈ c.history, commits b e = true → InLimit c.history e.thread b) ∧
      ∀ b, store.Reach (fun c _ => (resolveBusinessPlanWithInheritance b).at c.state = .ok .lapsed) (State.start w₀ requests) c →
        committed b c.history = 0 := by
  obtain ⟨pts, hTracks, hSlots⟩ := slots_of_reach h
  refine ⟨fun hSettled b => ?_, fun b e hMem => hSlots.created e hMem, fun b hLapsed => ?_⟩
  · have hFree : Tables.total (Point.slots b) pts = 0 := by
      refine slots_zero fun {t pt} hPoint => ?_
      cases pt with
      | held b' maxLocations count => exact (rest_of_settled hTracks hSettled hPoint).elim
      | lost b' =>
        obtain ⟨-, e, hMem, hFailed⟩ := hSlots.lost hPoint
        rw [none_failed_of_reach h e hMem] at hFailed
        cases hFailed
      | _ => rfl
    rw [hSlots.count b, hFree]
    simp
  · have hFrozen := frozen_of_reach hLapsed
    refine List.countP_eq_zero.mpr fun e hMem hCommits => ?_
    obtain ⟨maxLocations, count, -, hReserved, -⟩ := hSlots.created e hMem hCommits
    exact hFrozen.unreserved _ _ _ hReserved

def diner : Business where
  id := 7
  ownerId := 3

def dinerWorld : World := { businesses := [diner], nextId := 1 }

def twoCreations : List Request :=
  [.createLocationForBusiness 7 "Diner North" "diner-north" none, .createRestaurant 7 "Diner North" "diner-north"]

theorem locations_within_plan_released : ∃ c : State, Settled c ∧ c.state.locationCount? 7 = some 1 ∧
    committed 7 c.history = 1 ∧ ∀ e ∈ c.history, commits 7 e = true → InLimit c.history e.thread 7 := by
  obtain ⟨c, hReach, hEnd⟩ := store.exists_of_exec (fun c l => releasesSucceed c l && sessionsStart c l) (State.start dinerWorld twoCreations)
    (List.flatten [List.replicate 5 (.run 0 (.ok ())), List.replicate 5 (.run 1 (.ok ())), List.replicate 3 (.run 0 (.ok ())),
      List.replicate 3 (.run 1 (.ok ()))])
    (fun c : State => decide (Settled c ∧ committed 7 c.history = 1)) (by decide +kernel)
  obtain ⟨hSettled, hCommitted⟩ := of_decide_eq_true hEnd
  obtain ⟨hCount, hLimit, -⟩ := locations_within_plan hReach
  refine ⟨c, hSettled, ?_, hCommitted, hLimit 7⟩
  rw [hCount hSettled 7, hCommitted]
  rfl

/-- The session does not start: the slot that was reserved for the location is
never released. -/
theorem location_slot_lost : ¬ ∀ (w₀ : World) (requests : List Request) (c : State),
    store.Reach (fun c l => releasesSucceed c l) (State.start w₀ requests) c → Settled c →
    ∀ b, c.state.locationCount? b = (w₀.locationCount? b).map (· + (committed b c.history : Int)) := by
  intro hClaim
  obtain ⟨c, hReach, hEnd⟩ := store.exists_of_exec releasesSucceed (State.start dinerWorld twoCreations)
    (List.flatten [List.replicate 4 (.run 0 (.ok ())), [.run 0 (.error (.other "MongoNetworkError"))]])
    (fun c : State => decide (Settled c ∧ committed 7 c.history = 0 ∧ c.state.locationCount? 7 = some 1)) (by decide +kernel)
  obtain ⟨hSettled, hCommitted, hCount⟩ := of_decide_eq_true hEnd
  have hExact := hClaim dinerWorld twoCreations c hReach hSettled 7
  rw [hCount, hCommitted] at hExact
  cases hExact

/-! ## Whatever fails -/

def World.locations (w : World) (businessId : Id) : Nat := w.restaurants.countP (·.businessId = businessId)

/-- The plan of the business has lapsed or allows no more than `limit`. -/
def PlanWithin (b : Id) (limit : Int) (w : World) : Prop :=
  (resolveBusinessPlanWithInheritance b).at w = .ok .lapsed ∨ w.maxLocations b ≤ limit

structure Within (w₀ : World) (b : Id) (limit : Int) (c : State) : Prop where
  created : c.state.locations b = w₀.locations b + committed b c.history
  count : ∃ n, c.state.locationCount? b = some n ∧ n ≤ limit
  told : ∀ t maxLocations, ⟨t, .getMaxLocations b, .ok maxLocations⟩ ∈ c.history → maxLocations ≤ limit

section Within

variable {w₀ w : World} {requests : List Request} {c : State} {o : Op} {a : Except Err Unit} {b : Id} {n limit : Int}

theorem locations_perform {t : Nat} :
    (store.perform o a w).2.locations b = w.locations b + if commits b ⟨t, o, (store.perform o a w).1⟩ then 1 else 0 := by
  cases a with
  | error fault => cases o <;> rfl
  | ok a =>
    cases o with
    | createLocation draft clonedFrom =>
      simp only [Op.perform]
      split
      · rfl
      · rw [World.locations, List.countP_append, List.countP_singleton]
        rfl
    | reserve businessId maxLocations =>
      simp only [Op.perform]
      split <;> rfl
    | _ => rfl

theorem count_perform (hStored : w.locationCount? b = some n) (hLe : n ≤ limit) (hReserve : ∀ m, o = .reserve b m → m ≤ limit) :
    ∃ n', (store.perform o a w).2.locationCount? b = some n' ∧ n' ≤ limit := by
  have hCounted : ∀ {businessId : Id} {change : Int}, (businessId = b → n + change ≤ limit) →
      ∃ n', (w.count businessId change).locationCount? b = some n' ∧ n' ≤ limit := by
    intro businessId change hChange
    refine ⟨_, by rw [locationCount?_count, hStored]; rfl, ?_⟩
    split
    · exact hChange ‹_›
    · exact (Int.add_zero n).le.trans hLe
  cases a with
  | error fault => exact ⟨n, hStored, hLe⟩
  | ok a =>
    cases o with
    | reserve businessId maxLocations =>
      simp only [Op.perform]
      split
      · exact ⟨n, hStored, hLe⟩
      · rename_i business hFound
        refine hCounted fun hSame => ?_
        subst hSame
        obtain ⟨hBusiness, hBelow⟩ := Option.filter_eq_some_iff.mp hFound
        rw [World.locationCount?, hBusiness, Option.map_some, Option.some.injEq] at hStored
        have hLimit := hReserve maxLocations rfl
        have hRoom : business.locationCount < maxLocations := of_decide_eq_true hBelow
        omega
    | release businessId => exact hCounted fun _ => by omega
    | createLocation draft clonedFrom =>
      simp only [Op.perform]
      split <;> exact ⟨n, hStored, hLe⟩
    | _ => exact ⟨n, hStored, hLe⟩

/-- A lapsed business is told of the locations that it has. -/
theorem maxLocations_le (hPlan : PlanWithin b limit w) (hStored : w.locationCount? b = some n) (hLe : n ≤ limit) :
    w.maxLocations b ≤ limit := by
  refine hPlan.elim (fun hLapsed => ?_) id
  rw [resolveBusinessPlanWithInheritance_at] at hLapsed
  obtain ⟨business, hBusiness, rfl⟩ := Option.map_eq_some_iff.mp hStored
  rw [World.maxLocations, Except.ok.inj hLapsed, hBusiness]
  exact hLe

theorem within_of_reach (hCount : w₀.locationCount? b = some n) (hLe : n ≤ limit)
    (h : store.Reach (fun c _ => PlanWithin b limit c.state) (State.start w₀ requests) c) : Within w₀ b limit c := by
  induction h with
  | start => exact ⟨rfl, ⟨n, hCount, hLe⟩, fun t maxLocations hMem => absurd hMem List.not_mem_nil⟩
  | @step c c' l hReach hPlan hStep ih =>
    cases l with
    | run t a =>
      obtain ⟨o, th, k, hRan⟩ := Store.run_cases hStep
      obtain ⟨pts, hTracks, hSlots⟩ := slots_of_reach hReach
      obtain ⟨pt, pt', hPoint, ⟨hAllows, -⟩, -⟩ := hTracks.ran hRan
      obtain ⟨n', hStored, hBelow⟩ := ih.count
      refine ⟨?_, ?_, fun u maxLocations hMem => ?_⟩
      · rw [hRan.state, locations_perform (t := t), ih.created, hRan.history, committed, committed, List.countP_cons, Nat.add_assoc]
      · rw [hRan.state]
        refine count_perform hStored hBelow ?_
        rintro maxLocations rfl
        cases pt with
        | told b' maxLocations' =>
          obtain ⟨rfl, rfl⟩ := hAllows
          exact ih.told _ _ (hSlots.told hPoint)
        | _ => cases hAllows
      · rw [hRan.history] at hMem
        rcases List.mem_cons.mp hMem with hNew | hOld
        · injection hNew with _ hOp hResult
          subst hOp
          have hAnswer := eq_of_heq hResult
          cases a with
          | error fault => cases hAnswer
          | ok a =>
            rw [Except.ok.inj (hAnswer.trans getMaxLocations_at)]
            exact maxLocations_le hPlan hStored hBelow
        · exact ih.told u maxLocations hOld
    | stop t =>
      obtain ⟨th, -, rfl⟩ := Store.stop_cases hStep
      exact ⟨ih.created, ih.count, ih.told⟩
    | event e =>
      cases hStep
      exact ⟨ih.created, ih.count, ih.told⟩

end Within

/-- Whatever throws or stops, and however the plans change below the limit, the
count covers the locations that are there and stays within the limit. -/
theorem locations_never_exceed {w₀ : World} {requests : List Request} {c : State} {b : Id} {n limit : Int}
    (hCount : w₀.locationCount? b = some n) (hCovers : w₀.locations b ≤ n) (hLe : n ≤ limit)
    (h : store.Reach (fun c _ => PlanWithin b limit c.state) (State.start w₀ requests) c) :
    ∃ n', c.state.locationCount? b = some n' ∧ c.state.locations b ≤ n' ∧ n' ≤ limit := by
  have hWithin := within_of_reach hCount hLe h
  obtain ⟨n', hNow, hBelow⟩ := hWithin.count
  obtain ⟨pts, -, hSlots⟩ := slots_of_reach h
  have hSlotted : 0 ≤ Tables.total (Point.slots b) pts := Tables.total_nonneg fun pt _ => by
    cases pt <;> simp only [Point.slots] <;> first | exact le_refl _ | (split <;> decide)
  refine ⟨n', hNow, ?_, hBelow⟩
  rw [hSlots.count b, hCount, Option.map_some, Option.some.injEq] at hNow
  rw [hWithin.created]
  omega

/-- The first creation loses its slot, the second keeps its own. -/
theorem locations_never_exceed_lost : ∃ c : State, c.state.locationCount? 7 = some 2 ∧
    ∃ n, c.state.locationCount? 7 = some n ∧ c.state.locations 7 ≤ n ∧ n ≤ 20 := by
  obtain ⟨c, hReach, hEnd⟩ := store.exists_of_exec (fun c _ => decide (c.state.maxLocations 7 ≤ 20)) (State.start dinerWorld twoCreations)
    (List.flatten [List.replicate 4 (.run 0 (.ok ())), .run 0 (.error (.other "MongoNetworkError")) :: List.replicate 8 (.run 1 (.ok ()))])
    (fun c => c.state.locationCount? 7 = some 2) (by decide +kernel)
  exact ⟨c, of_decide_eq_true hEnd, locations_never_exceed (n := 0) rfl (by decide) (by decide)
    (hReach.mono fun _ _ hPlan => .inr (of_decide_eq_true hPlan))⟩

end RestaurantOs.Entitlements
