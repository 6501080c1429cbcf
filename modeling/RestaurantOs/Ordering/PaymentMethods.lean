import RestaurantOs.Async.Protocol
import RestaurantOs.Payments.Providers

/-!
# The payment methods of a restaurant

An update of a restaurant sets the fields that it names and no others. It is
written only where a payment method stays enabled by what is stored at the
write, and it turns online payment on only after a payment account was found.
-/

namespace RestaurantOs.PaymentMethods

open Async
open Payments (Id ApiError Err Env getPaymentProvider canProcessOnlinePayments)

inductive Value
  | bool (b : Bool)
  | other (json : String)
  deriving DecidableEq

inductive Setting
  | cashEnabled
  | onlinePaymentEnabled
  | other (name : String)
  deriving DecidableEq

inductive Field
  | profile (name : String)
  | setting (setting : Setting)
  deriving DecidableEq

structure Restaurant where
  id : Id
  fields : Field → Option Value

/-- The entries of the body: a field of the profile may be null. -/
structure UpdateRestaurantInput where
  profileFields : List (String × Option Value) := []
  settings : Option (List (Setting × Value)) := none

structure UpdateOps where
  set : List (Field × Value)
  unset : List Field

def buildRestaurantUpdateOps (input : UpdateRestaurantInput) : UpdateOps where
  set := (input.profileFields.filterMap fun e => e.2.map fun value => (.profile e.1, value)) ++
    (input.settings.getD []).map fun e => (.setting e.1, e.2)
  unset := (input.profileFields.filter (·.2 = none)).map fun e => .profile e.1

/-- `$set` and `$unset` -/
def UpdateOps.apply (ops : UpdateOps) (r : Restaurant) : Restaurant :=
  { r with fields := fun field => if ops.unset.contains field then none else (ops.set.lookup field).or (r.fields field) }

def UpdateRestaurantInput.setting (updates : UpdateRestaurantInput) (s : Setting) : Option Value :=
  (updates.settings.getD []).lookup s

def enabled (value : Option Value) : Bool := value = some (.bool true)

def Restaurant.payable (r : Restaurant) : Bool :=
  enabled (r.fields (.setting .cashEnabled)) || enabled (r.fields (.setting .onlinePaymentEnabled))

/-- The filter's `$expr`, on the document as it is stored at the write. -/
def UpdateRestaurantInput.leavesMethod (updates : UpdateRestaurantInput) (r : Restaurant) : Bool :=
  enabled ((updates.setting .cashEnabled).or (r.fields (.setting .cashEnabled))) ||
    enabled ((updates.setting .onlinePaymentEnabled).or (r.fields (.setting .onlinePaymentEnabled)))

def UpdateRestaurantInput.admits (updates : UpdateRestaurantInput) (id : Id) (r : Restaurant) : Bool :=
  r.id = id && (!((updates.setting .cashEnabled).isSome || (updates.setting .onlinePaymentEnabled).isSome) || updates.leavesMethod r)

structure World where
  restaurants : List Restaurant
  /-- the restaurants with an active payment account -/
  connected : List Id := []

inductive Op
  | hasActiveRestaurantPaymentAccount (restaurantId : Id)
  | findOneAndUpdate (restaurantId : Id) (updates : UpdateRestaurantInput)
  | exists_ (restaurantId : Id)

@[reducible] def Op.Resp : Op → Type
  | hasActiveRestaurantPaymentAccount _ | exists_ _ => Bool
  | findOneAndUpdate _ _ => Option Restaurant

def Op.perform : (op : Op) → World → Except Err op.Resp × World
  | hasActiveRestaurantPaymentAccount restaurantId, w => (.ok (w.connected.contains restaurantId), w)
  | findOneAndUpdate restaurantId updates, w =>
    let update := (buildRestaurantUpdateOps updates).apply
    (.ok ((w.restaurants.find? (updates.admits restaurantId)).map update),
      { w with restaurants := Tables.update (updates.admits restaurantId) update w.restaurants })
  | exists_ restaurantId, w => (.ok (w.restaurants.any (·.id = restaurantId)), w)

/-- Accounts are connected and disconnected at any time. -/
def advance (connected : List Id) (w : World) : World := { w with connected }

@[reducible] def store : Store Op Op.Resp Err World (Except Err Unit) (List Id) :=
  Store.faulty ⟨fun o _ w => o.perform w, advance⟩ id

abbrev Promise (α : Type) := Prog Op Op.Resp Err α

def updateRestaurant (env : Env) (restaurantId : Id) (updates : UpdateRestaurantInput) : Promise Restaurant := do
  Prog.onlyIf (updates.setting .onlinePaymentEnabled = some (.bool true)) do
    let hasAccount : Bool ← .call (Op.hasActiveRestaurantPaymentAccount restaurantId)
    let _ ← .ofExcept (getPaymentProvider env env.paymentProvider)
    Prog.onlyIf (canProcessOnlinePayments env hasAccount env.paymentProvider = false)
      (.raise (.api (.badRequest "Connect a payment account before enabling online payments.")))
  let restaurant : Option Restaurant ← .call (Op.findOneAndUpdate restaurantId updates)
  match restaurant with
  | some restaurant => pure restaurant
  | none => do
    let found : Bool ← .call (Op.exists_ restaurantId)
    if found then .raise (.api (.badRequest "At least one payment method (cash or online) must stay enabled."))
    else .raise (.api (.notFound "Restaurant not found"))

structure Request where
  restaurantId : Id
  updates : UpdateRestaurantInput

abbrev State := Config Op Op.Resp Err World Restaurant

def State.start (env : Env) (w : World) (requests : List Request) : State :=
  Config.initial w (requests.map fun r => updateRestaurant env r.restaurantId r.updates)

/-! ## What an update may write -/

/-- The update gives the field this value, or takes it away. -/
def UpdateRestaurantInput.Names (updates : UpdateRestaurantInput) (field : Field) (value : Option Value) : Prop :=
  match field with
  | .profile name => (name, value) ∈ updates.profileFields
  | .setting s => updates.setting s = value ∧ value.isSome

/-- A request knows whether it was told of the restaurant's account. -/
def acting (env : Env) (requests : List Request) : Protocol Op World (Except Err Unit) where
  Point := Option Id
  Move o a w told told' :=
    match o with
    | .hasActiveRestaurantPaymentAccount id =>
      told' = if ((store.perform (.hasActiveRestaurantPaymentAccount id) a w).1 matches .ok true) then some id else told
    | .findOneAndUpdate id updates => told' = told ∧ ⟨id, updates⟩ ∈ requests ∧
      (updates.setting .onlinePaymentEnabled = some (.bool true) →
        told = some id ∨ canProcessOnlinePayments env false env.paymentProvider = true)
    | .exists_ _ => told' = told
  Rest _ := True

/-- Some request was told that the restaurant has an active account. -/
def Told (c : State) (id : Id) : Prop := ∃ t, ⟨t, .hasActiveRestaurantPaymentAccount id, .ok true⟩ ∈ c.history

/-- The restaurant can be paid, every field is as it was or as a request named
it, and online payment was turned on by nobody who was told of no account. -/
structure Kept (env : Env) (w : World) (requests : List Request) (c : State) (r : Restaurant) : Prop where
  payable : r.payable = true
  origin : ∃ r₀ ∈ w.restaurants, r₀.id = r.id ∧
    (∀ field, r.fields field = r₀.fields field ∨ ∃ updates, ⟨r.id, updates⟩ ∈ requests ∧ updates.Names field (r.fields field)) ∧
    (r.fields (.setting .onlinePaymentEnabled) = some (.bool true) → r₀.fields (.setting .onlinePaymentEnabled) = some (.bool true) ∨
      canProcessOnlinePayments env false env.paymentProvider = true ∨ Told c r.id)

structure Running (env : Env) (w : World) (requests : List Request) (c : State) (pts : List (Option Id)) : Prop where
  kept : ∀ r ∈ c.state.restaurants, Kept env w requests c r
  told : ∀ id, some id ∈ pts → Told c id

section Updates

variable {env : Env} {w : World} {requests : List Request} {c c' : State} {updates : UpdateRestaurantInput} {r : Restaurant}
  {id : Id} {s : Setting}

theorem lookup_setting : (buildRestaurantUpdateOps updates).set.lookup (.setting s) = updates.setting s := by
  rw [buildRestaurantUpdateOps, List.lookup_append, List.lookup_eq_none_iff.mpr, Option.none_or, UpdateRestaurantInput.setting]
  · induction updates.settings.getD [] with
    | nil => rfl
    | cons e settings ih =>
      obtain ⟨key, value⟩ := e
      have hKey : (Field.setting s == .setting key) = (s == key) := by rw [Bool.eq_iff_iff]; simp
      simp [List.lookup_cons, hKey, ih]
  · rintro p hp
    obtain ⟨e, -, he⟩ := List.mem_filterMap.mp hp
    obtain ⟨value, -, rfl⟩ := Option.map_eq_some_iff.mp he
    rfl

theorem apply_setting : ((buildRestaurantUpdateOps updates).apply r).fields (.setting s) =
    (updates.setting s).or (r.fields (.setting s)) := by
  have hKept : (buildRestaurantUpdateOps updates).unset.contains (.setting s) = false := by simp [buildRestaurantUpdateOps]
  rw [UpdateOps.apply]
  dsimp only
  rw [hKept, lookup_setting]
  rfl

theorem apply_field (field : Field) : ((buildRestaurantUpdateOps updates).apply r).fields field = r.fields field ∨
    updates.Names field (((buildRestaurantUpdateOps updates).apply r).fields field) := by
  cases field with
  | setting s =>
    rw [apply_setting]
    cases hNamed : updates.setting s with
    | none => exact .inl rfl
    | some value => exact .inr ⟨hNamed, rfl⟩
  | profile name =>
    simp only [UpdateOps.apply]
    split
    · rename_i hUnset
      obtain ⟨e, he, hName⟩ := List.mem_map.mp (List.contains_iff_mem.mp hUnset)
      obtain ⟨hMem, hNull⟩ := List.mem_filter.mp he
      cases hName
      exact .inr (show (e.1, none) ∈ updates.profileFields from of_decide_eq_true hNull ▸ hMem)
    · cases hSet : (buildRestaurantUpdateOps updates).set.lookup (.profile name) with
      | none => exact .inl rfl
      | some value =>
        obtain ⟨before, after, hSplit, -⟩ := List.lookup_eq_some_iff.mp hSet
        have hMem : (Field.profile name, value) ∈ (buildRestaurantUpdateOps updates).set := by rw [hSplit]; simp
        rcases List.mem_append.mp hMem with hProfile | hSetting
        · obtain ⟨e, he, hEntry⟩ := List.mem_filterMap.mp hProfile
          obtain ⟨stored, hStored, hSame⟩ := Option.map_eq_some_iff.mp hEntry
          cases hSame
          exact .inr (show (e.1, some value) ∈ updates.profileFields from hStored ▸ he)
        · obtain ⟨e, -, hEntry⟩ := List.mem_map.mp hSetting
          cases hEntry

theorem apply_payable (hAdmits : updates.admits id r = true) (hPayable : r.payable = true) :
    ((buildRestaurantUpdateOps updates).apply r).payable = true := by
  rw [Restaurant.payable, apply_setting, apply_setting]
  rw [UpdateRestaurantInput.admits, Bool.and_eq_true, Bool.or_eq_true] at hAdmits
  rcases hAdmits.2 with hNeither | hLeaves
  · rw [Bool.not_eq_true', Bool.or_eq_false_iff, Option.isSome_eq_false_iff, Option.isNone_iff_eq_none, Option.isSome_eq_false_iff,
      Option.isNone_iff_eq_none] at hNeither
    rw [hNeither.1, hNeither.2]
    exact hPayable
  · exact hLeaves

theorem updateRestaurant_follows {restaurantId : Id} (h : ⟨restaurantId, updates⟩ ∈ requests) :
    (updateRestaurant env restaurantId updates).Follows store (acting env requests) none (fun _ _ => True) fun _ _ => True := by
  have hAnswer : ∀ {o : Op} {told : Option Id} {Q : o.Resp → Option Id → Prop}, (∀ v, Q v told) →
      (∀ a s, (acting env requests).Move o a s told told) →
      (Prog.call o : Prog Op Op.Resp Err o.Resp).Follows store (acting env requests) told Q fun _ _ => True := by
    intro o told Q hQ hMove
    refine Prog.follows_call.mpr fun a s => ⟨told, hMove a s, ?_⟩
    split
    · exact hQ _
    · trivial
  refine Prog.follows_bind.mpr (Prog.Follows.mono (E := fun _ _ => True) (Q := fun _ told =>
    updates.setting .onlinePaymentEnabled = some (.bool true) →
      told = some restaurantId ∨ canProcessOnlinePayments env false env.paymentProvider = true) ?_ ?_ fun _ _ _ => trivial)
  · refine Prog.follows_onlyIf (fun _ => ?_) fun hNot hOn => absurd hOn hNot
    refine Prog.follows_bind.mpr (Prog.follows_call.mpr fun a s => ⟨_, rfl, ?_⟩)
    split
    · rename_i hasAccount hTold
      refine Prog.follows_bind.mpr (Prog.follows_ofExcept.mpr ?_)
      split
      · refine Prog.follows_onlyIf (fun _ => trivial) fun hCan _ => ?_
        cases hasAccount with
        | true => exact .inl (by rw [hTold]; rfl)
        | false => exact .inr (Bool.eq_true_of_not_eq_false hCan)
      · trivial
    · trivial
  · intro _ told hTold
    refine Prog.follows_bind.mpr (hAnswer (fun restaurant => ?_) fun _ _ => ⟨rfl, h, hTold⟩)
    split
    · trivial
    · refine Prog.follows_bind.mpr (hAnswer (fun found => ?_) fun _ _ => rfl)
      split <;> trivial

theorem Kept.later (h : Kept env w requests c r) (hHistory : ∀ e ∈ c.history, e ∈ c'.history) : Kept env w requests c' r := by
  obtain ⟨r₀, hMem, hId, hFields, hOnline⟩ := h.origin
  refine ⟨h.payable, r₀, hMem, hId, hFields, fun hOn => (hOnline hOn).imp_right fun hWhy => hWhy.imp_right ?_⟩
  rintro ⟨t, hTold⟩
  exact ⟨t, hHistory _ hTold⟩

theorem Kept.updated (h : Kept env w requests c r) (hAdmits : updates.admits id r = true) (hRequest : ⟨id, updates⟩ ∈ requests)
    (hWhy : updates.setting .onlinePaymentEnabled = some (.bool true) →
      canProcessOnlinePayments env false env.paymentProvider = true ∨ Told c id) :
    Kept env w requests c ((buildRestaurantUpdateOps updates).apply r) := by
  have hId : r.id = id := of_decide_eq_true (Bool.and_eq_true_iff.mp hAdmits).1
  obtain ⟨r₀, hMem, hSame, hFields, hOnline⟩ := h.origin
  refine ⟨apply_payable hAdmits h.payable, r₀, hMem, hSame, fun field => ?_, fun hOn => ?_⟩
  · rcases apply_field field with hStays | hNames
    · rw [hStays]
      exact hFields field
    · exact .inr ⟨updates, hId ▸ hRequest, hNames⟩
  · rw [apply_setting] at hOn
    cases hNamed : updates.setting .onlinePaymentEnabled with
    | none =>
      rw [hNamed] at hOn
      exact hOnline hOn
    | some value =>
      rw [hNamed] at hOn
      exact .inr (hId ▸ hWhy (hNamed.trans hOn))

theorem Running.ran {pts : List (Option Id)} {t : Nat} {a : Except Err Unit} {o : Op} {th : Thread Op Op.Resp Err World Restaurant}
    {k : Except Err o.Resp → Promise Restaurant} {told told' : Option Id} (h : Running env w requests c pts) (hRan : store.Ran c t a o th k c')
    (hPoint : pts[t]? = some told) (hMove : (acting env requests).Move o a c.state told told') :
    Running env w requests c' (pts.set t told') := by
  have hHistory : ∀ e ∈ c.history, e ∈ c'.history := fun e he => by
    rw [hRan.history]
    exact List.mem_cons_of_mem _ he
  have hSame : ∀ id, told = some id → Told c' id := by
    rintro id rfl
    exact (h.told id (List.mem_of_getElem? hPoint)).imp fun _ hEntry => hHistory _ hEntry
  have hAll : (∀ id, told' = some id → Told c' id) → ∀ id, some id ∈ pts.set t told' → Told c' id := fun hNew id hid =>
    (List.mem_or_eq_of_mem_set hid).elim (fun hOld => (h.told id hOld).imp fun _ hEntry => hHistory _ hEntry) fun hEq => hNew id hEq.symm
  have hKept : ∀ r ∈ c.state.restaurants, Kept env w requests c' r := fun r hr => (h.kept r hr).later hHistory
  cases o with
  | findOneAndUpdate id updates =>
    obtain ⟨rfl, hRequest, hWhy⟩ := hMove
    refine ⟨fun r hr => ?_, hAll hSame⟩
    rw [hRan.state] at hr
    cases a with
    | error => exact hKept r hr
    | ok =>
      obtain ⟨stored, hStored, rfl⟩ := Tables.mem_update.mp hr
      split
      · exact (hKept stored hStored).updated ‹_› hRequest fun hOn => (hWhy hOn).symm.imp_right (hSame id)
      · exact hKept stored hStored
  | hasActiveRestaurantPaymentAccount id =>
    refine ⟨?_, hAll fun id' hNew => ?_⟩
    · rw [hRan.state]
      cases a <;> exact hKept
    · cases hMove
      split at hNew
      · rename_i hAnswer
        cases hNew
        refine ⟨t, ?_⟩
        rw [hRan.history]
        generalize (store.perform (.hasActiveRestaurantPaymentAccount id) a c.state).1 = answer at hAnswer ⊢
        rcases answer with _ | _ | _
        · cases hAnswer
        · cases hAnswer
        · exact List.mem_cons_self
      · exact hSame id' hNew
  | exists_ id =>
    cases hMove
    refine ⟨?_, hAll hSame⟩
    rw [hRan.state]
    cases a <;> exact hKept

end Updates

/-- Whatever the interleaving of updates and account changes, a restaurant
keeps a payment method, has what its requests named, and takes payment online
only by an account that was found. -/
theorem payment_method_stays {env : Env} {w : World} {requests : List Request} {c : State} (hPayable : ∀ r ∈ w.restaurants, r.payable = true)
    (h : store.Reach (fun _ _ => True) (State.start env w requests) c) : ∀ r ∈ c.state.restaurants, Kept env w requests c r := by
  have hTracks : Tracks store (acting env requests) (requests.map fun _ => none) (State.start env w requests) (requests.map fun _ => none) :=
    Tracks.initial fun r hr => updateRestaurant_follows hr
  have hStart : Running env w requests (State.start env w requests) (requests.map fun _ => none) := by
    refine ⟨fun r hr => ⟨hPayable r hr, r, hr, rfl, fun _ => .inl rfl, .inl⟩, fun id hid => ?_⟩
    obtain ⟨_, -, hNone⟩ := List.mem_map.mp hid
    cases hNone
  obtain ⟨_, -, hEnd⟩ := hTracks.invariant (I := fun c (pts : List (Option Id)) => Running env w requests c pts) hStart
    (fun _ hI _ hRan hPoint hMove _ => hI.ran hRan hPoint hMove)
    (fun _ hI _ _ => ⟨fun r hr => (hI.kept r hr).later fun _ he => he, hI.told⟩)
    (fun _ hI _ => ⟨fun r hr => (hI.kept r hr).later fun _ he => he, hI.told⟩) h
  exact hEnd.kept

def cashOnly : Restaurant := ⟨1, fun field => if field = .setting .cashEnabled then some (.bool true) else none⟩

def goesOnline : Request := ⟨1, { settings := some [(.cashEnabled, .bool false), (.onlinePaymentEnabled, .bool true)] }⟩

theorem payment_method_stays_online : ∃ c : State,
    (∃ r ∈ c.state.restaurants, enabled (r.fields (.setting .onlinePaymentEnabled)) = true) ∧
      ∀ r ∈ c.state.restaurants, Kept { paymentProvider := .stripe, production := true } ⟨[cashOnly], [1]⟩ [goesOnline] c r := by
  obtain ⟨c, hReach, hOnline⟩ := store.exists_of_exec (fun _ _ => true)
    (State.start { paymentProvider := .stripe, production := true } ⟨[cashOnly], [1]⟩ [goesOnline]) (List.replicate 2 (.run 0 (.ok ())))
    (fun c => c.state.restaurants.any fun r => enabled (r.fields (.setting .onlinePaymentEnabled))) (by decide +kernel)
  exact ⟨c, List.any_eq_true.mp hOnline, payment_method_stays (by decide +kernel) (hReach.mono fun _ _ _ => trivial)⟩

end RestaurantOs.PaymentMethods
