import RestaurantOs.Async.Later
import RestaurantOs.Connections.OAuthConnect

/-!
# A connection is used once

The callback consumes the state, so its code is exchanged once. A selection works
from the consumed state and is not tied to it any more: the state links one store
as long as selections of it come one after another, in time.
-/

namespace RestaurantOs.OAuthConnect

open Async Prog

def exchanges (stateId : Id) : Entry Op Op.Resp Err → Bool
  | ⟨_, .exchangeCodeForToken id _ _, _⟩ => id = stateId
  | _ => false

def activates (stateId : Id) : Entry Op Op.Resp Err → Bool
  | ⟨_, .activateIntegration id _, _⟩ => id = stateId
  | _ => false

def discovers (stateId : Id) (externalStoreId : String) : Entry Op Op.Resp Err → Bool
  | ⟨_, .discoverStores id _, .ok stores⟩ => id = stateId && stores.any (·.externalStoreId = externalStoreId)
  | _ => false

/-- The link of a store for the state is in order: its request is of the user that
the state was issued to and started in time, the restaurant is the state's and the
store was discovered. -/
structure Proper (requests : List Request) (c : State) (state : OAuthConnectState) (t : Nat) (input : ActivateIntegrationInput) : Prop where
  user : ∃ request, requests[t]? = some request ∧ request.userId = state.userId
  restaurant : input.restaurantId = state.restaurantId
  discovered : ∃ e ∈ c.history, discovers state.id input.externalStoreId e = true
  inTime : ∃ th w, c.threads[t]? = some th ∧ th.born = some w ∧ w.now ≤ state.expiresAt

structure LinkedOnce (requests : List Request) (c : State) (state : OAuthConnectState) : Prop where
  exchanged : c.history.countP (exchanges state.id) ≤ 1
  activated : c.history.countP (activates state.id) ≤ 1
  proper : ∀ t input result, ⟨t, .activateIntegration state.id input, result⟩ ∈ c.history → Proper requests c state t input

structure World.Issued (w : World) : Prop where
  ids : (w.states.map (·.id)).Nodup
  unconsumed : ∀ state ∈ w.states, state.consumedAt = none
  unpicked : ∀ state ∈ w.states, state.pendingCandidateStores = none

def Op.links? : Op → Option Id
  | activateStore stateId _ _ _ | activateIntegration stateId _ => some stateId
  | _ => none

/-- A selection that the state accepts reads it before it has expired, while no other
request is about to link for it and after none that went on to do so. -/
def picksInTurn (requests : List Request) (c : State) : Label (Except Err Answer) Event → Bool
  | .run t _ =>
    match c.waiting? t, requests[t]? with
    | some (.findState stateId), some (.selectUberEatsStore userId _ externalStoreId) =>
      c.state.states.all fun state => state.id ≠ stateId || (state.candidate? externalStoreId userId).isNone ||
        c.state.now ≤ state.expiresAt && c.waiting.all (·.links? ≠ some stateId) && !c.history.any (activates stateId)
    | _, _ => true
  | _ => true

/-! ## Where a request stands -/

inductive Point
  | start (request : Request)
  | consumed (request : Request) (state : OAuthConnectState)
  | exchanged (request : Request) (state : OAuthConnectState)
  | discovered (request : Request) (state : OAuthConnectState) (stores : List StoreCandidate)
  | picked (request : Request) (state : OAuthConnectState)
  | finished
  deriving DecidableEq

def Request.picks (request : Request) (state : OAuthConnectState) : Bool :=
  match request with
  | completeUberEatsConnect _ _ _ _ => false
  | selectUberEatsStore userId stateId externalStoreId =>
    state.id = stateId && (state.candidate? externalStoreId userId).isSome && state.pendingCredentials.isSome

namespace Point

def after (pt : Point) (o : Op) (r : Except Err o.Resp) : Point :=
  match pt, o, r with
  | start request, .consume _, .ok (some state) => if state.userId = request.userId then consumed request state else .finished
  | start request, .findState _, .ok (some state) => if request.picks state then picked request state else .finished
  | consumed request state, .findRestaurant _, .ok _ => consumed request state
  | consumed request state, .exchangeCodeForToken _ _ _, .ok _ => exchanged request state
  | exchanged request state, .discoverStores _ _, .ok stores => discovered request state stores
  | discovered request state stores, .activateStore _ _ _ _, .ok _ => discovered request state stores
  | picked request state, .activateStore _ _ _ _, .ok _ => picked request state
  | _, _, _ => .finished

def Allows : Point → Op → Prop
  | start _, .consume _ => True
  | start request, .findState id => ∃ userId externalStoreId, request = .selectUberEatsStore userId id externalStoreId
  | consumed _ _, .findRestaurant _ => True
  | consumed _ state, .exchangeCodeForToken stateId _ _ => stateId = state.id
  | exchanged _ state, .discoverStores stateId _ => stateId = state.id
  | discovered _ state _, .activateStore stateId _ _ _ => stateId = state.id
  | discovered _ state stores, .activateIntegration stateId input =>
    stateId = state.id ∧ input.restaurantId = state.restaurantId ∧ stores.any (·.externalStoreId = input.externalStoreId) = true
  | discovered _ state stores, .savePendingStoreSelection stateId candidates _ => stateId = state.id ∧ candidates = stores
  | picked _ state, .activateStore stateId _ _ _ => stateId = state.id
  | picked _ state, .activateIntegration stateId input =>
    stateId = state.id ∧ input.restaurantId = state.restaurantId ∧
      state.pendingCandidateStores.any (·.any (·.externalStoreId = input.externalStoreId)) = true
  | _, _ => False

def Rest : Point → Prop
  | picked _ _ => False
  | _ => True

def flow? : Point → Option Id
  | consumed _ state | exchanged _ state | discovered _ state _ => some state.id
  | _ => none

def picked? : Point → Option Id
  | picked _ state => some state.id
  | _ => none

end Point

@[reducible] def connecting : Protocol Op World (Except Err Answer) where
  Point := Point
  Move o a w pt pt' := pt.Allows o ∧ pt' = pt.after o (store.perform o a w).1
  Rest := Point.Rest

section Walk

variable {pt : Point} {request : Request} {state : OAuthConnectState}

theorem follows_step {o : Op} (hAllows : pt.Allows o) {Q : o.Resp → Point → Prop} {E : Err → Point → Prop}
    (hQ : ∀ v, Q v (pt.after o (.ok v))) (hE : ∀ err, E err (pt.after o (.error err))) :
    (Prog.call o : Promise o.Resp).Follows store connecting pt Q E := by
  refine follows_call.mpr fun a w => ⟨_, ⟨hAllows, rfl⟩, ?_⟩
  cases (store.perform o a w).1 with
  | ok v => exact hQ v
  | error err => exact hE err

theorem linkStore_follows {accessToken : AccessToken} {input : ActivateIntegrationInput}
    (hStore : pt.Allows (.activateStore state.id accessToken input.externalStoreId input.restaurantId))
    (hStay : pt.after (.activateStore state.id accessToken input.externalStoreId input.restaurantId) (.ok ()) = pt)
    (hStop : ∀ err, (pt.after (.activateStore state.id accessToken input.externalStoreId input.restaurantId) (.error err)).Rest)
    (hLink : pt.Allows (.activateIntegration state.id input))
    (hLinked : ∀ r, (pt.after (.activateIntegration state.id input) r).Rest) :
    (linkStore state.id accessToken input).Follows store connecting pt (fun _ pt => pt.Rest) fun _ pt => pt.Rest := by
  unfold linkStore
  rw [bind_eq, follows_bind, follows_attempt]
  refine follows_step hStore (fun _ => ?_) fun err => hStop err
  rw [hStay]
  dsimp only
  rw [bind_eq, follows_bind]
  exact follows_step hLink (fun v => hLinked (.ok v)) fun err => hLinked (.error err)

theorem linkDiscovered_follows {businessId userId : Id} {accessToken : AccessToken} {stores : List StoreCandidate} :
    (linkDiscovered state state.restaurantId businessId userId accessToken stores).Follows store connecting
      (.discovered request state stores) (fun _ pt => pt.Rest) fun _ pt => pt.Rest := by
  match stores with
  | [] => exact trivial
  | [only] =>
    exact linkStore_follows rfl rfl (fun _ => trivial) ⟨rfl, rfl, by simp⟩ fun _ => trivial
  | first :: second :: rest =>
    simp only [linkDiscovered]
    rw [bind_eq, follows_bind]
    exact follows_step (o := .savePendingStoreSelection state.id (first :: second :: rest) accessToken) (by exact ⟨rfl, rfl⟩)
      (fun _ => trivial) fun _ => trivial

theorem exchangeAndLink_follows {businessId userId : Id} {code : String} :
    (exchangeAndLink state state.restaurantId businessId userId code).Follows store connecting (.consumed request state)
      (fun _ pt => pt.Rest) fun _ pt => pt.Rest := by
  unfold exchangeAndLink
  rw [bind_eq, follows_bind, follows_attempt]
  refine follows_step (o := .exchangeCodeForToken state.id code state.redirectUri) (by rfl) (fun accessToken => ?_) fun _ => trivial
  dsimp only
  rw [bind_eq, follows_bind, follows_attempt]
  refine follows_step (o := .discoverStores state.id accessToken) (by rfl) (fun stores => ?_) fun _ => trivial
  exact linkDiscovered_follows

theorem completeUberEatsConnect_follows {env : Env} {userId : Id} {token : Token} {code error : Option String} :
    (completeUberEatsConnect env userId token code error).Follows store connecting
      (.start (.completeUberEatsConnect userId token code error)) (fun _ pt => pt.Rest) fun _ pt => pt.Rest := by
  unfold completeUberEatsConnect
  rw [follows_ite]
  refine ⟨fun _ => trivial, fun _ => ?_⟩
  rw [bind_eq, follows_bind]
  refine follows_step (o := .consume token) (by trivial) (fun consumed => ?_) fun _ => trivial
  cases consumed with
  | none => trivial
  | some state =>
    dsimp only
    rw [follows_ite]
    refine ⟨fun hOther => ?_, fun hSame => ?_⟩
    · have hOver : (Point.start (.completeUberEatsConnect userId token code error)).after (.consume token) (.ok (some state)) =
          .finished := if_neg hOther
      rw [hOver]
      trivial
    · have hConsumed : (Point.start (.completeUberEatsConnect userId token code error)).after (.consume token) (.ok (some state)) =
          .consumed (.completeUberEatsConnect userId token code error) state := if_pos (not_not.mp hSame)
      rw [hConsumed]
      split
      · rename_i code' hError hCode
        rw [bind_eq, follows_bind]
        refine follows_call.mpr fun a w => ⟨_, ⟨trivial, rfl⟩, ?_⟩
        cases a with
        | error fault => trivial
        | ok answer =>
          simp only [Op.perform, Point.after]
          cases hFound : w.restaurants.find? (·.id = state.restaurantId) with
          | none => trivial
          | some restaurant =>
            have hId : restaurant.id = state.restaurantId := of_decide_eq_true (List.find?_some hFound :)
            cases hBusiness : restaurant.businessId with
            | none =>
              simp only [Option.bind_some, hBusiness, Option.map_none]
              trivial
            | some businessId =>
              simp only [Option.bind_some, hBusiness, Option.map_some, hId]
              exact exchangeAndLink_follows
      · trivial

theorem candidate_pending {externalStoreId : String} {userId : Id} {candidate : StoreCandidate}
    (h : state.candidate? externalStoreId userId = some candidate) :
    state.pendingCandidateStores.any (·.any (·.externalStoreId = candidate.externalStoreId)) = true := by
  unfold OAuthConnectState.candidate? at h
  split at h
  · cases h
  · obtain ⟨stores, hStores, hFound⟩ := Option.bind_eq_some_iff.mp h
    rw [hStores, Option.any_some, List.any_eq_true]
    exact ⟨candidate, List.mem_of_find?_eq_some hFound, decide_eq_true rfl⟩

theorem selectUberEatsStore_follows {env : Env} {userId stateId : Id} {externalStoreId : String} :
    (selectUberEatsStore env userId stateId externalStoreId).Follows store connecting
      (.start (.selectUberEatsStore userId stateId externalStoreId)) (fun _ pt => pt.Rest) fun _ pt => pt.Rest := by
  unfold selectUberEatsStore
  rw [follows_ite]
  refine ⟨fun _ => trivial, fun _ => ?_⟩
  unfold finalizePendingStoreSelection
  rw [bind_eq, follows_bind, bind_eq, follows_bind]
  refine follows_call.mpr fun a w => ⟨_, ⟨⟨userId, externalStoreId, rfl⟩, rfl⟩, ?_⟩
  cases a with
  | error fault => trivial
  | ok answer =>
    simp only [Op.perform]
    cases hFound : w.states.find? (·.id = stateId) with
    | none => trivial
    | some state =>
      have hId : state.id = stateId := of_decide_eq_true (List.find?_some hFound :)
      cases hCandidate : state.candidate? externalStoreId userId with
      | none =>
        simp only [Point.after, Request.picks, hCandidate, Option.bind_some, Option.map_none, Option.isSome_none, Bool.and_false,
          Bool.false_and, Bool.false_eq_true, if_false]
        trivial
      | some candidate =>
        cases hCredentials : state.pendingCredentials with
        | none =>
          simp only [Point.after, Request.picks, hCandidate, hCredentials, Option.bind_some, Option.map_some, Option.isSome_none,
            Bool.and_false, Bool.false_eq_true, if_false]
          simp only [hCredentials, pure_eq, follows_ret]
          trivial
        | some accessToken =>
          have hPicked : (Point.start (.selectUberEatsStore userId stateId externalStoreId)).after (.findState stateId) (.ok (some state)) =
              .picked (.selectUberEatsStore userId stateId externalStoreId) state :=
            if_pos (by simp [Request.picks, hId, hCandidate, hCredentials])
          rw [hPicked]
          simp only [hCandidate, Option.bind_some, Option.map_some, pure_eq, follows_ret, hCredentials]
          exact linkStore_follows rfl rfl (fun _ => trivial) ⟨rfl, rfl, candidate_pending hCandidate⟩ fun _ => trivial

theorem Request.program_follows (env : Env) (r : Request) :
    (r.program env).Follows store connecting (.start r) (fun _ pt => pt.Rest) fun _ pt => pt.Rest := by
  cases r with
  | completeUberEatsConnect userId state code error => exact completeUberEatsConnect_follows
  | selectUberEatsStore userId stateId externalStoreId => exact selectUberEatsStore_follows

end Walk

/-! ## Runs -/

def OAuthConnectState.terms (state : OAuthConnectState) : Id × Id × Id × Time :=
  (state.id, state.userId, state.restaurantId, state.expiresAt)

/-- Request `t`, of the user of the state, has come to work for it in time. -/
structure Works (requests : List Request) (c : State) (t : Nat) (request : Request) (state : OAuthConnectState) : Prop where
  sent : requests[t]? = some request
  user : state.userId = request.userId
  stored : ∃ stored ∈ c.state.states, stored.terms = state.terms
  inTime : ∃ th w, c.threads[t]? = some th ∧ th.born = some w ∧ w.now ≤ state.expiresAt

def Found (history : List (Entry Op Op.Resp Err)) (stateId : Id) (stores : List StoreCandidate) : Prop :=
  ∀ externalStoreId, stores.any (·.externalStoreId = externalStoreId) = true → ∃ e ∈ history, discovers stateId externalStoreId e = true

def Known (requests : List Request) (c : State) (t : Nat) : Point → Prop
  | .start request => requests[t]? = some request ∧ ∀ th, c.threads[t]? = some th → th.born = none
  | .consumed request state | .exchanged request state => Works requests c t request state
  | .discovered request state stores => Works requests c t request state ∧ Found c.history state.id stores
  | .picked request state =>
    Works requests c t request state ∧ ∀ stores, state.pendingCandidateStores = some stores → Found c.history state.id stores
  | .finished => True

/-- What holds of a stored state: one request consumes it, and links for it unless it
keeps the stores for a selection; then one selection at a time is about to link. -/
structure StateSound (c : State) (pts : List Point) (state : OAuthConnectState) : Prop where
  unused : state.consumedAt = none → state.pendingCandidateStores = none ∧ (∀ pt ∈ pts, pt.flow? ≠ some state.id) ∧
    c.history.countP (exchanges state.id) = 0 ∧ c.history.countP (activates state.id) = 0
  flowing : ∀ pt ∈ pts, pt.flow? = some state.id →
    state.pendingCandidateStores = none ∧ c.history.countP (activates state.id) = 0
  oneFlow : ∀ {t u : Nat} {pt pt' : Point}, pts[t]? = some pt → pts[u]? = some pt' → pt.flow? = some state.id →
    pt'.flow? = some state.id → t = u
  unexchanged : ∀ request consumed, Point.consumed request consumed ∈ pts → consumed.id = state.id →
    c.history.countP (exchanges state.id) = 0
  exchanged : c.history.countP (exchanges state.id) ≤ 1
  picking : ∀ {t : Nat} {pt : Point}, pts[t]? = some pt → pt.picked? = some state.id → state.pendingCandidateStores.isSome = true ∧
    ∀ th, c.threads[t]? = some th → th.stopped = false → c.history.countP (activates state.id) = 0
  onePick : ∀ {t u : Nat} {pt pt' : Point} {th th' : Thread Op Op.Resp Err World Response}, pts[t]? = some pt → pts[u]? = some pt' →
    pt.picked? = some state.id → pt'.picked? = some state.id → c.threads[t]? = some th → c.threads[u]? = some th' →
      th.stopped = false → th'.stopped = false → t = u
  activated : c.history.countP (activates state.id) ≤ 1
  found : ∀ stores, state.pendingCandidateStores = some stores → Found c.history state.id stores

structure Sound (w₀ : World) (requests : List Request) (c : State) (pts : List Point) : Prop where
  ids : (c.state.states.map (·.id)).Nodup
  kept : c.state.states.map (·.terms) = w₀.states.map (·.terms)
  known : ∀ {t : Nat} {pt : Point}, pts[t]? = some pt → Known requests c t pt
  sound : ∀ state ∈ c.state.states, StateSound c pts state
  proper : ∀ state ∈ c.state.states, ∀ t input result, ⟨t, .activateIntegration state.id input, result⟩ ∈ c.history →
    Proper requests c state t input

section Run

variable {w₀ : World} {requests : List Request} {c c' : State} {pts : List Point} {t : Nat} {a : Except Err Answer} {o : Op}
  {th : Thread Op Op.Resp Err World Response} {k : Except Err o.Resp → Promise Response} {pt pt' : Point}
  {state : OAuthConnectState}

theorem Found.cons {history : List (Entry Op Op.Resp Err)} {stateId : Id} {stores : List StoreCandidate} (h : Found history stateId stores)
    (e : Entry Op Op.Resp Err) : Found (e :: history) stateId stores := by
  intro externalStoreId hAny
  obtain ⟨entry, hMem, hDiscovers⟩ := h externalStoreId hAny
  exact ⟨entry, List.mem_cons_of_mem _ hMem, hDiscovers⟩

theorem StateSound.ran (h : StateSound c pts state) (hRan : store.Ran c t a o th k c') (hPoint : pts[t]? = some pt)
    (hFlow : pt'.flow? = some state.id → pt.flow? = some state.id)
    (hConsumed : ∀ request consumed, pt' = .consumed request consumed → consumed.id = state.id → pt = .consumed request consumed)
    (hPick : pt'.picked? = some state.id → pt.picked? = some state.id ∨ state.pendingCandidateStores.isSome = true ∧
      c.history.countP (activates state.id) = 0 ∧ ∀ (u : Nat) (ptU : Point) (thU : Thread Op Op.Resp Err World Response),
        pts[u]? = some ptU → ptU.picked? = some state.id → c.threads[u]? = some thU → thU.stopped = true)
    (hExchange : exchanges state.id ⟨t, o, (store.perform o a c.state).1⟩ = true →
      ∃ request consumed, pt = .consumed request consumed ∧ consumed.id = state.id ∧ ∀ request' consumed', pt' ≠ .consumed request' consumed')
    (hActivate : activates state.id ⟨t, o, (store.perform o a c.state).1⟩ = true →
      (pt.flow? = some state.id ∨ pt.picked? = some state.id) ∧ pt' = .finished) :
    StateSound c' (pts.set t pt') state := by
  have hMemPoint := List.mem_of_getElem? hPoint
  have hExchanges : ¬ exchanges state.id ⟨t, o, (store.perform o a c.state).1⟩ = true →
      c'.history.countP (exchanges state.id) = c.history.countP (exchanges state.id) := by
    intro hNot
    rw [hRan.history, List.countP_cons_of_neg hNot]
  have hActivates : ¬ activates state.id ⟨t, o, (store.perform o a c.state).1⟩ = true →
      c'.history.countP (activates state.id) = c.history.countP (activates state.id) := by
    intro hNot
    rw [hRan.history, List.countP_cons_of_neg hNot]
  have hThread : ∀ {u : Nat} {thU : Thread Op Op.Resp Err World Response}, u ≠ t → c'.threads[u]? = some thU → c.threads[u]? = some thU := by
    intro u thU hNe hThreadU
    rwa [hRan.threads, List.getElem?_set_ne hNe.symm] at hThreadU
  -- a request that links leaves nobody behind who could
  have hLinked : activates state.id ⟨t, o, (store.perform o a c.state).1⟩ = true → c.history.countP (activates state.id) = 0 ∧
      (∀ (u : Nat) (ptU : Point), pts[u]? = some ptU → ptU.flow? = some state.id → u = t) ∧
      ∀ (u : Nat) (ptU : Point) (thU : Thread Op Op.Resp Err World Response), pts[u]? = some ptU →
        ptU.picked? = some state.id → c.threads[u]? = some thU → thU.stopped = false → u = t := by
    intro hAct
    rcases (hActivate hAct).1 with hIn | hIn
    · obtain ⟨hNone, hZero⟩ := h.flowing pt hMemPoint hIn
      refine ⟨hZero, fun u ptU hU hFlowU => h.oneFlow hU hPoint hFlowU hIn, fun u ptU thU hU hPickU _ _ => ?_⟩
      obtain ⟨hSome, -⟩ := h.picking hU hPickU
      rw [hNone] at hSome
      cases hSome
    · obtain ⟨hSome, hZero⟩ := h.picking hPoint hIn
      refine ⟨hZero th hRan.thread hRan.running, fun u ptU hU hFlowU => ?_, fun u ptU thU hU hPickU hThreadU hRunning =>
        h.onePick hU hPoint hPickU hIn hThreadU hRan.thread hRunning hRan.running⟩
      obtain ⟨hNone, -⟩ := h.flowing ptU (List.mem_of_getElem? hU) hFlowU
      rw [hNone] at hSome
      cases hSome
  constructor
  · intro hUnconsumed
    obtain ⟨hNone, hNoFlow, hNoExchange, hNoActivate⟩ := h.unused hUnconsumed
    have hNotExchange : ¬ exchanges state.id ⟨t, o, (store.perform o a c.state).1⟩ = true := by
      intro hEx
      obtain ⟨request, consumed, rfl, hId, -⟩ := hExchange hEx
      exact hNoFlow _ hMemPoint (congrArg some hId)
    have hNotActivate : ¬ activates state.id ⟨t, o, (store.perform o a c.state).1⟩ = true := by
      intro hAct
      rcases (hActivate hAct).1 with hIn | hIn
      · exact hNoFlow _ hMemPoint hIn
      · have hSome := (h.picking hPoint hIn).1
        rw [hNone] at hSome
        cases hSome
    refine ⟨hNone, fun ptU hU hFlowU => ?_, (hExchanges hNotExchange).trans hNoExchange, (hActivates hNotActivate).trans hNoActivate⟩
    rcases List.mem_or_eq_of_mem_set hU with hOld | rfl
    · exact hNoFlow ptU hOld hFlowU
    · exact hNoFlow pt hMemPoint (hFlow hFlowU)
  · intro ptU hU hFlowU
    have hOld : ∃ ptO, pts[t]? = some pt ∧ ptO ∈ pts ∧ ptO.flow? = some state.id := by
      rcases List.mem_or_eq_of_mem_set hU with hOld | rfl
      · exact ⟨ptU, hPoint, hOld, hFlowU⟩
      · exact ⟨pt, hPoint, hMemPoint, hFlow hFlowU⟩
    obtain ⟨ptO, -, hMemO, hFlowO⟩ := hOld
    obtain ⟨hNone, hZero⟩ := h.flowing ptO hMemO hFlowO
    refine ⟨hNone, ?_⟩
    by_cases hAct : activates state.id ⟨t, o, (store.perform o a c.state).1⟩ = true
    · exfalso
      obtain ⟨-, hAlone, -⟩ := hLinked hAct
      obtain ⟨u, hIndex⟩ := List.getElem?_of_mem hU
      rcases Tables.getElem?_set_cases hIndex with ⟨rfl, rfl⟩ | ⟨hNe, hOld⟩
      · rw [(hActivate hAct).2] at hFlowU
        cases hFlowU
      · exact hNe (hAlone u ptU hOld hFlowU)
    · rw [hActivates hAct]
      exact hZero
  · intro u v ptU ptV hU hV hFlowU hFlowV
    have hOld : ∀ {x : Nat} {ptX : Point}, (pts.set t pt')[x]? = some ptX → ptX.flow? = some state.id →
        ∃ ptO, pts[x]? = some ptO ∧ ptO.flow? = some state.id := by
      intro x ptX hX hFlowX
      rcases Tables.getElem?_set_cases hX with ⟨rfl, rfl⟩ | ⟨-, hOldX⟩
      · exact ⟨pt, hPoint, hFlow hFlowX⟩
      · exact ⟨ptX, hOldX, hFlowX⟩
    obtain ⟨ptU', hU', hFlowU'⟩ := hOld hU hFlowU
    obtain ⟨ptV', hV', hFlowV'⟩ := hOld hV hFlowV
    exact h.oneFlow hU' hV' hFlowU' hFlowV'
  · intro request consumed hU hId
    obtain ⟨u, hIndex⟩ := List.getElem?_of_mem hU
    by_cases hEx : exchanges state.id ⟨t, o, (store.perform o a c.state).1⟩ = true
    · exfalso
      obtain ⟨request', consumed', rfl, hId', hGone⟩ := hExchange hEx
      rcases Tables.getElem?_set_cases hIndex with ⟨rfl, hNew⟩ | ⟨hNe, hOld⟩
      · exact hGone _ _ hNew.symm
      · exact hNe (h.oneFlow hOld hPoint (congrArg some hId) (congrArg some hId'))
    · rw [hExchanges hEx]
      rcases Tables.getElem?_set_cases hIndex with ⟨rfl, hNew⟩ | ⟨-, hOld⟩
      · exact h.unexchanged request consumed (hConsumed request consumed hNew.symm hId ▸ hMemPoint) hId
      · exact h.unexchanged request consumed (List.mem_of_getElem? hOld) hId
  · by_cases hEx : exchanges state.id ⟨t, o, (store.perform o a c.state).1⟩ = true
    · obtain ⟨request, consumed, rfl, hId, -⟩ := hExchange hEx
      rw [hRan.history, List.countP_cons_of_pos hEx, h.unexchanged request consumed hMemPoint hId]
    · rw [hExchanges hEx]
      exact h.exchanged
  · intro u ptU hU hPickU
    rcases Tables.getElem?_set_cases hU with ⟨rfl, rfl⟩ | ⟨hNe, hOld⟩
    · have hNotAct : ¬ activates state.id ⟨u, o, (store.perform o a c.state).1⟩ = true := by
        intro hAct
        rw [(hActivate hAct).2] at hPickU
        cases hPickU
      rw [hActivates hNotAct]
      rcases hPick hPickU with hWas | ⟨hSome, hZero, -⟩
      · obtain ⟨hSome, hZero⟩ := h.picking hPoint hWas
        exact ⟨hSome, fun _ _ _ => hZero th hRan.thread hRan.running⟩
      · exact ⟨hSome, fun _ _ _ => hZero⟩
    · obtain ⟨hSome, hZero⟩ := h.picking hOld hPickU
      refine ⟨hSome, fun thU hThreadU hRunning => ?_⟩
      by_cases hAct : activates state.id ⟨t, o, (store.perform o a c.state).1⟩ = true
      · obtain ⟨-, -, hAlone⟩ := hLinked hAct
        exact absurd (hAlone u ptU thU hOld hPickU (hThread hNe hThreadU) hRunning) hNe
      · rw [hActivates hAct]
        exact hZero thU (hThread hNe hThreadU) hRunning
  · intro u v ptU ptV thU thV hU hV hPickU hPickV hThreadU hThreadV hRunningU hRunningV
    -- the request that has moved is the only one
    have hOnly : ∀ {x : Nat} {ptX : Point} {thX : Thread Op Op.Resp Err World Response}, x ≠ t → pts[x]? = some ptX →
        ptX.picked? = some state.id → c'.threads[x]? = some thX → thX.stopped = false → pt'.picked? ≠ some state.id := by
      intro x ptX thX hNe hX hPickX hThreadX hRunningX hPickT
      rcases hPick hPickT with hWas | ⟨-, -, hStopped⟩
      · exact hNe (h.onePick hX hPoint hPickX hWas (hThread hNe hThreadX) hRan.thread hRunningX hRan.running)
      · rw [hStopped x ptX thX hX hPickX (hThread hNe hThreadX)] at hRunningX
        cases hRunningX
    rcases Tables.getElem?_set_cases hU with ⟨rfl, rfl⟩ | ⟨hNeU, hOldU⟩
    · rcases Tables.getElem?_set_cases hV with ⟨rfl, rfl⟩ | ⟨hNeV, hOldV⟩
      · rfl
      · exact absurd hPickU (hOnly hNeV hOldV hPickV hThreadV hRunningV)
    · rcases Tables.getElem?_set_cases hV with ⟨rfl, rfl⟩ | ⟨hNeV, hOldV⟩
      · exact absurd hPickV (hOnly hNeU hOldU hPickU hThreadU hRunningU)
      · exact h.onePick hOldU hOldV hPickU hPickV (hThread hNeU hThreadU) (hThread hNeV hThreadV) hRunningU hRunningV
  · by_cases hAct : activates state.id ⟨t, o, (store.perform o a c.state).1⟩ = true
    · rw [hRan.history, List.countP_cons_of_pos hAct, (hLinked hAct).1]
    · rw [hActivates hAct]
      exact h.activated
  · intro stores hStores
    rw [hRan.history]
    exact (h.found stores hStores).cons _

theorem terms_perform {w : World} : (store.perform o a w).2.states.map (·.terms) = w.states.map (·.terms) := by
  cases a with
  | error fault => rfl
  | ok answer =>
    cases o with
    | consume token =>
      simp only [Op.perform]
      split
      · rfl
      · exact Tables.map_update_eq OAuthConnectState.terms fun _ => rfl
    | savePendingStoreSelection stateId candidates credentials => exact Tables.map_update_eq OAuthConnectState.terms fun _ => rfl
    | _ => rfl

theorem ids_of_terms {states states' : List OAuthConnectState} (h : states'.map (·.terms) = states.map (·.terms)) :
    states'.map (·.id) = states.map (·.id) := by
  have hIds : ∀ l : List OAuthConnectState, l.map (·.id) = (l.map (·.terms)).map (·.1) := by
    intro l
    rw [List.map_map]
    rfl
  rw [hIds, hIds, h]

theorem exists_of_terms {states states' : List OAuthConnectState} (h : states'.map (·.terms) = states.map (·.terms))
    (hMem : state ∈ states) : ∃ state' ∈ states', state'.terms = state.terms := by
  have hTerms : state.terms ∈ states'.map (·.terms) := by
    rw [h]
    exact List.mem_map_of_mem hMem
  obtain ⟨state', hMem', hEq⟩ := List.mem_map.mp hTerms
  exact ⟨state', hMem', hEq⟩

theorem Works.ran {request : Request} {u : Nat} (h : Works requests c u request state) (hRan : store.Ran c t a o th k c') :
    Works requests c' u request state := by
  obtain ⟨hSent, hUser, ⟨stored, hMem, hSame⟩, thU, w, hThread, hBorn, hInTime⟩ := h
  have hTerms : c'.state.states.map (·.terms) = c.state.states.map (·.terms) := by
    rw [hRan.state]
    exact terms_perform
  obtain ⟨stored', hMem', hSame'⟩ := exists_of_terms hTerms hMem
  obtain ⟨thU', hThread', hBorn'⟩ := hRan.born hThread hBorn
  exact ⟨hSent, hUser, ⟨stored', hMem', hSame'.trans hSame⟩, thU', w, hThread', hBorn', hInTime⟩

theorem Proper.ran {u : Nat} {input : ActivateIntegrationInput} (h : Proper requests c state u input)
    (hRan : store.Ran c t a o th k c') : Proper requests c' state u input := by
  obtain ⟨hUser, hRestaurant, ⟨e, hMem, hDiscovers⟩, thU, w, hThread, hBorn, hInTime⟩ := h
  obtain ⟨thU', hThread', hBorn'⟩ := hRan.born hThread hBorn
  refine ⟨hUser, hRestaurant, ⟨e, ?_, hDiscovers⟩, thU', w, hThread', hBorn', hInTime⟩
  rw [hRan.history]
  exact List.mem_cons_of_mem _ hMem

theorem Proper.of_terms {u : Nat} {input : ActivateIntegrationInput} {stored : OAuthConnectState}
    (h : Proper requests c stored u input) (hTerms : stored.terms = state.terms) : Proper requests c state u input := by
  obtain ⟨hUser, hRestaurant, hDiscovered, hInTime⟩ := h
  obtain ⟨hId, hUserId, hRestaurantId, hExpires⟩ : stored.id = state.id ∧ stored.userId = state.userId ∧
      stored.restaurantId = state.restaurantId ∧ stored.expiresAt = state.expiresAt := by
    simpa only [OAuthConnectState.terms, Prod.mk.injEq] using hTerms
  rw [hUserId] at hUser
  rw [hRestaurantId] at hRestaurant
  rw [hId] at hDiscovered
  rw [hExpires] at hInTime
  exact ⟨hUser, hRestaurant, hDiscovered, hInTime⟩

theorem Known.ran {u : Nat} {ptU : Point} (h : Known requests c u ptU) (hRan : store.Ran c t a o th k c') (hNe : u ≠ t) :
    Known requests c' u ptU := by
  cases ptU with
  | start request =>
    refine ⟨h.1, fun thU hThread => h.2 thU ?_⟩
    rwa [hRan.threads, List.getElem?_set_ne hNe.symm] at hThread
  | consumed request state => exact Works.ran h hRan
  | exchanged request state => exact Works.ran h hRan
  | discovered request state stores =>
    refine ⟨h.1.ran hRan, ?_⟩
    rw [hRan.history]
    exact h.2.cons _
  | picked request state =>
    refine ⟨h.1.ran hRan, fun stores hStores => ?_⟩
    rw [hRan.history]
    exact (h.2 stores hStores).cons _
  | finished => trivial

theorem Works.of_start {request : Request} {found : OAuthConnectState} (h : Known requests c t (.start request))
    (hRan : store.Ran c t a o th k c') (hMem : found ∈ c.state.states) (hUser : found.userId = request.userId)
    (hInTime : c.state.now ≤ found.expiresAt) (hTerms : state.terms = found.terms) : Works requests c' t request state := by
  obtain ⟨hSent, hUnborn⟩ := h
  have hStates : c'.state.states.map (·.terms) = c.state.states.map (·.terms) := by
    rw [hRan.state]
    exact terms_perform
  obtain ⟨stored, hMem', hSame⟩ := exists_of_terms hStates hMem
  obtain ⟨-, hUserId, -, hExpires⟩ : state.id = found.id ∧ state.userId = found.userId ∧
      state.restaurantId = found.restaurantId ∧ state.expiresAt = found.expiresAt := by
    simpa only [OAuthConnectState.terms, Prod.mk.injEq] using hTerms
  have hThread : c'.threads[t]? = some ⟨k (store.perform o a c.state).1, false, some c.state⟩ := by
    rw [hRan.threads, hUnborn th hRan.thread]
    exact Tables.getElem?_set_eq hRan.thread
  exact ⟨hSent, hUserId.trans hUser, ⟨stored, hMem', hSame.trans hTerms.symm⟩, _, c.state, hThread, rfl, hExpires ▸ hInTime⟩

inductive Moved (w : World) (o : Op) (a : Except Err Answer) : Point → Point → Prop
  | finished {pt : Point} : Moved w o a pt .finished
  | onward {pt pt' : Point} (hFlow : pt'.flow? = pt.flow?) (hPicked : pt'.picked? = pt.picked?)
      (hConsumed : ∀ request consumed, pt' = .consumed request consumed → pt = pt') : Moved w o a pt pt'
  | took {request : Request} {found : OAuthConnectState} (token : Token) (answer : Answer) (hOp : o = .consume token)
      (hAnswer : a = .ok answer) (hFound : w.states.find? (w.consumable token) = some found) :
      Moved w o a (.start request) (.consumed request (found.consumed w.now))
  | chose {request : Request} {found : OAuthConnectState} (id : Id) (hOp : o = .findState id)
      (hFound : w.states.find? (·.id = id) = some found) (hPicks : request.picks found = true) :
      Moved w o a (.start request) (.picked request found)

theorem Moved.of_after {w : World} : Moved w o a pt (pt.after o (store.perform o a w).1) := by
  cases pt with
  | start request =>
    cases o with
    | consume token =>
      cases a with
      | error fault => exact .finished
      | ok answer =>
        cases hFound : w.states.find? (w.consumable token) with
        | none =>
          simp only [Op.perform, hFound]
          exact .finished
        | some found =>
          simp only [Op.perform, hFound, Point.after]
          split
          · exact .took token answer rfl rfl hFound
          · exact .finished
    | findState id =>
      cases a with
      | error fault => exact .finished
      | ok answer =>
        cases hFound : w.states.find? (·.id = id) with
        | none =>
          simp only [Op.perform, hFound]
          exact .finished
        | some found =>
          simp only [Op.perform, hFound, Point.after]
          split
          · rename_i hPicks
            exact .chose id rfl hFound hPicks
          · exact .finished
    | _ => exact .finished
  | consumed request state =>
    cases o with
    | findRestaurant id =>
      cases a with
      | error fault => exact .finished
      | ok answer => exact .onward rfl rfl fun _ _ _ => rfl
    | exchangeCodeForToken stateId code redirectUri =>
      cases a with
      | error fault => exact .finished
      | ok answer => exact .onward rfl rfl fun _ _ hEq => by cases hEq
    | _ => exact .finished
  | exchanged request state =>
    cases o with
    | discoverStores stateId accessToken =>
      cases a with
      | error fault => exact .finished
      | ok answer => exact .onward rfl rfl fun _ _ hEq => by cases hEq
    | _ => exact .finished
  | discovered request state stores =>
    cases o with
    | activateStore stateId accessToken externalStoreId restaurantId =>
      cases a with
      | error fault => exact .finished
      | ok answer => exact .onward rfl rfl fun _ _ hEq => by cases hEq
    | _ => exact .finished
  | picked request state =>
    cases o with
    | activateStore stateId accessToken externalStoreId restaurantId =>
      cases a with
      | error fault => exact .finished
      | ok answer => exact .onward rfl rfl fun _ _ hEq => by cases hEq
    | _ => exact .finished
  | finished => exact .finished

theorem exchanges_of_allows (stateId : Id) (hAllows : pt.Allows o)
    (h : exchanges stateId ⟨t, o, (store.perform o a c.state).1⟩ = true) :
    ∃ request consumed, pt = .consumed request consumed ∧ consumed.id = stateId ∧
      ∀ request' consumed', pt.after o (store.perform o a c.state).1 ≠ .consumed request' consumed' := by
  cases o with
  | exchangeCodeForToken id code redirectUri =>
    have hId : id = stateId := of_decide_eq_true h
    cases pt with
    | consumed request state =>
      have hState : id = state.id := hAllows
      refine ⟨request, state, rfl, hState.symm.trans hId, fun request' consumed' => ?_⟩
      cases a <;> simp [Point.after, Op.perform]
    | _ => cases hAllows
  | _ => cases h

theorem activates_of_allows (stateId : Id) (hAllows : pt.Allows o)
    (h : activates stateId ⟨t, o, (store.perform o a c.state).1⟩ = true) :
    (pt.flow? = some stateId ∨ pt.picked? = some stateId) ∧ pt.after o (store.perform o a c.state).1 = .finished := by
  cases o with
  | activateIntegration id input =>
    have hId : id = stateId := of_decide_eq_true h
    cases pt with
    | discovered request state stores =>
      have hState : id = state.id := hAllows.1
      exact ⟨.inl (congrArg some (hState.symm.trans hId)), rfl⟩
    | picked request state =>
      have hState : id = state.id := hAllows.1
      exact ⟨.inr (congrArg some (hState.symm.trans hId)), rfl⟩
    | _ => cases hAllows
  | _ => cases h

theorem StateSound.took {found : OAuthConnectState} {request : Request} {token : Token}
    {k : Except Err (Option OAuthConnectState) → Promise Response} (h : StateSound c pts found)
    (hUnconsumed : found.consumedAt = none) (hRan : store.Ran c t a (.consume token) th k c')
    (hPoint : pts[t]? = some (.start request)) :
    StateSound c' (pts.set t (.consumed request (found.consumed c.state.now))) (found.consumed c.state.now) := by
  obtain ⟨hNone, hNoFlow, hNoExchange, hNoActivate⟩ := h.unused hUnconsumed
  have hExchanges : c'.history.countP (exchanges found.id) = 0 := by
    rw [hRan.history, List.countP_cons_of_neg (by simp [exchanges])]
    exact hNoExchange
  have hActivates : c'.history.countP (activates found.id) = 0 := by
    rw [hRan.history, List.countP_cons_of_neg (by simp [activates])]
    exact hNoActivate
  have hOnly : ∀ {u : Nat} {ptU : Point}, (pts.set t (.consumed request (found.consumed c.state.now)))[u]? = some ptU →
      ptU.flow? = some found.id → u = t := by
    intro u ptU hU hFlowU
    rcases Tables.getElem?_set_cases hU with ⟨rfl, -⟩ | ⟨-, hOld⟩
    · rfl
    · exact absurd hFlowU (hNoFlow ptU (List.mem_of_getElem? hOld))
  have hNoPick : ∀ {u : Nat} {ptU : Point}, (pts.set t (.consumed request (found.consumed c.state.now)))[u]? = some ptU →
      ptU.picked? ≠ some found.id := by
    intro u ptU hU hPickU
    rcases Tables.getElem?_set_cases hU with ⟨rfl, rfl⟩ | ⟨-, hOld⟩
    · cases hPickU
    · have hSome := (h.picking hOld hPickU).1
      rw [hNone] at hSome
      cases hSome
  constructor
  · intro hNot
    cases hNot
  · exact fun _ _ _ => ⟨hNone, hActivates⟩
  · intro u v ptU ptV hU hV hFlowU hFlowV
    rw [hOnly hU hFlowU, hOnly hV hFlowV]
  · exact fun _ _ _ _ => hExchanges
  · exact hExchanges.trans_le (Nat.zero_le 1)
  · intro u ptU hU hPickU
    exact absurd hPickU (hNoPick hU)
  · intro u v ptU ptV thU thV hU _ hPickU _ _ _ _ _
    exact absurd hPickU (hNoPick hU)
  · exact hActivates.trans_le (Nat.zero_le 1)
  · intro stores hStores
    cases hNone.symm.trans hStores

theorem StateSound.pending {stored consumed : OAuthConnectState} {request : Request} {stores : List StoreCandidate}
    {credentials : AccessToken} {k : Except Err Unit → Promise Response} (h : StateSound c pts stored)
    (hRan : store.Ran c t a (.savePendingStoreSelection stored.id stores credentials) th k c')
    (hPoint : pts[t]? = some (.discovered request consumed stores)) (hId : consumed.id = stored.id)
    (hFound : Found c.history stored.id stores) :
    StateSound c' (pts.set t .finished) (stored.withPending stores credentials) := by
  have hFlowing : (Point.discovered request consumed stores).flow? = some stored.id := congrArg some hId
  obtain ⟨hNone, hNoActivate⟩ := h.flowing _ (List.mem_of_getElem? hPoint) hFlowing
  have hNoFlow : ∀ {u : Nat} {ptU : Point}, (pts.set t .finished)[u]? = some ptU → ptU.flow? ≠ some stored.id := by
    intro u ptU hU hFlowU
    rcases Tables.getElem?_set_cases hU with ⟨rfl, rfl⟩ | ⟨hNe, hOld⟩
    · cases hFlowU
    · exact hNe (h.oneFlow hOld hPoint hFlowU hFlowing)
  have hNoPick : ∀ {u : Nat} {ptU : Point}, (pts.set t .finished)[u]? = some ptU → ptU.picked? ≠ some stored.id := by
    intro u ptU hU hPickU
    rcases Tables.getElem?_set_cases hU with ⟨rfl, rfl⟩ | ⟨-, hOld⟩
    · cases hPickU
    · have hSome := (h.picking hOld hPickU).1
      rw [hNone] at hSome
      cases hSome
  constructor
  · intro hUnconsumed
    exact absurd hFlowing ((h.unused hUnconsumed).2.1 _ (List.mem_of_getElem? hPoint))
  · intro ptU hU hFlowU
    obtain ⟨u, hIndex⟩ := List.getElem?_of_mem hU
    exact absurd hFlowU (hNoFlow hIndex)
  · intro u v ptU ptV hU _ hFlowU _
    exact absurd hFlowU (hNoFlow hU)
  · intro request' consumed' hU hConsumed
    obtain ⟨u, hIndex⟩ := List.getElem?_of_mem hU
    exact absurd (congrArg some hConsumed) (hNoFlow hIndex)
  · rw [hRan.history, List.countP_cons_of_neg (by simp [exchanges])]
    exact h.exchanged
  · intro u ptU hU hPickU
    exact absurd hPickU (hNoPick hU)
  · intro u v ptU ptV thU thV hU _ hPickU _ _ _ _ _
    exact absurd hPickU (hNoPick hU)
  · rw [hRan.history, List.countP_cons_of_neg (by simp [activates])]
    exact hNoActivate.trans_le (Nat.zero_le 1)
  · intro stores' hStores
    cases hStores
    rw [hRan.history]
    exact hFound.cons _

inductive Written (w : World) (o : Op) (a : Except Err Answer) (state : OAuthConnectState) : Prop
  | kept (hMem : state ∈ w.states)
  | consumed (token : Token) (found : OAuthConnectState) (answer : Answer) (hOp : o = .consume token) (hAnswer : a = .ok answer)
      (hFound : w.states.find? (w.consumable token) = some found) (hState : state = found.consumed w.now)
  | pending (stored : OAuthConnectState) (candidates : List StoreCandidate) (credentials : AccessToken)
      (hOp : o = .savePendingStoreSelection stored.id candidates credentials) (hMem : stored ∈ w.states)
      (hState : state = stored.withPending candidates credentials)

theorem written_of_mem {w : World} (hIds : (w.states.map (·.id)).Nodup) (h : state ∈ (store.perform o a w).2.states) :
    Written w o a state := by
  cases a with
  | error fault => exact .kept h
  | ok answer =>
    cases o with
    | consume token =>
      simp only [Op.perform] at h
      split at h
      · exact .kept h
      · rename_i found hFound
        obtain ⟨stored, hMem, rfl⟩ := Tables.mem_update.mp h
        split
        · rename_i hId
          rw [Tables.eq_of_id hIds hMem (List.mem_of_find?_eq_some hFound) (of_decide_eq_true hId)]
          exact .consumed token found answer rfl rfl hFound rfl
        · exact .kept hMem
    | savePendingStoreSelection stateId candidates credentials =>
      obtain ⟨stored, hMem, rfl⟩ := Tables.mem_update.mp h
      split
      · rename_i hId
        rw [← of_decide_eq_true hId]
        exact .pending stored candidates credentials rfl hMem rfl
      · exact .kept hMem
    | _ => exact .kept h

theorem consumable_unconsumed {w : World} {token : Token} {found : OAuthConnectState}
    (hFound : w.states.find? (w.consumable token) = some found) : found.consumedAt = none := by
  have hConsumable : w.consumable token found = true := List.find?_some hFound
  exact Option.isNone_iff_eq_none.mp (Bool.and_eq_true_iff.mp (Bool.and_eq_true_iff.mp hConsumable).1).2

theorem not_mem_of_consume {w : World} {token : Token} {answer : Answer} {found : OAuthConnectState} (hIds : (w.states.map (·.id)).Nodup)
    (hFound : w.states.find? (w.consumable token) = some found) :
    found ∉ (store.perform (.consume token) (.ok answer) w).2.states := by
  intro hMem
  simp only [Op.perform, hFound] at hMem
  obtain ⟨stored, hStored, hEq⟩ := Tables.mem_update.mp hMem
  split at hEq
  · rename_i hId
    have hSame := Tables.eq_of_id hIds hStored (List.mem_of_find?_eq_some hFound) (of_decide_eq_true hId)
    have hConsumed := consumable_unconsumed hFound
    rw [hEq] at hConsumed
    cases hConsumed
  · rename_i hNe
    rw [hEq] at hNe
    exact hNe (decide_eq_true rfl)

theorem StateSound.spent {now : Time} (h : StateSound c pts state) : StateSound c pts (state.consumed now) := by
  refine ⟨fun hNot => ?_, h.flowing, h.oneFlow, h.unexchanged, h.exchanged, h.picking, h.onePick, h.activated, h.found⟩
  cases hNot

theorem picksInTurn_run {userId stateId : Id} {externalStoreId : String} (h : picksInTurn requests c (.run t a) = true)
    (hWaiting : c.waiting? t = some (.findState state.id))
    (hSent : requests[t]? = some (.selectUberEatsStore userId stateId externalStoreId)) (hMem : state ∈ c.state.states)
    (hCandidate : (state.candidate? externalStoreId userId).isSome = true) :
    c.state.now ≤ state.expiresAt ∧ (∀ o ∈ c.waiting, o.links? ≠ some state.id) ∧ c.history.countP (activates state.id) = 0 := by
  simp only [picksInTurn, hWaiting, hSent, List.all_eq_true, Bool.or_eq_true, Bool.and_eq_true, decide_eq_true_eq,
    Option.isNone_iff_eq_none, Bool.not_eq_true', List.any_eq_false] at h
  rcases h state hMem with (hNe | hNone) | ⟨⟨hInTime, hAlone⟩, hNew⟩
  · exact absurd rfl hNe
  · rw [hNone] at hCandidate
    cases hCandidate
  · exact ⟨hInTime, hAlone, List.countP_eq_zero.mpr hNew⟩

instance : Nonempty World := ⟨{}⟩

instance : Nonempty (Except Err Answer) := ⟨.ok {}⟩

theorem waiting_of_picked (hTracks : Tracks store connecting (requests.map Point.start) c pts) {u : Nat} {ptU : Point} {stateId : Id}
    {thU : Thread Op Op.Resp Err World Response} (hPoint : pts[u]? = some ptU) (hPicked : ptU.picked? = some stateId)
    (hThread : c.threads[u]? = some thU) (hRunning : thU.stopped = false) : ∃ o ∈ c.waiting, o.links? = some stateId := by
  cases ptU with
  | picked request state =>
    cases hPicked
    obtain ⟨o, hWaiting, _, _, _, hAllows, -⟩ := hTracks.waiting hThread hPoint hRunning id
    refine ⟨o, Config.mem_waiting hWaiting, ?_⟩
    cases o with
    | activateStore stateId accessToken externalStoreId restaurantId => exact congrArg some hAllows
    | activateIntegration stateId input => exact congrArg some hAllows.1
    | _ => cases hAllows
  | _ => cases hPicked

theorem Request.picks_cases {request : Request} (h : request.picks state = true) :
    ∃ userId stateId externalStoreId, request = .selectUberEatsStore userId stateId externalStoreId ∧
      (state.candidate? externalStoreId userId).isSome = true ∧ state.userId = userId ∧ state.pendingCandidateStores.isSome = true := by
  cases request with
  | completeUberEatsConnect => cases h
  | selectUberEatsStore userId stateId externalStoreId =>
    simp only [Request.picks, Bool.and_eq_true] at h
    obtain ⟨⟨-, hCandidate⟩, -⟩ := h
    refine ⟨userId, stateId, externalStoreId, rfl, hCandidate, ?_⟩
    unfold OAuthConnectState.candidate? at hCandidate
    split at hCandidate
    · cases hCandidate
    · rename_i hUser
      refine ⟨not_not.mp hUser, ?_⟩
      cases hPending : state.pendingCandidateStores with
      | none =>
        rw [hPending] at hCandidate
        cases hCandidate
      | some stores => rfl

theorem Sound.known_after (h : Sound w₀ requests c pts) (hGuard : picksInTurn requests c (.run t a) = true)
    (hRan : store.Ran c t a o th k c') (hPoint : pts[t]? = some pt) (hAllows : pt.Allows o) :
    Known requests c' t (pt.after o (store.perform o a c.state).1) := by
  have hKnown := h.known hPoint
  cases pt with
  | start request =>
    cases o with
    | consume token =>
      cases a with
      | error fault => trivial
      | ok answer =>
        cases hFound : c.state.states.find? (c.state.consumable token) with
        | none =>
          simp only [Op.perform, hFound]
          trivial
        | some found =>
          simp only [Op.perform, hFound, Point.after]
          split
          · rename_i hUser
            have hConsumable : c.state.consumable token found = true := List.find?_some hFound
            have hInTime : c.state.now < found.expiresAt := of_decide_eq_true (Bool.and_eq_true_iff.mp hConsumable).2
            exact Works.of_start hKnown hRan (List.mem_of_find?_eq_some hFound) hUser (le_of_lt hInTime) rfl
          · trivial
    | findState stateId =>
      cases a with
      | error fault => trivial
      | ok answer =>
        cases hFound : c.state.states.find? (·.id = stateId) with
        | none =>
          simp only [Op.perform, hFound]
          trivial
        | some found =>
          simp only [Op.perform, hFound, Point.after]
          split
          · rename_i hPicks
            have hMem := List.mem_of_find?_eq_some hFound
            have hId : found.id = stateId := of_decide_eq_true (List.find?_some hFound :)
            obtain ⟨userId, stateId', externalStoreId, rfl, hCandidate, hUser, -⟩ := Request.picks_cases hPicks
            subst hId
            obtain ⟨hInTime, -, -⟩ := picksInTurn_run hGuard hRan.waiting? hKnown.1 hMem hCandidate
            refine ⟨Works.of_start hKnown hRan hMem hUser hInTime rfl, fun stores hStores => ?_⟩
            rw [hRan.history]
            exact ((h.sound found hMem).found stores hStores).cons _
          · trivial
    | _ => trivial
  | consumed request state =>
    cases o with
    | findRestaurant id =>
      cases a with
      | error fault => trivial
      | ok answer => exact Works.ran hKnown hRan
    | exchangeCodeForToken stateId code redirectUri =>
      cases a with
      | error fault => trivial
      | ok answer => exact Works.ran hKnown hRan
    | _ => trivial
  | exchanged request state =>
    cases o with
    | discoverStores stateId accessToken =>
      cases a with
      | error fault => trivial
      | ok answer =>
        have hId : stateId = state.id := hAllows
        refine ⟨Works.ran hKnown hRan, fun externalStoreId hAny => ⟨⟨t, .discoverStores stateId accessToken, .ok answer.stores⟩, ?_, ?_⟩⟩
        · rw [hRan.history]
          exact List.mem_cons_self
        · simp only [discovers, hId, decide_true, Bool.true_and]
          exact hAny
    | _ => trivial
  | discovered request state stores =>
    cases o with
    | activateStore stateId accessToken externalStoreId restaurantId =>
      cases a with
      | error fault => trivial
      | ok answer =>
        refine ⟨hKnown.1.ran hRan, ?_⟩
        rw [hRan.history]
        exact hKnown.2.cons _
    | _ => trivial
  | picked request state =>
    cases o with
    | activateStore stateId accessToken externalStoreId restaurantId =>
      cases a with
      | error fault => trivial
      | ok answer =>
        refine ⟨hKnown.1.ran hRan, fun stores hStores => ?_⟩
        rw [hRan.history]
        exact (hKnown.2 stores hStores).cons _
    | _ => trivial
  | finished => trivial

theorem Sound.state_ran (h : Sound w₀ requests c pts) (hTracks : Tracks store connecting (requests.map Point.start) c pts)
    (hGuard : picksInTurn requests c (.run t a) = true) (hRan : store.Ran c t a o th k c') (hPoint : pts[t]? = some pt)
    (hAllows : pt.Allows o) (hMem : state ∈ c'.state.states) :
    StateSound c' (pts.set t (pt.after o (store.perform o a c.state).1)) state := by
  have hKnown := h.known hPoint
  -- a step that does not consume the state itself
  have hStays : ∀ {stored : OAuthConnectState}, stored ∈ c.state.states →
      (∀ (found : OAuthConnectState) (token : Token) (answer : Answer), o = .consume token → a = .ok answer →
        c.state.states.find? (c.state.consumable token) = some found → found.id = stored.id →
          pt.after o (store.perform o a c.state).1 = .finished) →
      StateSound c' (pts.set t (pt.after o (store.perform o a c.state).1)) stored := by
    intro stored hStored hNotTaken
    have hMoved : Moved c.state o a pt (pt.after o (store.perform o a c.state).1) := .of_after
    have hExchange := fun stateId => exchanges_of_allows (t := t) (c := c) (a := a) stateId hAllows
    have hActivate := fun stateId => activates_of_allows (t := t) (c := c) (a := a) stateId hAllows
    generalize pt.after o (store.perform o a c.state).1 = pt' at hMoved hExchange hActivate hNotTaken ⊢
    refine (h.sound stored hStored).ran hRan hPoint ?_ ?_ ?_ (hExchange stored.id) (hActivate stored.id)
    · intro hFlow
      cases hMoved with
      | finished => cases hFlow
      | onward hSame => exact hSame ▸ hFlow
      | took token answer hOp hAnswer hFound => cases hNotTaken _ token answer hOp hAnswer hFound (Option.some.inj hFlow)
      | chose => cases hFlow
    · intro request consumed hEq hId
      cases hMoved with
      | finished => cases hEq
      | onward _ _ hConsumed => exact (hConsumed request consumed hEq).trans hEq
      | took token answer hOp hAnswer hFound =>
        cases hEq
        cases hNotTaken _ token answer hOp hAnswer hFound hId
      | chose => cases hEq
    · intro hPicked
      cases hMoved with
      | finished => cases hPicked
      | onward _ hSame => exact .inl (hSame ▸ hPicked)
      | took => cases hPicked
      | @chose request found id hOp hFound hPicks =>
        right
        have hFoundId : found.id = id := of_decide_eq_true (List.find?_some hFound :)
        have hSame := Tables.eq_of_id h.ids (List.mem_of_find?_eq_some hFound) hStored (Option.some.inj hPicked)
        subst hSame hOp hFoundId
        obtain ⟨userId, stateId, externalStoreId, rfl, hCandidate, -, hPending⟩ := Request.picks_cases hPicks
        obtain ⟨-, hAlone, hNew⟩ := picksInTurn_run hGuard hRan.waiting? hKnown.1 hStored hCandidate
        refine ⟨hPending, hNew, fun u ptU thU hU hPickedU hThreadU => ?_⟩
        cases hStopped : thU.stopped with
        | true => rfl
        | false =>
          obtain ⟨o', hWaiting, hLinks⟩ := waiting_of_picked hTracks hU hPickedU hThreadU hStopped
          exact absurd hLinks (hAlone o' hWaiting)
  rw [hRan.state] at hMem
  cases written_of_mem h.ids hMem with
  | kept hOld =>
    refine hStays hOld fun found token answer hOp hAnswer hFound hId => ?_
    have hSame := Tables.eq_of_id h.ids (List.mem_of_find?_eq_some hFound) hOld hId
    subst hSame hOp hAnswer
    exact absurd hMem (not_mem_of_consume h.ids hFound)
  | consumed token found answer hOp hAnswer hFound hState =>
    subst hOp hAnswer hState
    have hOld := List.mem_of_find?_eq_some hFound
    cases pt with
    | start request =>
      by_cases hUser : found.userId = request.userId
      · have hAfter : (Point.start request).after (.consume token) (store.perform (.consume token) (.ok answer) c.state).1 =
            .consumed request (found.consumed c.state.now) := by
          simp only [Op.perform, hFound, Point.after]
          exact if_pos hUser
        rw [hAfter]
        exact (h.sound found hOld).took (consumable_unconsumed hFound) hRan hPoint
      · refine (hStays hOld fun found' token' answer' hOp hAnswer hFound' _ => ?_).spent
        simp only [Op.perform, hFound, Point.after]
        exact if_neg hUser
    | _ => cases hAllows
  | pending stored candidates credentials hOp hOld hState =>
    subst hOp hState
    cases pt with
    | discovered request consumed stores =>
      obtain ⟨hId, rfl⟩ := hAllows
      have hFound := hKnown.2
      rw [← hId] at hFound
      exact (h.sound stored hOld).pending hRan hPoint hId.symm hFound
    | _ => cases hAllows

theorem Sound.proper_now (h : Sound w₀ requests c pts) {stateId : Id} {input : ActivateIntegrationInput}
    {k : Except Err Unit → Promise Response} (hRan : store.Ran c t a (.activateIntegration stateId input) th k c')
    (hPoint : pts[t]? = some pt) (hAllows : pt.Allows (.activateIntegration stateId input)) (hMem : state ∈ c.state.states)
    (hId : state.id = stateId) : Proper requests c' state t input := by
  refine Proper.ran ?_ hRan
  -- the state that the request works for is the stored one
  have hProper : ∀ {request : Request} {loaded : OAuthConnectState}, Works requests c t request loaded → loaded.id = stateId →
      input.restaurantId = loaded.restaurantId → (∃ e ∈ c.history, discovers loaded.id input.externalStoreId e = true) →
      Proper requests c state t input := by
    intro request loaded hWorks hLoaded hRestaurant hDiscovered
    obtain ⟨hSent, hUser, ⟨stored, hStored, hTerms⟩, hInTime⟩ := hWorks
    have hStoredId : stored.id = loaded.id := congrArg (·.1) hTerms
    have hSame : stored = state := Tables.eq_of_id h.ids hStored hMem (hStoredId.trans (hLoaded.trans hId.symm))
    subst hSame
    exact Proper.of_terms ⟨⟨request, hSent, hUser.symm⟩, hRestaurant, hDiscovered, hInTime⟩ hTerms.symm
  have hKnown := h.known hPoint
  cases pt with
  | discovered request loaded stores =>
    obtain ⟨hState, hRestaurant, hAny⟩ := hAllows
    exact hProper hKnown.1 hState.symm hRestaurant (hKnown.2 _ hAny)
  | picked request loaded =>
    obtain ⟨hState, hRestaurant, hAny⟩ := hAllows
    obtain ⟨stores, hStores, hAny⟩ := (Option.any_eq_true _ _).mp hAny
    exact hProper hKnown.1 hState.symm hRestaurant (hKnown.2 stores hStores _ hAny)
  | _ => cases hAllows

theorem Sound.ran (h : Sound w₀ requests c pts) (hTracks : Tracks store connecting (requests.map Point.start) c pts)
    (hGuard : picksInTurn requests c (.run t a) = true) (hRan : store.Ran c t a o th k c') (hPoint : pts[t]? = some pt)
    (hAllows : pt.Allows o) : Sound w₀ requests c' (pts.set t (pt.after o (store.perform o a c.state).1)) := by
  have hTerms : c'.state.states.map (·.terms) = c.state.states.map (·.terms) := by
    rw [hRan.state]
    exact terms_perform
  refine ⟨?_, hTerms.trans h.kept, ?_, fun state hMem => h.state_ran hTracks hGuard hRan hPoint hAllows hMem, ?_⟩
  · rw [ids_of_terms hTerms]
    exact h.ids
  · intro u ptU hU
    rcases Tables.getElem?_set_cases hU with ⟨rfl, rfl⟩ | ⟨hNe, hOld⟩
    · exact h.known_after hGuard hRan hPoint hAllows
    · exact (h.known hOld).ran hRan hNe
  · intro state hMem u input result hEntry
    obtain ⟨stored, hStored, hSame⟩ := exists_of_terms hTerms.symm hMem
    have hId : stored.id = state.id := congrArg (·.1) hSame
    refine Proper.of_terms ?_ hSame
    rw [hRan.history] at hEntry
    rcases List.mem_cons.mp hEntry with hNow | hOld
    · cases hNow
      exact h.proper_now hRan hPoint hAllows hStored hId
    · rw [← hId] at hOld
      exact (h.proper stored hStored u input result hOld).ran hRan

theorem thread_of_stopped {u : Nat} {thU : Thread Op Op.Resp Err World Response} (hThread : c.threads[t]? = some th)
    (hThreadU : (c.threads.set t { th with stopped := true })[u]? = some thU) :
    ∃ old, c.threads[u]? = some old ∧ thU.born = old.born ∧ (thU.stopped = false → old.stopped = false) := by
  rcases Tables.getElem?_set_cases hThreadU with ⟨rfl, rfl⟩ | ⟨-, hOld⟩
  · exact ⟨th, hThread, rfl, fun hNot => by cases hNot⟩
  · exact ⟨thU, hOld, rfl, id⟩

theorem born_of_stopped {u : Nat} {old : Thread Op Op.Resp Err World Response} (hThread : c.threads[t]? = some th)
    (hThreadU : c.threads[u]? = some old) :
    ∃ thU, (c.threads.set t { th with stopped := true })[u]? = some thU ∧ thU.born = old.born := by
  by_cases hEq : t = u
  · subst hEq
    cases hThread.symm.trans hThreadU
    exact ⟨_, Tables.getElem?_set_eq hThread, rfl⟩
  · exact ⟨old, (List.getElem?_set_ne hEq).trans hThreadU, rfl⟩

theorem Sound.stop (h : Sound w₀ requests c pts) (hThread : c.threads[t]? = some th) :
    Sound w₀ requests { c with threads := c.threads.set t { th with stopped := true } } pts := by
  have hInTime : ∀ {u : Nat} {expiresAt : Time}, (∃ old w, c.threads[u]? = some old ∧ old.born = some w ∧ w.now ≤ expiresAt) →
      ∃ thU w, (c.threads.set t { th with stopped := true })[u]? = some thU ∧ thU.born = some w ∧ w.now ≤ expiresAt := by
    rintro u expiresAt ⟨old, w, hOld, hBorn, hLe⟩
    obtain ⟨thU, hThreadU, hSame⟩ := born_of_stopped hThread hOld
    exact ⟨thU, w, hThreadU, hSame.trans hBorn, hLe⟩
  have hWorks : ∀ {u : Nat} {request : Request} {state : OAuthConnectState}, Works requests c u request state →
      Works requests { c with threads := c.threads.set t { th with stopped := true } } u request state := by
    intro u request state hOld
    exact ⟨hOld.sent, hOld.user, hOld.stored, hInTime hOld.inTime⟩
  refine ⟨h.ids, h.kept, ?_, fun state hMem => ?_, fun state hMem u input result hEntry => ?_⟩
  · intro u ptU hU
    have hKnown := h.known hU
    cases ptU with
    | start request =>
      refine ⟨hKnown.1, fun thU hThreadU => ?_⟩
      obtain ⟨old, hOld, hBorn, -⟩ := thread_of_stopped hThread hThreadU
      exact hBorn.trans (hKnown.2 old hOld)
    | consumed request state => exact hWorks hKnown
    | exchanged request state => exact hWorks hKnown
    | discovered request state stores => exact ⟨hWorks hKnown.1, hKnown.2⟩
    | picked request state => exact ⟨hWorks hKnown.1, hKnown.2⟩
    | finished => trivial
  · have hOld := h.sound state hMem
    refine ⟨hOld.unused, hOld.flowing, hOld.oneFlow, hOld.unexchanged, hOld.exchanged, ?_, ?_, hOld.activated, hOld.found⟩
    · intro u ptU hU hPickU
      obtain ⟨hSome, hZero⟩ := hOld.picking hU hPickU
      refine ⟨hSome, fun thU hThreadU hRunning => ?_⟩
      obtain ⟨old, hThreadOld, -, hStopped⟩ := thread_of_stopped hThread hThreadU
      exact hZero old hThreadOld (hStopped hRunning)
    · intro u v ptU ptV thU thV hU hV hPickU hPickV hThreadU hThreadV hRunningU hRunningV
      obtain ⟨oldU, hOldU, -, hStoppedU⟩ := thread_of_stopped hThread hThreadU
      obtain ⟨oldV, hOldV, -, hStoppedV⟩ := thread_of_stopped hThread hThreadV
      exact hOld.onePick hU hV hPickU hPickV hOldU hOldV (hStoppedU hRunningU) (hStoppedV hRunningV)
  · have hOld := h.proper state hMem u input result hEntry
    exact ⟨hOld.user, hOld.restaurant, hOld.discovered, hInTime hOld.inTime⟩

theorem Sound.tick {elapsed : Time} (h : Sound w₀ requests c pts) :
    Sound w₀ requests { c with state := (Event.tick elapsed).advance c.state } pts := by
  refine ⟨h.ids, h.kept, fun hU => ?_, fun state hMem => ?_, fun state hMem u input result hEntry => ?_⟩
  · have hKnown := h.known hU
    rename_i u ptU
    cases ptU with
    | start request => exact hKnown
    | consumed request state => exact ⟨hKnown.sent, hKnown.user, hKnown.stored, hKnown.inTime⟩
    | exchanged request state => exact ⟨hKnown.sent, hKnown.user, hKnown.stored, hKnown.inTime⟩
    | discovered request state stores => exact ⟨⟨hKnown.1.sent, hKnown.1.user, hKnown.1.stored, hKnown.1.inTime⟩, hKnown.2⟩
    | picked request state => exact ⟨⟨hKnown.1.sent, hKnown.1.user, hKnown.1.stored, hKnown.1.inTime⟩, hKnown.2⟩
    | finished => trivial
  · have hOld := h.sound state hMem
    exact ⟨hOld.unused, hOld.flowing, hOld.oneFlow, hOld.unexchanged, hOld.exchanged, hOld.picking, hOld.onePick, hOld.activated, hOld.found⟩
  · have hOld := h.proper state hMem u input result hEntry
    exact ⟨hOld.user, hOld.restaurant, hOld.discovered, hOld.inTime⟩

theorem sound_start (env : Env) (hIssued : w₀.Issued) :
    Sound w₀ requests (State.start env w₀ requests) (requests.map Point.start) := by
  have hStart : ∀ {u : Nat} {ptU : Point}, (requests.map Point.start)[u]? = some ptU → ∃ request, requests[u]? = some request ∧ ptU = .start request := by
    intro u ptU hU
    rw [List.getElem?_map, Option.map_eq_some_iff] at hU
    obtain ⟨request, hRequest, rfl⟩ := hU
    exact ⟨request, hRequest, rfl⟩
  have hNoFlow : ∀ ptU ∈ requests.map Point.start, ∀ id, ptU.flow? ≠ some id ∧ ptU.picked? ≠ some id := by
    intro ptU hU id
    obtain ⟨request, -, rfl⟩ := List.mem_map.mp hU
    exact ⟨by simp [Point.flow?], by simp [Point.picked?]⟩
  refine ⟨hIssued.ids, rfl, ?_, fun state hMem => ?_, fun state hMem u input result hEntry => by cases hEntry⟩
  · intro u ptU hU
    obtain ⟨request, hRequest, rfl⟩ := hStart hU
    refine ⟨hRequest, fun thU hThreadU => ?_⟩
    obtain ⟨p, -, rfl⟩ := List.mem_map.mp (List.mem_of_getElem? hThreadU)
    rfl
  · refine ⟨fun _ => ⟨hIssued.unpicked state hMem, fun ptU hU => (hNoFlow ptU hU _).1, rfl, rfl⟩, ?_, ?_, fun _ _ _ _ => rfl,
      Nat.zero_le 1, ?_, ?_, Nat.zero_le 1, ?_⟩
    · intro ptU hU hFlowU
      exact absurd hFlowU (hNoFlow ptU hU _).1
    · intro u v ptU ptV hU _ hFlowU _
      exact absurd hFlowU (hNoFlow ptU (List.mem_of_getElem? hU) _).1
    · intro u ptU hU hPickU
      exact absurd hPickU (hNoFlow ptU (List.mem_of_getElem? hU) _).2
    · intro u v ptU ptV thU thV hU _ hPickU _ _ _ _ _
      exact absurd hPickU (hNoFlow ptU (List.mem_of_getElem? hU) _).2
    · intro stores hStores
      cases (hIssued.unpicked state hMem).symm.trans hStores

end Run

/-- Each state links one store, of its restaurant, for the user it was issued to and
in time, where selections of it come in turn. -/
theorem state_used_once (env : Env) (w₀ : World) (requests : List Request) (c : State) (hIssued : w₀.Issued)
    (h : store.Reach (fun c l => picksInTurn requests c l) (State.start env w₀ requests) c) :
    ∀ state ∈ w₀.states, LinkedOnce requests c state := by
  have hTracks : Tracks store connecting (requests.map Point.start) (State.start env w₀ requests) (requests.map Point.start) :=
    Tracks.initial fun r _ => r.program_follows env
  have hStart : Sound w₀ requests (State.start env w₀ requests) (requests.map Point.start) := sound_start env hIssued
  obtain ⟨pts, -, hSound⟩ := Tracks.invariant (I := Sound w₀ requests) hTracks hStart
    (fun hTracks hI hGuard hRan hPoint hMove _ => by
      obtain ⟨hAllows, rfl⟩ := hMove
      exact hI.ran hTracks hGuard hRan hPoint hAllows)
    (fun _ hI _ hThread => hI.stop hThread)
    (fun {_ _ e} _ hI _ => by
      cases e
      exact hI.tick) h
  intro state hMem
  obtain ⟨stored, hStored, hTerms⟩ := exists_of_terms hSound.kept hMem
  have hId : stored.id = state.id := congrArg (·.1) hTerms
  have hOnce := hSound.sound stored hStored
  refine ⟨?_, ?_, fun t input result hEntry => ?_⟩
  · rw [← hId]
    exact hOnce.exchanged
  · rw [← hId]
    exact hOnce.activated
  · rw [← hId] at hEntry
    exact (hSound.proper stored hStored t input result hEntry).of_terms hTerms

/-! ### Two stores -/

def downtown : StoreCandidate := ⟨"store-1", "Downtown"⟩

def uptown : StoreCandidate := ⟨"store-2", "Uptown"⟩

def issued : OAuthConnectState where
  id := 7
  tokenHash := 70
  restaurantId := 10
  businessId := 20
  userId := 1
  redirectUri := "https://app/callback"
  expiresAt := 600

def issuedWorld : World := { states := [issued], restaurants := [{ id := 10, businessId := some 20 }] }

theorem issuedWorld_issued : issuedWorld.Issued := by
  refine ⟨by decide, ?_, ?_⟩
  · intro state hMem
    cases List.mem_singleton.mp hMem
    rfl
  · intro state hMem
    cases List.mem_singleton.mp hMem
    rfl

def callback : Request := .completeUberEatsConnect 1 70 (some "code") none

def callbackRun : List (Label (Except Err Answer) Event) :=
  List.replicate 5 (.run 0 (.ok { accessToken := "token", stores := [downtown, uptown] }))

theorem downtown_linked_once : ∃ c : State, c.history.countP (activates issued.id) = 1 ∧
    ∀ state ∈ issuedWorld.states, LinkedOnce [callback, .selectUberEatsStore 1 7 "store-1"] c state := by
  obtain ⟨c, hReach, hLinked⟩ := store.exists_of_exec (picksInTurn [callback, .selectUberEatsStore 1 7 "store-1"])
    (State.start {} issuedWorld [callback, .selectUberEatsStore 1 7 "store-1"]) (List.flatten [callbackRun, List.replicate 3 (.run 1 (.ok {}))])
    (fun c : State => c.history.countP (activates issued.id) = 1) (by decide +kernel)
  exact ⟨c, of_decide_eq_true hLinked, state_used_once {} issuedWorld _ c issuedWorld_issued hReach⟩

def bothStores : List Request := [callback, .selectUberEatsStore 1 7 "store-1", .selectUberEatsStore 1 7 "store-2"]

theorem both_stores_linked : ¬ ∀ (env : Env) (w₀ : World) (requests : List Request) (c : State), w₀.Issued →
    store.Reach (fun _ _ => True) (State.start env w₀ requests) c → ∀ state ∈ w₀.states, LinkedOnce requests c state := by
  intro hClaim
  obtain ⟨c, hReach, hTwice⟩ := store.exists_of_exec (fun _ _ => true) (State.start {} issuedWorld bothStores)
    (List.flatten [callbackRun, List.replicate 3 (.run 1 (.ok {})), .event (.tick 1000) :: List.replicate 3 (.run 2 (.ok {}))])
    (fun c : State => c.history.countP (activates issued.id) = 2) (by decide +kernel)
  have hOnce := (hClaim {} issuedWorld bothStores c issuedWorld_issued (hReach.mono fun _ _ _ => trivial) issued
    List.mem_cons_self).activated
  rw [of_decide_eq_true hTwice] at hOnce
  exact absurd hOnce (by decide)

end RestaurantOs.OAuthConnect
