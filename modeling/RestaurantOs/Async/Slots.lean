import RestaurantOs.Async.Protocol

/-!
# Slots

A counter holds, for each key, the slots that are taken. A request is told a limit,
reserves a slot by counting up below it, and commits in its slot or releases it. What
fails in between, with no release after it, loses the slot.
-/

namespace RestaurantOs.Async.Slots

variable {Op : Type} {Resp : Op → Type} {ε σ ι η α κ : Type}

inductive Effect (κ : Type)
  | none
  | told (key : κ) (limit : Int)
  | reserved (key : κ) (limit count : Int)
  | committed (key : κ)
  | released (key : κ)
  | failed
  deriving DecidableEq

/-- Where a request stands: what limit it was told, which slot it holds and what it
counted before, and the slot that it lost. -/
inductive Point (κ : Type)
  | idle
  | told (key : κ) (limit : Int)
  | held (key : κ) (limit count : Int)
  | lost (key : κ)

namespace Point

@[simp] def after : Point κ → Effect κ → Point κ
  | _, .told key limit => told key limit
  | _, .reserved key limit count => held key limit count
  | held _ _ _, .committed _ | held _ _ _, .released _ => idle
  | held key _ _, .failed => lost key
  | pt, _ => pt

@[simp] def Allows : Point κ → Effect κ → Prop
  | _, .none | _, .failed | idle, .told _ _ => True
  | told key limit, .reserved key' limit' _ => key' = key ∧ limit' = limit
  | held key _ _, .committed key' | held key _ _, .released key' => key' = key
  | _, _ => False

def Rest : Point κ → Prop
  | held _ _ _ => False
  | _ => True

variable {pt : Point κ} {f : Effect κ} {key : κ} {limit n : Int}

theorem after_told (h : pt.after f = .told key limit) : pt = .told key limit ∨ f = .told key limit := by
  cases pt <;> cases f <;> simp_all [after]

theorem after_held (hAllows : pt.Allows f) (h : pt.after f = .held key limit n) :
    pt = .held key limit n ∨ pt = .told key limit ∧ f = .reserved key limit n := by
  cases pt <;> cases f <;> simp_all [after, Allows]

theorem after_lost (h : pt.after f = .lost key) : pt = .lost key ∨ (∃ limit n, pt = .held key limit n) ∧ f = .failed := by
  cases pt <;> cases f <;> simp_all [after]

theorem held_of_committed (hAllows : pt.Allows (.committed key)) : ∃ limit n, pt = .held key limit n := by
  cases pt <;> simp_all [Allows]

theorem told_of_reserved (hAllows : pt.Allows (.reserved key limit n)) : pt = .told key limit := by
  cases pt <;> simp_all [Allows]

end Point

variable [DecidableEq κ]

@[simp] def Effect.change (key : κ) : Effect κ → Int
  | reserved k _ _ => if k = key then 1 else 0
  | released k => if k = key then -1 else 0
  | _ => 0

@[simp] def Point.slots (key : κ) : Point κ → Int
  | held k _ _ | lost k => if k = key then 1 else 0
  | _ => 0

theorem Point.change_eq {pt : Point κ} {f : Effect κ} {key : κ} (hAllows : pt.Allows f) :
    f.change key = (if f = .committed key then 1 else 0) + ((pt.after f).slots key - pt.slots key) := by
  cases pt <;> cases f <;> simp_all [Point.Allows, Point.after, Point.slots, Effect.change]
  split <;> rfl

structure Counter (S : Store Op Resp ε σ ι η) (κ : Type) [DecidableEq κ] where
  effect : (o : Op) → Except ε (Resp o) → Effect κ
  count : σ → κ → Option Int
  perform : ∀ o a s key, count (S.perform o a s).2 key = (count s key).map (· + (effect o (S.perform o a s).1).change key)
  below : ∀ o a s key limit n, effect o (S.perform o a s).1 = .reserved key limit n → count s key = some n ∧ n < limit
  advance : ∀ e s key, count (S.advance e s) key = count s key

namespace Counter

variable {S : Store Op Resp ε σ ι η} (C : Counter S κ)

@[reducible] def protocol : Protocol Op σ ι where
  Point := Point κ
  Move o a s pt pt' := pt.Allows (C.effect o (S.perform o a s).1) ∧ pt' = pt.after (C.effect o (S.perform o a s).1)
  Rest := Point.Rest

def of (e : Entry Op Resp ε) : Effect κ := C.effect e.op e.result

def commits (key : κ) (e : Entry Op Resp ε) : Bool := C.of e = .committed key

def committed (key : κ) (history : List (Entry Op Resp ε)) : Nat := history.countP (C.commits key)

/-- Request `t` was told a limit of the key and counted up below it. -/
def InLimit (history : List (Entry Op Resp ε)) (t : Nat) (key : κ) : Prop :=
  ∃ limit n, (∃ e ∈ history, e.thread = t ∧ C.of e = .told key limit) ∧
    (∃ e ∈ history, e.thread = t ∧ C.of e = .reserved key limit n) ∧ n + 1 ≤ limit

structure Balanced (s₀ : σ) (c : Config Op Resp ε σ α) (pts : List (Point κ)) : Prop where
  count : ∀ key, C.count c.state key = (C.count s₀ key).map (· + (C.committed key c.history + Tables.total (Point.slots key) pts))
  told : ∀ {t : Nat} {key : κ} {limit : Int}, pts[t]? = some (.told key limit) →
    ∃ e ∈ c.history, e.thread = t ∧ C.of e = .told key limit
  held : ∀ {t : Nat} {key : κ} {limit n : Int}, pts[t]? = some (.held key limit n) → C.InLimit c.history t key
  lost : ∀ {t : Nat} {key : κ}, pts[t]? = some (.lost key) → C.InLimit c.history t key ∧ ∃ e ∈ c.history, C.of e = .failed
  reserved : ∀ e ∈ c.history, ∀ {key : κ} {limit n : Int}, C.of e = .reserved key limit n →
    (∃ e' ∈ c.history, e'.thread = e.thread ∧ C.of e' = .told key limit) ∧ n + 1 ≤ limit
  created : ∀ {key : κ}, ∀ e ∈ c.history, C.commits key e = true → C.InLimit c.history e.thread key

end Counter

section Walk

variable {S : Store Op Resp ε σ ι η} {C : Counter S κ} {pt : Point κ}

theorem follows_call {o : Op} {Q : Resp o → Point κ → Prop} {E : ε → Point κ → Prop} (hAllows : ∀ a s, pt.Allows (C.effect o (S.perform o a s).1))
    (hQ : ∀ v, Q v (pt.after (C.effect o (.ok v)))) (hE : ∀ err, E err (pt.after (C.effect o (.error err)))) :
    (Prog.call o : Prog Op Resp ε (Resp o)).Follows S C.protocol pt Q E := by
  refine (Prog.follows_call).mpr fun a s => ⟨_, ⟨hAllows a s, rfl⟩, ?_⟩
  cases (S.perform o a s).1 with
  | ok v => exact hQ v
  | error err => exact hE err

theorem follows_quiet {o : Op} {Q : Resp o → Point κ → Prop} {E : ε → Point κ → Prop} (hNone : ∀ r, C.effect o r = .none)
    (hQ : ∀ v, Q v pt) (hE : ∀ err, E err pt) : (Prog.call o : Prog Op Resp ε (Resp o)).Follows S C.protocol pt Q E := by
  have hAfter : ∀ r, pt.after (C.effect o r) = pt := by
    intro r
    rw [hNone r]
    cases pt <;> rfl
  refine follows_call (fun a s => ?_) (fun v => ?_) fun err => ?_
  · rw [hNone]
    cases pt <;> trivial
  · rw [hAfter]
    exact hQ v
  · rw [hAfter]
    exact hE err

end Walk

section Run

variable {S : Store Op Resp ε σ ι η} {C : Counter S κ} {s₀ : σ} {c c' : Config Op Resp ε σ α} {pts : List (Point κ)} {t : Nat}
  {a : ι} {o : Op} {th : Thread Op Resp ε σ α} {k : Except ε (Resp o) → Prog Op Resp ε α} {pt : Point κ} {f : Effect κ}
  {key : κ} {limit n : Int} {history : List (Entry Op Resp ε)}

theorem Counter.InLimit.cons (h : C.InLimit history t key) (e : Entry Op Resp ε) : C.InLimit (e :: history) t key := by
  obtain ⟨limit, n, ⟨told, hTold, hThread, hEffect⟩, ⟨reserved, hReserved, hThread', hEffect'⟩, hLe⟩ := h
  exact ⟨limit, n, ⟨told, List.mem_cons_of_mem _ hTold, hThread, hEffect⟩,
    ⟨reserved, List.mem_cons_of_mem _ hReserved, hThread', hEffect'⟩, hLe⟩

theorem Counter.committed_cons {e : Entry Op Resp ε} :
    (C.committed key (e :: history) : Int) = C.committed key history + if C.of e = .committed key then 1 else 0 := by
  rw [Counter.committed, List.countP_cons]
  simp only [Counter.commits, decide_eq_true_eq]
  split <;> rfl

theorem Counter.Balanced.ran (h : C.Balanced s₀ c pts) (hPoint : pts[t]? = some pt) (hRan : S.Ran c t a o th k c')
    (hAllows : pt.Allows (C.effect o (S.perform o a c.state).1)) :
    C.Balanced s₀ c' (pts.set t (pt.after (C.effect o (S.perform o a c.state).1))) := by
  have hOf : C.of ⟨t, o, (S.perform o a c.state).1⟩ = C.effect o (S.perform o a c.state).1 := rfl
  constructor
  · intro key
    rw [hRan.state, C.perform, h.count key, Option.map_map, hRan.history, Counter.committed_cons, Tables.total_set hPoint, hOf,
      Point.change_eq hAllows]
    congr 1
    funext n
    simp only [Function.comp]
    omega
  · intro u key limit hU
    rw [hRan.history]
    rcases Tables.getElem?_set_cases hU with ⟨rfl, hNew⟩ | ⟨-, hOld⟩
    · rcases Point.after_told hNew.symm with rfl | hNow
      · obtain ⟨e, hMem, hTold⟩ := h.told hPoint
        exact ⟨e, List.mem_cons_of_mem _ hMem, hTold⟩
      · exact ⟨_, List.mem_cons_self, rfl, hNow⟩
    · obtain ⟨e, hMem, hTold⟩ := h.told hOld
      exact ⟨e, List.mem_cons_of_mem _ hMem, hTold⟩
  · intro u key limit n hU
    rw [hRan.history]
    rcases Tables.getElem?_set_cases hU with ⟨rfl, hNew⟩ | ⟨-, hOld⟩
    · rcases Point.after_held hAllows hNew.symm with rfl | ⟨rfl, hNow⟩
      · exact (h.held hPoint).cons _
      · obtain ⟨e, hMem, hTold⟩ := h.told hPoint
        exact ⟨limit, n, ⟨e, List.mem_cons_of_mem _ hMem, hTold⟩, ⟨_, List.mem_cons_self, rfl, hNow⟩, (C.below _ _ _ _ _ _ hNow).2⟩
    · exact (h.held hOld).cons _
  · intro u key hU
    rw [hRan.history]
    rcases Tables.getElem?_set_cases hU with ⟨rfl, hNew⟩ | ⟨-, hOld⟩
    · rcases Point.after_lost hNew.symm with rfl | ⟨⟨limit, n, rfl⟩, hNow⟩
      · obtain ⟨hLimit, e, hMem, hFailed⟩ := h.lost hPoint
        exact ⟨hLimit.cons _, e, List.mem_cons_of_mem _ hMem, hFailed⟩
      · exact ⟨(h.held hPoint).cons _, _, List.mem_cons_self, hNow⟩
    · obtain ⟨hLimit, e, hMem, hFailed⟩ := h.lost hOld
      exact ⟨hLimit.cons _, e, List.mem_cons_of_mem _ hMem, hFailed⟩
  · intro e hMem key limit n hReserved
    rw [hRan.history] at hMem ⊢
    rcases List.mem_cons.mp hMem with rfl | hOld
    · rw [hOf.symm.trans hReserved] at hAllows
      obtain rfl : pt = .told key limit := Point.told_of_reserved hAllows
      obtain ⟨e', hMem', hTold⟩ := h.told hPoint
      exact ⟨⟨e', List.mem_cons_of_mem _ hMem', hTold⟩, (C.below _ _ _ _ _ _ hReserved).2⟩
    · obtain ⟨⟨e', hMem', hTold⟩, hLe⟩ := h.reserved e hOld hReserved
      exact ⟨⟨e', List.mem_cons_of_mem _ hMem', hTold⟩, hLe⟩
  · intro key e hMem hCommits
    rw [hRan.history] at hMem ⊢
    rcases List.mem_cons.mp hMem with rfl | hOld
    · rw [hOf.symm.trans (of_decide_eq_true hCommits)] at hAllows
      obtain ⟨limit, n, rfl⟩ := Point.held_of_committed hAllows
      exact (h.held hPoint).cons _
    · exact (h.created e hOld hCommits).cons _

theorem Counter.balanced_of_reach {ρ : Type} {ok : Config Op Resp ε σ α → Label ι η → Prop} {requests : List ρ} {program : ρ → Prog Op Resp ε α}
    (hFollows : ∀ r ∈ requests, (program r).Follows S C.protocol .idle (fun _ pt => pt.Rest) fun _ pt => pt.Rest)
    (h : S.Reach ok (Config.initial s₀ (requests.map program)) c) :
    ∃ pts, Tracks S C.protocol (requests.map fun _ => Point.idle) c pts ∧ C.Balanced s₀ c pts := by
  have hTracks : Tracks S C.protocol (requests.map fun _ => Point.idle) (Config.initial s₀ (requests.map program))
      (requests.map fun _ => Point.idle) := Tracks.initial hFollows
  have hIdle : ∀ {u : Nat} {pt : Point κ}, (requests.map fun _ => Point.idle)[u]? = some pt → pt = .idle := by
    intro u pt hPoint
    rw [List.getElem?_map, Option.map_eq_some_iff] at hPoint
    obtain ⟨_, _, rfl⟩ := hPoint
    rfl
  refine hTracks.invariant (I := C.Balanced s₀) ?_ (fun _ hI _ hRan hPoint hMove _ => hMove.2 ▸ hI.ran hPoint hRan hMove.1)
    (fun _ hI _ _ => ⟨hI.count, hI.told, hI.held, hI.lost, hI.reserved, hI.created⟩)
    (fun _ hI _ => ⟨fun key => (C.advance _ _ key).trans (hI.count key), hI.told, hI.held, hI.lost, hI.reserved, hI.created⟩) h
  refine ⟨fun key => ?_, fun hPoint => ?_, fun hPoint => ?_, fun hPoint => ?_, fun e hMem => ?_, fun e hMem => ?_⟩
  · have hNone : Tables.total (Point.slots key) (requests.map fun _ => Point.idle) = 0 :=
      Tables.total_zero fun pt hMem => by
        obtain ⟨_, _, rfl⟩ := List.mem_map.mp hMem
        rfl
    rw [hNone]
    simp [Config.initial, Counter.committed]
  · cases hIdle hPoint
  · cases hIdle hPoint
  · cases hIdle hPoint
  · cases hMem
  · cases hMem

theorem total_slots_zero (hFree : ∀ {t : Nat} {pt : Point κ}, pts[t]? = some pt → pt.slots key = 0) :
    Tables.total (Point.slots key) pts = 0 := by
  refine Tables.total_zero fun pt hMem => ?_
  obtain ⟨t, hPoint⟩ := List.getElem?_of_mem hMem
  exact hFree hPoint

theorem Counter.rest_of_settled {ρ : Type} {requests : List ρ} (hTracks : Tracks S C.protocol (requests.map fun _ => Point.idle) c pts)
    (hSettled : ∀ th ∈ c.threads, th.born.isSome = true → th.next?.isSome = false) (hPoint : pts[t]? = some pt) : pt.Rest := by
  obtain ⟨th, hThread⟩ := hTracks.thread_exists hPoint
  cases hBorn : th.born with
  | some s => exact hTracks.rest_of_ended hThread hPoint (hSettled th (List.mem_of_getElem? hThread) (by rw [hBorn]; rfl))
  | none =>
    have hStart := hTracks.unborn hThread hBorn
    rw [hPoint, List.getElem?_map] at hStart
    obtain ⟨_, -, rfl⟩ := Option.map_eq_some_iff.mp hStart.symm
    trivial

theorem Counter.Balanced.exact {ρ : Type} {requests : List ρ} (h : C.Balanced s₀ c pts)
    (hTracks : Tracks S C.protocol (requests.map fun _ => Point.idle) c pts)
    (hSettled : ∀ th ∈ c.threads, th.born.isSome = true → th.next?.isSome = false) (hFailed : ∀ e ∈ c.history, C.of e ≠ .failed) :
    C.count c.state key = (C.count s₀ key).map (· + (C.committed key c.history : Int)) := by
  have hFree : Tables.total (Point.slots key) pts = 0 := by
    refine total_slots_zero fun {t pt} hPoint => ?_
    cases pt with
    | held key' limit n => exact (Counter.rest_of_settled hTracks hSettled hPoint).elim
    | lost key' =>
      obtain ⟨-, e, hMem, hIs⟩ := h.lost hPoint
      exact absurd hIs (hFailed e hMem)
    | _ => rfl
  rw [h.count key, hFree]
  simp

structure Counter.Frozen (C : Counter S κ) (s₀ : σ) (key : κ) (history : List (Entry Op Resp ε)) : Prop where
  told : ∀ e ∈ history, ∀ limit, C.of e = .told key limit → limit ≤ (C.count s₀ key).getD 0
  unreserved : ∀ e ∈ history, ∀ limit n, C.of e ≠ .reserved key limit n

theorem Counter.Frozen.uncommitted (h : C.Frozen s₀ key c.history) (hBalanced : C.Balanced s₀ c pts) : C.committed key c.history = 0 := by
  refine List.countP_eq_zero.mpr fun e hMem hCommits => ?_
  obtain ⟨limit, n, -, ⟨e', hMem', -, hReserved⟩, -⟩ := hBalanced.created e hMem hCommits
  exact h.unreserved e' hMem' limit n hReserved

theorem Counter.Frozen.count (h : C.Frozen s₀ key c.history) (hBalanced : C.Balanced s₀ c pts) :
    C.count c.state key = C.count s₀ key := by
  have hNever : ∀ {t : Nat}, ¬ C.InLimit c.history t key := by
    rintro t ⟨limit, n, -, ⟨e, hMem, -, hReserved⟩, -⟩
    exact h.unreserved e hMem limit n hReserved
  have hFree : Tables.total (Point.slots key) pts = 0 := by
    refine total_slots_zero fun {t pt} hPoint => ?_
    cases pt with
    | held key' limit n => exact if_neg fun hEq => hNever (hEq ▸ hBalanced.held hPoint)
    | lost key' => exact if_neg fun hEq => hNever (hEq ▸ (hBalanced.lost hPoint).1)
    | _ => rfl
  rw [hBalanced.count key, h.uncommitted hBalanced, hFree]
  simp

theorem Counter.frozen_of_reach {ρ : Type} {ok : Config Op Resp ε σ α → Label ι η → Prop} {requests : List ρ} {program : ρ → Prog Op Resp ε α}
    (hFollows : ∀ r ∈ requests, (program r).Follows S C.protocol .idle (fun _ pt => pt.Rest) fun _ pt => pt.Rest)
    (hLimit : ∀ c l o a limit, ok c l → C.effect o (S.perform o a c.state).1 = .told key limit → limit ≤ (C.count c.state key).getD 0)
    (h : S.Reach ok (Config.initial s₀ (requests.map program)) c) : C.Frozen s₀ key c.history := by
  induction h with
  | start =>
    constructor
    · intro e hMem
      cases hMem
    · intro e hMem
      cases hMem
  | @step c c' l hReach hOk hStep ih =>
    cases l with
    | run t a =>
      obtain ⟨o, th, k, hRan⟩ := Store.run_cases hStep
      obtain ⟨pts, hTracks, hBalanced⟩ := Counter.balanced_of_reach hFollows hReach
      obtain ⟨pt, pt', hPoint, ⟨hAllows, -⟩, -⟩ := hTracks.ran hRan
      have hCount := ih.count hBalanced
      constructor
      · intro e hMem limit hTold
        rw [hRan.history] at hMem
        rcases List.mem_cons.mp hMem with rfl | hOld
        · rw [← hCount]
          exact hLimit c _ o a limit hOk hTold
        · exact ih.told e hOld limit hTold
      · intro e hMem limit n hReserved
        rw [hRan.history] at hMem
        rcases List.mem_cons.mp hMem with rfl | hOld
        · obtain ⟨hStored, hBelow⟩ := C.below _ _ _ _ _ _ hReserved
          have hEffect : C.effect o (S.perform o a c.state).1 = .reserved key limit n := hReserved
          rw [hEffect] at hAllows
          obtain rfl : pt = .told key limit := Point.told_of_reserved hAllows
          obtain ⟨e', hMem', -, hTold'⟩ := hBalanced.told hPoint
          have hLe := ih.told e' hMem' limit hTold'
          rw [← hCount, hStored, Option.getD_some] at hLe
          exact absurd hBelow (Int.not_lt.mpr hLe)
        · exact ih.unreserved e hOld limit n hReserved
    | stop t =>
      obtain ⟨th, -, rfl⟩ := Store.stop_cases hStep
      exact ih
    | event e =>
      cases hStep
      exact ih

end Run

end RestaurantOs.Async.Slots
