import RestaurantOs.Async.Prog

/-!
# Interleaved runs

A configuration holds the shared state, the requests with what is left of them,
and the history of the operations so far. A step performs the next operation of
one request, stops one for good, or lets the environment move.
-/

namespace RestaurantOs.Async

/-- The meaning of one operation, with the environment's choice `ι`, and of
an environment event `η`. -/
structure Store (Op : Type) (Resp : Op → Type) (ε σ ι η : Type) where
  perform : (o : Op) → ι → σ → Except ε (Resp o) × σ
  advance : η → σ → σ

structure Entry (Op : Type) (Resp : Op → Type) (ε : Type) where
  thread : Nat
  op : Op
  result : Except ε (Resp op)

/-- `born` is the state at the request's first operation. -/
structure Thread (Op : Type) (Resp : Op → Type) (ε σ α : Type) where
  prog : Prog Op Resp ε α
  stopped : Bool := false
  born : Option σ := none

structure Config (Op : Type) (Resp : Op → Type) (ε σ α : Type) where
  state : σ
  threads : List (Thread Op Resp ε σ α)
  history : List (Entry Op Resp ε) := []

inductive Label (ι η : Type)
  | run (t : Nat) (answer : ι)
  | stop (t : Nat)
  | event (e : η)

variable {Op : Type} {Resp : Op → Type} {ε σ ι η α : Type}

def Thread.next? (th : Thread Op Resp ε σ α) : Option Op := th.prog.next?

def Thread.waiting? (th : Thread Op Resp ε σ α) : Option Op := if th.stopped then none else th.next?

def Thread.Running (th : Thread Op Resp ε σ α) : Prop :=
  th.stopped = false ∧ th.born.isSome ∧ th.next?.isSome

instance (th : Thread Op Resp ε σ α) : Decidable th.Running :=
  inferInstanceAs (Decidable (th.stopped = false ∧ th.born.isSome ∧ th.next?.isSome))

namespace Config

/-- The configuration in which `requests` have been sent and none has started. -/
def initial (s : σ) (requests : List (Prog Op Resp ε α)) : Config Op Resp ε σ α where
  state := s
  threads := requests.map fun p => { prog := p }

def waiting? (c : Config Op Resp ε σ α) (t : Nat) : Option Op :=
  c.threads[t]?.bind Thread.waiting?

def waiting (c : Config Op Resp ε σ α) : List Op := c.threads.filterMap Thread.waiting?

def last? (c : Config Op Resp ε σ α) (t : Nat) : Option (Entry Op Resp ε) :=
  c.history.find? (·.thread = t)

/-- What the operations of request `t` have last said, where `tells` gives what
one operation with its result says. -/
def latest? {β : Type} (tells : (o : Op) → Except ε (Resp o) → Option β) (c : Config Op Resp ε σ α) (t : Nat) : Option β :=
  c.history.findSome? fun e => if e.thread = t then tells e.op e.result else none

/-- No request is in the middle of its operations: each has not started, has
ended, or was stopped. -/
def Quiet (c : Config Op Resp ε σ α) : Prop := ∀ th ∈ c.threads, ¬ th.Running

instance (c : Config Op Resp ε σ α) : Decidable c.Quiet := inferInstanceAs (Decidable (∀ th ∈ c.threads, ¬ th.Running))

theorem mem_waiting {c : Config Op Resp ε σ α} {t : Nat} {o : Op} (h : c.waiting? t = some o) : o ∈ c.waiting := by
  obtain ⟨th, hThread, hWaiting⟩ := Option.bind_eq_some_iff.mp h
  exact List.mem_filterMap.mpr ⟨th, List.mem_of_getElem? hThread, hWaiting⟩

/-- Every operation that request `t` can come to perform is one of `ok t`. -/
def PerformsEach (c : Config Op Resp ε σ α) (ok : Nat → Op → Prop) : Prop :=
  ∀ (t : Nat) (th : Thread Op Resp ε σ α), c.threads[t]? = some th → th.prog.Performs (ok t)

end Config

namespace Store

variable (S : Store Op Resp ε σ ι η)

/-- The store whose operations may also throw, without an effect. -/
@[reducible] def faulty {φ : Type} (error : φ → ε) : Store Op Resp ε σ (Except φ ι) η where
  perform o a s :=
    match a with
    | .ok a => S.perform o a s
    | .error fault => (.error (error fault), s)
  advance := S.advance

def runThread (c : Config Op Resp ε σ α) (t : Nat) (a : ι) : Option (Config Op Resp ε σ α) :=
  match c.threads[t]? with
  | some { prog := .await o k, stopped := false, born } =>
    let (r, s) := S.perform o a c.state
    some {
      state := s
      threads := c.threads.set t { prog := k r, born := some (born.getD c.state) }
      history := ⟨t, o, r⟩ :: c.history }
  | _ => none

def step (l : Label ι η) (c : Config Op Resp ε σ α) : Option (Config Op Resp ε σ α) :=
  match l with
  | .run t a => S.runThread c t a
  | .stop t => c.threads[t]?.map fun th => { c with threads := c.threads.set t { th with stopped := true } }
  | .event e => some { c with state := S.advance e c.state }

/-- Performs the steps `ls`, each of which has to meet `ok`. -/
def exec (ok : Config Op Resp ε σ α → Label ι η → Bool) :
    List (Label ι η) → Config Op Resp ε σ α → Option (Config Op Resp ε σ α)
  | [], c => some c
  | l :: ls, c => if ok c l then (S.step l c).bind (exec ok ls) else none

/-- The configurations that runs whose steps all meet `ok` reach from `c₀`. -/
inductive Reach (ok : Config Op Resp ε σ α → Label ι η → Prop) (c₀ : Config Op Resp ε σ α) :
    Config Op Resp ε σ α → Prop
  | start : Reach ok c₀ c₀
  | step {c c' : Config Op Resp ε σ α} {l : Label ι η} :
      Reach ok c₀ c → ok c l → S.step l c = some c' → Reach ok c₀ c'

variable {S} {ok ok' : Config Op Resp ε σ α → Label ι η → Prop} {c₀ c c' : Config Op Resp ε σ α}

theorem Reach.mono (himp : ∀ c l, ok c l → ok' c l) (h : S.Reach ok c₀ c) : S.Reach ok' c₀ c := by
  induction h with
  | start => exact .start
  | step _ hok hstep ih => exact ih.step (himp _ _ hok) hstep

theorem Reach.trans (h : S.Reach ok c₀ c) (h' : S.Reach ok c c') : S.Reach ok c₀ c' := by
  induction h' with
  | start => exact h
  | step _ hok hstep ih => exact ih.step hok hstep

/-- A property that holds at the start and is kept by every step that meets
`ok` holds in every configuration reached. -/
theorem Reach.invariant {I : Config Op Resp ε σ α → Prop} (hStart : I c₀)
    (hStep : ∀ c l c', I c → ok c l → S.step l c = some c' → I c') (h : S.Reach ok c₀ c) : I c := by
  induction h with
  | start => exact hStart
  | step _ hok hstep ih => exact hStep _ _ _ ih hok hstep

theorem Reach.of_exec {ok : Config Op Resp ε σ α → Label ι η → Bool} (ls : List (Label ι η))
    (h : S.exec ok ls c₀ = some c) : S.Reach (fun c l => ok c l) c₀ c := by
  induction ls generalizing c₀ with
  | nil => cases h; exact .start
  | cons l ls ih =>
    unfold exec at h
    split at h
    · rename_i hok
      obtain ⟨c₁, hFirst, hRest⟩ := Option.bind_eq_some_iff.mp h
      exact (Reach.start.step hok hFirst).trans (ih hRest)
    · cases h

theorem exists_of_exec (S : Store Op Resp ε σ ι η) (ok : Config Op Resp ε σ α → Label ι η → Bool)
    (c₀ : Config Op Resp ε σ α) (ls : List (Label ι η)) (p : Config Op Resp ε σ α → Bool) (h : (S.exec ok ls c₀).any p = true) :
    ∃ c, S.Reach (fun c l => ok c l) c₀ c ∧ p c = true := by
  cases hExec : S.exec ok ls c₀ with
  | none =>
    rw [hExec] at h
    cases h
  | some c =>
    rw [hExec] at h
    exact ⟨c, Reach.of_exec ls hExec, h⟩

structure Ran (S : Store Op Resp ε σ ι η) (c : Config Op Resp ε σ α) (t : Nat) (a : ι) (o : Op)
    (th : Thread Op Resp ε σ α) (k : Except ε (Resp o) → Prog Op Resp ε α)
    (c' : Config Op Resp ε σ α) : Prop where
  thread : c.threads[t]? = some th
  prog : th.prog = .await o k
  running : th.stopped = false
  state : c'.state = (S.perform o a c.state).2
  threads : c'.threads = c.threads.set t
    { prog := k (S.perform o a c.state).1, born := some (th.born.getD c.state) }
  history : c'.history = ⟨t, o, (S.perform o a c.state).1⟩ :: c.history

theorem runThread_cases {t : Nat} {a : ι} (h : S.runThread c t a = some c') :
    ∃ o th k, S.Ran c t a o th k c' := by
  unfold runThread at h
  split at h
  · rename_i o k born hThread
    cases h
    exact ⟨o, _, k, hThread, rfl, rfl, rfl, rfl, rfl⟩
  · cases h

theorem Ran.step {t : Nat} {a : ι} {o : Op} {th : Thread Op Resp ε σ α} {k : Except ε (Resp o) → Prog Op Resp ε α}
    (h : S.Ran c t a o th k c') : S.step (.run t a) c = some c' := by
  obtain ⟨hThread, hProg, hRunning, hState, hThreads, hHistory⟩ := h
  obtain ⟨prog, stopped, born⟩ := th
  obtain ⟨state', threads', history'⟩ := c'
  cases hProg
  cases hRunning
  cases hState
  cases hThreads
  cases hHistory
  simp only [Store.step, runThread, hThread]

theorem run_cases {t : Nat} {a : ι} (h : S.step (.run t a) c = some c') : ∃ o th k, S.Ran c t a o th k c' :=
  runThread_cases h

theorem Ran.waiting? {t : Nat} {a : ι} {o : Op} {th : Thread Op Resp ε σ α}
    {k : Except ε (Resp o) → Prog Op Resp ε α} (h : S.Ran c t a o th k c') : c.waiting? t = some o := by
  simp [Config.waiting?, Thread.waiting?, h.thread, Thread.next?, h.prog, h.running, Prog.next?]

theorem Ran.last? {t u : Nat} {a : ι} {o : Op} {th : Thread Op Resp ε σ α}
    {k : Except ε (Resp o) → Prog Op Resp ε α} (h : S.Ran c t a o th k c') :
    c'.last? u = if t = u then some ⟨t, o, (S.perform o a c.state).1⟩ else c.last? u := by
  rw [Config.last?, h.history, List.find?_cons]
  split
  · rename_i hEq
    rw [if_pos (of_decide_eq_true hEq)]
  · rename_i hNe
    rw [if_neg (of_decide_eq_false hNe)]
    rfl

theorem Ran.latest? {β : Type} {tells : (o : Op) → Except ε (Resp o) → Option β} {t u : Nat} {a : ι} {o : Op}
    {th : Thread Op Resp ε σ α} {k : Except ε (Resp o) → Prog Op Resp ε α} (h : S.Ran c t a o th k c') :
    c'.latest? tells u =
      if t = u then (tells o (S.perform o a c.state).1).or (c.latest? tells u) else c.latest? tells u := by
  rw [Config.latest?, h.history, List.findSome?_cons]
  by_cases hEq : t = u
  · subst hEq
    simp only [if_true]
    cases tells o (S.perform o a c.state).1 <;> rfl
  · simp only [if_neg hEq]
    rfl

theorem Ran.performs {ok : Op → Prop} {t : Nat} {a : ι} {o : Op} {th : Thread Op Resp ε σ α}
    {k : Except ε (Resp o) → Prog Op Resp ε α} (h : S.Ran c t a o th k c')
    (hAll : ∀ th ∈ c.threads, th.prog.Performs ok) : ok o ∧ ∀ th ∈ c'.threads, th.prog.Performs ok := by
  have hOld := hAll th (List.mem_of_getElem? h.thread)
  rw [h.prog] at hOld
  refine ⟨hOld.1, fun thU hU => ?_⟩
  rw [h.threads] at hU
  rcases List.mem_or_eq_of_mem_set hU with hU | rfl
  · exact hAll thU hU
  · exact hOld.2 _

theorem Ran.performs_each {ok : Nat → Op → Prop} {t : Nat} {a : ι} {o : Op} {th : Thread Op Resp ε σ α}
    {k : Except ε (Resp o) → Prog Op Resp ε α} (h : S.Ran c t a o th k c') (hEach : c.PerformsEach ok) :
    ok t o ∧ c'.PerformsEach ok := by
  have hOld := hEach t th h.thread
  rw [h.prog] at hOld
  refine ⟨hOld.1, fun u thU hU => ?_⟩
  rw [h.threads, List.getElem?_set] at hU
  split at hU
  · rename_i hEq
    subst hEq
    split at hU
    · cases hU
      exact hOld.2 _
    · cases hU
  · exact hEach u thU hU

theorem stop_step {t : Nat} {th : Thread Op Resp ε σ α} (h : c.threads[t]? = some th) :
    S.step (.stop t) c = some { c with threads := c.threads.set t { th with stopped := true } } := by
  simp only [step, h, Option.map_some]

theorem stop_cases {t : Nat} (h : S.step (.stop t) c = some c') :
    ∃ th, c.threads[t]? = some th ∧ c' = { c with threads := c.threads.set t { th with stopped := true } } := by
  obtain ⟨th, hThread, hEq⟩ := Option.map_eq_some_iff.mp h
  exact ⟨th, hThread, hEq.symm⟩

theorem Reach.performsEach {each : Nat → Op → Prop} (h : S.Reach ok c₀ c) (hEach : c₀.PerformsEach each) :
    c.PerformsEach each := by
  induction h with
  | start => exact hEach
  | @step c c' l _ _ hstep ih =>
    cases l with
    | run t a =>
      obtain ⟨o, th, k, hRan⟩ := run_cases hstep
      exact (hRan.performs_each ih).2
    | stop t =>
      obtain ⟨th, hThread, rfl⟩ := stop_cases hstep
      intro u thU hU
      rw [List.getElem?_set] at hU
      split at hU
      · rename_i hEq
        subst hEq
        split at hU
        · cases hU
          exact ih t th hThread
        · cases hU
      · exact ih u thU hU
    | event e =>
      cases hstep
      exact ih

end Store

end RestaurantOs.Async
