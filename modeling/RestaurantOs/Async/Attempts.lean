import RestaurantOs.Async.Sequential

/-!
# Attempts that may stop

A request that nothing runs beside, as far as it gets: an operation may throw, and
the process may stop before one.
-/

namespace RestaurantOs.Async.Prog

variable {Op : Type} {Resp : Op → Type} {ε σ ι η α β : Type}

/-- `p` as far as it gets: its `n`th operation is answered `turns n`, or the
process stops before it. There is no outcome when the process stops. -/
def reached (S : Store Op Resp ε σ ι η) : Prog Op Resp ε α → (Nat → Option ι) → σ → Option (Except ε α) × σ
  | ret v, _, s => (some (.ok v), s)
  | raise e, _, s => (some (.error e), s)
  | await o k, turns, s =>
    match turns 0 with
    | none => (none, s)
    | some a => (k (S.perform o a s).1).reached S (fun n => turns (n + 1)) (S.perform o a s).2

/-- The operations that `p` does not get through: they throw, or the process
stops before them. -/
def failures (S : Store Op Resp ε σ ι η) : Prog Op Resp ε α → (Nat → Option ι) → σ → List Op
  | ret _, _, _ => []
  | raise _, _, _ => []
  | await o k, turns, s =>
    match turns 0 with
    | none => [o]
    | some a =>
      let rest := (k (S.perform o a s).1).failures S (fun n => turns (n + 1)) (S.perform o a s).2
      match (S.perform o a s).1 with
      | .ok _ => rest
      | .error _ => o :: rest

variable {S : Store Op Resp ε σ ι η} {turns : Nat → Option ι} {a : ι} {s s' : σ}

@[simp] theorem reached_ret {v : α} : (ret v : Prog Op Resp ε α).reached S turns s = (some (.ok v), s) := rfl

@[simp] theorem reached_raise {e : ε} : (raise e : Prog Op Resp ε α).reached S turns s = (some (.error e), s) := rfl

theorem reached_await {o : Op} {k : Except ε (Resp o) → Prog Op Resp ε α} : (await o k).reached S turns s =
    match turns 0 with
    | none => (none, s)
    | some a => (k (S.perform o a s).1).reached S (fun n => turns (n + 1)) (S.perform o a s).2 := by
  rw [reached]

@[simp] theorem failures_ret {v : α} : (ret v : Prog Op Resp ε α).failures S turns s = [] := rfl

@[simp] theorem failures_raise {e : ε} : (raise e : Prog Op Resp ε α).failures S turns s = [] := rfl

theorem failures_await {o : Op} {k : Except ε (Resp o) → Prog Op Resp ε α} : (await o k).failures S turns s =
    match turns 0 with
    | none => [o]
    | some a =>
      match (S.perform o a s).1 with
      | .ok _ => (k (S.perform o a s).1).failures S (fun n => turns (n + 1)) (S.perform o a s).2
      | .error _ => o :: (k (S.perform o a s).1).failures S (fun n => turns (n + 1)) (S.perform o a s).2 := by
  rw [failures]

/-- What `p` returned decides how the rest goes on, with the turns that `p` has
not used. -/
theorem reached_bind (p : Prog Op Resp ε α) (f : α → Prog Op Resp ε β) :
    ∃ used : Nat,
      (p.bind f).reached S turns s =
        (match p.reached S turns s with
        | (some (.ok v), s') => (f v).reached S (fun n => turns (n + used)) s'
        | (some (.error e), s') => (some (.error e), s')
        | (none, s') => (none, s')) ∧
      (p.bind f).failures S turns s = p.failures S turns s ++
        (match p.reached S turns s with
        | (some (.ok v), s') => (f v).failures S (fun n => turns (n + used)) s'
        | _ => []) := by
  induction p generalizing turns s with
  | ret v => exact ⟨0, rfl, rfl⟩
  | raise e => exact ⟨0, rfl, rfl⟩
  | await o k ih =>
    simp only [Prog.bind, reached_await, failures_await]
    cases turns 0 with
    | none => exact ⟨0, rfl, rfl⟩
    | some a =>
      obtain ⟨used, hReached, hFailures⟩ := @ih (S.perform o a s).1 (fun n => turns (n + 1)) (S.perform o a s).2
      refine ⟨used + 1, hReached, ?_⟩
      dsimp only
      rw [hFailures]
      cases (S.perform o a s).1 with
      | ok v => rfl
      | error e => exact List.cons_append.symm

theorem reached_answered (p : Prog Op Resp ε α) :
    p.reached S (fun _ => some a) s = (some (p.eval S a s).1, (p.eval S a s).2) := by
  induction p generalizing s with
  | ret v => rfl
  | raise e => rfl
  | await o k ih => exact ih _

theorem eval_faulty {φ : Type} {error : φ → ε} (p : Prog Op Resp ε α) :
    p.eval (S.faulty error) (.ok a) s = p.eval S a s := by
  induction p generalizing s with
  | ret v => rfl
  | raise e => rfl
  | await o k ih => exact ih _

theorem Performs.reached {ok : Op → Prop} {I : σ → Prop} {p : Prog Op Resp ε α} (h : p.Performs ok)
    (hKeep : ∀ o b s, ok o → I s → I (S.perform o b s).2) (hI : I s) : I (p.reached S turns s).2 := by
  induction p generalizing turns s with
  | ret v => exact hI
  | raise e => exact hI
  | await o k ih =>
    rw [reached_await]
    cases turns 0 with
    | none => exact hI
    | some b => exact ih _ (h.2 _) (hKeep o b s h.1 hI)

theorem Performs.of_failures {ok : Op → Prop} {p : Prog Op Resp ε α} (h : p.Performs ok) :
    ∀ o ∈ p.failures S turns s, ok o := by
  induction p generalizing turns s with
  | ret v => simp
  | raise e => simp
  | await o k ih =>
    intro o' ho'
    rw [failures_await] at ho'
    cases hTurn : turns 0 with
    | none =>
      rw [hTurn] at ho'
      exact List.mem_singleton.mp ho' ▸ h.1
    | some b =>
      simp only [hTurn] at ho'
      cases hResult : (S.perform o b s).1 with
      | ok v =>
        simp only [hResult] at ho'
        exact ih _ (h.2 _) o' ho'
      | error e =>
        simp only [hResult] at ho'
        rcases List.mem_cons.mp ho' with rfl | ho'
        · exact h.1
        · exact ih _ (h.2 _) o' ho'

/-- When no operation fails and each does what it does when it is answered `a`,
the attempt is the run in which each is answered `a`. -/
theorem reached_eq_eval {p : Prog Op Resp ε α}
    (hPerforms : p.Performs fun o => ∀ b s, (S.perform o b s).1.isOk = true → S.perform o b s = S.perform o a s)
    (hNone : p.failures S turns s = []) :
    p.reached S turns s = (some (p.eval S a s).1, (p.eval S a s).2) ∧ p.failures S (fun _ => some a) s = [] := by
  induction p generalizing turns s with
  | ret v => exact ⟨rfl, rfl⟩
  | raise e => exact ⟨rfl, rfl⟩
  | await o k ih =>
    rw [failures_await] at hNone
    rw [reached_await, failures_await, eval]
    cases hTurn : turns 0 with
    | none => simp [hTurn] at hNone
    | some b =>
      simp only [hTurn] at hNone
      cases hResult : (S.perform o b s).1 with
      | error e => simp [hResult] at hNone
      | ok v =>
        simp only [hResult] at hNone
        have hSame : S.perform o b s = S.perform o a s := hPerforms.1 b s (by rw [hResult]; rfl)
        rw [hSame] at hResult hNone
        dsimp only
        rw [hSame, hResult]
        rw [← hResult] at hNone ⊢
        simpa only [hResult] using ih _ (hPerforms.2 _) hNone

/-- With every operation answered `a`, `p` raises nothing but what an operation
has thrown. -/
def EndsWell (S : Store Op Resp ε σ ι η) (a : ι) (p : Prog Op Resp ε α) (s : σ) : Prop :=
  p.failures S (fun _ => some a) s = [] → (p.eval S a s).1.isOk = true

theorem endsWell_ret {v : α} : (ret v : Prog Op Resp ε α).EndsWell S a s := fun _ => rfl

theorem endsWell_call {o : Op} : (call o : Prog Op Resp ε (Resp o)).EndsWell S a s := by
  intro hNone
  rw [eval_call]
  rw [call, failures_await] at hNone
  cases hResult : (S.perform o a s).1 with
  | ok v => rfl
  | error e => simp [hResult] at hNone

theorem EndsWell.bind {p : Prog Op Resp ε α} {f : α → Prog Op Resp ε β} (hp : p.EndsWell S a s)
    (hf : ∀ v s', p.eval S a s = (.ok v, s') → (f v).EndsWell S a s') : (p.bind f).EndsWell S a s := by
  intro hNone
  obtain ⟨used, -, hFailures⟩ := @reached_bind _ _ _ _ _ _ _ _ S (fun _ => some a) s p f
  rw [hFailures, List.append_eq_nil_iff, reached_answered] at hNone
  obtain ⟨hFirst, hRest⟩ := hNone
  have hOk := hp hFirst
  obtain ⟨v, hValue⟩ : ∃ v, (p.eval S a s).1 = .ok v := by
    cases hEval : (p.eval S a s).1 with
    | ok v => exact ⟨v, rfl⟩
    | error e => rw [hEval] at hOk; cases hOk
  have hEval : p.eval S a s = (.ok v, (p.eval S a s).2) := Prod.ext hValue rfl
  rw [hValue] at hRest
  rw [eval_bind_ok hEval]
  exact hf v _ hEval hRest

theorem endsWell_onlyIf {c : Prop} [Decidable c] {p : Prog Op Resp ε Unit} (hp : p.EndsWell S a s) :
    (onlyIf c p).EndsWell S a s := by
  unfold onlyIf
  split
  · exact hp
  · exact endsWell_ret

end RestaurantOs.Async.Prog
