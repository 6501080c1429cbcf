import RestaurantOs.Async.Run

/-!
# Requests on their own

A request that nothing runs beside is a function of the state and of what the
environment answers.
-/

namespace RestaurantOs.Async

variable {Op : Type} {Resp : Op → Type} {ε σ ι η ρ α β : Type}

namespace Prog

/-- `p` from its first operation to its end, each one answered `a`. -/
def eval (S : Store Op Resp ε σ ι η) (a : ι) : Prog Op Resp ε α → σ → Except ε α × σ
  | ret v, s => (.ok v, s)
  | raise e, s => (.error e, s)
  | await o k, s => (k (S.perform o a s).1).eval S a (S.perform o a s).2

variable {S : Store Op Resp ε σ ι η} {a : ι} {s : σ}

@[simp] theorem eval_ret {v : α} : (ret v : Prog Op Resp ε α).eval S a s = (.ok v, s) := rfl

@[simp] theorem eval_raise {e : ε} : (raise e : Prog Op Resp ε α).eval S a s = (.error e, s) := rfl

theorem eval_bind (p : Prog Op Resp ε α) (f : α → Prog Op Resp ε β) :
    (p.bind f).eval S a s =
      match (p.eval S a s).1 with
      | .ok v => (f v).eval S a (p.eval S a s).2
      | .error e => (.error e, (p.eval S a s).2) := by
  induction p generalizing s with
  | ret v => rfl
  | raise e => rfl
  | await o k ih => exact ih _

theorem eval_attempt (p : Prog Op Resp ε α) : p.attempt.eval S a s = (.ok (p.eval S a s).1, (p.eval S a s).2) := by
  induction p generalizing s with
  | ret v => rfl
  | raise e => rfl
  | await o k ih => exact ih _

theorem eval_call (o : Op) : (call o : Prog Op Resp ε (Resp o)).eval S a s = S.perform o a s := by
  rw [call, eval]
  generalize S.perform o a s = r
  obtain ⟨_ | _, _⟩ := r <;> rfl

theorem eval_bind_ok {p : Prog Op Resp ε α} {f : α → Prog Op Resp ε β} {v : α} {s' : σ} (h : p.eval S a s = (.ok v, s')) :
    (p.bind f).eval S a s = (f v).eval S a s' := by
  rw [eval_bind, h]

theorem eval_bind_error {p : Prog Op Resp ε α} {f : α → Prog Op Resp ε β} {e : ε} {s' : σ}
    (h : p.eval S a s = (.error e, s')) : (p.bind f).eval S a s = (.error e, s') := by
  rw [eval_bind, h]

theorem eval_attempt_of {p : Prog Op Resp ε α} {r : Except ε α} {s' : σ} (h : p.eval S a s = (r, s')) :
    p.attempt.eval S a s = (.ok r, s') := by
  rw [eval_attempt, h]

theorem Performs.eval {ok : Op → Prop} {I : σ → Prop} {p : Prog Op Resp ε α} (h : p.Performs ok)
    (hKeep : ∀ o s, ok o → I s → I (S.perform o a s).2) (hI : I s) : I (p.eval S a s).2 := by
  induction p generalizing s with
  | ret v => exact hI
  | raise e => exact hI
  | await o k ih => exact ih _ (h.2 _) (hKeep o s h.1 hI)

/-- `p` from its first operation to its end, the environment answering its
`n`th operation with `answers n`. -/
def respond (S : Store Op Resp ε σ ι η) : Prog Op Resp ε α → (Nat → ι) → σ → Except ε α × σ
  | ret v, _, s => (.ok v, s)
  | raise e, _, s => (.error e, s)
  | await o k, answers, s =>
    (k (S.perform o (answers 0) s).1).respond S (fun n => answers (n + 1)) (S.perform o (answers 0) s).2

variable {answers : Nat → ι}

@[simp] theorem respond_ret {v : α} : (ret v : Prog Op Resp ε α).respond S answers s = (.ok v, s) := rfl

@[simp] theorem respond_raise {e : ε} : (raise e : Prog Op Resp ε α).respond S answers s = (.error e, s) := rfl

theorem respond_call (o : Op) : (call o : Prog Op Resp ε (Resp o)).respond S answers s = S.perform o (answers 0) s := by
  rw [call, respond]
  generalize S.perform o (answers 0) s = r
  obtain ⟨_ | _, _⟩ := r <;> rfl

/-- What `p` returned decides how the rest goes on, with the answers that `p` has
not used. -/
theorem respond_bind (p : Prog Op Resp ε α) (f : α → Prog Op Resp ε β) :
    ∃ rest : Nat → ι, (p.bind f).respond S answers s =
      match p.respond S answers s with
      | (.ok v, s') => (f v).respond S rest s'
      | (.error e, s') => (.error e, s') := by
  induction p generalizing answers s with
  | ret v => exact ⟨answers, rfl⟩
  | raise e => exact ⟨answers, rfl⟩
  | await o k ih => exact ih _

theorem respond_call_bind (o : Op) (f : Resp o → Prog Op Resp ε α) :
    ((call o).bind f).respond S answers s =
      match S.perform o (answers 0) s with
      | (.ok v, s') => (f v).respond S (fun n => answers (n + 1)) s'
      | (.error e, s') => (.error e, s') := by
  rw [call, Prog.bind, respond]
  generalize S.perform o (answers 0) s = r
  obtain ⟨_ | _, _⟩ := r <;> rfl

end Prog

structure Served (ρ ε σ ι α : Type) where
  request : ρ
  answers : Nat → ι
  before : σ
  answer : Except ε α
  after : σ

/-- Requests of `program` are served from `s`, each one completed before the
next; the history has the last one first. -/
inductive Serves (S : Store Op Resp ε σ ι η) (program : ρ → Prog Op Resp ε α) (s : σ) :
    List (Served ρ ε σ ι α) → σ → Prop
  | start : Serves S program s [] s
  | event (e : η) {history : List (Served ρ ε σ ι α)} {s' : σ} (h : Serves S program s history s') :
      Serves S program s history (S.advance e s')
  | request (request : ρ) (answers : Nat → ι) {history : List (Served ρ ε σ ι α)} {s' s'' : σ} {answer : Except ε α}
      (h : Serves S program s history s') (hServed : (program request).respond S answers s' = (answer, s'')) :
      Serves S program s (⟨request, answers, s', answer, s''⟩ :: history) s''

/-- A step of `ends` was taken, and none of `breaks` since. -/
def Since (ends breaks : Served ρ ε σ ι α → Prop) : List (Served ρ ε σ ι α) → Prop
  | [] => False
  | step :: history => ends step ∨ (¬ breaks step ∧ Since ends breaks history)

instance Since.decidable (ends breaks : Served ρ ε σ ι α → Prop) [DecidablePred ends] [DecidablePred breaks] :
    (history : List (Served ρ ε σ ι α)) → Decidable (Since ends breaks history)
  | [] => inferInstanceAs (Decidable False)
  | step :: history =>
    have := Since.decidable ends breaks history
    inferInstanceAs (Decidable (ends step ∨ (¬ breaks step ∧ Since ends breaks history)))

def serve (S : Store Op Resp ε σ ι η) (program : ρ → Prog Op Resp ε α) :
    List (η ⊕ ρ × (Nat → ι)) → List (Served ρ ε σ ι α) × σ → List (Served ρ ε σ ι α) × σ
  | [], c => c
  | .inl e :: script, c => serve S program script (c.1, S.advance e c.2)
  | .inr (request, answers) :: script, c =>
    let served := (program request).respond S answers c.2
    serve S program script (⟨request, answers, c.2, served.1, served.2⟩ :: c.1, served.2)

section Serves

variable {S : Store Op Resp ε σ ι η} {program : ρ → Prog Op Resp ε α} {s s' : σ} {history : List (Served ρ ε σ ι α)}

theorem serves_serve (script : List (η ⊕ ρ × (Nat → ι))) {c : List (Served ρ ε σ ι α) × σ}
    (h : Serves S program s c.1 c.2) :
    Serves S program s (serve S program script c).1 (serve S program script c).2 := by
  induction script generalizing c with
  | nil => exact h
  | cons item script ih =>
    rcases item with e | ⟨request, answers⟩
    · exact ih (c := (c.1, S.advance e c.2)) (.event e h)
    · exact ih (c := (⟨request, answers, c.2, _, _⟩ :: c.1, _)) (.request request answers h rfl)

theorem Serves.invariant {I : List (Served ρ ε σ ι α) → σ → Prop} (h : Serves S program s history s') (hStart : I [] s)
    (hEvent : ∀ {history s'} (e : η), I history s' → I history (S.advance e s'))
    (hRequest : ∀ {history s' s''} (request : ρ) (answers : Nat → ι) {answer : Except ε α}, I history s' →
      (program request).respond S answers s' = (answer, s'') → I (⟨request, answers, s', answer, s''⟩ :: history) s'') :
    I history s' := by
  induction h with
  | start => exact hStart
  | event e _ ih => exact hEvent e ih
  | request request answers _ hServed ih => exact hRequest request answers ih hServed

theorem Serves.since {ends breaks : Served ρ ε σ ι α → Prop} {Q : σ → Prop} (h : Serves S program s history s')
    (hEnds : ∀ step ∈ history, (program step.request).respond S step.answers step.before = (step.answer, step.after) →
      ends step → Q step.after)
    (hKeep : ∀ step ∈ history, ¬ breaks step → Q step.before → Q step.after) (hEvent : ∀ e s, Q s → Q (S.advance e s))
    (hSince : Since ends breaks history) : Q s' := by
  induction h with
  | start => exact hSince.elim
  | event e _ ih => exact hEvent e _ (ih hEnds hKeep hSince)
  | request request answers _ hServed ih =>
    rcases hSince with hNow | ⟨hStill, hSince⟩
    · exact hEnds _ List.mem_cons_self hServed hNow
    · apply hKeep _ List.mem_cons_self hStill
      exact ih (fun step hStep => hEnds step (List.mem_cons_of_mem _ hStep))
        (fun step hStep => hKeep step (List.mem_cons_of_mem _ hStep)) hSince

end Serves

end RestaurantOs.Async
