import RestaurantOs.Async.Run

/-!
# Relying on answers

What a request may come to do when the store answers it in the ways it relies
on. The answers of a store whose state keeps an invariant are such answers, so
the operations of the requests can be used to keep the invariant.
-/

namespace RestaurantOs.Async

variable {Op : Type} {Resp : Op → Type} {ε σ ι η α β : Type}

namespace Prog

/-- Answered as `rely` has it, `p` performs only operations that meet `ok`; it
returns where `Q` holds and throws where `E` holds. -/
def Keeps (rely : (o : Op) → Except ε (Resp o) → Prop) (ok : Op → Prop) :
    Prog Op Resp ε α → (α → Prop) → (ε → Prop) → Prop
  | ret a, Q, _ => Q a
  | raise e, _, E => E e
  | await o k, Q, E => ok o ∧ ∀ r, rely o r → Keeps rely ok (k r) Q E

variable {rely : (o : Op) → Except ε (Resp o) → Prop} {ok ok' : Op → Prop} {p : Prog Op Resp ε α}
  {Q Q' : α → Prop} {R : β → Prop} {E E' : ε → Prop}

@[simp] theorem keeps_ret {a : α} : (ret a : Prog Op Resp ε α).Keeps rely ok Q E ↔ Q a := Iff.rfl

@[simp] theorem keeps_raise {e : ε} : (raise e : Prog Op Resp ε α).Keeps rely ok Q E ↔ E e := Iff.rfl

theorem Keeps.mono (h : p.Keeps rely ok Q E) (hQ : ∀ a, Q a → Q' a) (hE : ∀ e, E e → E' e) :
    p.Keeps rely ok Q' E' := by
  induction p with
  | ret a => exact hQ a h
  | raise e => exact hE e h
  | await o k ih => exact ⟨h.1, fun r hr => ih r (h.2 r hr)⟩

@[simp] theorem keeps_bind {f : α → Prog Op Resp ε β} :
    (p.bind f).Keeps rely ok R E ↔ p.Keeps rely ok (fun a => (f a).Keeps rely ok R E) E := by
  induction p with
  | ret a => rfl
  | raise e => rfl
  | await o k ih => simp only [Prog.bind, Keeps, ih]

@[simp] theorem keeps_attempt {Q : Except ε α → Prop} :
    p.attempt.Keeps rely ok Q E ↔ p.Keeps rely ok (fun a => Q (.ok a)) fun e => Q (.error e) := by
  induction p with
  | ret a => rfl
  | raise e => rfl
  | await o k ih => simp only [attempt, Keeps, ih]

theorem keeps_call {o : Op} {Q : Resp o → Prop} (hOk : ok o) (hQ : ∀ v, rely o (.ok v) → Q v)
    (hE : ∀ e, E e) : (call o : Prog Op Resp ε (Resp o)).Keeps rely ok Q E := by
  refine ⟨hOk, fun r hr => ?_⟩
  cases r with
  | ok v => exact hQ v hr
  | error e => exact hE e

theorem keeps_ofExcept {r : Except ε α} (hQ : ∀ a, r = .ok a → Q a) (hE : ∀ e, E e) :
    (ofExcept r : Prog Op Resp ε α).Keeps rely ok Q E := by
  cases r with
  | ok a => exact hQ a rfl
  | error e => exact hE e

theorem keeps_onlyIf {c : Prop} [Decidable c] {p : Prog Op Resp ε Unit} {Q : Unit → Prop}
    (hThen : c → p.Keeps rely ok Q E) (hElse : Q ()) : (onlyIf c p).Keeps rely ok Q E := by
  unfold onlyIf
  split
  · exact hThen ‹_›
  · exact hElse

theorem Performs.keeps (h : p.Performs ok') (hOk : ∀ o, ok' o → ok o) (hQ : ∀ a, Q a) (hE : ∀ e, E e) :
    p.Keeps rely ok Q E := by
  induction p with
  | ret a => exact hQ a
  | raise e => exact hE e
  | await o k ih => exact ⟨hOk o h.1, fun r _ => ih r (h.2 r)⟩

end Prog

/-- Every request of `c` does only what `ok` allows, as long as it is answered
as `rely` has it. -/
def Config.Keeps (rely : (o : Op) → Except ε (Resp o) → Prop) (ok : Op → Prop) (c : Config Op Resp ε σ α) : Prop :=
  ∀ th ∈ c.threads, th.prog.Keeps rely ok (fun _ => True) fun _ => True

variable {S : Store Op Resp ε σ ι η} {rely : (o : Op) → Except ε (Resp o) → Prop} {ok : Op → Prop}
  {c c' : Config Op Resp ε σ α} {t : Nat} {a : ι} {o : Op} {th : Thread Op Resp ε σ α}
  {k : Except ε (Resp o) → Prog Op Resp ε α} {Q : α → Prop} {E : ε → Prop}

theorem Store.Ran.keeps_self (h : S.Ran c t a o th k c') (hRely : rely o (S.perform o a c.state).1)
    (hKeeps : th.prog.Keeps rely ok Q E) : ok o ∧ (k (S.perform o a c.state).1).Keeps rely ok Q E := by
  rw [h.prog] at hKeeps
  exact ⟨hKeeps.1, hKeeps.2 _ hRely⟩

theorem Store.Ran.keeps (h : S.Ran c t a o th k c') (hRely : rely o (S.perform o a c.state).1)
    (hKeeps : c.Keeps rely ok) : ok o ∧ c'.Keeps rely ok := by
  obtain ⟨hOk, hRest⟩ := h.keeps_self hRely (hKeeps th (List.mem_of_getElem? h.thread))
  refine ⟨hOk, fun thU hU => ?_⟩
  rw [h.threads] at hU
  rcases List.mem_or_eq_of_mem_set hU with hU | rfl
  · exact hKeeps thU hU
  · exact hRest

/-- The invariant rule for requests that rely on the state's answers: they
keep `I` by doing what `ok` allows, and `I` answers them as they rely on. -/
theorem Config.Keeps.invariant {guard : Config Op Resp ε σ α → Label ι η → Prop} {c₀ : Config Op Resp ε σ α}
    {I : σ → Prop} (hKeeps : c₀.Keeps rely ok) (hStart : I c₀.state)
    (hRely : ∀ s o a, I s → rely o (S.perform o a s).1)
    (hRun : ∀ {c c' : Config Op Resp ε σ α} {t : Nat} {a : ι} {o : Op} {th : Thread Op Resp ε σ α}
      {k : Except ε (Resp o) → Prog Op Resp ε α}, I c.state → guard c (.run t a) → S.Ran c t a o th k c' → ok o →
      I c'.state)
    (hEvent : ∀ s e, I s → I (S.advance e s)) (h : S.Reach guard c₀ c) : I c.state ∧ c.Keeps rely ok := by
  induction h with
  | start => exact ⟨hStart, hKeeps⟩
  | @step c c' l _ hGuard hstep ih =>
    obtain ⟨hI, hC⟩ := ih
    cases l with
    | run t a =>
      obtain ⟨o, th, k, hRan⟩ := Store.run_cases hstep
      obtain ⟨hOk, hC'⟩ := hRan.keeps (hRely c.state o a hI) hC
      exact ⟨hRun hI hGuard hRan hOk, hC'⟩
    | stop t =>
      obtain ⟨th, hThread, rfl⟩ := Store.stop_cases hstep
      refine ⟨hI, fun thU hU => ?_⟩
      rcases List.mem_or_eq_of_mem_set hU with hU | rfl
      · exact hC thU hU
      · exact hC th (List.mem_of_getElem? hThread)
    | event e =>
      cases hstep
      exact ⟨hEvent c.state e hI, hC⟩

end RestaurantOs.Async
