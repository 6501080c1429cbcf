import RestaurantOs.Async.Protocol

/-!
# One request beside the others

What a request's own moves keep and every other step keeps, from where the request
starts, holds where it ends. A request that has not started is still as it was sent.
-/

namespace RestaurantOs.Async

variable {Op : Type} {Resp : Op → Type} {ε σ ι η α : Type} {S : Store Op Resp ε σ ι η} {P : Protocol Op σ ι}
  {ok : Config Op Resp ε σ α → Label ι η → Prop} {c c₁ c₂ : Config Op Resp ε σ α} {t : Nat} {th : Thread Op Resp ε σ α}

def Config.unborn (c : Config Op Resp ε σ α) (t : Nat) : Bool := c.threads[t]?.any fun th => th.born.isNone

def Config.returned? (c : Config Op Resp ε σ α) (t : Nat) : Option α :=
  c.threads[t]?.bind fun th =>
    match th.prog with
    | .ret v => some v
    | _ => none

theorem Config.thread_of_unborn (h : c.unborn t = true) : ∃ th, c.threads[t]? = some th ∧ th.born = none := by
  obtain ⟨th, hThread, hBorn⟩ := (Option.any_eq_true _ _).mp h
  exact ⟨th, hThread, Option.isNone_iff_eq_none.mp hBorn⟩

theorem Config.thread_of_returned {v : α} (h : c.returned? t = some v) : ∃ th, c.threads[t]? = some th ∧ th.prog = .ret v := by
  obtain ⟨th, hThread, hProg⟩ := Option.bind_eq_some_iff.mp h
  refine ⟨th, hThread, ?_⟩
  split at hProg
  · cases hProg
    assumption
  · cases hProg

theorem Store.Reach.prog_of_unborn {s : σ} {requests : List (Prog Op Resp ε α)} (h : S.Reach ok (Config.initial s requests) c)
    (hThread : c.threads[t]? = some th) (hBorn : th.born = none) : requests[t]? = some th.prog := by
  induction h generalizing th with
  | start =>
    rw [Config.initial, List.getElem?_map, Option.map_eq_some_iff] at hThread
    obtain ⟨p, hAt, rfl⟩ := hThread
    exact hAt
  | @step c c' l _ _ hStep ih =>
    cases l with
    | run u a =>
      obtain ⟨o, thU, k, hRan⟩ := run_cases hStep
      rw [hRan.threads] at hThread
      rcases Tables.getElem?_set_cases hThread with ⟨rfl, rfl⟩ | ⟨-, hThread⟩
      · cases hBorn
      · exact ih hThread hBorn
    | stop u =>
      obtain ⟨thU, hThreadU, rfl⟩ := stop_cases hStep
      rcases Tables.getElem?_set_cases hThread with ⟨rfl, rfl⟩ | ⟨-, hThread⟩
      · exact (ih hThreadU hBorn :)
      · exact ih hThread hBorn
    | event e =>
      cases hStep
      exact ih hThread hBorn

theorem Store.Reach.beside {pt : P.Point} {Q : α → P.Point → Prop} {E : ε → P.Point → Prop} {I : Config Op Resp ε σ α → P.Point → Prop}
    (h : S.Reach ok c₁ c₂) (hThread : c₁.threads[t]? = some th) (hFollows : th.prog.Follows S P pt Q E) (hStart : I c₁ pt)
    (hOwn : ∀ {c c' : Config Op Resp ε σ α} {a : ι} {o : Op} {th : Thread Op Resp ε σ α} {k : Except ε (Resp o) → Prog Op Resp ε α}
      {pt pt' : P.Point}, I c pt → ok c (.run t a) → S.Ran c t a o th k c' → P.Move o a c.state pt pt' → I c' pt')
    (hOther : ∀ {c c' : Config Op Resp ε σ α} {l : Label ι η} {pt : P.Point}, I c pt → ok c l → S.step l c = some c' →
      (∀ a, l ≠ .run t a) → I c' pt) :
    ∃ th' pt', c₂.threads[t]? = some th' ∧ th'.prog.Follows S P pt' Q E ∧ I c₂ pt' := by
  induction h with
  | start => exact ⟨th, pt, hThread, hFollows, hStart⟩
  | @step c c' l _ hOk hStep ih =>
    obtain ⟨thC, ptC, hThreadC, hFollowsC, hI⟩ := ih
    cases l with
    | run u a =>
      by_cases hEq : u = t
      · subst hEq
        obtain ⟨o, thU, k, hRan⟩ := run_cases hStep
        cases hRan.thread.symm.trans hThreadC
        rw [hRan.prog] at hFollowsC
        obtain ⟨pt', hMove, hRest⟩ := hFollowsC a c.state
        have hMoved : c'.threads[u]? = some ⟨k (S.perform o a c.state).1, false, some (thC.born.getD c.state)⟩ := by
          rw [hRan.threads]
          exact Tables.getElem?_set_eq hRan.thread
        exact ⟨_, pt', hMoved, hRest, hOwn hI hOk hRan hMove⟩
      · have hI' := hOther hI hOk hStep fun a' hLabel => hEq (Label.run.inj hLabel).1
        obtain ⟨o, thU, k, hRan⟩ := run_cases hStep
        exact ⟨thC, ptC, by rw [hRan.threads, List.getElem?_set_ne hEq]; exact hThreadC, hFollowsC, hI'⟩
    | stop u =>
      have hI' := hOther hI hOk hStep fun a' hLabel => by cases hLabel
      obtain ⟨thU, hThreadU, rfl⟩ := stop_cases hStep
      by_cases hEq : u = t
      · subst hEq
        cases hThreadU.symm.trans hThreadC
        exact ⟨_, ptC, Tables.getElem?_set_eq hThreadU, hFollowsC, hI'⟩
      · exact ⟨thC, ptC, by rw [List.getElem?_set_ne hEq]; exact hThreadC, hFollowsC, hI'⟩
    | event e =>
      have hI' := hOther hI hOk hStep fun a' hLabel => by cases hLabel
      cases hStep
      exact ⟨thC, ptC, hThreadC, hFollowsC, hI'⟩

/-! ## The state in which a request started -/

def BornIn (K : σ → Prop) (t : Nat) (c : Config Op Resp ε σ α) : Prop :=
  ∀ th s, c.threads[t]? = some th → th.born = some s → K s

variable {K : σ → Prop} {c' : Config Op Resp ε σ α}

theorem BornIn.of_unborn (hThread : c.threads[t]? = some th) (hBorn : th.born = none) : BornIn K t c := by
  intro th' s hThread' hBorn'
  cases hThread.symm.trans hThread'
  rw [hBorn] at hBorn'
  cases hBorn'

theorem BornIn.getD (h : BornIn K t c) (hNow : K c.state) (hThread : c.threads[t]? = some th) : K (th.born.getD c.state) := by
  cases hBorn : th.born with
  | none => exact hNow
  | some s => exact h th s hThread hBorn

theorem BornIn.own {a : ι} {o : Op} {k : Except ε (Resp o) → Prog Op Resp ε α} (h : BornIn K t c) (hNow : K c.state)
    (hRan : S.Ran c t a o th k c') : BornIn K t c' := by
  intro th' s hThread hBorn
  rw [hRan.threads, Tables.getElem?_set_eq hRan.thread] at hThread
  cases hThread
  cases hBorn
  exact h.getD hNow hRan.thread

theorem BornIn.other {l : Label ι η} (h : BornIn K t c) (hStep : S.step l c = some c') (hNot : ∀ a, l ≠ .run t a) : BornIn K t c' := by
  intro th' s hThread hBorn
  cases l with
  | run u a =>
    obtain ⟨o, thU, k, hRan⟩ := Store.run_cases hStep
    rw [hRan.threads] at hThread
    rcases Tables.getElem?_set_cases hThread with ⟨rfl, -⟩ | ⟨-, hThread⟩
    · exact absurd rfl (hNot a)
    · exact h th' s hThread hBorn
  | stop u =>
    obtain ⟨thU, hThreadU, rfl⟩ := Store.stop_cases hStep
    rcases Tables.getElem?_set_cases hThread with ⟨rfl, rfl⟩ | ⟨-, hThread⟩
    · exact h thU s hThreadU hBorn
    · exact h th' s hThread hBorn
  | event e =>
    cases hStep
    exact h th' s hThread hBorn

end RestaurantOs.Async
