import RestaurantOs.Async.Protocol

/-!
# Requests alone

A request can be performed alone, with each of its operations in a state of its own.
A protocol that remembers these states says what the request comes to.
-/

namespace RestaurantOs.Async

variable {Op : Type} {Resp : Op → Type} {ε σ ι η α : Type} {S : Store Op Resp ε σ ι η} {P : Protocol Op σ ι}
  {ok : Config Op Resp ε σ α → Label ι η → Prop} {c₁ c c' : Config Op Resp ε σ α} {s : σ}

namespace Prog

def replay (S : Store Op Resp ε σ ι η) : Prog Op Resp ε α → List (ι × σ) → Option (Except ε α)
  | ret v, [] => some (.ok v)
  | raise e, [] => some (.error e)
  | await o k, (a, s) :: seen => (k (S.perform o a s).1).replay S seen
  | _, _ => none

theorem Performs.follows_replay {ok : Op → Prop} {p : Prog Op Resp ε α} (h : p.Performs ok) {point : List (ι × σ) → P.Point}
    (hMove : ∀ o, ok o → ∀ a s seen, P.Move o a s (point seen) (point (seen ++ [(a, s)]))) (seen : List (ι × σ)) :
    p.Follows S P (point seen) (fun v pt => ∃ later, pt = point (seen ++ later) ∧ p.replay S later = some (.ok v))
      fun e pt => ∃ later, pt = point (seen ++ later) ∧ p.replay S later = some (.error e) := by
  induction p generalizing seen with
  | ret v => exact ⟨[], by rw [List.append_nil], rfl⟩
  | raise e => exact ⟨[], by rw [List.append_nil], rfl⟩
  | await o k ih =>
    intro a s
    refine ⟨_, hMove o h.1 a s seen, (ih _ (h.2 _) _).mono ?_ ?_⟩
    · rintro v pt ⟨later, rfl, hLater⟩
      exact ⟨(a, s) :: later, by rw [List.append_assoc, List.singleton_append], hLater⟩
    · rintro e pt ⟨later, rfl, hLater⟩
      exact ⟨(a, s) :: later, by rw [List.append_assoc, List.singleton_append], hLater⟩

end Prog

/-- A run on from `c₁` comes through the state on its way to `c`. -/
def Store.Passed (S : Store Op Resp ε σ ι η) (ok : Config Op Resp ε σ α → Label ι η → Prop) (c₁ c : Config Op Resp ε σ α) (s : σ) : Prop :=
  ∃ between, S.Reach ok c₁ between ∧ S.Reach ok between c ∧ between.state = s

theorem Store.Passed.step {l : Label ι η} (h : S.Passed ok c₁ c s) (hOk : ok c l) (hStep : S.step l c = some c') : S.Passed ok c₁ c' s := by
  obtain ⟨between, hFrom, hOn, hState⟩ := h
  exact ⟨between, hFrom, hOn.step hOk hStep, hState⟩

theorem Store.Reach.passed {l : Label ι η} (h : S.Reach ok c₁ c) (hOk : ok c l) (hStep : S.step l c = some c') :
    S.Passed ok c₁ c' c.state :=
  ⟨c, h, Store.Reach.start.step hOk hStep, rfl⟩

end RestaurantOs.Async
