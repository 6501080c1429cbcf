import RestaurantOs.Async.Rely
import RestaurantOs.Data.Tables

/-!
# Requests that start later

A request that has not started yet is still as it was sent. Once the
configuration has a property that every step keeps, the request can rely on it
from its first operation on.
-/

namespace RestaurantOs.Async

variable {Op : Type} {Resp : Op → Type} {ε σ ι η α : Type} {S : Store Op Resp ε σ ι η}
  {guard : Config Op Resp ε σ α → Label ι η → Prop} {c c' c₁ c₂ : Config Op Resp ε σ α} {t : Nat} {th : Thread Op Resp ε σ α}

theorem Store.Reach.unborn {s : σ} {requests : List (Prog Op Resp ε α)} (h : S.Reach guard (Config.initial s requests) c)
    (hThread : c.threads[t]? = some th) (hBorn : th.born = none) : th.prog ∈ requests := by
  induction h generalizing th with
  | start =>
    obtain ⟨p, hp, rfl⟩ := List.mem_map.mp (List.mem_of_getElem? hThread)
    exact hp
  | @step c c' l _ _ hStep ih =>
    cases l with
    | run u a =>
      obtain ⟨o, thU, k, hRan⟩ := run_cases hStep
      rw [hRan.threads] at hThread
      rcases Tables.getElem?_set_cases hThread with ⟨rfl, rfl⟩ | ⟨-, hThread⟩
      · cases hBorn
      · exact ih hThread hBorn
    | stop u =>
      obtain ⟨thU, hThreadU, rfl⟩ := stop_cases hStep
      rcases Tables.getElem?_set_cases hThread with ⟨rfl, rfl⟩ | ⟨-, hThread⟩
      · exact (ih hThreadU hBorn :)
      · exact ih hThread hBorn
    | event e =>
      cases hStep
      exact ih hThread hBorn

theorem Store.Ran.born {u : Nat} {a : ι} {o : Op} {thU : Thread Op Resp ε σ α} {k : Except ε (Resp o) → Prog Op Resp ε α} {s : σ}
    (hRan : S.Ran c u a o thU k c') (hThread : c.threads[t]? = some th) (hBorn : th.born = some s) :
    ∃ th', c'.threads[t]? = some th' ∧ th'.born = some s := by
  rw [hRan.threads]
  by_cases hEq : u = t
  · subst hEq
    cases hRan.thread.symm.trans hThread
    exact ⟨_, Tables.getElem?_set_eq hRan.thread, by rw [hBorn, Option.getD_some]⟩
  · exact ⟨th, (List.getElem?_set_ne hEq).trans hThread, hBorn⟩

/-- A request that does what `ok` allows as long as it is answered as `rely` has
it goes on so, when every step keeps `I` and `I` answers it so. -/
theorem Store.Reach.keeps {rely : (o : Op) → Except ε (Resp o) → Prop} {ok : Op → Prop} {I : Config Op Resp ε σ α → Prop}
    (h : S.Reach guard c₁ c₂) (hStart : I c₁) (hStep : ∀ c l c', I c → guard c l → S.step l c = some c' → I c')
    (hRely : ∀ c o a, I c → rely o (S.perform o a c.state).1) (hThread : c₁.threads[t]? = some th)
    (hKeeps : th.prog.Keeps rely ok (fun _ => True) fun _ => True) :
    I c₂ ∧ ∃ th₂, c₂.threads[t]? = some th₂ ∧ th₂.prog.Keeps rely ok (fun _ => True) fun _ => True := by
  induction h with
  | start => exact ⟨hStart, th, hThread, hKeeps⟩
  | @step c c' l _ hGuard hNext ih =>
    obtain ⟨hI, thC, hThreadC, hKeepsC⟩ := ih
    refine ⟨hStep c l c' hI hGuard hNext, ?_⟩
    cases l with
    | run u a =>
      obtain ⟨o, thU, k, hRan⟩ := run_cases hNext
      rw [hRan.threads]
      by_cases hEq : u = t
      · subst hEq
        rw [hRan.thread] at hThreadC
        cases hThreadC
        exact ⟨_, Tables.getElem?_set_eq hRan.thread, (hRan.keeps_self (hRely c o a hI) hKeepsC).2⟩
      · exact ⟨thC, by rw [List.getElem?_set_ne hEq]; exact hThreadC, hKeepsC⟩
    | stop u =>
      obtain ⟨thU, hThreadU, rfl⟩ := stop_cases hNext
      by_cases hEq : u = t
      · subst hEq
        rw [hThreadU] at hThreadC
        cases hThreadC
        exact ⟨_, Tables.getElem?_set_eq hThreadU, hKeepsC⟩
      · exact ⟨thC, by rw [List.getElem?_set_ne hEq]; exact hThreadC, hKeepsC⟩
    | event e =>
      cases hNext
      exact ⟨thC, hThreadC, hKeepsC⟩

end RestaurantOs.Async
