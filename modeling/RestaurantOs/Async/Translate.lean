import RestaurantOs.Async.Protocol
import RestaurantOs.Async.Sequential

/-!
# Requests over a larger store

A request of one store becomes a request of another when each of its operations
is given as a request there.
-/

namespace RestaurantOs.Async

variable {Op Op' : Type} {Resp : Op → Type} {Resp' : Op' → Type} {ε σ ι η α β : Type}

namespace Prog

def translate (f : (o : Op) → Prog Op' Resp' ε (Resp o)) : Prog Op Resp ε α → Prog Op' Resp' ε α
  | ret a => ret a
  | raise e => raise e
  | await o k => (f o).attempt.bind fun r => (k r).translate f

theorem Performs.translate {ok : Op → Prop} {ok' : Op' → Prop} {f : (o : Op) → Prog Op' Resp' ε (Resp o)}
    {p : Prog Op Resp ε α} (h : p.Performs ok) (hf : ∀ o, ok o → (f o).Performs ok') : (p.translate f).Performs ok' := by
  induction p with
  | ret a => trivial
  | raise e => trivial
  | await o k ih => exact (hf o h.1).attempt.bind fun r => ih r (h.2 r)

theorem Follows.translate {σ' ι' η' : Type} {S : Store Op Resp ε σ ι η} {S' : Store Op' Resp' ε σ' ι' η'} {P : Protocol Op σ ι}
    {P' : Protocol Op' σ' ι'} {f : (o : Op) → Prog Op' Resp' ε (Resp o)} {p : Prog Op Resp ε α} {pt : P.Point}
    {Q : α → P.Point → Prop} {E : ε → P.Point → Prop} (h : p.Follows S P pt Q E) (point : P.Point → P'.Point)
    (hf : ∀ o pt (R : Except ε (Resp o) → P.Point → Prop), (∀ a s, ∃ pt', P.Move o a s pt pt' ∧ R (S.perform o a s).1 pt') →
      (f o).attempt.Follows S' P' (point pt) (fun r pt' => ∃ pt₁, pt' = point pt₁ ∧ R r pt₁) fun _ _ => False) :
    (p.translate f).Follows S' P' (point pt) (fun a pt' => ∃ pt₁, pt' = point pt₁ ∧ Q a pt₁)
      fun e pt' => ∃ pt₁, pt' = point pt₁ ∧ E e pt₁ := by
  induction p generalizing pt with
  | ret a => exact ⟨pt, rfl, h⟩
  | raise e => exact ⟨pt, rfl, h⟩
  | await o k ih =>
    refine follows_bind.mpr ((hf o pt (fun r pt' => (k r).Follows S P pt' Q E) h).mono ?_ fun _ _ hNever => hNever.elim)
    rintro r pt' ⟨pt₁, rfl, hRest⟩
    exact ih r hRest

theorem bind_eval_ok {S : Store Op Resp ε σ ι η} {a : ι} {s s' : σ} {p : Prog Op Resp ε α} {f : α → Prog Op Resp ε β} {v : β}
    (h : (p.bind f).eval S a s = (.ok v, s')) : ∃ u s₁, p.eval S a s = (.ok u, s₁) ∧ (f u).eval S a s₁ = (.ok v, s') := by
  rw [eval_bind] at h
  cases hFirst : p.eval S a s with
  | mk r s₁ =>
    rw [hFirst] at h
    cases r with
    | ok u => exact ⟨u, s₁, rfl, h⟩
    | error e => cases h

end Prog

end RestaurantOs.Async
