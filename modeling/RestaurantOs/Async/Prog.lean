import Mathlib.Logic.Basic

/-!
# Asynchronous requests over a shared store

A request is a tree of awaited operations, each one atomic step of the store;
between two of them any other request may run. The continuation receives what the
operation returned or threw, so `try` and `catch` are functions on the tree.
-/

namespace RestaurantOs.Async

inductive Prog (Op : Type) (Resp : Op → Type) (ε α : Type) : Type
  | ret (value : α)
  | raise (error : ε)
  | await (op : Op) (next : Except ε (Resp op) → Prog Op Resp ε α)

namespace Prog

variable {Op : Type} {Resp : Op → Type} {ε α β γ : Type}

def bind : Prog Op Resp ε α → (α → Prog Op Resp ε β) → Prog Op Resp ε β
  | ret a, f => f a
  | raise e, _ => raise e
  | await o k, f => await o fun r => (k r).bind f

instance : Monad (Prog Op Resp ε) where
  pure := ret
  bind := bind

/-- `try`: the error becomes a value. -/
def attempt : Prog Op Resp ε α → Prog Op Resp ε (Except ε α)
  | ret a => ret (.ok a)
  | raise e => ret (.error e)
  | await o k => await o fun r => (k r).attempt

def call (o : Op) : Prog Op Resp ε (Resp o) :=
  await o fun
    | .ok v => ret v
    | .error e => raise e

def ofExcept : Except ε α → Prog Op Resp ε α
  | .ok a => ret a
  | .error e => raise e

/-- `if (c) await p;` -/
def onlyIf (c : Prop) [Decidable c] (p : Prog Op Resp ε Unit) : Prog Op Resp ε Unit :=
  if c then p else ret ()

/-- `try body finally last`. -/
def finallyDo (body : Prog Op Resp ε α) (last : Prog Op Resp ε β) : Prog Op Resp ε α :=
  body.attempt.bind fun r => last.bind fun _ => ofExcept r

/-- `for (const x of xs) await f(x);` -/
def forEach (f : β → Prog Op Resp ε Unit) : List β → Prog Op Resp ε Unit
  | [] => ret ()
  | x :: xs => (f x).bind fun _ => forEach f xs

def next? : Prog Op Resp ε α → Option Op
  | await o _ => some o
  | _ => none

/-- Every operation that the request can come to perform is one of `ok`. -/
def Performs (ok : Op → Prop) : Prog Op Resp ε α → Prop
  | ret _ => True
  | raise _ => True
  | await o k => ok o ∧ ∀ r, (k r).Performs ok

@[simp] theorem pure_eq (a : α) : (pure a : Prog Op Resp ε α) = ret a := rfl

@[simp] theorem bind_eq (p : Prog Op Resp ε α) (f : α → Prog Op Resp ε β) : p >>= f = p.bind f := rfl

@[simp] theorem ret_bind (a : α) (f : α → Prog Op Resp ε β) : (ret a).bind f = f a := rfl

@[simp] theorem raise_bind (e : ε) (f : α → Prog Op Resp ε β) :
    (raise e : Prog Op Resp ε α).bind f = raise e := rfl

theorem bind_assoc (p : Prog Op Resp ε α) (f : α → Prog Op Resp ε β) (g : β → Prog Op Resp ε γ) :
    (p.bind f).bind g = p.bind fun a => (f a).bind g := by
  induction p with
  | ret a => rfl
  | raise e => rfl
  | await o k ih => exact congrArg (await o) (funext ih)

section Performs

variable {ok : Op → Prop} {p : Prog Op Resp ε α}

theorem Performs.bind {f : α → Prog Op Resp ε β} (hp : p.Performs ok) (hf : ∀ a, (f a).Performs ok) :
    (p.bind f).Performs ok := by
  induction p with
  | ret a => exact hf a
  | raise e => trivial
  | await o k ih => exact ⟨hp.1, fun r => ih r (hp.2 r)⟩

theorem Performs.mono {ok' : Op → Prop} (hp : p.Performs ok) (h : ∀ o, ok o → ok' o) : p.Performs ok' := by
  induction p with
  | ret a => trivial
  | raise e => trivial
  | await o k ih => exact ⟨h o hp.1, fun r => ih r (hp.2 r)⟩

theorem Performs.attempt (hp : p.Performs ok) : p.attempt.Performs ok := by
  induction p with
  | ret a => trivial
  | raise e => trivial
  | await o k ih => exact ⟨hp.1, fun r => ih r (hp.2 r)⟩

theorem performs_all (p : Prog Op Resp ε α) : p.Performs fun _ => True := by
  induction p with
  | ret a => trivial
  | raise e => trivial
  | await o k ih => exact ⟨trivial, ih⟩

theorem performs_call {o : Op} (h : ok o) : (call o : Prog Op Resp ε (Resp o)).Performs ok := by
  refine ⟨h, fun r => ?_⟩
  cases r <;> trivial

theorem performs_ofExcept {r : Except ε α} : (ofExcept r : Prog Op Resp ε α).Performs ok := by
  cases r <;> trivial

theorem performs_onlyIf {c : Prop} [Decidable c] {p : Prog Op Resp ε Unit} (h : p.Performs ok) :
    (onlyIf c p).Performs ok := by
  unfold onlyIf
  split
  · exact h
  · trivial

theorem performs_forEach {f : β → Prog Op Resp ε Unit} {xs : List β} (h : ∀ x, (f x).Performs ok) :
    (forEach f xs).Performs ok := by
  induction xs with
  | nil => trivial
  | cons x xs ih => exact (h x).bind fun _ => ih

end Performs

end Prog

end RestaurantOs.Async
