import RestaurantOs.Async.Run
import RestaurantOs.Data.Tables

/-!
# Following a protocol

A protocol says where a request can stand and where an operation, with the
answer it gets in the state it meets, takes the request. A run of requests that
follow it is a run of points, and an invariant of the points and the state needs
one proof for each kind of move.
-/

namespace RestaurantOs.Async

structure Protocol (Op σ ι : Type) where
  Point : Type
  Move : Op → ι → σ → Point → Point → Prop
  Rest : Point → Prop

variable {Op : Type} {Resp : Op → Type} {ε σ ι η α β : Type}

namespace Prog

/-- `p` follows `P` from the point `pt`; it returns where `Q` holds and
throws where `E` holds. -/
def Follows (S : Store Op Resp ε σ ι η) (P : Protocol Op σ ι) :
    Prog Op Resp ε α → P.Point → (α → P.Point → Prop) → (ε → P.Point → Prop) → Prop
  | ret a, pt, Q, _ => Q a pt
  | raise e, pt, _, E => E e pt
  | await o k, pt, Q, E => ∀ a s, ∃ pt', P.Move o a s pt pt' ∧
      Follows S P (k (S.perform o a s).1) pt' Q E

variable {S : Store Op Resp ε σ ι η} {P : Protocol Op σ ι} {pt : P.Point}
  {Q Q' : α → P.Point → Prop} {R : β → P.Point → Prop} {E E' : ε → P.Point → Prop}

@[simp] theorem follows_ret {a : α} : (ret a : Prog Op Resp ε α).Follows S P pt Q E ↔ Q a pt := Iff.rfl

@[simp] theorem follows_raise {e : ε} : (raise e : Prog Op Resp ε α).Follows S P pt Q E ↔ E e pt := Iff.rfl

theorem Follows.mono {p : Prog Op Resp ε α} (h : p.Follows S P pt Q E) (hQ : ∀ a pt, Q a pt → Q' a pt)
    (hE : ∀ e pt, E e pt → E' e pt) : p.Follows S P pt Q' E' := by
  induction p generalizing pt with
  | ret a => exact hQ a pt h
  | raise e => exact hE e pt h
  | await o k ih =>
    intro a s
    obtain ⟨pt', hMove, hRest⟩ := h a s
    exact ⟨pt', hMove, ih _ hRest⟩

theorem Performs.follows {ok : Op → Prop} {p : Prog Op Resp ε α} (hPerforms : p.Performs ok)
    (hStays : ∀ o, ok o → ∀ a s, P.Move o a s pt pt) : p.Follows S P pt (fun _ pt' => pt' = pt) fun _ pt' => pt' = pt := by
  induction p with
  | ret a => rfl
  | raise e => rfl
  | await o k ih => exact fun a s => ⟨pt, hStays o hPerforms.1 a s, ih _ (hPerforms.2 _)⟩

@[simp] theorem follows_bind {p : Prog Op Resp ε α} {f : α → Prog Op Resp ε β} :
    (p.bind f).Follows S P pt R E ↔ p.Follows S P pt (fun a pt => (f a).Follows S P pt R E) E := by
  induction p generalizing pt with
  | ret a => rfl
  | raise e => rfl
  | await o k ih => simp only [Prog.bind, Follows, ih]

@[simp] theorem follows_attempt {p : Prog Op Resp ε α} {Q : Except ε α → P.Point → Prop} :
    p.attempt.Follows S P pt Q E ↔
      p.Follows S P pt (fun a pt => Q (.ok a) pt) (fun e pt => Q (.error e) pt) := by
  induction p generalizing pt with
  | ret a => rfl
  | raise e => rfl
  | await o k ih => simp only [attempt, Follows, ih]

theorem follows_call {o : Op} {Q : Resp o → P.Point → Prop} :
    (call o : Prog Op Resp ε (Resp o)).Follows S P pt Q E ↔
      ∀ a s, ∃ pt', P.Move o a s pt pt' ∧
        match (S.perform o a s).1 with
        | .ok v => Q v pt'
        | .error e => E e pt' := by
  refine forall₂_congr fun a s => exists_congr fun pt' => and_congr_right fun _ => ?_
  cases (S.perform o a s).1 <;> rfl

@[simp] theorem follows_ofExcept {r : Except ε α} :
    (ofExcept r : Prog Op Resp ε α).Follows S P pt Q E ↔
      match r with
      | .ok a => Q a pt
      | .error e => E e pt := by
  cases r <;> rfl

theorem follows_onlyIf {c : Prop} [Decidable c] {p : Prog Op Resp ε Unit} {Q : Unit → P.Point → Prop}
    (hThen : c → p.Follows S P pt Q E) (hElse : ¬ c → Q () pt) : (onlyIf c p).Follows S P pt Q E := by
  unfold onlyIf
  split
  · exact hThen ‹_›
  · exact hElse ‹_›

@[simp] theorem follows_ite {b : Prop} [Decidable b] {p q : Prog Op Resp ε α} :
    (if b then p else q).Follows S P pt Q E ↔
      (b → p.Follows S P pt Q E) ∧ (¬ b → q.Follows S P pt Q E) := by
  split <;> simp [*]

section LeadsTo

variable {ok ok' : Op → Prop} {last : Prog Op Resp ε α → Prop}

/-- The request performs such operations only, until it goes on as one that `last` holds of. -/
def LeadsTo (ok : Op → Prop) (last : Prog Op Resp ε α → Prop) : Prog Op Resp ε α → Prop
  | ret a => last (ret a)
  | raise _ => True
  | await o k => last (await o k) ∨ ok o ∧ ∀ r, LeadsTo ok last (k r)

theorem leadsTo_last {p : Prog Op Resp ε α} (h : last p) : p.LeadsTo ok last := by
  cases p with
  | ret a => exact h
  | raise e => trivial
  | await o k => exact .inl h

theorem Performs.leadsTo {p : Prog Op Resp ε β} {f : β → Prog Op Resp ε α} (h : p.Performs ok) (hf : ∀ v, (f v).LeadsTo ok last) :
    (p.bind f).LeadsTo ok last := by
  induction p with
  | ret a => exact hf a
  | raise e => trivial
  | await o k ih => exact .inr ⟨h.1, fun r => ih r (h.2 r)⟩

theorem LeadsTo.performs {p : Prog Op Resp ε α} (h : p.LeadsTo ok last) (hOk : ∀ o, ok o → ok' o) (hLast : ∀ q, last q → q.Performs ok') :
    p.Performs ok' := by
  induction p with
  | ret a => trivial
  | raise e => trivial
  | await o k ih =>
    rcases h with hNow | ⟨hFirst, hRest⟩
    · exact hLast _ hNow
    · exact ⟨hOk o hFirst, fun r => ih r (hRest r)⟩

theorem LeadsTo.follows {p : Prog Op Resp ε α} (h : p.LeadsTo ok last) (hStays : ∀ o, ok o → ∀ a s, P.Move o a s pt pt)
    (hLast : ∀ q, last q → q.Follows S P pt Q E) (hThrows : ∀ e, E e pt) : p.Follows S P pt Q E := by
  induction p with
  | ret a => exact hLast _ h
  | raise e => exact hThrows e
  | await o k ih =>
    rcases h with hNow | ⟨hFirst, hRest⟩
    · exact hLast _ hNow
    · exact fun a s => ⟨pt, hStays o hFirst a s, ih _ (hRest _)⟩

end LeadsTo

end Prog

/-- Each request of `c` follows `P` from its point in `pts` to a rest; one
that has not started is still at its point in `start`. -/
structure Tracks (S : Store Op Resp ε σ ι η) (P : Protocol Op σ ι) (start : List P.Point)
    (c : Config Op Resp ε σ α) (pts : List P.Point) : Prop where
  length_eq : pts.length = c.threads.length
  follows : ∀ {t : Nat} {th : Thread Op Resp ε σ α} {pt : P.Point}, c.threads[t]? = some th →
    pts[t]? = some pt → th.prog.Follows S P pt (fun _ pt => P.Rest pt) (fun _ pt => P.Rest pt)
  unborn : ∀ {t : Nat} {th : Thread Op Resp ε σ α}, c.threads[t]? = some th → th.born = none →
    pts[t]? = start[t]?

variable {S : Store Op Resp ε σ ι η} {P : Protocol Op σ ι} {c c' : Config Op Resp ε σ α}
  {start pts : List P.Point}

theorem Tracks.point_exists (h : Tracks S P start c pts) {t : Nat} {th : Thread Op Resp ε σ α}
    (hThread : c.threads[t]? = some th) : ∃ pt, pts[t]? = some pt := by
  obtain ⟨hLt, -⟩ := List.getElem?_eq_some_iff.mp hThread
  exact ⟨_, List.getElem?_eq_getElem (by rw [h.length_eq]; exact hLt)⟩

theorem Tracks.thread_exists (h : Tracks S P start c pts) {t : Nat} {pt : P.Point}
    (hPoint : pts[t]? = some pt) : ∃ th, c.threads[t]? = some th := by
  obtain ⟨hLt, -⟩ := List.getElem?_eq_some_iff.mp hPoint
  exact ⟨_, List.getElem?_eq_getElem (by rw [← h.length_eq]; exact hLt)⟩

theorem Tracks.waiting [Nonempty ι] [Nonempty σ] (h : Tracks S P start c pts) {t : Nat}
    {th : Thread Op Resp ε σ α} {pt : P.Point} (hThread : c.threads[t]? = some th) (hPoint : pts[t]? = some pt)
    (hRunning : th.stopped = false) (hRest : ¬ P.Rest pt) :
    ∃ o, c.waiting? t = some o ∧ ∃ a s pt', P.Move o a s pt pt' := by
  have hFollows := h.follows hThread hPoint
  obtain ⟨prog, stopped, born⟩ := th
  cases prog with
  | ret a => exact absurd hFollows hRest
  | raise e => exact absurd hFollows hRest
  | await o k =>
    obtain ⟨a⟩ := ‹Nonempty ι›
    obtain ⟨s⟩ := ‹Nonempty σ›
    obtain ⟨pt', hMove, -⟩ := hFollows a s
    refine ⟨o, ?_, a, s, pt', hMove⟩
    have hStopped : stopped = false := hRunning
    simp [Config.waiting?, Thread.waiting?, hThread, hStopped, Thread.next?, Prog.next?]

theorem Tracks.rest_of_ended (h : Tracks S P start c pts) {t : Nat} {th : Thread Op Resp ε σ α} {pt : P.Point}
    (hThread : c.threads[t]? = some th) (hPoint : pts[t]? = some pt) (hEnded : th.next?.isSome = false) :
    P.Rest pt := by
  have hFollows := h.follows hThread hPoint
  obtain ⟨prog, stopped, born⟩ := th
  cases prog with
  | ret a => exact hFollows
  | raise e => exact hFollows
  | await o k => cases hEnded

theorem Tracks.ran {t : Nat} {a : ι} {o : Op} {th : Thread Op Resp ε σ α}
    {k : Except ε (Resp o) → Prog Op Resp ε α} (h : Tracks S P start c pts)
    (hRan : S.Ran c t a o th k c') :
    ∃ pt pt', pts[t]? = some pt ∧ P.Move o a c.state pt pt' ∧ Tracks S P start c' (pts.set t pt') := by
  obtain ⟨pt, hPoint⟩ := h.point_exists hRan.thread
  have hFollows := h.follows hRan.thread hPoint
  rw [hRan.prog] at hFollows
  obtain ⟨pt', hMove, hRest⟩ := hFollows a c.state
  refine ⟨pt, pt', hPoint, hMove, ?_, ?_, ?_⟩
  · rw [List.length_set, hRan.threads, List.length_set, h.length_eq]
  · intro u thu ptu hThread hPointU
    rw [hRan.threads] at hThread
    by_cases hu : t = u
    · subst hu
      rw [Tables.getElem?_set_eq hRan.thread] at hThread
      rw [Tables.getElem?_set_eq hPoint] at hPointU
      cases hThread
      cases hPointU
      exact hRest
    · rw [List.getElem?_set_ne hu] at hThread hPointU
      exact h.follows hThread hPointU
  · intro u thu hThread hBorn
    rw [hRan.threads] at hThread
    by_cases hu : t = u
    · subst hu
      rw [Tables.getElem?_set_eq hRan.thread] at hThread
      cases hThread
      cases hBorn
    · rw [List.getElem?_set_ne hu] at hThread ⊢
      exact h.unborn hThread hBorn

theorem Tracks.stop {t : Nat} {th : Thread Op Resp ε σ α} (h : Tracks S P start c pts)
    (hThread : c.threads[t]? = some th) :
    Tracks S P start { c with threads := c.threads.set t { th with stopped := true } } pts := by
  refine ⟨by simp [h.length_eq], ?_, ?_⟩
  · intro u thu ptu hThreadU hPointU
    by_cases hu : t = u
    · subst hu
      rw [Tables.getElem?_set_eq hThread] at hThreadU
      have hFollows := h.follows hThread hPointU
      cases hThreadU
      exact hFollows
    · rw [List.getElem?_set_ne hu] at hThreadU
      exact h.follows hThreadU hPointU
  · intro u thu hThreadU hBorn
    by_cases hu : t = u
    · subst hu
      rw [Tables.getElem?_set_eq hThread] at hThreadU
      cases hThreadU
      exact h.unborn hThread hBorn
    · rw [List.getElem?_set_ne hu] at hThreadU
      exact h.unborn hThreadU hBorn

theorem Tracks.initial {ρ : Type} {s : σ} {requests : List ρ} {program : ρ → Prog Op Resp ε α}
    {point : ρ → P.Point}
    (h : ∀ r ∈ requests, (program r).Follows S P (point r) (fun _ pt => P.Rest pt) (fun _ pt => P.Rest pt)) :
    Tracks S P (requests.map point) (Config.initial s (requests.map program)) (requests.map point) := by
  refine ⟨by simp [Config.initial], ?_, fun _ _ => rfl⟩
  intro t th pt hThread hPoint
  simp only [Config.initial, List.map_map, List.getElem?_map, Option.map_eq_some_iff] at hThread hPoint
  obtain ⟨r, hr, rfl⟩ := hThread
  obtain ⟨r', hr', rfl⟩ := hPoint
  rw [hr] at hr'
  cases hr'
  exact h r (List.mem_of_getElem? hr)

theorem Tracks.invariant {ok : Config Op Resp ε σ α → Label ι η → Prop} {c₀ : Config Op Resp ε σ α}
    {I : Config Op Resp ε σ α → List P.Point → Prop} {pts₀ : List P.Point}
    (hTracks : Tracks S P start c₀ pts₀) (hStart : I c₀ pts₀)
    (hRun : ∀ {c c' : Config Op Resp ε σ α} {pts : List P.Point} {t : Nat} {a : ι} {o : Op}
      {th : Thread Op Resp ε σ α} {k : Except ε (Resp o) → Prog Op Resp ε α} {pt pt' : P.Point},
      Tracks S P start c pts → I c pts → ok c (.run t a) → S.Ran c t a o th k c' → pts[t]? = some pt →
      P.Move o a c.state pt pt' → Tracks S P start c' (pts.set t pt') → I c' (pts.set t pt'))
    (hStop : ∀ {c : Config Op Resp ε σ α} {pts : List P.Point} {t : Nat} {th : Thread Op Resp ε σ α},
      Tracks S P start c pts → I c pts → ok c (.stop t) → c.threads[t]? = some th →
      I { c with threads := c.threads.set t { th with stopped := true } } pts)
    (hEvent : ∀ {c : Config Op Resp ε σ α} {pts : List P.Point} {e : η},
      Tracks S P start c pts → I c pts → ok c (.event e) → I { c with state := S.advance e c.state } pts)
    (h : S.Reach ok c₀ c) : ∃ pts, Tracks S P start c pts ∧ I c pts := by
  induction h with
  | start => exact ⟨pts₀, hTracks, hStart⟩
  | @step c c' l _ hok hstep ih =>
    obtain ⟨pts, hT, hI⟩ := ih
    cases l with
    | run t a =>
      obtain ⟨o, th, k, hRan⟩ := Store.run_cases hstep
      obtain ⟨pt, pt', hPoint, hMove, hT'⟩ := hT.ran hRan
      exact ⟨_, hT', hRun hT hI hok hRan hPoint hMove hT'⟩
    | stop t =>
      obtain ⟨th, hThread, rfl⟩ := Store.stop_cases hstep
      exact ⟨pts, hT.stop hThread, hStop hT hI hok hThread⟩
    | event e =>
      cases hstep
      exact ⟨pts, ⟨hT.length_eq, hT.follows, hT.unborn⟩, hEvent hT hI hok⟩

end RestaurantOs.Async
