import RestaurantOs.Async.Later
import RestaurantOs.Support.Tickets
import Mathlib.Data.List.Chain

/-!
# Histories of tickets

The statuses that a ticket's history records are a path of its state machine, up
to the stored status, as long as a save lands on a status that the new one may
follow. A closed ticket then stays closed and takes no further message.
-/

namespace RestaurantOs.Support

open Async Prog

/-- A step of the state machine, of a reply that opens the ticket again, or of
the author's confirmation. -/
def steps (src dst : TicketStatus) : Bool :=
  isValidTicketTransition src dst || reopenTo src = some dst || (src = .resolved && dst = .closed)

def Ticket.statuses (ticket : Ticket) : List TicketStatus := ticket.statusHistory.map StatusHistoryEntry.status

structure Ticket.Recorded (ticket : Ticket) : Prop where
  path : ticket.statuses.IsChain fun src dst => steps src dst = true
  last : ticket.statuses.getLast? = some ticket.status

def World.isClosed (w : World) (id : Id) : Bool := w.tickets.any fun ticket => ticket.id = id && ticket.statuses.contains .closed

/-- A save lands while the stored status is the one the request read, or one
that the new status may follow too. -/
def landsInPlace (c : State) : Label Bool Time → Bool
  | .run t _ =>
    match c.waiting? t with
    | some (.save loaded saved) => c.state.tickets.all fun stored => !(stored.id = loaded.id) ||
        (stored.status = loaded.status || steps stored.status saved.status)
    | _ => true
  | _ => true

/-! ## What a request performs -/

structure Saves (loaded saved : Ticket) : Prop where
  step : steps loaded.status saved.status = true
  entry : ∃ time, saved.statusHistory = loaded.statusHistory ++ [⟨saved.status, time⟩]

def Op.Sound : Op → Prop
  | .save loaded saved => Saves loaded saved
  | _ => True

def Op.silent : Op → Bool
  | .createMessage _ => false
  | _ => true

section Programs

variable {ticket : Ticket} {id : Id} {user : AuthedUser}

theorem findTicketOrThrow_performs : (findTicketOrThrow id).Performs fun o => o.Sound ∧ o.silent = true := by
  unfold findTicketOrThrow
  refine (performs_call (o := Op.findById id) ⟨trivial, rfl⟩).bind fun ticket => ?_
  cases ticket <;> trivial

theorem getTicketAccess_performs : (getTicketAccess ticket user).Performs fun o => o.Sound ∧ o.silent = true := by
  unfold getTicketAccess isRestaurantStaff
  refine Performs.bind ?_ fun _ => trivial
  split
  · trivial
  · split
    · exact performs_call (o := Op.resolveTenantAccess user _) ⟨trivial, rfl⟩
    · trivial

theorem reopen_performs {access : TicketAccess} {wantsInternal : Bool} :
    (reopen ticket access wantsInternal).Performs fun o => o.Sound ∧ o.silent = true := by
  unfold reopen
  split
  · cases hReopen : reopenTo ticket.status with
    | none => trivial
    | some status =>
      refine (performs_call (o := Op.clock) ⟨trivial, rfl⟩).bind fun now => ?_
      refine performs_call (o := Op.save ticket (ticket.withStatus status now)) ⟨⟨?_, now, rfl⟩, rfl⟩
      simp [steps, Ticket.withStatus, hReopen]
  · trivial

theorem createTicketMessage_performs {input : CreateTicketMessageInput} :
    (createTicketMessage id user input).Performs Op.Sound := by
  unfold createTicketMessage
  refine ((findTicketOrThrow_performs).mono fun _ h => h.1).bind fun ticket => ?_
  refine ((getTicketAccess_performs).mono fun _ h => h.1).bind fun access => ?_
  split
  · trivial
  · split
    · trivial
    · split
      · trivial
      · refine (performs_call (o := Op.createMessage _) trivial).bind fun _ => ?_
        exact ((reopen_performs).mono fun _ h => h.1).bind fun _ => trivial

theorem confirmResolution_performs : (confirmResolution id user).Performs fun o => o.Sound ∧ o.silent = true := by
  unfold confirmResolution
  refine (findTicketOrThrow_performs).bind fun ticket => ?_
  split
  · trivial
  · split
    · trivial
    · rename_i hResolved
      refine (performs_call (o := Op.clock) ⟨trivial, rfl⟩).bind fun now => ?_
      refine (performs_call (o := Op.save ticket _) ⟨⟨?_, now, rfl⟩, rfl⟩).bind fun _ => trivial
      simp [steps, Ticket.withStatus, not_ne_iff.mp hResolved]

theorem updateTicketStatus_performs {nextStatus : TicketStatus} :
    (updateTicketStatus id nextStatus).Performs fun o => o.Sound ∧ o.silent = true := by
  unfold updateTicketStatus
  refine (findTicketOrThrow_performs).bind fun ticket => ?_
  split
  · trivial
  · rename_i hInvalid
    have hValid : isValidTicketTransition ticket.status nextStatus = true := by simpa using hInvalid
    refine (performs_call (o := Op.clock) ⟨trivial, rfl⟩).bind fun now => ?_
    refine (performs_call (o := Op.save ticket _) ⟨⟨?_, now, rfl⟩, rfl⟩).bind fun _ => trivial
    simp [steps, Ticket.withStatus, Ticket.stamped, hValid]

theorem Request.program_performs (r : Request) : r.program.Performs Op.Sound := by
  cases r with
  | createTicketMessage id user input => exact createTicketMessage_performs
  | confirmResolution id user => exact (confirmResolution_performs).mono fun _ h => h.1
  | updateTicketStatus id nextStatus => exact (updateTicketStatus_performs).mono fun _ h => h.1

def readsClosed (id : Id) : (o : Op) → Except Err o.Resp → Prop
  | .findById id', .ok (some ticket) => ticket.id = id' ∧ (ticket.id = id → ticket.status = .closed)
  | _, _ => True

def Op.Spares (id : Id) : Op → Prop
  | .createMessage message => message.ticketId ≠ id
  | _ => True

theorem Op.spares_of_silent {o : Op} (h : o.silent = true) : o.Spares id := by
  cases o with
  | createMessage message => cases h
  | _ => trivial

theorem keeps_quiet {o : Op} {Q : o.Resp → Prop} (h : o.Spares id) (hQ : ∀ v, readsClosed id o (.ok v) → Q v) :
    (Prog.call o : Promise o.Resp).Keeps (readsClosed id) (Op.Spares id) Q fun _ => True :=
  keeps_call h hQ fun _ => trivial

theorem findTicketOrThrow_keeps {id' : Id} : (findTicketOrThrow id').Keeps (readsClosed id) (Op.Spares id)
    (fun ticket => ticket.id = id → ticket.status = .closed) fun _ => True := by
  unfold findTicketOrThrow
  rw [bind_eq, keeps_bind]
  refine keeps_quiet (o := Op.findById id') trivial fun ticket hRead => ?_
  cases ticket with
  | none => trivial
  | some ticket => exact hRead.2

theorem createTicketMessage_keeps {id' : Id} {input : CreateTicketMessageInput} :
    (createTicketMessage id' user input).Keeps (readsClosed id) (Op.Spares id) (fun _ => True) fun _ => True := by
  unfold createTicketMessage
  rw [bind_eq, keeps_bind]
  refine (findTicketOrThrow_keeps).mono (fun ticket hClosed => ?_) fun _ _ => trivial
  rw [bind_eq, keeps_bind]
  refine (getTicketAccess_performs).keeps (fun _ h => Op.spares_of_silent h.2) (fun access => ?_) fun _ => trivial
  split
  · trivial
  · split
    · trivial
    · rename_i hOpen
      split
      · trivial
      · rw [bind_eq, keeps_bind]
        refine keeps_quiet (o := Op.createMessage _) (fun hId => hOpen (hClosed hId)) fun _ _ => ?_
        rw [bind_eq, keeps_bind]
        exact (reopen_performs).keeps (fun _ h => Op.spares_of_silent h.2) (fun _ => trivial) fun _ => trivial

theorem Request.program_keeps (r : Request) :
    r.program.Keeps (readsClosed id) (Op.Spares id) (fun _ => True) fun _ => True := by
  cases r with
  | createTicketMessage id' user input => exact createTicketMessage_keeps
  | confirmResolution id' user =>
    exact (confirmResolution_performs).keeps (fun _ h => Op.spares_of_silent h.2) (fun _ => trivial) fun _ => trivial
  | updateTicketStatus id' nextStatus =>
    exact (updateTicketStatus_performs).keeps (fun _ h => Op.spares_of_silent h.2) (fun _ => trivial) fun _ => trivial

end Programs

/-! ## What a step keeps -/

section Steps

variable {w : World} {c c' : State} {t : Nat} {a : Bool} {o : Op} {ticket ticket' : Ticket} {id : Id}
  {th : Thread Op Op.Resp Err World Response} {k : Except Err o.Resp → Promise Response}

theorem not_steps_closed (dst : TicketStatus) : steps .closed dst = false := by cases dst <;> rfl

theorem Ticket.Recorded.final {before after : List StatusHistoryEntry} {entry : StatusHistoryEntry} (h : ticket.Recorded)
    (hSplit : ticket.statusHistory = before ++ entry :: after) (hClosed : entry.status = .closed) : after = [] := by
  have hPath := h.path
  rw [Ticket.statuses, hSplit, List.map_append] at hPath
  cases after with
  | nil => rfl
  | cons next rest =>
    have hStep := (List.isChain_append_cons_cons.mp hPath).2.1
    rw [hClosed, not_steps_closed] at hStep
    cases hStep

theorem Ticket.Recorded.closed (h : ticket.Recorded) (hClosed : .closed ∈ ticket.statuses) : ticket.status = .closed := by
  obtain ⟨entry, hMem, hStatus⟩ := List.mem_map.mp hClosed
  obtain ⟨before, after, hSplit⟩ := List.append_of_mem hMem
  have hLast := h.last
  rw [Ticket.statuses, hSplit, h.final hSplit hStatus, List.map_append] at hLast
  simpa [hStatus, eq_comm] using hLast

theorem Ticket.Recorded.saved {loaded saved : Ticket} (h : ticket.Recorded) (hSaves : Saves loaded saved)
    (hStep : steps ticket.status saved.status = true) : (loaded.saveOver saved ticket).Recorded := by
  obtain ⟨time, hEntry⟩ := hSaves.entry
  have hNe : saved.status ≠ loaded.status := by
    intro hEq
    have hSelf := hSaves.step
    rw [hEq] at hSelf
    generalize loaded.status = status at hSelf
    cases status <;> cases hSelf
  have hStatuses : (loaded.saveOver saved ticket).statuses = ticket.statuses ++ [saved.status] := by
    simp [Ticket.statuses, Ticket.saveOver, hEntry]
  have hStatus : (loaded.saveOver saved ticket).status = saved.status := if_neg hNe
  refine ⟨?_, ?_⟩
  · rw [hStatuses]
    refine List.IsChain.append h.path (List.isChain_singleton _) ?_
    intro src hSrc dst hDst
    have hLast := h.last.symm.trans hSrc
    cases hLast
    cases hDst
    exact hStep
  · rw [hStatuses, hStatus, List.getLast?_concat]

structure World.Recorded (w : World) : Prop where
  ids : (w.tickets.map Ticket.id).Nodup
  tickets : ∀ ticket ∈ w.tickets, ticket.Recorded

theorem Op.tickets_perform (o : Op) (a : Bool) (w : World) : (o.perform a w).2.tickets = w.tickets ∨
    ∃ loaded saved, o = .save loaded saved ∧
      (o.perform a w).2.tickets = Tables.update (·.id = loaded.id) (loaded.saveOver saved) w.tickets := by
  cases o with
  | save loaded saved => exact .inr ⟨loaded, saved, rfl, rfl⟩
  | _ => exact .inl rfl

theorem World.Recorded.ran (h : w.Recorded) (hGuard : landsInPlace c (.run t a) = true) (hState : c.state = w)
    (hRan : store.Ran c t a o th k c') (hSound : o.Sound) : c'.state.Recorded := by
  subst hState
  rw [hRan.state]
  rcases o.tickets_perform a c.state with hSame | ⟨loaded, saved, rfl, hTickets⟩
  · exact ⟨by rw [hSame]; exact h.ids, by rw [hSame]; exact h.tickets⟩
  · refine ⟨?_, ?_⟩
    · rw [hTickets, Tables.map_update_eq (f := loaded.saveOver saved) Ticket.id fun _ => rfl]
      exact h.ids
    · intro ticket' hMem
      rw [hTickets, Tables.mem_update] at hMem
      obtain ⟨ticket, hTicket, rfl⟩ := hMem
      split
      · rename_i hId
        rw [decide_eq_true_eq] at hId
        have hLands : (c.state.tickets.all fun stored => !(stored.id = loaded.id) ||
            (stored.status = loaded.status || steps stored.status saved.status)) = true := by
          simpa only [landsInPlace, hRan.waiting?] using hGuard
        have hStored := List.all_eq_true.mp hLands ticket hTicket
        simp only [hId, decide_true, Bool.not_true, Bool.false_or, Bool.or_eq_true, decide_eq_true_eq] at hStored
        refine (h.tickets ticket hTicket).saved hSound ?_
        rcases hStored with hSame | hFollows
        · rw [hSame]
          exact hSound.step
        · exact hFollows
      · exact h.tickets ticket hTicket

theorem Op.isClosed_perform (h : w.isClosed id = true) : (o.perform a w).2.isClosed id = true := by
  obtain ⟨ticket, hMem, hSel⟩ := List.any_eq_true.mp h
  rw [Bool.and_eq_true, decide_eq_true_eq, List.contains_iff_mem] at hSel
  unfold World.isClosed
  rw [List.any_eq_true]
  rcases o.tickets_perform a w with hSame | ⟨loaded, saved, rfl, hTickets⟩
  · exact ⟨ticket, by rw [hSame]; exact hMem, by simpa using hSel⟩
  · rw [hTickets]
    refine ⟨_, Tables.mem_update.mpr ⟨ticket, hMem, rfl⟩, ?_⟩
    rw [Bool.and_eq_true, decide_eq_true_eq, List.contains_iff_mem]
    split
    · refine ⟨hSel.1, ?_⟩
      rw [Ticket.statuses, Ticket.saveOver, List.map_append]
      exact List.mem_append_left _ hSel.2
    · exact hSel

theorem World.Recorded.readsClosed (h : w.Recorded) (hClosed : w.isClosed id = true) (o : Op) (a : Bool) :
    readsClosed id o (o.perform a w).1 := by
  cases o with
  | findById id' =>
    cases hFind : w.ticket? id' with
    | none => simp only [Op.perform, hFind, Support.readsClosed]
    | some ticket =>
      have hMem := List.mem_of_find?_eq_some hFind
      simp only [Op.perform, hFind, Support.readsClosed]
      have hFound := List.find?_some hFind
      refine ⟨of_decide_eq_true hFound, fun hId => ?_⟩
      obtain ⟨other, hOther, hSel⟩ := List.any_eq_true.mp hClosed
      rw [Bool.and_eq_true, decide_eq_true_eq, List.contains_iff_mem] at hSel
      rw [Tables.eq_of_id h.ids hMem hOther (hId.trans hSel.1.symm)]
      exact (h.tickets other hOther).closed hSel.2
  | _ => trivial

theorem Op.Spares.messages (h : o.Spares id) : ∀ message ∈ (o.perform a w).2.messages, message.ticketId = id →
    message ∈ w.messages := by
  intro message hMem hId
  cases o with
  | createMessage added =>
    rcases List.mem_append.mp hMem with hMem | hMem
    · exact hMem
    · cases List.mem_singleton.mp hMem
      exact absurd hId h
  | _ => exact hMem

end Steps

/-! ## Runs -/

structure Kept (c : State) : Prop where
  threads : c.Keeps (fun _ _ => True) Op.Sound
  recorded : c.state.Recorded

section Runs

variable {w : World} {requests : List Request} {c c' c₁ c₂ : State} {id : Id} {l : Label Bool Time}

theorem Kept.start (h : w.Recorded) : Kept (State.start w requests) := by
  refine ⟨?_, h⟩
  intro th hMem
  obtain ⟨p, hp, rfl⟩ := List.mem_map.mp hMem
  obtain ⟨r, -, rfl⟩ := List.mem_map.mp hp
  exact r.program_performs.keeps (fun _ => id) (fun _ => trivial) fun _ => trivial

theorem Kept.reach (h : Kept c₁) (hReach : store.Reach (fun c l => landsInPlace c l) c₁ c₂) : Kept c₂ := by
  have hRun := h.threads.invariant (I := World.Recorded) h.recorded (fun _ _ _ _ => trivial)
    (fun hRecorded hGuard hRan hSound => hRecorded.ran hGuard rfl hRan hSound)
    (fun _ _ hRecorded => ⟨hRecorded.ids, hRecorded.tickets⟩) hReach
  exact ⟨hRun.2, hRun.1⟩

theorem isClosed_step (h : c.state.isClosed id = true) (hStep : store.step l c = some c') : c'.state.isClosed id = true := by
  cases l with
  | run t a =>
    obtain ⟨o, th, k, hRan⟩ := Store.run_cases hStep
    rw [hRan.state]
    exact Op.isClosed_perform h
  | stop t =>
    obtain ⟨th, -, rfl⟩ := Store.stop_cases hStep
    exact h
  | event e =>
    cases hStep
    exact h

/-- Whatever the interleaving, a ticket's history is a path up to its status
with nothing after `closed`, and no request that starts later adds a message. -/
theorem ticket_history_path (hStart : w.Recorded)
    (h₁ : store.Reach (fun c l => landsInPlace c l) (State.start w requests) c₁) :
    (∀ ticket ∈ c₁.state.tickets, ticket.Recorded ∧ ∀ before entry after,
      ticket.statusHistory = before ++ entry :: after → entry.status = .closed → after = []) ∧
    ∀ id t th c₂ a c₃, c₁.state.isClosed id = true → c₁.threads[t]? = some th → th.born = none →
      store.Reach (fun c l => landsInPlace c l) c₁ c₂ → store.step (.run t a) c₂ = some c₃ →
      ∀ message ∈ c₃.state.messages, message.ticketId = id → message ∈ c₂.state.messages := by
  have hKept := (Kept.start hStart).reach h₁
  refine ⟨fun ticket hMem => ?_, ?_⟩
  · have hRecorded := hKept.recorded.tickets ticket hMem
    exact ⟨hRecorded, fun _ _ _ hSplit hStatus => hRecorded.final hSplit hStatus⟩
  · intro id t th c₂ a c₃ hClosed hThread hBorn h₂ hStep
    obtain ⟨r, -, hProgram⟩ := List.mem_map.mp (h₁.unborn hThread hBorn)
    have hKeeps : th.prog.Keeps (readsClosed id) (Op.Spares id) (fun _ => True) fun _ => True := by
      rw [← hProgram]
      exact r.program_keeps
    have hLate := h₂.keeps (I := fun c => Kept c ∧ c.state.isClosed id = true) ⟨hKept, hClosed⟩
      (fun c l c' hI hGuard hNext => ⟨hI.1.reach (.step .start hGuard hNext), isClosed_step hI.2 hNext⟩)
      (fun c o a hI => hI.1.recorded.readsClosed hI.2 o a) hThread hKeeps
    obtain ⟨⟨hKept₂, hClosed₂⟩, th₂, hThread₂, hKeeps₂⟩ := hLate
    obtain ⟨o, thT, k, hRan⟩ := Store.run_cases hStep
    rw [hRan.thread] at hThread₂
    cases hThread₂
    have hSpares := (hRan.keeps_self (hKept₂.recorded.readsClosed hClosed₂ o a) hKeeps₂).1
    rw [hRan.state]
    exact hSpares.messages

end Runs

def openTicket : Ticket := { id := 1, createdBy := 3, statusHistory := [⟨.opened, 0⟩] }

theorem openTicket_recorded : World.Recorded { tickets := [openTicket] } := by
  refine ⟨by decide, fun ticket hMem => ?_⟩
  cases List.mem_singleton.mp hMem
  exact ⟨List.isChain_singleton _, rfl⟩

/-- Staff closes the ticket, then its author still tries to reply. -/
theorem ticket_history_path_closed : ∃ c c' : State, c.state.isClosed 1 = true ∧
    (∀ ticket ∈ c.state.tickets, ticket.Recorded) ∧
    ∀ message ∈ c'.state.messages, message.ticketId = 1 → message ∈ c.state.messages := by
  obtain ⟨c, hReach, hEnd⟩ := store.exists_of_exec landsInPlace
    (State.start { tickets := [openTicket] } [.updateTicketStatus 1 .closed, .createTicketMessage 1 ⟨3, .customer⟩ ⟨"?", false⟩])
    (List.replicate 3 (.run 0 false))
    (fun c => c.state.isClosed 1 && (c.threads[1]?.any fun th => th.born.isNone) && (store.step (.run 1 false) c).isSome)
    (by decide +kernel)
  simp only [Bool.and_eq_true] at hEnd
  obtain ⟨⟨hClosed, hLate⟩, hNext⟩ := hEnd
  obtain ⟨th, hThread, hBorn⟩ := (Option.any_eq_true _ _).mp hLate
  obtain ⟨c', hStep⟩ := Option.isSome_iff_exists.mp hNext
  obtain ⟨hTickets, hMessages⟩ := ticket_history_path openTicket_recorded hReach
  exact ⟨c, c', hClosed, fun ticket hMem => (hTickets ticket hMem).1,
    hMessages 1 1 th c false c' hClosed hThread (Option.isNone_iff_eq_none.mp hBorn) .start hStep⟩

/-- Staff closes the ticket while a colleague that read it as open takes it on. -/
theorem closed_ticket_taken_on : ¬ ∀ (w : World) (requests : List Request) (c : State), w.Recorded →
    store.Reach (fun _ _ => True) (State.start w requests) c → ∀ ticket ∈ c.state.tickets, ∀ before entry after,
      ticket.statusHistory = before ++ entry :: after → entry.status = .closed → after = [] := by
  intro hClaim
  obtain ⟨c, hReach, hEnd⟩ := store.exists_of_exec (fun _ _ => true)
    (State.start { tickets := [openTicket] } [.updateTicketStatus 1 .inProgress, .updateTicketStatus 1 .closed])
    (List.flatten [.run 0 false :: List.replicate 3 (.run 1 false), List.replicate 2 (.run 0 false)])
    (fun c => c.state.tickets.any fun ticket => ticket.statusHistory = [⟨.opened, 0⟩] ++ ⟨.closed, 0⟩ :: [⟨.inProgress, 0⟩])
    (by decide +kernel)
  obtain ⟨ticket, hMem, hHistory⟩ := List.any_eq_true.mp hEnd
  have hNil := hClaim _ _ c openTicket_recorded (hReach.mono fun _ _ _ => trivial) ticket hMem _ _ _
    (of_decide_eq_true hHistory) rfl
  cases hNil

end RestaurantOs.Support
