import RestaurantOs.Async.Rely
import RestaurantOs.Data.Tables
import RestaurantOs.Payments.Types

/-!
# Support tickets

Staff moves a ticket along its status machine, its author replies to it, which
may open it again, and confirms that it is resolved. Each of these works on a
copy of the ticket that it has read.
-/

namespace RestaurantOs.Support

export Payments (Id Time ApiError Err)

open Async

inductive TicketStatus
  | opened | inProgress | waitingCustomer | resolved | closed
  deriving DecidableEq

def TICKET_STATUS_TRANSITIONS : TicketStatus → List TicketStatus
  | .opened => [.inProgress, .resolved, .closed]
  | .inProgress => [.waitingCustomer, .resolved, .closed]
  | .waitingCustomer => [.inProgress, .opened, .resolved, .closed]
  | .resolved => [.closed, .opened, .inProgress]
  | .closed => []

def isValidTicketTransition (src dst : TicketStatus) : Bool := (TICKET_STATUS_TRANSITIONS src).contains dst

def statusName : TicketStatus → String
  | .opened => "open"
  | .inProgress => "in_progress"
  | .waitingCustomer => "waiting_customer"
  | .resolved => "resolved"
  | .closed => "closed"

structure StatusHistoryEntry where
  status : TicketStatus
  at_ : Time
  deriving DecidableEq

structure Ticket where
  id : Id
  createdBy : Id
  restaurantId : Option Id := none
  status : TicketStatus := .opened
  statusHistory : List StatusHistoryEntry := []
  resolvedAt : Option Time := none
  closedAt : Option Time := none
  deriving DecidableEq

inductive UserRole
  | platformAdmin | restaurantOwner | restaurantManager | restaurantStaff | kitchenStaff | customer | agencyMember
  deriving DecidableEq

inductive Permission
  | ticketsRead | ticketsWrite | ticketsInternalNotes
  deriving DecidableEq

def ROLE_PERMISSIONS : UserRole → List Permission
  | .platformAdmin => [.ticketsRead, .ticketsWrite, .ticketsInternalNotes]
  | .restaurantOwner | .restaurantManager => [.ticketsRead]
  | _ => []

def roleHasPermission (role : UserRole) (permission : Permission) : Bool := (ROLE_PERMISSIONS role).contains permission

structure AuthedUser where
  id : Id
  role : UserRole
  deriving DecidableEq

inductive AuthorType
  | customer | support
  deriving DecidableEq

def isSupportStaff (role : UserRole) : Bool := roleHasPermission role .ticketsWrite

def authorTypeFor (role : UserRole) : AuthorType := if isSupportStaff role then .support else .customer

structure SupportMessage where
  ticketId : Id
  authorId : Id
  authorType : AuthorType
  content : String
  isInternal : Bool
  deriving DecidableEq

structure World where
  now : Time := 0
  tickets : List Ticket := []
  messages : List SupportMessage := []
  deriving DecidableEq

/-- The stored value after a save that sets a field only if the copy differs
from what was loaded. -/
def overwrite {α : Type} [DecidableEq α] (loaded saved stored : α) : α := if saved = loaded then stored else saved

/-- The save of `saved`, a changed copy of `loaded`: entries that were pushed are
appended to what is stored by then. -/
def Ticket.saveOver (loaded saved stored : Ticket) : Ticket :=
  { stored with
    status := overwrite loaded.status saved.status stored.status
    statusHistory := stored.statusHistory ++ saved.statusHistory.drop loaded.statusHistory.length
    resolvedAt := overwrite loaded.resolvedAt saved.resolvedAt stored.resolvedAt
    closedAt := overwrite loaded.closedAt saved.closedAt stored.closedAt }

/-- `resolveTenantAccess` is a query of the user's locations and businesses. -/
inductive Op
  | clock
  | findById (id : Id)
  | resolveTenantAccess (user : AuthedUser) (restaurantId : Id)
  | createMessage (message : SupportMessage)
  | save (loaded saved : Ticket)
  deriving DecidableEq

@[reducible] def Op.Resp : Op → Type
  | clock => Time
  | findById _ => Option Ticket
  | resolveTenantAccess _ _ => Bool
  | createMessage _ | save _ _ => Unit

namespace World

def ticket? (w : World) (id : Id) : Option Ticket := w.tickets.find? (·.id = id)

def updateTicket (w : World) (id : Id) (f : Ticket → Ticket) : World := { w with tickets := Tables.update (·.id = id) f w.tickets }

end World

def Op.perform : (op : Op) → Bool → World → Except Err op.Resp × World
  | clock, _, w => (.ok w.now, w)
  | findById id, _, w => (.ok (w.ticket? id), w)
  | resolveTenantAccess _ _, allowed, w => (.ok allowed, w)
  | createMessage message, _, w => (.ok (), { w with messages := w.messages ++ [message] })
  | save loaded saved, _, w => (.ok (), w.updateTicket loaded.id (loaded.saveOver saved))

def advance (elapsed : Time) (w : World) : World := { w with now := w.now + elapsed }

@[reducible] def store : Store Op Op.Resp Err World Bool Time := ⟨Op.perform, advance⟩

abbrev Promise (α : Type) := Prog Op Op.Resp Err α

def throwApi {α : Type} (error : ApiError) : Promise α := .raise (.api error)

/-! ## Requests -/

structure TicketAccess where
  isOwner : Bool
  isStaff : Bool
  canSeeInternal : Bool
  deriving DecidableEq

def Ticket.withStatus (ticket : Ticket) (status : TicketStatus) (now : Time) : Ticket :=
  { ticket with status, statusHistory := ticket.statusHistory ++ [⟨status, now⟩] }

def findTicketOrThrow (id : Id) : Promise Ticket := do
  let ticket : Option Ticket ← .call (Op.findById id)
  match ticket with
  | none => throwApi (.notFound "Ticket not found")
  | some ticket => pure ticket

def isRestaurantStaff (ticket : Ticket) (user : AuthedUser) : Promise Bool :=
  match ticket.restaurantId with
  | none => pure false
  | some restaurantId =>
    if roleHasPermission user.role .ticketsRead then .call (Op.resolveTenantAccess user restaurantId) else pure false

def getTicketAccess (ticket : Ticket) (user : AuthedUser) : Promise TicketAccess := do
  let isPlatformStaff := user.role = .platformAdmin && roleHasPermission user.role .ticketsRead
  let isRestaurantStaff ← isRestaurantStaff ticket user
  pure {
    isOwner := ticket.createdBy = user.id
    isStaff := isPlatformStaff || isRestaurantStaff
    canSeeInternal := roleHasPermission user.role .ticketsInternalNotes }

def reopenTo : TicketStatus → Option TicketStatus
  | .resolved => some .opened
  | .waitingCustomer => some .inProgress
  | _ => none

def reopen (ticket : Ticket) (access : TicketAccess) (wantsInternal : Bool) : Promise Unit :=
  if access.isOwner && !wantsInternal then
    match reopenTo ticket.status with
    | none => pure ()
    | some status => do
      let now : Time ← .call Op.clock
      .call (Op.save ticket (ticket.withStatus status now))
  else pure ()

structure CreateTicketMessageInput where
  content : String
  isInternal : Bool := false
  deriving DecidableEq

inductive Response
  | message (message : SupportMessage)
  | ticket (ticket : Ticket)
  deriving DecidableEq

def createTicketMessage (id : Id) (user : AuthedUser) (input : CreateTicketMessageInput) : Promise Response := do
  let ticket ← findTicketOrThrow id
  let access ← getTicketAccess ticket user
  if !access.isOwner && !access.isStaff then throwApi .forbidden
  else if ticket.status = .closed then throwApi (.badRequest "This ticket is closed and no longer accepts replies")
  else if input.isInternal && !access.canSeeInternal then throwApi .forbidden
  else do
    let message : SupportMessage :=
      { ticketId := ticket.id
        authorId := user.id
        authorType := authorTypeFor user.role
        content := input.content
        isInternal := input.isInternal }
    .call (Op.createMessage message)
    reopen ticket access input.isInternal
    pure (.message message)

def confirmResolution (id : Id) (user : AuthedUser) : Promise Response := do
  let ticket ← findTicketOrThrow id
  if ticket.createdBy ≠ user.id then throwApi .forbidden
  else if ticket.status ≠ .resolved then
    throwApi (.badRequest s!"Only a resolved ticket can be confirmed closed — this one is \"{statusName ticket.status}\"")
  else do
    let now : Time ← .call Op.clock
    let saved := { ticket.withStatus .closed now with closedAt := some now }
    .call (Op.save ticket saved)
    pure (.ticket saved)

/-- `ticket.resolvedAt` or `ticket.closedAt` of the new status. -/
def Ticket.stamped (ticket : Ticket) (now : Time) : Ticket :=
  { ticket with
    resolvedAt := if ticket.status = .resolved then some now else ticket.resolvedAt
    closedAt := if ticket.status = .closed then some now else ticket.closedAt }

def updateTicketStatus (id : Id) (nextStatus : TicketStatus) : Promise Response := do
  let ticket ← findTicketOrThrow id
  if !isValidTicketTransition ticket.status nextStatus then
    throwApi (.badRequest s!"Cannot move a ticket from \"{statusName ticket.status}\" to \"{statusName nextStatus}\"")
  else do
    let now : Time ← .call Op.clock
    let saved := (ticket.withStatus nextStatus now).stamped now
    .call (Op.save ticket saved)
    pure (.ticket saved)

inductive Request
  | createTicketMessage (id : Id) (user : AuthedUser) (input : CreateTicketMessageInput)
  | confirmResolution (id : Id) (user : AuthedUser)
  | updateTicketStatus (id : Id) (nextStatus : TicketStatus)
  deriving DecidableEq

def Request.program : Request → Promise Response
  | createTicketMessage id user input => Support.createTicketMessage id user input
  | confirmResolution id user => Support.confirmResolution id user
  | updateTicketStatus id nextStatus => Support.updateTicketStatus id nextStatus

abbrev State := Config Op Op.Resp Err World Response

def State.start (w : World) (requests : List Request) : State := Config.initial w (requests.map Request.program)

end RestaurantOs.Support
