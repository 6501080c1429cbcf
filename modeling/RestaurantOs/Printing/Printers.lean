import RestaurantOs.Support.Tickets

/-!
# Printers

A restaurant's printers and the one that prints what no printer is named for. A
request that makes a printer the default first takes the flag from the others of
its purpose, and writes the printer itself in a step of its own.
-/

namespace RestaurantOs.Printing

export Payments (Id ApiError Err)
export Support (AuthedUser overwrite)

open Async

inductive PrinterPurpose
  | receipt | kitchen | bar
  deriving DecidableEq

inductive PrinterConnectionType
  | browserPrint | webSerial | webusb | localBridge
  deriving DecidableEq

inductive PaperWidthMm
  | mm58 | mm80
  deriving DecidableEq

structure PrinterConnectionConfig where
  bridgeUrl : Option String := none
  deriving DecidableEq

structure Printer where
  id : Id
  restaurantId : Id
  name : String
  purpose : PrinterPurpose
  connectionType : PrinterConnectionType
  paperWidthMm : PaperWidthMm := .mm80
  isEnabled : Bool := true
  isDefault : Bool := false
  connectionConfig : PrinterConnectionConfig := {}
  deriving DecidableEq

structure CreatePrinterInput where
  name : String
  purpose : PrinterPurpose
  connectionType : PrinterConnectionType
  paperWidthMm : PaperWidthMm := .mm80
  isEnabled : Bool := true
  isDefault : Bool := false
  connectionConfig : Option PrinterConnectionConfig := none
  deriving DecidableEq

structure UpdatePrinterInput where
  name : Option String := none
  purpose : Option PrinterPurpose := none
  connectionType : Option PrinterConnectionType := none
  paperWidthMm : Option PaperWidthMm := none
  isEnabled : Option Bool := none
  isDefault : Option Bool := none
  connectionConfig : Option PrinterConnectionConfig := none
  deriving DecidableEq

structure AuditMetadata where
  name : String
  purpose : Option PrinterPurpose := none
  connectionType : Option PrinterConnectionType := none
  deriving DecidableEq

structure AuditEvent where
  restaurantId : Id
  actor : AuthedUser
  action : String
  targetType : String := "printer"
  targetId : Id
  metadata : Option AuditMetadata := none
  deriving DecidableEq

structure World where
  printers : List Printer := []
  auditLog : List AuditEvent := []
  nextId : Id := 0
  deriving DecidableEq

/-- `Object.assign(existing, updates)` -/
def UpdatePrinterInput.assign (updates : UpdatePrinterInput) (existing : Printer) : Printer :=
  { existing with
    name := updates.name.getD existing.name
    purpose := updates.purpose.getD existing.purpose
    connectionType := updates.connectionType.getD existing.connectionType
    paperWidthMm := updates.paperWidthMm.getD existing.paperWidthMm
    isEnabled := updates.isEnabled.getD existing.isEnabled
    isDefault := updates.isDefault.getD existing.isDefault
    connectionConfig := updates.connectionConfig.getD existing.connectionConfig }

def Printer.saveOver (loaded saved stored : Printer) : Printer :=
  { stored with
    name := overwrite loaded.name saved.name stored.name
    purpose := overwrite loaded.purpose saved.purpose stored.purpose
    connectionType := overwrite loaded.connectionType saved.connectionType stored.connectionType
    paperWidthMm := overwrite loaded.paperWidthMm saved.paperWidthMm stored.paperWidthMm
    isEnabled := overwrite loaded.isEnabled saved.isEnabled stored.isEnabled
    isDefault := overwrite loaded.isDefault saved.isDefault stored.isDefault
    connectionConfig := overwrite loaded.connectionConfig saved.connectionConfig stored.connectionConfig }

def CreatePrinterInput.printer (input : CreatePrinterInput) (id restaurantId : Id) : Printer where
  id := id
  restaurantId := restaurantId
  name := input.name
  purpose := input.purpose
  connectionType := input.connectionType
  paperWidthMm := input.paperWidthMm
  isEnabled := input.isEnabled
  isDefault := input.isDefault
  connectionConfig := input.connectionConfig.getD {}

/-- `clearDefaults` is the bulk update of the other printers of a purpose. -/
inductive Op
  | clearDefaults (restaurantId : Id) (purpose : PrinterPurpose) (besides : Option Id)
  | create (restaurantId : Id) (input : CreatePrinterInput)
  | findOne (id restaurantId : Id)
  | save (loaded saved : Printer)
  | deleteOne (id restaurantId : Id)
  | createAuditLog (event : AuditEvent)
  deriving DecidableEq

@[reducible] def Op.Resp : Op → Type
  | clearDefaults _ _ _ | save _ _ | createAuditLog _ => Unit
  | create _ _ => Printer
  | findOne _ _ => Option Printer
  | deleteOne _ _ => Nat

def isOtherDefault (restaurantId : Id) (purpose : PrinterPurpose) (besides : Option Id) (p : Printer) : Bool :=
  p.restaurantId = restaurantId && p.purpose = purpose && p.isDefault && besides != some p.id

def Op.perform : (op : Op) → World → Except Err op.Resp × World
  | clearDefaults restaurantId purpose besides, w =>
    (.ok (), { w with printers := Tables.update (isOtherDefault restaurantId purpose besides) ({ · with isDefault := false }) w.printers })
  | create restaurantId input, w =>
    let printer := input.printer w.nextId restaurantId
    (.ok printer, { w with printers := w.printers ++ [printer], nextId := w.nextId + 1 })
  | findOne id restaurantId, w => (.ok (w.printers.find? fun p => p.id = id && p.restaurantId = restaurantId), w)
  | save loaded saved, w =>
    if !w.printers.any (·.id = loaded.id) then (.error (.other "DocumentNotFoundError"), w)
    else (.ok (), { w with printers := Tables.update (·.id = loaded.id) (loaded.saveOver saved) w.printers })
  | deleteOne id restaurantId, w =>
    let selected (p : Printer) : Bool := p.id = id && p.restaurantId = restaurantId
    (.ok (if w.printers.any selected then 1 else 0), { w with printers := w.printers.filter fun p => !selected p })
  | createAuditLog event, w => (.ok (), { w with auditLog := w.auditLog ++ [event] })

@[reducible] def store : Store Op Op.Resp Err World (Except Err Unit) Empty :=
  Store.faulty ⟨fun o _ w => o.perform w, Empty.elim⟩ id

abbrev Promise (α : Type) := Prog Op Op.Resp Err α

def throwApi {α : Type} (error : ApiError) : Promise α := .raise (.api error)

/-! ## Requests -/

def recordAuditEvent (event : AuditEvent) : Promise Unit := do
  let _ ← (.call (Op.createAuditLog event) : Promise Unit).attempt

inductive Response
  | printer (printer : Printer)
  | noContent
  deriving DecidableEq

def clearDefaultsIf (isDefault : Bool) (restaurantId : Id) (purpose : PrinterPurpose) (besides : Option Id) : Promise Unit :=
  if isDefault then .call (Op.clearDefaults restaurantId purpose besides) else pure ()

def createPrinter (user : AuthedUser) (restaurantId : Id) (input : CreatePrinterInput) : Promise Response := do
  clearDefaultsIf input.isDefault restaurantId input.purpose none
  let printer : Printer ← .call (Op.create restaurantId input)
  recordAuditEvent {
    restaurantId
    actor := user
    action := "printer.created"
    targetId := printer.id
    metadata := some ⟨printer.name, some printer.purpose, some printer.connectionType⟩ }
  pure (.printer printer)

def updatePrinter (user : AuthedUser) (restaurantId printerId : Id) (updates : UpdatePrinterInput) : Promise Response := do
  let existing : Option Printer ← .call (Op.findOne printerId restaurantId)
  match existing with
  | none => throwApi (.notFound "Printer not found")
  | some existing => do
    clearDefaultsIf (updates.isDefault = some true) restaurantId (updates.purpose.getD existing.purpose) (some printerId)
    let saved := updates.assign existing
    .call (Op.save existing saved)
    recordAuditEvent {
      restaurantId
      actor := user
      action := "printer.updated"
      targetId := saved.id
      metadata := some { name := saved.name } }
    pure (.printer saved)

def deletePrinter (user : AuthedUser) (restaurantId printerId : Id) : Promise Response := do
  let deletedCount : Nat ← .call (Op.deleteOne printerId restaurantId)
  if deletedCount = 0 then throwApi (.notFound "Printer not found")
  else do
    recordAuditEvent { restaurantId, actor := user, action := "printer.deleted", targetId := printerId }
    pure .noContent

inductive Request
  | createPrinter (user : AuthedUser) (restaurantId : Id) (input : CreatePrinterInput)
  | updatePrinter (user : AuthedUser) (restaurantId printerId : Id) (updates : UpdatePrinterInput)
  | deletePrinter (user : AuthedUser) (restaurantId printerId : Id)

def Request.program : Request → Promise Response
  | createPrinter user restaurantId input => Printing.createPrinter user restaurantId input
  | updatePrinter user restaurantId printerId updates => Printing.updatePrinter user restaurantId printerId updates
  | deletePrinter user restaurantId printerId => Printing.deletePrinter user restaurantId printerId

abbrev State := Config Op Op.Resp Err World Response

def State.start (w : World) (requests : List Request) : State := Config.initial w (requests.map Request.program)

/-! ## The printer of a job -/

def Printer.isDefaultOf (restaurantId : Id) (purpose : PrinterPurpose) (p : Printer) : Bool :=
  p.restaurantId = restaurantId && p.purpose = purpose && p.isEnabled && p.isDefault

end RestaurantOs.Printing
