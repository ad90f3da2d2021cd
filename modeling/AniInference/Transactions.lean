import AniInference.Managed
import AniInference.Lib.RowStatements
import AniInference.Lib.UuidText

namespace AniInference.Accept
open Lib

/-- `parseUUID`. -/
def parseUUID (text : Text) : Option Uuid := (Uuid128.parse text).map Uuid128.number

/-- `UUID.String`. -/
def canonical (id : Uuid) : Text := (Uuid128.ofNumber id).text

/-- A UUID as a call spells it. -/
structure Spelling where
  text : Text
  id : Uuid
  parses : parseUUID text = some id

/-- A row, the entry of a unique index, or an advisory lock, which is keyed by a text. The column
`result_snapshot` of an operation, which is set once, is a row of its own. -/
inductive Row
  | advisory (key : Text)
  | idempotency (tenant : Uuid) (method key : String)
  | service (tenant id : Uuid)
  | serviceName (tenant : Uuid) (name : String)
  | operation (tenant id : Uuid)
  | resultSnapshot (tenant operation : Uuid)
  | activeOperation (tenant service : Uuid)
  | spec (tenant service : Uuid) (generation : Generation)
  | runtime (tenant service : Uuid)
  | reservation (tenant operation : Uuid)
  | work (tenant service : Uuid)
  | audit (tenant event : Uuid)
  | managedResource (tenant resource : Uuid)
  | managedCreate (tenant operation : Uuid)
  | managedCommand (tenant operation : Uuid)
  | releaseScope (tenant service operation : Uuid)
deriving DecidableEq

@[reducible] def Row.Value : Row → Type
  | .advisory _ => Unit
  | .idempotency .. => IdempotencyRow
  | .service .. => Service
  | .serviceName .. => Uuid
  | .operation .. => OperationRow
  | .resultSnapshot .. => Response
  | .activeOperation .. => Uuid
  | .spec .. => Spec
  | .runtime .. => RuntimeRow
  | .reservation .. => ReservationRow
  | .work .. => WorkRow
  | .audit .. => AuditRow
  | .managedResource .. => ManagedResource
  | .managedCreate .. => Uuid
  | .managedCommand .. => ManagedCommandRow
  | .releaseScope .. => ReleaseScope

/-- What an acceptance makes: services, operations, specifications, reservations and work. -/
def Row.accepted : Row → Bool
  | .service .. | .operation .. | .spec .. | .reservation .. | .work .. => true
  | _ => false

def Row.isIdempotency : Row → Bool
  | .idempotency .. => true
  | _ => false

def Row.isService : Row → Bool
  | .service .. => true
  | _ => false

abbrev Rows := LockedRows Row Row.Value
abbrev Stmt := RowStmt Row Row.Value
abbrev Call := RowCall Row Row.Value
abbrev Program := Prog Call RowCall.Answer

/-- A call that leaves the idempotency rows alone. -/
def keyless : Call → Bool
  | .stmt q => !q.key.isIdempotency
  | _ => true

/-- The body of a transaction. -/
abbrev Body := ExceptT Err Program

/-- A part of one in which the idempotency rows do not occur. -/
abbrev Plain := ExceptT Err (Prog { e : Call // keyless e = true } fun e => RowCall.Answer e.1)

def Plain.body {α : Type} (x : Plain α) : Body α :=
  ExceptT.mk (x.run.hoist Subtype.val fun _ r => r)

instance : MonadLift Plain Body := ⟨Plain.body⟩

def orFail {α : Type} : Except Refusal α → Except Err α
  | .ok a => .ok a
  | .error .violated => .error .uniqueViolation
  | .error _ => .error .connection

/-- A statement on an idempotency row. -/
def keyStmt (q : Stmt) : Body q.Answer :=
  ExceptT.mk (.call (.stmt q) fun r => .ret (orFail r))

/-- Any other statement. -/
def stmt (q : Stmt) (h : q.key.isIdempotency = false := by rfl) : Plain q.Answer :=
  ExceptT.mk (.call ⟨.stmt q, by simp [keyless, h]⟩ fun r => .ret (orFail r))

def commit : Plain Unit := ExceptT.mk (.call ⟨.commit, rfl⟩ fun r => .ret (orFail r))

def rollback : Plain Unit := ExceptT.mk (.call ⟨.rollback, rfl⟩ fun _ => .ret (.ok ()))

def reject (c : Prop) [Decidable c] (e : Err) : Plain Unit := if c then throw e else pure ()

def onlyIf (c : Prop) [Decidable c] (x : Plain Unit) : Plain Unit := if c then x else pure ()

def require {α : Type} (o : Option α) (e : Err) : Plain α :=
  match o with
  | some a => pure a
  | none => throw e

def checked : Except Err Unit → Plain Unit
  | .ok _ => pure ()
  | .error e => throw e

/-- The body and the deferred `Rollback`, which does nothing after a commit. -/
def inTx {α : Type} (body : Body α) : Body α := do
  let result ← ExceptT.lift body.run
  rollback
  match result with
  | .ok a => pure a
  | .error e => throw e

section Statements

def lockKey (tenant : Text) (method key : String) : Text :=
  tenant ++ ':' :: (method.toList ++ ':' :: key.toList)

/-- `LockIdempotency`. The lock is keyed by the text of the tenant id. -/
def lockIdempotency (tenant : Text) (method key : String) : Plain Unit :=
  stmt (.lock (.advisory (lockKey tenant method key)))

def lockManagedGPUKey (key : Text) : Plain Unit := stmt (.lock (.advisory key))

def getIdempotency (tenant : Uuid) (method key : String) : Body (Option IdempotencyRow) :=
  keyStmt (.read (.idempotency tenant method key))

/-- `PutIdempotency`: whether a row was inserted. -/
def putIdempotency (tenant : Uuid) (method key hash : String) (operation : Uuid) : Body Bool :=
  keyStmt (.insertNew (.idempotency tenant method key) ⟨hash, operation⟩)

def getOperation (tenant id : Uuid) : Plain (Option OperationRow) :=
  stmt (.read (.operation tenant id))

def getResultSnapshot (tenant operation : Uuid) : Plain (Option Response) :=
  stmt (.read (.resultSnapshot tenant operation))

/-- Whether the column was not set before. -/
def saveOperationAcceptanceResponse (tenant operation : Uuid) (response : Response) : Plain Bool :=
  stmt (.insertNew (.resultSnapshot tenant operation) response)

def insertService (tenant service : Uuid) (name : String) (generation : Generation) :
    Plain Unit := do
  stmt (.insert (.serviceName tenant name) service)
  stmt (.insert (.service tenant service) (Sql.newService name generation))

def insertOperation (tenant id service : Uuid) (kind : Kind) (step : Step) (target : Generation)
    (requestHash : String) : Plain Unit := do
  stmt (.insert (.activeOperation tenant service) id)
  stmt (.insert (.operation tenant id) (Sql.newOperation service kind step target requestHash))

/-- A second active operation, or a used id, is the caller's conflict. -/
def enterOperation (tenant id service : Uuid) (kind : Kind) (step : Step) (target : Generation)
    (requestHash : String) : Plain Unit := do
  let result ← ExceptT.lift (insertOperation tenant id service kind step target requestHash).run
  match result with
  | .ok () => pure ()
  | .error e => throw (if e = .uniqueViolation then .operationActive else e)

def setCurrentOperation (tenant service operation : Uuid) : Plain Unit := do
  let _ ← stmt (.update (.service tenant service) fun s =>
    some { s with currentOperation := some operation })

def insertSpec (tenant service : Uuid) (generation : Generation) (spec : Spec) : Plain Unit :=
  stmt (.insert (.spec tenant service generation) spec)

def getSpec (tenant service : Uuid) (generation : Generation) : Plain (Option Spec) :=
  stmt (.read (.spec tenant service generation))

/-- `CloneSpecGeneration` and `CloneSpecWithRuntimeUpdate`: whether the source row is there. -/
def cloneSpec (tenant service : Uuid) (source target : Generation) (overlay : Spec → Spec) :
    Plain Bool := do
  match ← getSpec tenant service source with
  | some spec => do
    insertSpec tenant service target (overlay spec)
    return true
  | none => return false

def insertRuntime (tenant service : Uuid) (generation : Generation) (mode : String) : Plain Unit :=
  stmt (.insert (.runtime tenant service) ⟨generation, mode, 0, 0, "", "pending", 0, false, false,
    "withdrawn", "unhealthy", "runtime_pending"⟩)

def insertQuotaReservation (tenant service operation : Uuid) (generation : Generation)
    (resources : Resources.Spec) : Plain Unit :=
  stmt (.insert (.reservation tenant operation)
    ⟨service, generation, .placeholder operation, resources, .pending, ""⟩)

def upsertResourceWork (now : Time) (tenant service : Uuid) (dirty : Nat) : Plain Unit :=
  stmt (.upsert (.work tenant service) fun
    | some w => { w with dirtyVersion := max (w.dirtyVersion + 1) dirty, nextRunAt := some now }
    | none => ⟨dirty, 0, some now, 0, none, none, ""⟩)

def releaseResourceWorkLease (now : Time) (tenant service : Uuid) : Plain Unit := do
  let _ ← stmt (.update (.work tenant service) fun w =>
    some { w.released with nextRunAt := some now })

def appendAuditEvent (tenant event : Uuid) (row : AuditRow) : Plain Unit :=
  stmt (.insert (.audit tenant event) row)

def getServiceForUpdate (tenant service : Uuid) : Plain (Option Service) :=
  stmt (.readForUpdate (.service tenant service))

def transitionService (desired : DesiredState) (target : Generation)
    (operation tenant service : Uuid) (expected : Generation) : Plain Bool :=
  stmt (.update (.service tenant service) fun s =>
    if s.desiredGeneration = expected ∧ s.deletedAt.isNone then
      some (s.moved desired target operation)
    else none)

/-- `CancelActiveOperation`: whether there was one. -/
def cancelActiveOperation (now : Time) (tenant service : Uuid) : Plain Bool := do
  let row ← stmt (.read (.service tenant service))
  match row.bind (·.currentOperation) with
  | none => return false
  | some operation => do
    let hit ← stmt (.update (.operation tenant operation) fun o =>
      if o.phase.active ∧ row.all (·.deletedAt.isNone) then some (Sql.cancelled now o) else none)
    onlyIf hit (stmt (.remove (.activeOperation tenant service)))
    return hit

def getManagedResource (tenant resource : Uuid) : Plain (Option ManagedResource) :=
  stmt (.read (.managedResource tenant resource))

def getManagedResourceForUpdate (tenant resource : Uuid) : Plain (Option ManagedResource) :=
  stmt (.readForUpdate (.managedResource tenant resource))

def getManagedCommand (tenant operation : Uuid) : Plain (Option ManagedCommandRow) :=
  stmt (.read (.managedCommand tenant operation))

def managedServiceExists (tenant service : Uuid) : Plain Bool := do
  return (← stmt (.read (.service tenant service))).isSome

def insertManagedResource (tenant resource : Uuid) (row : ManagedResource) : Plain Unit := do
  stmt (.insert (.managedCreate tenant row.createOperationID) resource)
  stmt (.insert (.managedResource tenant resource) row)

def setManagedClosing (tenant resource operation : Uuid) : Plain Unit := do
  let _ ← stmt (.update (.managedResource tenant resource) fun m =>
    some { m with closing := true, deleteOperationID := some (m.deleteOperationID.getD operation) })

def saveManagedCreate (tenant resource : Uuid) (c : ManagedCommand) : Plain Unit := do
  let _ ← stmt (.update (.managedResource tenant resource) fun m =>
    if m.createPayload.isNone then
      some { m with
        businessPayload := some c.business, businessPayloadDigest := c.businessDigest
        createRequestHash := c.requestHash, createPayload := some c.payload }
    else none)

def insertManagedCommand (tenant operation : Uuid) (row : ManagedCommandRow) : Plain Unit :=
  stmt (.insert (.managedCommand tenant operation) row)

def setManagedCloseState (tenant operation : Uuid) (state : CloseState) : Plain Unit := do
  let _ ← stmt (.update (.managedCommand tenant operation) fun c =>
    if c.kind = .delete then some { c with closeState := state } else none)

/-- `ManagedExecutionFacts`. `operations` is what its scan of the service's operations finds. -/
def managedExecutionFacts (operations : Bool) (tenant resource : Uuid) : Plain Bool := do
  let work ← stmt (.read (.work tenant resource))
  let managed ← getManagedResource tenant resource
  return operations || work.isSome || managed.any (·.createPayload.isSome)

def upsertReleaseScope (tenant service operation : Uuid) (scope : ReleaseScope) : Plain Unit :=
  stmt (.upsert (.releaseScope tenant service operation) fun _ => scope)

end Statements

/-- What a call is answered, and whether an earlier call left the answer. -/
structure Reply where
  replayed : Bool
  serviceID : Uuid
  operationID : Uuid
  response : Option Response

/-- A Governance command as it is spelled. -/
structure ManagedCall where
  resource : Spelling
  operation : Spelling
  command : ManagedCommand

/-- What `Repository.CreateService` is called with. -/
structure CreateCall where
  tenant : Spelling
  managed : Option ManagedCall
  given : CreateInput

structure CommandCall where
  tenant : Spelling
  service : Spelling
  given : CommandInput

/-- A delete by Governance. The tenant and the resource of the command are those of the call,
letter by letter; `scan` is what a scan of the service's operations finds. -/
structure DeleteCall where
  tenant : Spelling
  managed : ManagedCall
  scan : Bool
  given : ManagedDeleteInput

structure UpdateCall where
  tenant : Spelling
  service : Spelling
  managedOperation : Option Spelling
  given : UpdateInput

def CommandCall.input (c : CommandCall) : CommandInput :=
  { c.given with tenantID := c.tenant.id, serviceID := c.service.id }

def UpdateCall.input (c : UpdateCall) : UpdateInput :=
  { c.given with
    tenantID := c.tenant.id, serviceID := c.service.id
    managedOperationID := c.managedOperation.map (·.id) }

/-- The command with the identities its texts stand for. -/
def ManagedCall.parsed (m : ManagedCall) (tenant create : Uuid) (delete : Option Uuid) :
    ManagedCommand :=
  { m.command with context := { m.command.context with
      tenantID := tenant, resourceID := m.resource.id, originalCreateOperationID := create
      deleteOperationID := delete } }

section Managed

/-- The lock that orders the commands on one resource. -/
def resourceKey (tenant resource : Text) : Text := tenant ++ ':' :: resource

def commandKey (tenant operation : Text) : Text :=
  tenant ++ ":command:".toList ++ operation

/-- The checks of `prepareManagedCommand` on a resource that is recorded. -/
def prepareRecorded (c : ManagedCommand) (kind : Kind) (operation : Uuid)
    (saved : ManagedResource) : Plain Managed.Intake := do
  let original := c.context
  reject (!Managed.sameIdentity original saved) .idempotencyConflict
  if kind = .create ∧ saved.deleteOperationID.isSome then
    return .closing c
  else if kind = .delete then do
    reject (Managed.deleteDiffers original saved.originalContext) .idempotencyConflict
    reject (saved.deleteOperationID.isSome ∧ saved.deleteOperationID ≠ some operation)
      .idempotencyConflict
    return Managed.Intake.ofClosing saved.deleteOperationID.isSome
      (Managed.restored c saved.originalContext)
  else do
    reject ({ saved.originalContext with deleteOperationID := none } ≠
      { original with deleteOperationID := none }) .idempotencyConflict
    reject (saved.businessPayloadDigest ≠ "" ∧ saved.businessPayloadDigest ≠ c.businessDigest)
      .idempotencyConflict
    return Managed.Intake.ofClosing saved.deleteOperationID.isSome c

/-- `prepareManagedCommand`. -/
def prepareManagedCommand (tenant : Text) (m : ManagedCall) (c : ManagedCommand) (kind : Kind) :
    Plain Managed.Intake := do
  lockManagedGPUKey (commandKey tenant m.operation.text)
  lockManagedGPUKey (resourceKey tenant m.resource.text)
  match ← getManagedCommand c.context.tenantID m.operation.id with
  | some existing => do
    reject (existing.payloadHash ≠ c.payload) .idempotencyConflict
    return .replay existing.responseSnapshot
  | none =>
    match ← getManagedResourceForUpdate c.context.tenantID m.resource.id with
    | some saved => prepareRecorded c kind m.operation.id saved
    | none => do
      let direct ← managedServiceExists c.context.tenantID m.resource.id
      reject direct (.invalidState "existing direct resource is not Governance managed")
      insertManagedResource c.context.tenantID m.resource.id (Managed.recordedResource c)
      return .fresh c

def persistManagedCommand (c : ManagedCommand) (kind : Kind) (operation : Uuid) (intent : Intent)
    (response : Response) : Plain Unit := do
  let original := c.context
  onlyIf (kind = .delete) (setManagedClosing original.tenantID original.resourceID operation)
  onlyIf (kind ≠ .delete ∧ intent ≠ .blockedByDelete)
    (saveManagedCreate original.tenantID original.resourceID c)
  insertManagedCommand original.tenantID operation
    ⟨original.resourceID, original.originalCreateOperationID, kind, c.payload, c.requestHash,
      response, intent, .none, none, none, 0, none, none⟩

end Managed

section Create
variable (now : Time) (fresh : Fresh) (call : CreateCall)

/-- The rows of a new service, up to its work. -/
def insertAccepted (service operation : Uuid) : Plain Unit := do
  let tenant := call.tenant.id
  let input := call.given
  insertService tenant service input.name 1
  insertOperation tenant operation service .create .admission 1 input.requestHash
  setCurrentOperation tenant service operation
  insertSpec tenant service 1 ⟨input.content, input.gpuPlan, Sql.pgText input.gpuPlanDigest⟩
  insertRuntime tenant service 1 (Store.orDefault input.content.runtimeMode "deployment")
  onlyIf call.managed.isNone
    (insertQuotaReservation tenant service operation 1 input.content.resources)
  upsertResourceWork now tenant service 1

/-- The answer the earlier request with this key was given. -/
def answerFrom (existing : IdempotencyRow) : Plain Reply := do
  reject (existing.payloadHash ≠ call.given.requestHash) .idempotencyConflict
  let o ← getOperation call.tenant.id existing.operationID
  let o ← require o .noRows
  commit
  return ⟨true, o.serviceID, existing.operationID, none⟩

def createMethod : String := "CreateInferenceService"

/-- A row that another transaction entered since the first look answers for this call. What this
one has written by then is committed with it. -/
def answerConflict : Body Reply := do
  let existing ← getIdempotency call.tenant.id createMethod call.given.requestID
  let existing ← require existing .noRows
  answerFrom call existing

def finishCreate (service operation : Uuid) : Plain Reply := do
  appendAuditEvent call.tenant.id fresh.event
    (Commands.acceptedEvent .create service operation 1 call.given.actor call.given.requestID)
  commit
  return ⟨false, service, operation, none⟩

/-- A create without a key. -/
def createKeyless : Plain Reply := do
  insertAccepted now call fresh.service fresh.operation
  finishCreate fresh call fresh.service fresh.operation

/-- A create whose key was not found. -/
def createFresh : Body Reply := do
  insertAccepted now call fresh.service fresh.operation
  let entered ← putIdempotency call.tenant.id createMethod call.given.requestID
    call.given.requestHash fresh.operation
  if entered then finishCreate fresh call fresh.service fresh.operation
  else answerConflict call

/-- A create of the tenant's own. -/
def createDirect : Body Reply :=
  if call.given.requestID = "" then createKeyless now fresh call
  else do
    lockIdempotency call.tenant.text createMethod call.given.requestID
    match ← getIdempotency call.tenant.id createMethod call.given.requestID with
    | some existing => answerFrom call existing
    | none => createFresh now fresh call

/-- A create by Governance. -/
def createManaged (m : ManagedCall) : Plain Reply := do
  let service := m.resource.id
  let operation := m.operation.id
  let c := m.parsed call.tenant.id operation m.command.context.deleteOperationID
  reject (m.resource.text ≠ canonical service ∨ m.operation.text ≠ canonical operation ∨
    (c.resourceClass = .gpu ∧ call.given.gpuPlan.isNone)) (.invalidState "")
  match ← prepareManagedCommand call.tenant.text m c .create with
  | .replay response => return ⟨true, service, operation, some response⟩
  | .closing c => do
    let response := Managed.managedIntentResponse c.context operation .create .blockedByDelete
    persistManagedCommand c .create operation .blockedByDelete response
    commit
    return ⟨false, service, operation, some response⟩
  | .fresh c => do
    insertAccepted now call service operation
    appendAuditEvent call.tenant.id fresh.event
      (Commands.acceptedEvent .create service operation 1 call.given.actor call.given.requestID)
    persistManagedCommand c .create operation .createPending
      (Managed.createResponse service operation)
    commit
    return ⟨false, service, operation, none⟩

/-- `Repository.CreateService`. -/
def createService : Body Reply :=
  match call.managed with
  | none => inTx (createDirect now fresh call)
  | some m => inTx (createManaged now fresh call m)

end Create

section Command
variable (now : Time) (fresh : Fresh) (call : CommandCall)

def commandMethod (kind : Kind) : String := "InferenceService/" ++ kind.text

/-- The answer the earlier request with this key was given. A delete may have been accepted while
its digest still named a generation. -/
def answerCommand (existing : IdempotencyRow) : Plain Reply := do
  let input := call.input
  let o ← getOperation input.tenantID existing.operationID
  let o ← require o .noRows
  reject (existing.payloadHash ≠ input.requestHash ∧
    (input.kind ≠ .delete ∨ o.kind ≠ .delete ∨ o.targetGeneration < 2 ∨
      existing.payloadHash ≠ input.legacyHash (o.targetGeneration - 1))) .idempotencyConflict
  commit
  return ⟨true, o.serviceID, existing.operationID,
    some (Commands.commandResponseFromRow existing.operationID o)⟩

def replayedCommand : Body (Option Reply) :=
  if call.input.requestID = "" then pure none
  else do
    lockIdempotency call.tenant.text (commandMethod call.input.kind) call.input.requestID
    match ← getIdempotency call.input.tenantID (commandMethod call.input.kind)
      call.input.requestID with
    | none => return none
    | some existing => do
      let reply ← answerCommand call existing
      return some reply

def admitCommand : Plain (Service × Option ManagedResource) := do
  let input := call.input
  let row ← getServiceForUpdate input.tenantID input.serviceID
  let current ← require row .notFound
  reject ((input.kind ≠ .delete ∧ current.desiredGeneration ≠ input.expectedGeneration) ∨
    current.deletedAt.isSome) .generationConflict
  let managed ← getManagedResource input.tenantID input.serviceID
  reject (managed.isSome ∧ input.kind = .delete)
    (.invalidState "managed DELETE requires a trusted Governance attachment")
  reject (managed.any (·.closing) ∧ (input.kind = .start ∨ input.kind = .restart))
    (.invalidState "managed resource has a closing intent")
  checked (Commands.validCommandState input.kind current.desiredState)
  return (current, managed)

/-- The resources a start or a restart reserves. -/
def requestedResources (generation : Generation) : Plain Resources.Spec := do
  let input := call.input
  if input.kind = .start ∨ input.kind = .restart then do
    let row ← getSpec input.tenantID input.serviceID generation
    let spec ← require row .noRows
    return spec.content.resources
  else return ⟨[], [], none⟩

def cancelFor : Plain Bool :=
  if call.input.kind = .delete then
    cancelActiveOperation now call.input.tenantID call.input.serviceID
  else pure false

def cloneGeneration (generation : Generation) : Plain Unit := do
  let cloned ← cloneSpec call.input.tenantID call.input.serviceID generation (generation + 1) id
  reject (!cloned) (.invalidState "missing current specification")

/-- The key, where the request has one. -/
def enterKey (tenant : Uuid) (method key hash : String) (operation : Uuid) : Body Unit :=
  if key = "" then pure ()
  else do
    let _ ← putIdempotency tenant method key hash operation

/-- The writes of a command up to its work. -/
def moveCommand (current : Service) (managed : Option ManagedResource) : Plain Unit := do
  let input := call.input
  let tenant := input.tenantID
  let service := input.serviceID
  let operation := fresh.operation
  let target := current.desiredGeneration + 1
  let cancelled ← cancelFor now call
  let resources ← requestedResources call current.desiredGeneration
  onlyIf (input.kind ≠ .delete) (cloneGeneration call current.desiredGeneration)
  let moved ← transitionService (Commands.targetState input.kind current.desiredState) target
    operation tenant service current.desiredGeneration
  reject (!moved) .generationConflict
  enterOperation tenant operation service input.kind (Commands.firstStep input.kind) target
    input.requestHash
  onlyIf cancelled (releaseResourceWorkLease now tenant service)
  onlyIf (managed.isNone ∧ (input.kind = .start ∨ input.kind = .restart))
    (insertQuotaReservation tenant service operation target resources)
  upsertResourceWork now tenant service target

def finishCommand (target : Generation) : Plain Reply := do
  let input := call.input
  let service := input.serviceID
  let operation := fresh.operation
  appendAuditEvent input.tenantID fresh.event
    (Commands.acceptedEvent input.kind service operation target input.actor input.requestID)
  commit
  return ⟨false, service, operation, some
    (Commands.commandResponse service operation target input.kind
      (Commands.firstStep input.kind))⟩

def acceptCommand : Body Reply := do
  let input := call.input
  let (current, managed) ← admitCommand call
  moveCommand now fresh call current managed
  enterKey input.tenantID (commandMethod input.kind) input.requestID input.requestHash
    fresh.operation
  finishCommand fresh call (current.desiredGeneration + 1)

/-- `CommandUseCase.Command` for a request without a Governance attachment. -/
def command : Body Reply := do
  reject (call.input.kind ≠ .delete ∧ call.input.expectedGeneration < 1) .generationConflict
  reject (call.input.kind = .create ∨ call.input.kind = .update)
    (.invalidState call.input.kind.text)
  inTx do
    match ← replayedCommand call with
    | some reply => return reply
    | none => acceptCommand now fresh call

end Command

section Delete
variable (now : Time) (fresh : Fresh) (call : DeleteCall)

/-- A delete for a resource that was never created, or whose creation cannot be excluded. -/
def closeWithoutService (c : ManagedCommand) (operation : Uuid) : Plain Reply := do
  let original := c.context
  let unknown ← managedExecutionFacts call.scan original.tenantID original.resourceID
  let state : CloseState :=
    if unknown then .unknownExecution
    else if Managed.managedClass c = .cpu then .complete else .pending
  let response := Managed.managedIntentResponse original operation .delete .closingIntent
  persistManagedCommand c .delete operation .closingIntent response
  setManagedCloseState original.tenantID operation state
  onlyIf (!unknown ∧ Managed.managedClass c = .gpu)
    (upsertReleaseScope original.tenantID original.resourceID operation ⟨some now, []⟩)
  commit
  return ⟨false, original.resourceID, operation, some response⟩

def deleteService (c : ManagedCommand) (operation : Uuid) (current : Service) : Plain Reply := do
  let tenant := c.context.tenantID
  let service := c.context.resourceID
  let target := current.desiredGeneration + 1
  let cancelled ← cancelActiveOperation now tenant service
  let moved ← transitionService .deleted target operation tenant service current.desiredGeneration
  reject (!moved) .generationConflict
  enterOperation tenant operation service .delete .withdrawPublication target
    call.given.requestHash
  onlyIf cancelled (releaseResourceWorkLease now tenant service)
  upsertResourceWork now tenant service target
  appendAuditEvent tenant fresh.event
    (Commands.acceptedEvent .delete service operation target call.given.actor call.given.requestID)
  let response := { Commands.commandResponse service operation target .delete
    .withdrawPublication with acknowledged := true }
  persistManagedCommand c .delete operation .closingIntent response
  commit
  return ⟨false, service, operation, some response⟩

def deleteOrClose (c : ManagedCommand) (operation : Uuid) : Plain Reply := do
  match ← getServiceForUpdate c.context.tenantID c.context.resourceID with
  | none => closeWithoutService now call c operation
  | some current => do
    reject (current.deletedAt.isSome ∨ current.desiredState = .deleted)
      (.invalidState "managed resource is already deleted")
    deleteService now fresh call c operation current

/-- `acceptManagedDelete`. -/
def acceptManagedDelete : Body Reply :=
  let m := call.managed
  let c := m.parsed call.tenant.id m.command.context.originalCreateOperationID
    (some m.operation.id)
  inTx do
    match ← prepareManagedCommand call.tenant.text m c .delete with
    | .replay response => return ⟨true, m.resource.id, m.operation.id, some response⟩
    | .fresh c => deleteOrClose now fresh call c m.operation.id
    | .closing c => deleteOrClose now fresh call c m.operation.id

end Delete

section Update
variable (now : Time) (fresh : Fresh) (call : UpdateCall)

def updateMethod : String := "InferenceService/update"

/-- The operation a Governance update brought, if it was accepted before. -/
def replayedOperation (operation : Spelling) : Plain (Option Reply) := do
  lockManagedGPUKey (commandKey call.tenant.text operation.text)
  match ← getOperation call.input.tenantID operation.id with
  | none => return none
  | some o => do
    reject (o.requestHash ≠ call.input.requestHash) .idempotencyConflict
    let snapshot ← getResultSnapshot call.input.tenantID operation.id
    commit
    return some ⟨true, o.serviceID, operation.id,
      some (Commands.acknowledge true
        (Commands.updateResponseFromOperation operation.id o snapshot))⟩

def replayedManaged : Plain (Option Reply) :=
  match call.managedOperation with
  | none => pure none
  | some operation => replayedOperation call operation

def answerUpdate (existing : IdempotencyRow) : Plain Reply := do
  let input := call.input
  reject (existing.payloadHash ≠ input.requestHash) .idempotencyConflict
  let o ← getOperation input.tenantID existing.operationID
  let o ← require o .noRows
  let snapshot ← getResultSnapshot input.tenantID existing.operationID
  commit
  return ⟨true, o.serviceID, existing.operationID,
    some (Commands.acknowledge input.managedOperationID.isSome
      (Commands.updateResponseFromOperation existing.operationID o snapshot))⟩

def replayedKey : Body (Option Reply) :=
  if call.input.requestID = "" then pure none
  else do
    lockIdempotency call.tenant.text updateMethod call.input.requestID
    match ← getIdempotency call.input.tenantID updateMethod call.input.requestID with
    | none => return none
    | some existing => do
      let reply ← answerUpdate call existing
      return some reply

def admitUpdate : Plain (Service × Option ManagedResource) := do
  let input := call.input
  lockManagedGPUKey (resourceKey call.tenant.text call.service.text)
  let row ← getServiceForUpdate input.tenantID input.serviceID
  let current ← require row .notFound
  reject (current.desiredGeneration ≠ input.expectedGeneration ∨ current.deletedAt.isSome)
    .generationConflict
  reject (current.desiredState ≠ .running) (.invalidState "")
  let managed ← getManagedResource input.tenantID input.serviceID
  reject (input.managedOperationID.isSome ∧ managed.isNone)
    (.invalidState "managed GPU resource is missing")
  reject (managed.any (·.closing)) (.invalidState "managed resource has a closing intent")
  return (current, managed)

def effectiveUpdate (managed : Option ManagedResource) (generation : Generation) :
    Plain UpdateInput := do
  let input := call.input
  if input.updateMask.isEmpty then do
    reject managed.isSome (.invalidState "managed update_mask is required")
    return input
  else do
    reject (!Commands.validMask input) (.invalidState "")
    let row ← getSpec input.tenantID input.serviceID generation
    let spec ← require row .noRows
    return Commands.masked input spec

/-- The writes of an update up to its work. -/
def moveUpdate (operation : Uuid) : Plain Generation := do
  let tenant := call.input.tenantID
  let service := call.input.serviceID
  let (current, managed) ← admitUpdate call
  let input ← effectiveUpdate call managed current.desiredGeneration
  let target := current.desiredGeneration + 1
  let cloned ← cloneSpec tenant service current.desiredGeneration target
    (Commands.updatedSpec input)
  reject (!cloned) (.invalidState "missing current specification")
  let moved ← transitionService current.desiredState target operation tenant service
    current.desiredGeneration
  reject (!moved) .generationConflict
  enterOperation tenant operation service .update .withdrawPublication target
    call.input.requestHash
  onlyIf managed.isNone
    (insertQuotaReservation tenant service operation target input.content.resources)
  upsertResourceWork now tenant service target
  return target

def finishUpdate (operation : Uuid) (target : Generation) : Plain Reply := do
  let input := call.input
  let service := input.serviceID
  appendAuditEvent input.tenantID fresh.event
    (Commands.acceptedEvent .update service operation target input.actor input.requestID)
  let response :=
    Commands.managedUpdateResponse service operation target input.managedOperationID.isSome
  let saved ← saveOperationAcceptanceResponse input.tenantID operation response
  reject (!saved) .generationConflict
  commit
  return ⟨false, service, operation, some response⟩

/-- An update that was not answered before. -/
def acceptUpdate : Body Reply := do
  let input := call.input
  let operation := input.managedOperationID.getD fresh.operation
  let target ← moveUpdate now call operation
  enterKey input.tenantID updateMethod input.requestID input.requestHash operation
  finishUpdate fresh call operation target

/-- `UpdateUseCase.Update`. -/
def update : Body Reply := do
  reject (call.input.expectedGeneration < 1) .generationConflict
  inTx do
    match ← replayedManaged call with
    | some reply => return reply
    | none =>
      match ← replayedKey call with
      | some reply => return reply
      | none => acceptUpdate now fresh call

end Update

/-- The calls that accept work. -/
inductive Acceptance
  | create (call : CreateCall)
  | command (call : CommandCall)
  | delete (call : DeleteCall)
  | update (call : UpdateCall)

def Acceptance.body (now : Time) (fresh : Fresh) : Acceptance → Body Reply
  | .create call => createService now fresh call
  | .command call => Accept.command now fresh call
  | .delete call => acceptManagedDelete now fresh call
  | .update call => Accept.update now fresh call

/-- One transaction: a call that accepts work, or anything that has nothing to do with the
idempotency rows, such as a step of a worker. -/
inductive Party
  | accepts (now : Time) (fresh : Fresh) (call : Acceptance)
  | other (program : Program (Except Err Reply)) (h : program.Only fun e => keyless e = true)

def Party.program : Party → Program (Except Err Reply)
  | .accepts now fresh call => (call.body now fresh).run
  | .other program _ => program

end AniInference.Accept
