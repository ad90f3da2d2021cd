import AniInference.Commands

namespace AniInference
open Lib

namespace Managed
open Txn

def managedClass (c : ManagedCommand) : ResourceClass :=
  if c.resourceClass ≠ .unset then c.resourceClass
  else if c.context.resourceClass ≠ .unset then c.context.resourceClass
  else if c.context.snapshot.isSome then .gpu
  else .cpu

/-- What the intake of a command found: nothing yet, a closing resource, or the answer an
earlier delivery was given. -/
inductive Intake
  | fresh (command : ManagedCommand)
  | closing (command : ManagedCommand)
  | replay (response : Response)

def Intake.ofClosing (closing : Bool) (command : ManagedCommand) : Intake :=
  if closing then .closing command else .fresh command

/-- The identity a command names is the one the resource was recorded with. -/
def sameIdentity (original : RefundContext) (saved : ManagedResource) : Bool :=
  saved.createOperationID = original.originalCreateOperationID &&
  (original.resourceClass = .unset || saved.resourceClass = original.resourceClass) &&
  (original.createCommandDigest = "" || saved.createCommandDigest = "" ||
    original.createCommandDigest = saved.createCommandDigest) &&
  (original.clusterID = "" || saved.originalContext.clusterID = original.clusterID)

/-- A delete carries identity only: the frozen part comes back from the recorded context. -/
def restored (c : ManagedCommand) (saved : RefundContext) : ManagedCommand :=
  { c with context := { c.context with
      ownerService := saved.ownerService, clusterID := saved.clusterID, snapshot := saved.snapshot,
      resourceClass := saved.resourceClass, createCommandDigest := saved.createCommandDigest } }

def deleteDiffers (original saved : RefundContext) : Bool :=
  (original.ownerService ≠ "" && original.ownerService ≠ saved.ownerService) ||
  (original.clusterID ≠ "" && original.clusterID ≠ saved.clusterID) ||
  (original.snapshot.isSome && original.snapshot ≠ saved.snapshot)

/-- The intake of a command for a resource that is recorded. -/
def prepareRecorded (c : ManagedCommand) (kind : Kind) (operation : Uuid)
    (saved : ManagedResource) : Tx Intake := do
  let original := c.context
  reject (!sameIdentity original saved) .idempotencyConflict
  if kind = .create ∧ saved.deleteOperationID.isSome then
    return .closing c
  else if kind = .delete then
    reject (deleteDiffers original saved.originalContext) .idempotencyConflict
    reject (saved.deleteOperationID.isSome ∧ saved.deleteOperationID ≠ some operation)
      .idempotencyConflict
    return Intake.ofClosing saved.deleteOperationID.isSome (restored c saved.originalContext)
  else
    reject ({ saved.originalContext with deleteOperationID := none } ≠
      { original with deleteOperationID := none }) .idempotencyConflict
    reject (saved.businessPayloadDigest ≠ "" ∧ saved.businessPayloadDigest ≠ c.businessDigest)
      .idempotencyConflict
    return Intake.ofClosing saved.deleteOperationID.isSome c

def recordedResource (c : ManagedCommand) : ManagedResource :=
  { createOperationID := c.context.originalCreateOperationID
    ownerService := c.context.ownerService
    resourceClass := managedClass c
    createCommandDigest := c.context.createCommandDigest
    originalContext := { c.context with deleteOperationID := none }
    closing := false
    deleteOperationID := none
    businessPayload := none
    businessPayloadDigest := ""
    createRequestHash := ""
    createPayload := none }

/-- `prepareManagedCommand`. Its advisory locks order the commands on one operation id and on
one resource, so that the transaction is one step. -/
def prepareManagedCommand (c : ManagedCommand) (kind : Kind) (operation : Uuid) : Tx Intake := do
  let original := c.context
  match ← Sql.getManagedCommand original.tenantID operation with
  | some existing =>
    reject (existing.payloadHash ≠ c.payload) .idempotencyConflict
    return .replay existing.responseSnapshot
  | none =>
    match ← Sql.getManagedResource original.tenantID original.resourceID with
    | some saved => prepareRecorded c kind operation saved
    | none =>
      let direct ← Sql.getService original.tenantID original.resourceID
      reject direct.isSome (.invalidState "existing direct resource is not Governance managed")
      Sql.insertManagedResource original.tenantID original.resourceID (recordedResource c)
      return .fresh c

/-- `persistManagedCommand`. -/
def persistManagedCommand (c : ManagedCommand) (kind : Kind) (operation : Uuid) (intent : Intent)
    (response : Response) : Tx Unit := do
  let original := c.context
  onlyIf (kind = .delete) (Sql.setManagedClosing original.tenantID original.resourceID operation)
  onlyIf (kind ≠ .delete ∧ intent ≠ .blockedByDelete) (Sql.saveManagedCreate original.tenantID
    original.resourceID c.business c.businessDigest c.requestHash c.payload)
  Sql.insertManagedCommand original.tenantID operation
    ⟨original.resourceID, original.originalCreateOperationID, kind, c.payload, c.requestHash,
      response, intent, .none, none, none, 0, none, none⟩

def managedIntentResponse (original : RefundContext) (operation : Uuid) (kind : Kind)
    (intent : Intent) : Response :=
  ⟨original.resourceID, operation, kind, .pending, intent.text, some .deleted, 0, true⟩

/-- A delete for a resource that was never created, or whose creation cannot be excluded. -/
def closeWithoutService (now : Time) (c : ManagedCommand) (operation : Uuid) : Tx Response := do
  let original := c.context
  let unknown ← Sql.managedExecutionFacts original.tenantID original.resourceID
  let state : CloseState :=
    if unknown then .unknownExecution else if managedClass c = .cpu then .complete else .pending
  let response := managedIntentResponse original operation .delete .closingIntent
  persistManagedCommand c .delete operation .closingIntent response
  Sql.setManagedCloseState original.tenantID operation state
  onlyIf (!unknown ∧ managedClass c = .gpu)
    (Sql.upsertReleaseScope original.tenantID original.resourceID operation ⟨some now, []⟩)
  return response

/-- A delete for a service that exists: the writes of an ordinary delete, and the command. -/
def deleteService (now : Time) (event : Uuid) (input : ManagedDeleteInput) (c : ManagedCommand)
    (operation : Uuid) (current : Service) : Tx Response := do
  let tenant := c.context.tenantID
  let service := c.context.resourceID
  let target := current.desiredGeneration + 1
  let cancelled ← Sql.cancelActiveOperation now tenant service
  let rows ← Sql.transitionService .deleted target operation tenant service
    current.desiredGeneration
  exactlyOne rows .generationConflict
  Commands.insertOperation tenant operation service .delete .withdrawPublication target
    input.requestHash
  onlyIf (cancelled > 0) (Sql.releaseResourceWorkLease now tenant service)
  Sql.upsertResourceWork now tenant service target
  Sql.appendAuditEvent tenant (.fresh event)
    (Commands.acceptedEvent .delete service operation target input.actor input.requestID)
  let response := { Commands.commandResponse service operation target .delete
    .withdrawPublication with acknowledged := true }
  persistManagedCommand c .delete operation .closingIntent response
  return response

/-- The writes of a delete that was not answered before. -/
def deleteOrClose (now : Time) (event : Uuid) (input : ManagedDeleteInput) (operation : Uuid)
    (c : ManagedCommand) : Tx Response := do
  match ← Sql.getService c.context.tenantID c.context.resourceID with
  | none => closeWithoutService now c operation
  | some current =>
    reject (current.deletedAt.isSome ∨ current.desiredState = .deleted)
      (.invalidState "managed resource is already deleted")
    deleteService now event input c operation current

/-- `acceptManagedDelete`, for a request that passed `ValidateManagedDelete`: the command has
an operation id of its own. -/
def acceptManagedDelete (now : Time) (fresh : Fresh) (input : ManagedDeleteInput) :
    Tx Response := do
  let original := input.command.context
  reject (original.tenantID ≠ input.tenantID ∨ original.resourceID ≠ input.serviceID)
    (.invalidState "")
  let operation ← require original.deleteOperationID (.invalidState "")
  reject (operation = original.originalCreateOperationID)
    (.text "DELETE must use a new operation_id")
  match ← prepareManagedCommand input.command .delete operation with
  | .replay response => return response
  | .fresh c | .closing c => deleteOrClose now fresh.event input operation c

/-- The acknowledgement a Governance create is answered with. -/
def createResponse (service operation : Uuid) : Response :=
  ⟨service, operation, .create, .pending, Step.admission.text, some .running, 1, true⟩

/-- The writes of `CreateService`, in the source's order. -/
def acceptCreate (now : Time) (event service operation : Uuid) (input : CreateInput) :
    Tx CreateResult := do
  let tenant := input.tenantID
  Sql.insertService tenant service input.name 1
  Sql.insertOperation tenant operation service .create .admission 1 input.requestHash
  Sql.setCurrentOperation tenant service operation
  Sql.insertSpec tenant service 1 ⟨input.content, input.gpuPlan, Sql.pgText input.gpuPlanDigest⟩
  Sql.insertRuntime tenant service 1 (Store.orDefault input.content.runtimeMode "deployment")
  onlyIf input.managed.isNone (Sql.insertQuotaReservation tenant service operation 1
    (.placeholder operation) input.content.resources)
  Sql.upsertResourceWork now tenant service 1
  onlyIf (input.managed.isNone ∧ input.requestID ≠ "") (discard (Sql.putIdempotency tenant
    "CreateInferenceService" input.requestID input.requestHash operation))
  Sql.appendAuditEvent tenant (.fresh event)
    (Commands.acceptedEvent .create service operation 1 input.actor input.requestID)
  return ⟨service, operation, false, none⟩

def replayedCreate (input : CreateInput) : Tx (Option CreateResult) := do
  let row ← Sql.getIdempotency input.tenantID "CreateInferenceService" input.requestID
  match (if input.requestID = "" then none else row) with
  | none => return none
  | some existing =>
    reject (existing.payloadHash ≠ input.requestHash) .idempotencyConflict
    let o ← Sql.getOperation input.tenantID existing.operationID
    let o ← require o .noRows
    return some ⟨o.serviceID, existing.operationID, true, none⟩

/-- A create the resource's delete came before is recorded as blocked. -/
def blockCreate (c : ManagedCommand) (operation : Uuid) : Tx CreateResult := do
  let response := managedIntentResponse c.context operation .create .blockedByDelete
  persistManagedCommand c .create operation .blockedByDelete response
  return ⟨c.context.resourceID, operation, false, some response⟩

/-- `CreateUseCase.Create` with `Repository.CreateService`. A Governance command brings its
service and operation ids, and its command id replays it. -/
def createService (now : Time) (fresh : Fresh) (input : CreateInput) : Tx CreateResult := do
  match input.managed with
  | none =>
    match ← replayedCreate input with
    | some result => return result
    | none => acceptCreate now fresh.event fresh.service fresh.operation input
  | some c =>
    let service := c.context.resourceID
    let operation := c.context.originalCreateOperationID
    reject (c.context.tenantID ≠ input.tenantID ∨ (c.resourceClass = .gpu ∧ input.gpuPlan.isNone))
      (.invalidState "")
    match ← prepareManagedCommand c .create operation with
    | .replay response => return ⟨service, operation, true, some response⟩
    | .closing c => blockCreate c operation
    | .fresh c =>
      let result ← acceptCreate now fresh.event service operation input
      persistManagedCommand c .create operation .createPending (createResponse service operation)
      return result

/-- `PrepareCreate`: a create that is not accepted here leaves nothing behind. -/
def prepareCreate (c : ManagedCommand) : Tx (Option Response) := do
  let operation := c.context.originalCreateOperationID
  let before ← get
  match ← prepareManagedCommand c .create operation with
  | .replay response => return some response
  | .fresh _ =>
    set before
    return none
  | .closing c =>
    let result ← blockCreate c operation
    return result.response

end Managed
end AniInference
