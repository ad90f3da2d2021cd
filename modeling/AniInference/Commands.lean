import AniInference.Store
import AniInference.Lib.Json

namespace AniInference
open Lib

/-- Identities made with `uuid.New()` while a request is handled. -/
structure Fresh where
  service : Uuid
  operation : Uuid
  event : Uuid
deriving DecidableEq

/-- A lifecycle request. `legacyHash` is the digest the request had while it still named the
generation it expected. -/
structure CommandInput where
  tenantID : Uuid
  serviceID : Uuid
  kind : Kind
  expectedGeneration : Generation
  requestID : String
  requestHash : String
  legacyHash : Generation → String
  actor : String

/-- `inferencebiz.ManagedCommand`. Digests stand for the bytes they digest. -/
structure ManagedCommand where
  context : RefundContext
  resourceClass : ResourceClass
  payload : String
  business : String
  businessDigest : String
  requestHash : String
deriving DecidableEq

structure ManagedDeleteInput where
  tenantID : Uuid
  serviceID : Uuid
  requestID : String
  requestHash : String
  actor : String
  command : ManagedCommand

structure CreateInput where
  tenantID : Uuid
  name : String
  content : SpecContent
  gpuPlan : Option Gpu.Snapshot
  gpuPlanDigest : String
  requestID : String
  requestHash : String
  actor : String
  managed : Option ManagedCommand

structure UpdateInput where
  tenantID : Uuid
  serviceID : Uuid
  expectedGeneration : Generation
  requestID : String
  requestHash : String
  actor : String
  managedOperationID : Option Uuid
  updateMask : List String
  content : SpecContent
  modelCapabilities : Option (List String)
  imageSelection : Option String
  gpuPlan : Option Gpu.Snapshot
  gpuPlanDigest : String

structure CreateResult where
  serviceID : Uuid
  operationID : Uuid
  replayed : Bool
  response : Option Response
deriving DecidableEq

namespace Model

/-- What the Model service says about a ready version. -/
structure Snapshot where
  artifactRef : String
  artifactSHA256 : String
  capabilities : List String
deriving DecidableEq

/-- `json.Marshal` of a `[]string`. -/
def capabilitiesJSON : Option (List String) → String
  | none => "null"
  | some capabilities => String.ofList (Json.render true (.arr (capabilities.map .str)))

/-- The artifact a request names is the one of the version. -/
def artifactAgrees (content : SpecContent) (v : Snapshot) : Bool :=
  (content.artifactRef = "" || content.artifactRef = v.artifactRef) &&
  (content.artifactSHA256 = "" || content.artifactSHA256 = v.artifactSHA256)

end Model

def Intent.text : Intent → String
  | .createPending => "create_pending"
  | .closingIntent => "closing_intent"
  | .blockedByDelete => "blocked_by_delete"

namespace Commands
open Txn

def commandResponse (service operation : Uuid) (generation : Generation) (kind : Kind)
    (step : Step) : Response :=
  let desired := match kind with
    | .start | .restart => some DesiredState.running
    | .stop => some .stopped
    | .delete => some .deleted
    | _ => none
  ⟨service, operation, kind, .pending, step.text, desired, generation, false⟩

def commandResponseFromRow (operation : Uuid) (o : OperationRow) : Response :=
  ⟨o.serviceID, operation, o.kind, o.phase, o.step.text, none, o.targetGeneration, false⟩

def managedUpdateResponse (service operation : Uuid) (generation : Generation) (managed : Bool) :
    Response :=
  { commandResponse service operation generation .update .withdrawPublication with
    acknowledged := managed }

/-- `updateResponseFromOperation`: an update is answered again as it was. -/
def updateResponseFromOperation (operation : Uuid) (o : OperationRow) (snapshot : Option Response) :
    Response :=
  match snapshot with
  | some response =>
    if response.operationID = operation ∧ response.resourceID = o.serviceID then response
    else commandResponseFromRow operation o
  | none => commandResponseFromRow operation o

/-- The response with `DurableOwnerAck` set for a Governance update. -/
def acknowledge (managed : Bool) (response : Response) : Response :=
  { response with acknowledged := response.acknowledged || managed }

def validCommandState (kind : Kind) (state : DesiredState) : Except Err Unit :=
  match kind with
  | .start =>
    if state ≠ .stopped then .error (.invalidState "start requires stopped state") else .ok ()
  | .stop =>
    if state ≠ .running then .error (.invalidState "stop requires running state") else .ok ()
  | .restart =>
    if state ≠ .running ∧ state ≠ .stopped then
      .error (.invalidState "restart requires running or stopped state")
    else .ok ()
  | .delete =>
    if state = .deleted then .error (.invalidState "service already deleted") else .ok ()
  | _ => .ok ()

/-- A second active operation, or a used id, is the caller's conflict. -/
def insertOperation (tenant id service : Uuid) (kind : Kind) (step : Step) (target : Generation)
    (requestHash : String) : Tx Unit :=
  relabel (fun e => if e = .uniqueViolation then .operationActive else e)
    (Sql.insertOperation tenant id service kind step target requestHash)

def targetState (kind : Kind) (current : DesiredState) : DesiredState :=
  match kind with
  | .start | .restart => .running
  | .stop => .stopped
  | .delete => .deleted
  | _ => current

def firstStep (kind : Kind) : Step :=
  if kind = .start then .reserveQuota else .withdrawPublication

def acceptedEvent (kind : Kind) (service operation : Uuid) (generation : Generation)
    (actor requestID : String) : AuditRow :=
  ⟨service, operation, generation, .accepted kind, actor, requestID⟩

/-- `none` lets the command go on; an earlier request with the same key answers for it. -/
def replayed (input : CommandInput) : Tx (Option Response) := do
  let row ← Sql.getIdempotency input.tenantID ("InferenceService/" ++ input.kind.text)
    input.requestID
  match (if input.requestID = "" then none else row) with
  | none => return none
  | some existing =>
    let o ← Sql.getOperation input.tenantID existing.operationID
    let o ← require o .noRows
    reject (existing.payloadHash ≠ input.requestHash ∧
      (input.kind ≠ .delete ∨ o.kind ≠ .delete ∨ o.targetGeneration < 2 ∨
        existing.payloadHash ≠ input.legacyHash (o.targetGeneration - 1))) .idempotencyConflict
    return some (commandResponseFromRow existing.operationID o)

/-- The checks of `Command`, made with the service row locked. -/
def admitCommand (input : CommandInput) : Tx (Service × Option ManagedResource) := do
  let row ← Sql.getService input.tenantID input.serviceID
  let current ← require row .notFound
  reject ((input.kind ≠ .delete ∧ current.desiredGeneration ≠ input.expectedGeneration) ∨
    current.deletedAt.isSome) .generationConflict
  let managed ← Sql.getManagedResource input.tenantID input.serviceID
  reject (managed.isSome ∧ input.kind = .delete)
    (.invalidState "managed DELETE requires a trusted Governance attachment")
  reject (managed.any (·.closing) ∧ (input.kind = .start ∨ input.kind = .restart))
    (.invalidState "managed resource has a closing intent")
  checked (validCommandState input.kind current.desiredState)
  return (current, managed)

/-- The resources a start or a restart reserves: those of the generation it replaces. -/
def requestedResources (input : CommandInput) (generation : Generation) :
    Tx Resources.Spec := do
  if input.kind = .start ∨ input.kind = .restart then
    let row ← Sql.getSpec input.tenantID input.serviceID generation
    let spec ← require row .noRows
    return spec.content.resources
  else return ⟨[], [], none⟩

def cloneGeneration (input : CommandInput) (generation : Generation) : Tx Unit := do
  let rows ← Sql.cloneSpec input.tenantID input.serviceID generation (generation + 1) id
  exactlyOne rows (.invalidState "missing current specification")

/-- A delete does not wait for the operation before it. -/
def cancelFor (now : Time) (kind : Kind) (tenant service : Uuid) : Tx Nat :=
  if kind = .delete then Sql.cancelActiveOperation now tenant service else pure 0

/-- The writes of `Command`, in the source's order. -/
def acceptCommand (now : Time) (fresh : Fresh) (input : CommandInput) (current : Service)
    (managed : Option ManagedResource) : Tx Response := do
  let tenant := input.tenantID
  let service := input.serviceID
  let operation := fresh.operation
  let target := current.desiredGeneration + 1
  let cancelled ← cancelFor now input.kind tenant service
  let resources ← requestedResources input current.desiredGeneration
  onlyIf (input.kind ≠ .delete) (cloneGeneration input current.desiredGeneration)
  let rows ← Sql.transitionService (targetState input.kind current.desiredState) target operation
    tenant service current.desiredGeneration
  exactlyOne rows .generationConflict
  insertOperation tenant operation service input.kind (firstStep input.kind) target
    input.requestHash
  onlyIf (cancelled > 0) (Sql.releaseResourceWorkLease now tenant service)
  onlyIf (managed.isNone ∧ (input.kind = .start ∨ input.kind = .restart))
    (Sql.insertQuotaReservation tenant service operation target (.placeholder operation) resources)
  Sql.upsertResourceWork now tenant service target
  onlyIf (input.requestID ≠ "") (discard (Sql.putIdempotency tenant
    ("InferenceService/" ++ input.kind.text) input.requestID input.requestHash operation))
  Sql.appendAuditEvent tenant (.fresh fresh.event)
    (acceptedEvent input.kind service operation target input.actor input.requestID)
  return commandResponse service operation target input.kind (firstStep input.kind)

/-- `CommandUseCase.Command` for a request without a Governance attachment. -/
def command (now : Time) (fresh : Fresh) (input : CommandInput) : Tx Response := do
  reject (input.kind ≠ .delete ∧ input.expectedGeneration < 1) .generationConflict
  reject (input.kind = .create ∨ input.kind = .update) (.invalidState input.kind.text)
  match ← replayed input with
  | some response => return response
  | none =>
    let (current, managed) ← admitCommand input
    acceptCommand now fresh input current managed

/-- The operation a Governance update brought, if it was accepted before. -/
def managedOperation (input : UpdateInput) : Tx (Option OperationRow) :=
  match input.managedOperationID with
  | some id => Sql.getOperation input.tenantID id
  | none => return none

def replayedUpdate (input : UpdateInput) : Tx (Option Response) := do
  let managed ← managedOperation input
  match managed, input.managedOperationID with
  | some o, some id =>
    reject (o.requestHash ≠ input.requestHash) .idempotencyConflict
    let snapshot ← Sql.getResultSnapshot input.tenantID id
    return some (acknowledge true (updateResponseFromOperation id o snapshot))
  | _, _ =>
    let row ← Sql.getIdempotency input.tenantID "InferenceService/update" input.requestID
    match (if input.requestID = "" then none else row) with
    | none => return none
    | some existing =>
      reject (existing.payloadHash ≠ input.requestHash) .idempotencyConflict
      let o ← Sql.getOperation input.tenantID existing.operationID
      let o ← require o .noRows
      let snapshot ← Sql.getResultSnapshot input.tenantID existing.operationID
      return some (acknowledge input.managedOperationID.isSome
        (updateResponseFromOperation existing.operationID o snapshot))

/-- A stopped service has no runtime to replace. -/
def admitUpdate (input : UpdateInput) : Tx (Service × Option ManagedResource) := do
  let row ← Sql.getService input.tenantID input.serviceID
  let current ← require row .notFound
  reject (current.desiredGeneration ≠ input.expectedGeneration ∨ current.deletedAt.isSome)
    .generationConflict
  reject (current.desiredState ≠ .running) (.invalidState "")
  let managed ← Sql.getManagedResource input.tenantID input.serviceID
  reject (input.managedOperationID.isSome ∧ managed.isNone)
    (.invalidState "managed GPU resource is missing")
  reject (managed.any (·.closing)) (.invalidState "managed resource has a closing intent")
  return (current, managed)

def maskPaths : List String := ["model_version_id", "served_model_name", "engine"]

/-- Each path of the mask is known, named once, and comes with its value. -/
def validMask (input : UpdateInput) : Bool :=
  let mask := input.updateMask
  decide mask.Nodup && mask.all (maskPaths.contains ·) &&
    (!mask.contains "model_version_id" || input.content.modelVersionID.isSome) &&
    (!mask.contains "served_model_name" || input.content.servedModelName ≠ "") &&
    (!mask.contains "engine" || (input.content.commandArgv ≠ "" && input.content.imageRef ≠ "" &&
      input.content.engineRuntime ≠ ""))

/-- What a partial update leaves out is taken from the current specification. -/
def masked (input : UpdateInput) (spec : Spec) : UpdateInput :=
  let model := input.updateMask.contains "model_version_id"
  let engine := input.updateMask.contains "engine"
  let c := input.content
  { input with
    content := { spec.content with
      modelVersionID := if model then c.modelVersionID else none
      artifactProvider := if model then c.artifactProvider else ""
      artifactRef := if model then c.artifactRef else ""
      artifactSHA256 := if model then c.artifactSHA256 else ""
      servedModelName :=
        if input.updateMask.contains "served_model_name" then c.servedModelName else ""
      imageRef := if engine then c.imageRef else ""
      engineRuntime := if engine then c.engineRuntime else ""
      commandArgv := if engine then c.commandArgv else "" }
    modelCapabilities := if model then input.modelCapabilities else none
    gpuPlan := spec.gpuPlan
    gpuPlanDigest := spec.gpuPlanDigest.getD "" }

/-- Managed resources change only through a mask. -/
def effectiveUpdate (input : UpdateInput) (managed : Option ManagedResource)
    (generation : Generation) : Tx UpdateInput := do
  if input.updateMask.isEmpty then
    reject managed.isSome (.invalidState "managed update_mask is required")
    return input
  else
    reject (!validMask input) (.invalidState "")
    let row ← Sql.getSpec input.tenantID input.serviceID generation
    let spec ← require row .noRows
    return masked input spec

def orKeep (new old : String) : String := if new = "" then old else new

/-- `spec_json || overlay`. -/
def specOverlay (input : UpdateInput) : List (String × String) :=
  (if input.content.modelVersionID.isSome then [("model_capabilities",
    Model.capabilitiesJSON input.modelCapabilities)] else []) ++
  match input.imageSelection with
  | some selection => [("image_selection", selection)]
  | none => if input.content.imageRef ≠ "" then [("image_selection", "null")] else []

def mergeJSON (old new : List (String × String)) : List (String × String) :=
  old.filter (fun p => new.all (·.1 ≠ p.1)) ++ new

/-- The row `CloneSpecWithRuntimeUpdate` makes of the current one. -/
def updatedSpec (input : UpdateInput) (old : Spec) : Spec :=
  let c := input.content
  { content := {
      modelID := old.content.modelID
      modelVersionID := c.modelVersionID.orElse fun _ => old.content.modelVersionID
      artifactProvider := orKeep c.artifactProvider old.content.artifactProvider
      artifactRef := orKeep c.artifactRef old.content.artifactRef
      artifactSHA256 := orKeep c.artifactSHA256 old.content.artifactSHA256
      imageRef := orKeep c.imageRef old.content.imageRef
      servedModelName := orKeep c.servedModelName old.content.servedModelName
      engineRuntime := orKeep c.engineRuntime old.content.engineRuntime
      commandArgv := orKeep c.commandArgv old.content.commandArgv
      resources := c.resources
      replicas := c.replicas
      runtimeMode := Store.orDefault c.runtimeMode "deployment"
      workerReplicas := if c.workerReplicas < 1 then 1 else c.workerReplicas
      runtimeProvider := orKeep c.runtimeProvider old.content.runtimeProvider
      specJSON := mergeJSON old.content.specJSON (specOverlay input)
      endpoint := c.endpoint
      gpuRequest := c.gpuRequest }
    gpuPlan := input.gpuPlan
    gpuPlanDigest := Sql.pgText input.gpuPlanDigest }

/-- The writes of `Update`, in the source's order. -/
def acceptUpdate (now : Time) (operation event : Uuid) (input : UpdateInput) (current : Service)
    (managed : Option ManagedResource) : Tx Response := do
  let tenant := input.tenantID
  let service := input.serviceID
  let target := current.desiredGeneration + 1
  let rows ← Sql.cloneSpec tenant service current.desiredGeneration target (updatedSpec input)
  exactlyOne rows (.invalidState "missing current specification")
  let rows ← Sql.transitionService current.desiredState target operation tenant service
    current.desiredGeneration
  exactlyOne rows .generationConflict
  insertOperation tenant operation service .update .withdrawPublication target input.requestHash
  onlyIf managed.isNone (Sql.insertQuotaReservation tenant service operation target
    (.placeholder operation) input.content.resources)
  Sql.upsertResourceWork now tenant service target
  onlyIf (input.requestID ≠ "") (discard (Sql.putIdempotency tenant "InferenceService/update"
    input.requestID input.requestHash operation))
  Sql.appendAuditEvent tenant (.fresh event)
    (acceptedEvent .update service operation target input.actor input.requestID)
  let response := managedUpdateResponse service operation target input.managedOperationID.isSome
  let rows ← Sql.saveOperationAcceptanceResponse tenant operation response
  exactlyOne rows .generationConflict
  return response

/-- `UpdateUseCase.Update`. -/
def update (now : Time) (fresh : Fresh) (input : UpdateInput) : Tx Response := do
  reject (input.expectedGeneration < 1) .generationConflict
  match ← replayedUpdate input with
  | some response => return response
  | none =>
    let (current, managed) ← admitUpdate input
    let effective ← effectiveUpdate input managed current.desiredGeneration
    acceptUpdate now (input.managedOperationID.getD fresh.operation) fresh.event effective current
      managed

end Commands
end AniInference
