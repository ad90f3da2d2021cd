import AniInference.Statements

namespace AniInference
open Lib

/-- `work.Item`: a service claimed for the generation it then desired. -/
structure Item where
  tenantID : Uuid
  serviceID : Uuid
  generation : Generation
  dirtyVersion : Nat
  leaseToken : Uuid
deriving DecidableEq

/-- `quota.Reservation`. No reservation is one without an id. -/
structure Reservation where
  tenantID : Uuid
  serviceID : Uuid
  operationID : Uuid
  generation : Generation
  reservationID : Option ReservationID
  leaseToken : Uuid
  fenceOperationID : Option Uuid
  requestedResources : Resources.Spec
  demand : Resources.Demand
  state : QuotaState
  lastErrorCode : String
deriving DecidableEq

/-- `publication.Publication`. -/
structure Publication where
  tenantID : Uuid
  serviceID : Uuid
  operationID : Uuid
  generation : Generation
  leaseToken : Uuid
  fenceOperationID : Option Uuid
  url : String
  state : PublicationPhase
deriving DecidableEq

structure OperationContext where
  tenantID : Uuid
  serviceID : Uuid
  id : Uuid
  kind : Kind
  actor : String
  requestID : String
  leaseToken : Uuid
  phase : Phase
  step : Step
  attempt : Nat
  targetGeneration : Generation
  reservation : Option Reservation
  previousReservation : Option Reservation
  publication : Publication
  gpuRequest : Option Gpu.Request
  gpuSnapshot : Option Gpu.Snapshot
  managed : Bool
  managedGPU : Bool
  managedGPUCreateOperationID : Option Uuid
  managedGPUReleasePods : List Gpu.PodRef
  managedGPUReleaseSealedAt : Option Time
  replicas : Int
  workerReplicas : Int
  runtimeMode : String
deriving DecidableEq

/-- `managedGPUReleaseScopeOperation`: the key a release scope is kept under. -/
def OperationContext.scopeOperation (op : OperationContext) : Uuid :=
  op.managedGPUCreateOperationID.getD op.id

structure RuntimeObject where
  bindingGeneration : Generation
  kind : ObjectKind
  namespaceName : String
  name : String
  uid : String
  resourceVersion : String
  role : Role
  expectedUID : String
  expectedResourceVersion : String
  missing : Bool
deriving DecidableEq

structure RuntimeObservation where
  ready : Bool
  runtimePhase : String
  runtimeMode : String
  readyReplicas : Int
  readyGroups : Int
  readyWorkers : Int
  lwsUID : String
  modelReady : Bool
  modelReadyKnown : Bool
  invocationHealth : String
  absent : Bool
  reason : String
  objects : List RuntimeObject
  releasePods : List Gpu.PodRef
deriving DecidableEq

structure ModelObservation where
  ready : Bool
  known : Bool
  reason : String
deriving DecidableEq

/-- `bizreconcile.Observation`. -/
structure Observation where
  generation : Generation
  runtimePhase : String
  runtimeMode : String
  readyReplicas : Int
  readyGroups : Int
  readyWorkers : Int
  lwsUID : String
  modelReady : Bool
  modelReadyKnown : Bool
  publicationPhase : String
  invocationHealth : String
  reason : String
  objects : List RuntimeObject
deriving DecidableEq

structure StepTransition where
  tenantID : Uuid
  operationID : Uuid
  kind : Kind
  leaseToken : Uuid
  targetGeneration : Generation
  expectedPhase : Phase
  expectedStep : Step
  nextPhase : Phase
  nextStep : Step
  errorCode : String
  errorMessage : Option Err
deriving DecidableEq

structure AuditEvent where
  tenantID : Uuid
  eventID : EventID
  row : AuditRow
deriving DecidableEq

namespace Store
open Txn
variable (now : Time)

def stepCAS (t : StepTransition) : Sql.StepCAS :=
  ⟨t.tenantID, t.operationID, t.targetGeneration, t.expectedPhase, t.expectedStep, t.leaseToken,
    t.errorCode, t.errorMessage⟩

/-- The transition a step asks for is checked before the transaction; a retry asks for none. -/
def checkTransition (t : StepTransition) (retry : Option Nat) : Except Err Unit :=
  match retry with
  | some _ => .ok ()
  | none => (Operation.validateStepTransition t.kind t.expectedPhase t.expectedStep t.nextPhase
      t.nextStep).mapError .text

def stepStatement (t : StepTransition) (retry : Option Nat) : Tx Nat :=
  match retry with
  | some after => Sql.retryOperationStepCAS now (stepCAS t) after
  | none => Sql.advanceOperationStepCAS now (stepCAS t) t.nextPhase t.nextStep

/-- A delete that succeeds takes its service with it. -/
def markDeleted (t : StepTransition) (service : Uuid) : Tx Unit := do
  let rows ← Sql.markServiceDeleted now t.tenantID service t.operationID t.targetGeneration
  exactlyOne rows .operationCAS

/-- The fenced statement of a step, behind the checks that are made before the transaction. -/
def stepGuard (t : StepTransition) (event : AuditEvent) (retry : Option Nat) : Tx Unit := do
  reject (t.targetGeneration < 1) (.text "target generation must be positive")
  reject (event.tenantID ≠ t.tenantID ∨ event.row.operationID ≠ t.operationID ∨
      event.row.generation ≠ t.targetGeneration)
    (.text "audit identity does not match operation transition")
  checked (checkTransition t retry)
  let rows ← stepStatement now t retry
  exactlyOne rows .operationCAS

/-- The service of the operation, which the audit row has to name. -/
def auditedService (t : StepTransition) (event : AuditEvent) : Tx Uuid := do
  let row ← Sql.getOperation t.tenantID t.operationID
  let current ← require row .noRows
  reject (current.serviceID ≠ event.row.serviceID) (.text "audit service does not match operation")
  return current.serviceID

/-- `stepWithAudit`; `retry` carries the delay of a retry. -/
def stepWithAudit (t : StepTransition) (event : AuditEvent) (retry : Option Nat) : Tx Unit := do
  stepGuard now t event retry
  let service ← auditedService t event
  onlyIf (retry.isNone ∧ t.kind = .delete ∧ t.nextPhase = .succeeded) (markDeleted now t service)
  Sql.appendAuditEvent event.tenantID event.eventID event.row

def reservationStatement (r : Reservation) : Tx Nat :=
  Sql.updateQuotaReservationFenced now r.tenantID r.operationID r.generation
    (r.fenceOperationID.getD r.operationID) r.leaseToken fun row => { row with
      reservationID := r.reservationID.getD (.issued ""),
      requestedResources := r.requestedResources, state := r.state,
      lastErrorCode := r.lastErrorCode }

def saveQuotaReservation (r : Reservation) : Tx Unit := do
  reject (r.generation < 1) (.text "invalid reservation generation")
  let rows ← reservationStatement now r
  exactlyOne rows .staleGeneration

/-- Intermediate states are intent: on a first row they leave the observed phase withdrawn. -/
def observedState : PublicationPhase → PublicationPhase
  | .publishing | .withdrawing => .withdrawn
  | state => state

def publicationStatement (p : Publication) : Tx Nat :=
  Sql.upsertPublicationFenced now p.tenantID p.serviceID p.generation
    (p.fenceOperationID.getD p.operationID) p.leaseToken p.state (observedState p.state) p.url

def savePublication (p : Publication) : Tx Unit := do
  let rows ← publicationStatement now p
  exactlyOne rows .staleGeneration

def orDefault (s fallback : String) : String := if s = "" then fallback else s

/-- The row `UpdateObservationForWork` writes, from what was observed and what was there. -/
def observedRow (item : Item) (o : Observation) (current : Option RuntimeRow)
    (row : RuntimeRow) : RuntimeRow :=
  let modelReady := match current with
    | some c => if o.modelReadyKnown then o.modelReady else c.modelReady
    | none => o.modelReady
  let publication := match current with
    | some c =>
      if o.publicationPhase = "" ∨ o.publicationPhase = "unknown" then c.publicationPhase
      else o.publicationPhase
    | none => orDefault o.publicationPhase "withdrawn"
  let health := match current with
    | some c =>
      if o.invocationHealth = "" ∧ c.generation = item.generation then c.invocationHealth
      else orDefault o.invocationHealth "unknown"
    | none => orDefault o.invocationHealth "unknown"
  { row with
    generation := item.generation, runtimeMode := orDefault o.runtimeMode "deployment",
    readyGroups := o.readyGroups, readyWorkers := o.readyWorkers, lwsUID := o.lwsUID,
    runtimePhase := orDefault o.runtimePhase "pending", readyReplicas := o.readyReplicas,
    modelReady := modelReady, publicationPhase := publication, invocationHealth := health,
    reason := o.reason }

/-- The binding of an observed object is dropped, or compared and swapped. -/
def bindObject (key : Sql.BindingKey) (object : RuntimeObject) : Tx Nat :=
  if object.missing then Sql.deleteRuntimeBindingCAS key object.uid object.resourceVersion
  else Sql.upsertRuntimeBindingCAS key
    ⟨object.namespaceName, object.name, object.uid, object.resourceVersion⟩ object.expectedUID
    object.expectedResourceVersion

/-- One object of an observation. -/
def saveObject (item : Item) (object : RuntimeObject) : Tx Unit := do
  reject (object.bindingGeneration ≠ item.generation ∨ object.namespaceName = "" ∨
    object.name = "" ∨ object.uid = "" ∨ object.resourceVersion = "") .staleGeneration
  let key : Sql.BindingKey :=
    ⟨item.tenantID, item.serviceID, object.bindingGeneration, object.kind, object.role⟩
  let rows ← bindObject key object
  exactlyOne rows .staleGeneration

def observationStatement (item : Item) (o : Observation) (current : Option RuntimeRow) : Tx Nat :=
  Sql.updateRuntimeForWork now item.tenantID item.serviceID item.generation item.leaseToken
    (observedRow item o current)

/-- What is kept of the service, read before the observation replaces it. -/
def observedBefore (item : Item) (o : Observation) : Tx (Option RuntimeRow) := do
  reject (item.generation < 1 ∨ o.generation ≠ item.generation) .staleGeneration
  Sql.getRuntime item.tenantID item.serviceID

def observationGuard (item : Item) (o : Observation) (current : Option RuntimeRow) : Tx Unit := do
  let rows ← observationStatement now item o current
  exactlyOne rows .staleGeneration

def markApplied (item : Item) : Tx Unit := do
  let rows ← Sql.markServiceAppliedGeneration item.tenantID item.serviceID item.generation
  exactlyOne rows .staleGeneration

def saveObservationForWork (item : Item) (o : Observation) : Tx Unit := do
  let current ← observedBefore item o
  observationGuard now item o current
  markApplied item
  o.objects.forM (saveObject item)

def contextItem (op : OperationContext) : Item :=
  ⟨op.tenantID, op.serviceID, op.targetGeneration, 0, op.leaseToken⟩

/-- `bizObservation` over the phase and health `SaveRuntimeObservation` derives. -/
def bizObservation (op : OperationContext) (fact : RuntimeObservation) : Observation :=
  let phase := if fact.absent then "stopped" else if fact.ready then "ready" else "degraded"
  let health := if fact.absent then "unhealthy" else orDefault fact.invocationHealth "unhealthy"
  { generation := op.targetGeneration, runtimePhase := orDefault fact.runtimePhase phase,
    runtimeMode := fact.runtimeMode, readyReplicas := fact.readyReplicas,
    readyGroups := fact.readyGroups, readyWorkers := fact.readyWorkers, lwsUID := fact.lwsUID,
    modelReady := fact.modelReady, modelReadyKnown := fact.modelReadyKnown,
    publicationPhase := "", invocationHealth := health, reason := fact.reason,
    objects := fact.objects }

def saveRuntimeObservation (op : OperationContext) (fact : RuntimeObservation) : Tx Unit :=
  saveObservationForWork now (contextItem op) (bizObservation op fact)

def modelStatement (op : OperationContext) (fact : ModelObservation) : Tx Nat :=
  Sql.updateModelObservationForWork now op.tenantID op.serviceID op.targetGeneration op.leaseToken
    fact.ready fact.reason

def saveModelObservation (op : OperationContext) (fact : ModelObservation) : Tx Unit := do
  reject (!fact.known) (.text "model observation is not known")
  let rows ← modelStatement now op fact
  exactlyOne rows .staleGeneration

def materializingStatement (op : OperationContext) : Tx Nat :=
  Sql.markModelMaterializingForWork now op.tenantID op.serviceID op.targetGeneration op.leaseToken

def markModelMaterializing (op : OperationContext) : Tx Unit := do
  let rows ← materializingStatement now op
  exactlyOne rows .staleGeneration

def planStatement (op : OperationContext) (plan : Gpu.Snapshot) : Tx Nat :=
  Sql.saveGPUPlanCAS now op.tenantID op.serviceID op.id op.targetGeneration op.leaseToken plan
    plan.executionDigest

def saveGPUSnapshot (op : OperationContext) (plan : Gpu.Snapshot) : Tx Unit := do
  reject (op.gpuRequest.isNone) (.text "GPU request is required")
  let plan ← checked (Gpu.validateSnapshot (some plan) op.gpuRequest)
  let rows ← planStatement now op plan
  exactlyOne rows .operationCAS

/-- `ValidateRefund`. -/
def validateRefund (n : ReleaseNotification) (original : RefundContext) : Except Err Unit := do
  let invalid (why : String) : Err := .text s!"invalid managed GPU release: {why}"
  if n.createOperationID ≠ original.originalCreateOperationID ∨
      n.resourceID ≠ original.resourceID then
    throw (invalid "release identity mismatch")
  if original.deleteOperationID = none ∨
      original.deleteOperationID = some original.originalCreateOperationID then
    throw (invalid "persisted DELETE operation is required")
  if original.ownerService ≠ "ani-inference" then throw (invalid "owner service mismatch")

def saveManagedReleaseReport (original : RefundContext) (proof : ReleaseProof)
    (n : ReleaseNotification) (token : Uuid) : Tx Unit := do
  checked (validateRefund n original)
  let operation ← require original.deleteOperationID .generationConflict
  let rows ← Sql.saveManagedReleaseReport now original.tenantID operation proof n token
  exactlyOne rows .generationConflict

end Store
end AniInference
