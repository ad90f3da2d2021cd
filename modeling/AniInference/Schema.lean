import AniInference.Resources
import AniInference.Lib.Table
import AniInference.Lib.Transaction

namespace AniInference
open Lib

/-- A UUID is a number; its spellings are a matter of the transport. -/
abbrev Uuid := Nat

abbrev Time := Nat

abbrev Generation := Nat

structure Service where
  name : String
  desiredState : DesiredState
  desiredGeneration : Generation
  appliedGeneration : Generation
  currentOperation : Option Uuid
  deletedAt : Option Time
deriving DecidableEq

/-- The business part of a specification. A clone copies it, an update overlays it. -/
structure SpecContent where
  modelID : Option Uuid
  modelVersionID : Option Uuid
  artifactProvider : String
  artifactRef : String
  artifactSHA256 : String
  imageRef : String
  servedModelName : String
  engineRuntime : String
  commandArgv : String
  resources : Resources.Spec
  replicas : Int
  runtimeMode : String
  workerReplicas : Int
  runtimeProvider : String
  specJSON : List (String × String)
  endpoint : Option (Nat × Nat × String × String)
  gpuRequest : Option Gpu.Request
deriving DecidableEq

structure Spec where
  content : SpecContent
  gpuPlan : Option Gpu.Snapshot
  gpuPlanDigest : Option String
deriving DecidableEq

structure OperationRow where
  serviceID : Uuid
  kind : Kind
  phase : Phase
  step : Step
  targetGeneration : Generation
  requestHash : String
  attempt : Nat
  retryAt : Option Time
  errorCode : String
  errorMessage : Option Err
  completedAt : Option Time
deriving DecidableEq

structure WorkRow where
  dirtyVersion : Nat
  acknowledgedVersion : Nat
  nextRunAt : Option Time
  attempt : Nat
  leaseToken : Option Uuid
  leaseUntil : Option Time
  lastErrorCode : String
deriving DecidableEq

inductive QuotaState
  | pending | reserved | confirmed | releasePending | released
deriving DecidableEq, Repr

/-- `pending-<operation>` until the quota authority has answered. -/
inductive ReservationID
  | placeholder (operation : Uuid)
  | issued (id : String)
deriving DecidableEq, Repr

structure ReservationRow where
  serviceID : Uuid
  generation : Generation
  reservationID : ReservationID
  requestedResources : Resources.Spec
  state : QuotaState
  lastErrorCode : String
deriving DecidableEq

inductive PublicationPhase
  | withdrawn | publishing | published | withdrawing
deriving DecidableEq, Repr

def PublicationPhase.text : PublicationPhase → String
  | .withdrawn => "withdrawn"
  | .publishing => "publishing"
  | .published => "published"
  | .withdrawing => "withdrawing"

structure PublicationRow where
  desiredPhase : PublicationPhase
  observedPhase : PublicationPhase
  invocationURL : String
  lastErrorCode : String
deriving DecidableEq

structure RuntimeRow where
  generation : Generation
  runtimeMode : String
  readyGroups : Int
  readyWorkers : Int
  lwsUID : String
  runtimePhase : String
  readyReplicas : Int
  modelReady : Bool
  modelReadyKnown : Bool
  publicationPhase : String
  invocationHealth : String
  reason : String
deriving DecidableEq

/-- `inference.<kind>.accepted`, `inference.operation.<event>` and
`inference.operation.step.retry`. -/
inductive EventType
  | accepted (kind : Kind)
  | step (event : String)
  | retry
deriving DecidableEq, Repr

/-- What `LIKE 'inference.%.accepted'` finds. -/
def EventType.acceptance : EventType → Bool
  | .accepted _ => true
  | .step event => event = "admission.accepted"
  | .retry => false

structure AuditRow where
  serviceID : Uuid
  operationID : Uuid
  generation : Generation
  eventType : EventType
  actor : String
  requestID : String
deriving DecidableEq

/-- Audit rows written by a step carry an id computed from what the step did; the others
carry a fresh one. -/
inductive EventID
  | step (operation : Uuid) (phase : Phase) (step : Step) (attempt : Nat)
  | fresh (id : Uuid)
deriving DecidableEq

structure IdempotencyRow where
  payloadHash : String
  operationID : Uuid
deriving DecidableEq

inductive ResourceClass
  | unset | cpu | gpu
deriving DecidableEq, Repr

/-- `gpu.RefundContext`: what a managed resource was created with. -/
structure RefundContext where
  resourceClass : ResourceClass
  createCommandDigest : String
  tenantID : Uuid
  resourceID : Uuid
  originalCreateOperationID : Uuid
  deleteOperationID : Option Uuid
  ownerService : String
  clusterID : String
  snapshot : Option Gpu.Snapshot
deriving DecidableEq

structure ManagedResource where
  createOperationID : Uuid
  ownerService : String
  resourceClass : ResourceClass
  createCommandDigest : String
  originalContext : RefundContext
  closing : Bool
  deleteOperationID : Option Uuid
  businessPayload : Option String
  businessPayloadDigest : String
  createRequestHash : String
  createPayload : Option String
deriving DecidableEq

inductive Intent
  | createPending | closingIntent | blockedByDelete
deriving DecidableEq, Repr

inductive CloseState
  | none | pending | unknownExecution | complete
deriving DecidableEq, Repr

/-- The answer a Governance command is given, and given again. -/
structure Response where
  resourceID : Uuid
  operationID : Uuid
  kind : Kind
  phase : Phase
  step : String
  desiredState : Option DesiredState
  generation : Generation
  acknowledged : Bool
deriving DecidableEq, Repr

inductive ReleaseReason
  | resourceReleased | abortedCleaned
deriving DecidableEq, Repr

/-- What Governance is told. The id of the event is made of the delete it is about. -/
structure ReleaseNotification where
  releaseEvent : Uuid
  createOperationID : Uuid
  resourceID : Uuid
  reason : ReleaseReason
deriving DecidableEq, Repr

structure ReleaseProofInput where
  tenantID : Uuid
  resourceID : Uuid
  createOperationID : Uuid
  deleteOperationID : Uuid
  sealedAt : Time
  pods : List Gpu.PodRef
deriving DecidableEq, Repr

/-- The evidence of a release. Its id is made of the delete, its digest of the input. -/
structure ReleaseProof where
  evidence : Uuid
  digest : ReleaseProofInput
deriving DecidableEq, Repr

structure ManagedCommandRow where
  resourceID : Uuid
  createOperationID : Uuid
  kind : Kind
  payloadHash : String
  requestHash : String
  responseSnapshot : Response
  intent : Intent
  closeState : CloseState
  leaseToken : Option Uuid
  leaseUntil : Option Time
  retryAt : Time
  releaseEvidence : Option ReleaseProof
  releaseReport : Option ReleaseNotification
deriving DecidableEq

/-- `managedGPUReleaseScope`. -/
structure ReleaseScope where
  sealedAt : Option Time
  pods : List Gpu.PodRef
deriving DecidableEq

inductive ObjectKind
  | inferenceService | deployment | service | pod | leaderWorkerSet | kserveInferenceService
  | kserveLLMInferenceService
deriving DecidableEq, Repr

inductive Role
  | control | runtime | endpoint | member
deriving DecidableEq, Repr

structure Binding where
  objectNamespace : String
  objectName : String
  objectUID : String
  resourceVersion : String
deriving DecidableEq

/-- The tables. The column `result_snapshot` of `inference_operations` is a table of its own: what
accepts an update writes it, and nothing else. -/
structure Db where
  services : Table (Uuid × Uuid) Service
  specs : Table (Uuid × Uuid × Generation) Spec
  operations : Table (Uuid × Uuid) OperationRow
  resultSnapshots : Table (Uuid × Uuid) Response
  work : Table (Uuid × Uuid) WorkRow
  reservations : Table (Uuid × Uuid) ReservationRow
  publications : Table (Uuid × Uuid × Generation) PublicationRow
  runtimes : Table (Uuid × Uuid) RuntimeRow
  bindings : Table (Uuid × Uuid × Generation × ObjectKind × Role) Binding
  audit : Table (Uuid × EventID) AuditRow
  idempotency : Table (Uuid × String × String) IdempotencyRow
  managedResources : Table (Uuid × Uuid) ManagedResource
  managedCommands : Table (Uuid × Uuid) ManagedCommandRow
  releaseScopes : Table (Uuid × Uuid × Uuid) ReleaseScope

def Db.empty : Db := ⟨∅, ∅, ∅, ∅, ∅, ∅, ∅, ∅, ∅, ∅, ∅, ∅, ∅, ∅⟩

/-- A local transaction: an error leaves the database as it was. -/
abbrev Tx := Txn Db Err

end AniInference
