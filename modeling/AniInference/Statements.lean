import AniInference.Schema
import Mathlib.Data.List.MinMax

namespace AniInference
open Lib

/-- The lease on a service's work is `token`'s and has not run out. -/
def WorkRow.heldBy (w : WorkRow) (token : Uuid) (now : Time) : Bool :=
  w.leaseToken = some token && w.leaseUntil.any (now < ·)

def Db.leaseHeld (db : Db) (tenant service token : Uuid) (now : Time) : Bool :=
  (db.work.lookup (tenant, service)).any (·.heldBy token now)

/-- The joins every step statement makes: the operation is its service's current one, for
the generation the service desires, and `token` holds the lease. -/
def Db.fenced (db : Db) (tenant operation token : Uuid) (now : Time) : Bool :=
  (db.operations.lookup (tenant, operation)).any fun o =>
    (db.services.lookup (tenant, o.serviceID)).any (fun s =>
      s.currentOperation = some operation && s.desiredGeneration = o.targetGeneration) &&
    db.leaseHeld tenant o.serviceID token now

/-- The weaker join of the quota and publication statements: the fencing operation is its
service's current one and not older than the generation written. -/
def Db.operationFenced (db : Db) (tenant fence : Uuid) (generation : Generation) (token : Uuid)
    (now : Time) : Bool :=
  (db.operations.lookup (tenant, fence)).any fun o =>
    generation ≤ o.targetGeneration &&
    (db.services.lookup (tenant, o.serviceID)).any (·.currentOperation = some fence) &&
    db.leaseHeld tenant o.serviceID token now

/-- A service's work row beside the service itself. -/
def Db.workOf (db : Db) (tenant service : Uuid) : Option (WorkRow × Service) :=
  match db.work.lookup (tenant, service), db.services.lookup (tenant, service) with
  | some w, some s => some (w, s)
  | _, _ => none

def WorkRow.released (w : WorkRow) : WorkRow :=
  { w with leaseToken := none, leaseUntil := none }

/-- The service as a command leaves it. -/
def Service.moved (s : Service) (desired : DesiredState) (target : Generation)
    (operation : Uuid) : Service :=
  { s with
    desiredState := desired, desiredGeneration := target, currentOperation := some operation }

namespace Sql
open Txn
variable (now : Time)

/-- `pgtype.Text`: an empty text is null. -/
def pgText (s : String) : Option String := if s = "" then none else some s

/-- A foreign key to `inference_services`. -/
def referencesService (tenant service : Uuid) : Tx Unit := do
  let db ← get
  reject ((db.services.lookup (tenant, service)).isNone) .foreignKeyViolation

def getService (tenant service : Uuid) : Tx (Option Service) := do
  return (← get).services.lookup (tenant, service)

/-- A service as it is accepted, before its operation is known. -/
def newService (name : String) (generation : Generation) : Service :=
  ⟨name, .running, generation, 0, none, none⟩

/-- Names are unique among the services that are not deleted. -/
def insertService (tenant service : Uuid) (name : String) (generation : Generation) : Tx Unit := do
  let db ← get
  reject ((db.services.lookup (tenant, service)).isSome ||
    Table.existsWhere (fun k s => k.1 = tenant && s.name = name && s.deletedAt.isNone) db.services)
    .uniqueViolation
  set { db with services := db.services.insert (tenant, service) (newService name generation) }

def setCurrentOperation (tenant service operation : Uuid) : Tx Unit := do
  let db ← get
  let assign (s : Service) := { s with currentOperation := some operation }
  set { db with services := Table.modify (tenant, service) assign db.services }

def transitionService (desired : DesiredState) (target : Generation)
    (operation tenant service : Uuid) (expected : Generation) : Tx Nat :=
  updateRow (·.services.lookup (tenant, service))
    (fun _ s => s.desiredGeneration = expected && s.deletedAt.isNone)
    fun db s =>
      let row := s.moved desired target operation
      { db with services := db.services.insert (tenant, service) row }

def markServiceDeleted (tenant service operation : Uuid) (generation : Generation) : Tx Nat :=
  updateRow (·.services.lookup (tenant, service))
    (fun _ s => s.currentOperation = some operation && s.desiredState = .deleted &&
      s.desiredGeneration = generation)
    fun db s =>
      let row := { s with deletedAt := some (s.deletedAt.getD now) }
      { db with services := db.services.insert (tenant, service) row }

def markServiceAppliedGeneration (tenant service : Uuid) (generation : Generation) : Tx Nat :=
  updateRow (·.services.lookup (tenant, service))
    (fun _ s => s.desiredGeneration = generation && s.deletedAt.isNone)
    fun db s =>
      let row := { s with appliedGeneration := max s.appliedGeneration generation }
      { db with services := db.services.insert (tenant, service) row }

def getSpec (tenant service : Uuid) (generation : Generation) : Tx (Option Spec) := do
  return (← get).specs.lookup (tenant, service, generation)

/-- Generations are unique within a service. -/
def insertSpec (tenant service : Uuid) (generation : Generation) (spec : Spec) : Tx Unit := do
  referencesService tenant service
  let db ← get
  reject ((db.specs.lookup (tenant, service, generation)).isSome) .uniqueViolation
  set { db with specs := db.specs.insert (tenant, service, generation) spec }

/-- `CloneSpecGeneration` and `CloneSpecWithRuntimeUpdate`: the source row, overlaid. -/
def cloneSpec (tenant service : Uuid) (source target : Generation) (overlay : Spec → Spec) :
    Tx Nat := do
  match (← get).specs.lookup (tenant, service, source) with
  | some spec =>
    insertSpec tenant service target (overlay spec)
    return 1
  | none => return 0

/-- An operation as it is accepted. -/
def newOperation (service : Uuid) (kind : Kind) (step : Step) (target : Generation)
    (requestHash : String) : OperationRow :=
  ⟨service, kind, .pending, step, target, requestHash, 0, none, "", none, none⟩

/-- One pending or running operation a service, and ids are unique. -/
def insertOperation (tenant id service : Uuid) (kind : Kind) (step : Step)
    (target : Generation) (requestHash : String) : Tx Unit := do
  referencesService tenant service
  let db ← get
  reject ((db.operations.lookup (tenant, id)).isSome ||
    Table.existsWhere (fun k o => k.1 = tenant && o.serviceID = service && o.phase.active)
      db.operations) .uniqueViolation
  let row := newOperation service kind step target requestHash
  set { db with operations := db.operations.insert (tenant, id) row }

def getResultSnapshot (tenant id : Uuid) : Tx (Option Response) := do
  return (← get).resultSnapshots.lookup (tenant, id)

def saveOperationAcceptanceResponse (tenant id : Uuid) (response : Response) : Tx Nat :=
  updateRow (·.operations.lookup (tenant, id))
    (fun db _ => (db.resultSnapshots.lookup (tenant, id)).isNone)
    fun db _ => { db with resultSnapshots := db.resultSnapshots.insert (tenant, id) response }

/-- What `CancelActiveOperation` matches: the service's current operation, while active. -/
def cancellable (db : Db) (tenant service : Uuid) (k : Uuid × Uuid) (o : OperationRow) : Bool :=
  k.1 = tenant && o.serviceID = service && o.phase.active &&
    (db.services.lookup (tenant, service)).any fun s =>
      s.currentOperation = some k.2 && s.deletedAt.isNone

def cancelled (o : OperationRow) : OperationRow :=
  { o with
    phase := .failed, errorCode := "cancelled_by_delete",
    errorMessage := some (.text "cancelled by delete request"), retryAt := none,
    completedAt := some now }

def cancelActiveOperation (tenant service : Uuid) : Tx Nat := do
  let db ← get
  let hit := cancellable db tenant service
  set { db with operations := Table.updateWhere hit (fun _ o => cancelled now o) db.operations }
  return Table.countWhere hit db.operations

/-- `GetLeasedOperation`: the current operation of the service whose lease `token` holds. -/
def getLeasedOperation (tenant token : Uuid) : Tx (Option (Uuid × OperationRow)) := do
  let db ← get
  let rows := Table.select (fun k _ => k.1 = tenant && db.fenced tenant k.2 token now) db.operations
  return rows.head?.map fun r => (r.1.2, r.2)

/-- `GetLeasedDesired`. -/
def getLeasedDesired (tenant service token : Uuid) : Tx (Option Generation) := do
  let db ← get
  return if db.leaseHeld tenant service token now then
    (db.services.lookup (tenant, service)).map (·.desiredGeneration) else none

structure StepCAS where
  tenant : Uuid
  operation : Uuid
  target : Generation
  expectedPhase : Phase
  expectedStep : Step
  token : Uuid
  errorCode : String
  errorMessage : Option Err
deriving DecidableEq

def stepMatches (c : StepCAS) (db : Db) (o : OperationRow) : Bool :=
  o.targetGeneration = c.target && o.phase = c.expectedPhase && o.step = c.expectedStep &&
    db.fenced c.tenant c.operation c.token now

def advancedRow (c : StepCAS) (phase : Phase) (step : Step) (o : OperationRow) : OperationRow :=
  { o with
    phase := phase, step := step, errorCode := c.errorCode, errorMessage := c.errorMessage,
    retryAt := none, completedAt := if phase.active then none else some now }

def advanceOperationStepCAS (c : StepCAS) (phase : Phase) (step : Step) : Tx Nat :=
  updateRow (·.operations.lookup (c.tenant, c.operation))
    (fun db o => stepMatches now c db o && o.retryAt.all (· ≤ now))
    fun db o =>
      let row := advancedRow now c phase step o
      { db with operations := db.operations.insert (c.tenant, c.operation) row }

def retriedRow (c : StepCAS) (retrySeconds : Nat) (o : OperationRow) : OperationRow :=
  { o with
    phase := .pending, attempt := o.attempt + 1, retryAt := some (now + retrySeconds),
    errorCode := c.errorCode, errorMessage := c.errorMessage }

def retryOperationStepCAS (c : StepCAS) (retrySeconds : Nat) : Tx Nat :=
  updateRow (·.operations.lookup (c.tenant, c.operation)) (stepMatches now c)
    fun db o =>
      let row := retriedRow now c retrySeconds o
      { db with operations := db.operations.insert (c.tenant, c.operation) row }

def getOperation (tenant id : Uuid) : Tx (Option OperationRow) := do
  return (← get).operations.lookup (tenant, id)

/-- `ON CONFLICT DO NOTHING`. -/
def appendAuditEvent (tenant : Uuid) (id : EventID) (row : AuditRow) : Tx Unit :=
  modify fun db =>
    if (db.audit.lookup (tenant, id)).isSome then db
    else { db with audit := db.audit.insert (tenant, id) row }

/-- Every notification moves `dirty_version` on, whatever generation it speaks of. -/
def upsertResourceWork (tenant service : Uuid) (dirty : Nat) : Tx Unit := do
  referencesService tenant service
  let db ← get
  let row : WorkRow := match db.work.lookup (tenant, service) with
    | some w => { w with dirtyVersion := max (w.dirtyVersion + 1) dirty, nextRunAt := some now }
    | none => ⟨dirty, 0, some now, 0, none, none, ""⟩
  set { db with work := db.work.insert (tenant, service) row }

/-- `EnsureResourceWork`: only a missing row is written. -/
def ensureResourceWork (tenant service : Uuid) (dirty : Nat) : Tx Unit := do
  referencesService tenant service
  let db ← get
  let row : WorkRow := ⟨dirty, 0, some now, 0, none, none, ""⟩
  onlyIf ((db.work.lookup (tenant, service)).isNone)
    (set { db with work := db.work.insert (tenant, service) row })

def releaseResourceWorkLease (tenant service : Uuid) : Tx Unit := do
  let db ← get
  let release (w : WorkRow) := { w.released with nextRunAt := some now }
  set { db with work := Table.modify (tenant, service) release db.work }

def claimable (w : WorkRow) : Bool :=
  w.leaseUntil.all (· ≤ now) &&
    match w.nextRunAt with
    | some t => t ≤ now
    | none => w.acknowledgedVersion < w.dirtyVersion

/-- `ClaimResourceWork`. Which of the due rows is claimed (they are ordered, and locked ones
are skipped) is left open: `service` is the one the database picks. -/
def claimResourceWork (tenant token : Uuid) (leaseSeconds : Nat) (service : Uuid) :
    Tx (Option (Nat × Generation)) := do
  let db ← get
  match db.workOf tenant service with
  | some (w, s) =>
    if s.deletedAt.isNone && claimable now w then
      let row := { w with
        leaseToken := some token, leaseUntil := some (now + leaseSeconds)
        attempt := w.attempt + 1 }
      set { db with work := db.work.insert (tenant, service) row }
      return some (w.dirtyVersion, s.desiredGeneration)
    else return none
  | none => return none

def commitResourceWork (tenant service : Uuid) (generation : Generation) (token : Uuid)
    (claimed observeSeconds : Nat) : Tx Nat :=
  updateRow (·.workOf tenant service)
    (fun _ r => r.2.desiredGeneration = generation && r.1.heldBy token now &&
      claimed ≤ r.1.dirtyVersion)
    fun db r =>
      let next :=
        if r.2.deletedAt.isSome then none
        else if r.1.dirtyVersion > claimed then some now
        else some (now + observeSeconds)
      let row := { r.1.released with
        acknowledgedVersion := max r.1.acknowledgedVersion claimed, nextRunAt := next, attempt := 0,
        lastErrorCode := "" }
      { db with work := db.work.insert (tenant, service) row }

def retryResourceWork (tenant service : Uuid) (generation : Generation) (token : Uuid)
    (retrySeconds : Nat) (errorCode : String) : Tx Nat :=
  updateRow (·.workOf tenant service)
    (fun _ r => r.2.deletedAt.isNone && r.2.desiredGeneration = generation &&
      r.1.heldBy token now)
    fun db r =>
      let row := { r.1.released with
        nextRunAt := some (now + retrySeconds), lastErrorCode := errorCode }
      { db with work := db.work.insert (tenant, service) row }

def insertQuotaReservation (tenant service operation : Uuid) (generation : Generation)
    (reservationID : ReservationID) (resources : Resources.Spec) : Tx Unit := do
  referencesService tenant service
  let db ← get
  reject ((db.reservations.lookup (tenant, operation)).isSome ||
    Table.existsWhere (fun k r => k.1 = tenant && r.reservationID = reservationID)
      db.reservations) .uniqueViolation
  let row : ReservationRow := ⟨service, generation, reservationID, resources, .pending, ""⟩
  set { db with reservations := db.reservations.insert (tenant, operation) row }

/-- The newest of the reservations `p` selects, with the operation it was made for. -/
def latestReservation (tenant service : Uuid) (p : ReservationRow → Bool) :
    Tx (Option (Uuid × ReservationRow)) := do
  let rows := Table.select (fun k r => k.1 = tenant && r.serviceID = service && p r)
    (← get).reservations
  return (rows.argmax fun r => r.2.generation).map fun r => (r.1.2, r.2)

def getActiveQuotaReservation (tenant service : Uuid) (generation : Generation) :
    Tx (Option (Uuid × ReservationRow)) :=
  latestReservation tenant service fun r => r.generation ≤ generation && r.state ≠ .released

def getPreviousQuotaReservation (tenant service : Uuid) (generation : Generation) :
    Tx (Option (Uuid × ReservationRow)) :=
  latestReservation tenant service fun r =>
    r.generation < generation && r.state ≠ .released && r.state ≠ .pending

/-- `UpdateQuotaReservationFenced`: the reservation may be an earlier operation's, the fence
is the current one. -/
def updateQuotaReservationFenced (tenant operation : Uuid) (generation : Generation)
    (fence token : Uuid) (change : ReservationRow → ReservationRow) : Tx Nat :=
  updateRow (·.reservations.lookup (tenant, operation))
    (fun db r => r.generation = generation &&
      db.operationFenced tenant fence r.generation token now)
    fun db r => { db with reservations := db.reservations.insert (tenant, operation) (change r) }

def getPublication (tenant service : Uuid) (generation : Generation) :
    Tx (Option (Generation × PublicationRow)) := do
  return ((← get).publications.lookup (tenant, service, generation)).map fun p => (generation, p)

/-- The publications of a service up to a generation. -/
def publicationsUpTo (db : Db) (tenant service : Uuid) (generation : Generation) :
    List (Generation × PublicationRow) :=
  (Table.select (fun k _ => k.1 = tenant && k.2.1 = service && k.2.2 ≤ generation)
    db.publications).map fun r => (r.1.2.2, r.2)

def getLatestPublication (tenant service : Uuid) (generation : Generation) :
    Tx (Option (Generation × PublicationRow)) := do
  return (publicationsUpTo (← get) tenant service generation).argmax Prod.fst

/-- On a row that exists, an intermediate state leaves the observed phase alone. -/
def publicationRow (desired observed : PublicationPhase) (url : String) :
    Option PublicationRow → PublicationRow
  | some p => { p with
      desiredPhase := desired, invocationURL := url, lastErrorCode := "",
      observedPhase :=
        if desired = .publishing ∨ desired = .withdrawing then p.observedPhase else observed }
  | none => ⟨desired, observed, url, ""⟩

def upsertPublicationFenced (tenant service : Uuid) (generation : Generation) (fence token : Uuid)
    (desired observed : PublicationPhase) (url : String) : Tx Nat :=
  updateRow (fun db => some (db.publications.lookup (tenant, service, generation)))
    (fun db _ => db.operationFenced tenant fence generation token now)
    fun db p =>
      let row := publicationRow desired observed url p
      { db with publications := db.publications.insert (tenant, service, generation) row }

def insertRuntime (tenant service : Uuid) (generation : Generation) (mode : String) : Tx Unit := do
  referencesService tenant service
  let db ← get
  reject ((db.runtimes.lookup (tenant, service)).isSome) .uniqueViolation
  let row : RuntimeRow := ⟨generation, mode, 0, 0, "", "pending", 0, false, false, "withdrawn",
    "unhealthy", "runtime_pending"⟩
  set { db with runtimes := db.runtimes.insert (tenant, service) row }

/-- The runtime of a service with the phase of its newest publication in place of the row's copy. -/
def currentRuntime (db : Db) (tenant service : Uuid) : Option RuntimeRow := do
  let s ← db.services.lookup (tenant, service)
  let r ← db.runtimes.lookup (tenant, service)
  let newest := (publicationsUpTo db tenant service s.desiredGeneration).argmax Prod.fst
  return { r with publicationPhase := (newest.map (·.2.observedPhase.text)).getD "withdrawn" }

def getRuntime (tenant service : Uuid) : Tx (Option RuntimeRow) := do
  return currentRuntime (← get) tenant service

/-- The three `...ForWork` statements on `inference_runtime`: one fence, different columns. -/
def updateRuntimeForWork (tenant service : Uuid) (generation : Generation) (token : Uuid)
    (change : RuntimeRow → RuntimeRow) : Tx Nat :=
  updateRow (·.runtimes.lookup (tenant, service))
    (fun db r => (db.services.lookup (tenant, service)).any (·.desiredGeneration = generation) &&
      r.generation ≤ generation && db.leaseHeld tenant service token now)
    fun db r => { db with runtimes := db.runtimes.insert (tenant, service) (change r) }

def updateModelObservationForWork (tenant service : Uuid) (generation : Generation) (token : Uuid)
    (ready : Bool) (reason : String) : Tx Nat :=
  updateRuntimeForWork now tenant service generation token fun r =>
    { r with modelReady := ready, modelReadyKnown := true, reason := reason }

def markModelMaterializingForWork (tenant service : Uuid) (generation : Generation)
    (token : Uuid) : Tx Nat :=
  updateRuntimeForWork now tenant service generation token fun r =>
    { r with modelReady := false, modelReadyKnown := false,
             reason := "model materialization pending" }

/-- `SaveGPUPlanCAS`: a plan is written once, and again only with the same value. -/
def saveGPUPlanCAS (tenant service operation : Uuid) (target : Generation) (token : Uuid)
    (plan : Gpu.Snapshot) (digest : String) : Tx Nat :=
  updateRow (·.specs.lookup (tenant, service, target))
    (fun db spec => (db.operations.lookup (tenant, operation)).any (fun o =>
        o.targetGeneration = target && o.phase = .running && o.step = .resolveGPU) &&
      db.fenced tenant operation token now && spec.gpuPlan.all (· = plan))
    fun db spec =>
      let row := { spec with gpuPlan := some plan, gpuPlanDigest := some digest }
      { db with specs := db.specs.insert (tenant, service, target) row }

/-- `GetLatestSpec`: a delete names a generation that never had a row of its own. -/
def getLatestSpec (tenant service : Uuid) (generation : Generation) : Tx (Option Spec) := do
  let rows := Table.select (fun k _ => k.1 = tenant && k.2.1 = service && k.2.2 ≤ generation)
    (← get).specs
  return (rows.argmax fun r => r.1.2.2).map Prod.snd

/-- The oldest acceptance event of an operation carries its caller. Rows are never rewritten,
so the oldest is the last. -/
def getOperationAuditContext (tenant operation : Uuid) : Tx (Option (String × String)) := do
  let rows := Table.select (fun k r => k.1 = tenant && r.operationID = operation &&
    r.eventType.acceptance) (← get).audit
  return rows.getLast?.map fun r => (r.2.actor, r.2.requestID)

structure BindingKey where
  tenant : Uuid
  service : Uuid
  generation : Generation
  kind : ObjectKind
  role : Role
deriving DecidableEq

def BindingKey.row (k : BindingKey) : Uuid × Uuid × Generation × ObjectKind × Role :=
  (k.tenant, k.service, k.generation, k.kind, k.role)

/-- What a binding that is already there lets through. -/
def bindingAccepts (b : Binding) (expectedUID expectedResourceVersion : String) (old : Binding) :
    Bool :=
  old.objectUID = b.objectUID && old.objectNamespace = b.objectNamespace &&
    old.objectName = b.objectName &&
    ((old.objectUID = expectedUID && old.resourceVersion = expectedResourceVersion) ||
      (expectedUID = "" && expectedResourceVersion = "" &&
        old.resourceVersion = b.resourceVersion))

/-- `UpsertRuntimeBindingCAS`: a recorded object is replaced by itself only, and only by a
caller that read the recorded version, or that repeats it having read none. -/
def upsertRuntimeBindingCAS (k : BindingKey) (b : Binding)
    (expectedUID expectedResourceVersion : String) : Tx Nat := do
  referencesService k.tenant k.service
  updateRow (fun db => some (db.bindings.lookup k.row))
    (fun _ old => old.all (bindingAccepts b expectedUID expectedResourceVersion))
    fun db _ => { db with bindings := db.bindings.insert k.row b }

def deleteRuntimeBindingCAS (k : BindingKey) (uid resourceVersion : String) : Tx Nat :=
  updateRow (·.bindings.lookup k.row)
    (fun _ b => b.objectUID = uid && b.resourceVersion = resourceVersion)
    fun db _ => { db with bindings := db.bindings.erase k.row }

def getIdempotency (tenant : Uuid) (method key : String) : Tx (Option IdempotencyRow) := do
  return (← get).idempotency.lookup (tenant, method, key)

/-- `ON CONFLICT DO NOTHING`. -/
def putIdempotency (tenant : Uuid) (method key hash : String) (operation : Uuid) : Tx Nat := do
  let db ← get
  if (db.idempotency.lookup (tenant, method, key)).isSome then return 0
  else
    set { db with idempotency := db.idempotency.insert (tenant, method, key) ⟨hash, operation⟩ }
    return 1

def getManagedResource (tenant resource : Uuid) : Tx (Option ManagedResource) := do
  return (← get).managedResources.lookup (tenant, resource)

def getManagedCommand (tenant operation : Uuid) : Tx (Option ManagedCommandRow) := do
  return (← get).managedCommands.lookup (tenant, operation)

/-- Create operations are unique among the managed resources of a tenant. -/
def insertManagedResource (tenant resource : Uuid) (row : ManagedResource) : Tx Unit := do
  let db ← get
  reject ((db.managedResources.lookup (tenant, resource)).isSome ||
    Table.existsWhere (fun k m => k.1 = tenant && m.createOperationID = row.createOperationID)
      db.managedResources) .uniqueViolation
  set { db with managedResources := db.managedResources.insert (tenant, resource) row }

def setManagedClosing (tenant resource operation : Uuid) : Tx Unit := do
  let db ← get
  let close (m : ManagedResource) :=
    { m with closing := true, deleteOperationID := some (m.deleteOperationID.getD operation) }
  set { db with managedResources := Table.modify (tenant, resource) close db.managedResources }

def saveManagedCreate (tenant resource : Uuid) (business digest hash payload : String) :
    Tx Unit := do
  let db ← get
  let record (m : ManagedResource) :=
    if m.createPayload.isNone then { m with
      businessPayload := some business, businessPayloadDigest := digest,
      createRequestHash := hash, createPayload := some payload }
    else m
  set { db with managedResources := Table.modify (tenant, resource) record db.managedResources }

def insertManagedCommand (tenant operation : Uuid) (row : ManagedCommandRow) : Tx Unit := do
  let db ← get
  reject ((db.managedCommands.lookup (tenant, operation)).isSome) .uniqueViolation
  reject (!(db.managedResources.lookup (tenant, row.resourceID)).any
    (·.createOperationID = row.createOperationID)) .foreignKeyViolation
  set { db with managedCommands := db.managedCommands.insert (tenant, operation) row }

def setManagedCloseState (tenant operation : Uuid) (state : CloseState) : Tx Unit := do
  let db ← get
  let close (c : ManagedCommandRow) :=
    if c.kind = .delete then { c with closeState := state } else c
  set { db with managedCommands := Table.modify (tenant, operation) close db.managedCommands }

/-- `ManagedExecutionFacts`: whether an earlier acceptance left anything behind. -/
def managedExecutionFacts (tenant resource : Uuid) : Tx Bool := do
  let db ← get
  return Table.existsWhere (fun k o => k.1 = tenant && o.serviceID = resource) db.operations ||
    (db.work.lookup (tenant, resource)).isSome ||
    (db.managedResources.lookup (tenant, resource)).any (·.createPayload.isSome)

/-- `GetManagedGPURefundContext`: the context a resource was created with, and its delete. -/
def getRefundContext (tenant resource create : Uuid) : Tx (Option RefundContext) := do
  let row := (← get).managedResources.lookup (tenant, resource)
  return (row.filter (·.createOperationID = create)).map fun m =>
    { m.originalContext with
      deleteOperationID := m.deleteOperationID.orElse fun _ => m.originalContext.deleteOperationID }

/-- The work lease on a service that its delete `operation` is taking down. -/
def deleteLeaseHeld (db : Db) (tenant service operation token : Uuid) : Bool :=
  db.leaseHeld tenant service token now &&
    (db.services.lookup (tenant, service)).any fun s =>
      s.currentOperation = some operation && s.desiredState = .deleted

/-- The lease on a delete that came before its create. -/
def closeLeaseHeld (c : ManagedCommandRow) (token : Uuid) : Bool :=
  c.closeState = .pending && c.leaseToken = some token && c.leaseUntil.any (now < ·)

/-- `SaveManagedReleaseReport`: a report is written once, and again only with the same values. -/
def saveManagedReleaseReport (tenant operation : Uuid) (proof : ReleaseProof)
    (report : ReleaseNotification) (token : Uuid) : Tx Nat :=
  updateRow (·.managedCommands.lookup (tenant, operation))
    (fun db c => c.kind = .delete &&
      (closeLeaseHeld now c token ||
        (c.closeState = .none && deleteLeaseHeld now db tenant c.resourceID operation token)) &&
      (db.managedResources.lookup (tenant, c.resourceID)).any (fun m =>
        m.closing && m.deleteOperationID = some operation) &&
      (c.releaseReport = none ||
        (c.releaseReport = some report && c.releaseEvidence = some proof)))
    fun db c =>
      let row := { c with releaseEvidence := some proof, releaseReport := some report }
      { db with managedCommands := db.managedCommands.insert (tenant, operation) row }

def listManagedCloseTenants : Tx (List Uuid) := do
  let rows := Table.select (fun _ c => c.kind = .delete &&
    (c.closeState = .pending || c.closeState = .unknownExecution)) (← get).managedCommands
  return (rows.map fun r => r.1.1).dedup

/-- `ClaimManagedClose`, with `operation` the row the database picks. -/
def claimManagedClose (tenant token operation : Uuid) : Tx (Option ManagedCommandRow) := do
  let db ← get
  match db.managedCommands.lookup (tenant, operation) with
  | some c =>
    if c.kind = .delete && c.closeState = .pending && c.retryAt ≤ now &&
        c.leaseUntil.all (· < now) then
      let row := { c with leaseToken := some token, leaseUntil := some (now + 30) }
      set { db with managedCommands := db.managedCommands.insert (tenant, operation) row }
      return some row
    else return none
  | none => return none

def retryManagedClose (tenant operation token : Uuid) : Tx Nat :=
  updateRow (·.managedCommands.lookup (tenant, operation)) (fun _ c => closeLeaseHeld now c token)
    fun db c =>
      let row := { c with leaseToken := none, leaseUntil := none, retryAt := now + 5 }
      { db with managedCommands := db.managedCommands.insert (tenant, operation) row }

def completeManagedClose (tenant operation token : Uuid) : Tx Nat :=
  updateRow (·.managedCommands.lookup (tenant, operation))
    (fun _ c => c.leaseToken = some token && c.leaseUntil.any (now < ·) && c.kind = .delete)
    fun db c =>
      let row := { c with leaseToken := none, leaseUntil := none, closeState := .complete }
      { db with managedCommands := db.managedCommands.insert (tenant, operation) row }

def getReleaseScope (tenant service operation : Uuid) : Tx (Option ReleaseScope) := do
  return (← get).releaseScopes.lookup (tenant, service, operation)

def upsertReleaseScope (tenant service operation : Uuid) (scope : ReleaseScope) : Tx Unit := do
  let db ← get
  set { db with releaseScopes := db.releaseScopes.insert (tenant, service, operation) scope }

end Sql
end AniInference
