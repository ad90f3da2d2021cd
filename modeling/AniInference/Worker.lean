import AniInference.Runner

namespace AniInference
open Lib

namespace Runner
open M

/-- What `CurrentOperation` takes from the managed resource of a service. -/
structure ManagedFacts where
  managed : Bool
  managedGPU : Bool
  createOperationID : Option Uuid
  pods : List Gpu.PodRef
  sealedAt : Option Time

def loadScope (tenant service create : Uuid) : M (List Gpu.PodRef × Option Time) := do
  match ← read (.releaseScope tenant service create) with
  | none => return ([], none)
  | some scope =>
    checked "invalid managed GPU release scope" (validateReleasePods scope.pods [])
    return (scope.pods, scope.sealedAt)

def loadManaged (tenant service : Uuid) : M ManagedFacts := do
  match ← read (.managedResource tenant service) with
  | none => return ⟨false, false, none, [], none⟩
  | some resource =>
    let original := resource.originalContext
    let create := original.originalCreateOperationID
    let scope ← loadScope tenant service create
    return ⟨true, original.resourceClass = .gpu ∨ original.snapshot.isSome, some create, scope.1,
      scope.2⟩

/-- What `CurrentOperation` takes from the specification; a delete has none of its own. -/
structure SpecFacts where
  replicas : Int
  workerReplicas : Int
  runtimeMode : String
  gpuRequest : Option Gpu.Request
  gpuSnapshot : Option Gpu.Snapshot

def loadSpec (tenant service : Uuid) (o : OperationRow) : M (Option Spec) := do
  match ← read (.spec tenant service o.targetGeneration) with
  | some spec => return some spec
  | none =>
    if o.kind = .delete then read (.latestSpec tenant service o.targetGeneration)
    else return none

def specFacts : Option Spec → M SpecFacts
  | none => return ⟨0, 0, "", none, none⟩
  | some spec => do
    failIf (spec.gpuPlan.any fun plan => spec.gpuPlanDigest.any (· ≠ plan.executionDigest))
      (.text "GPU plan digest does not match persisted digest")
    return ⟨spec.content.replicas,
      if spec.content.workerReplicas = 0 then 1 else spec.content.workerReplicas,
      Store.orDefault spec.content.runtimeMode "deployment", spec.content.gpuRequest, spec.gpuPlan⟩

/-- The specification of a generation, or the latest one before it. -/
def findSpec (tenant service : Uuid) (generation : Generation) : M (Option Spec) := do
  match ← read (.spec tenant service generation) with
  | some spec => return some spec
  | none => read (.latestSpec tenant service generation)

/-- The specification a reservation was made for. -/
def demandSpec (tenant service : Uuid) (generation : Generation) : M Spec := do
  match ← findSpec tenant service generation with
  | some spec => return spec
  | none => throw (.wrapped "load quota demand spec" .noRows)

/-- `populateQuotaDemand`. -/
def quotaDemand (tenant service : Uuid) (generation : Generation) : M Resources.Demand := do
  failIf (generation < 1) (.text "invalid reservation generation")
  let spec ← demandSpec tenant service generation
  let resources ← checked "decode quota demand spec" (Resources.normalize spec.content.resources)
  let workers := if spec.content.workerReplicas = 0 then 1 else spec.content.workerReplicas
  checked "aggregate quota demand"
    (Resources.aggregate resources spec.content.replicas spec.content.runtimeMode workers)

/-- `reservationFromRow` and its demand: the fence is the operation that reads it. -/
def loadReservation (item : Item) (operation : Uuid) :
    Option (Uuid × ReservationRow) → M (Option Reservation)
  | none => return none
  | some (id, row) => do
    let resources ← checked "decode quota resource snapshot"
      (Resources.normalize row.requestedResources)
    let demand ← quotaDemand item.tenantID row.serviceID row.generation
    return some ⟨item.tenantID, row.serviceID, id, row.generation, some row.reservationID,
      item.leaseToken, some operation, resources, demand, row.state, row.lastErrorCode⟩

/-- Publishing loads the target generation only, so that it cannot revive the previous one. -/
def publicationRow (item : Item) (o : OperationRow) : M (Option (Generation × PublicationRow)) :=
  if o.step = .publish then read (.publication item.tenantID o.serviceID o.targetGeneration)
  else read (.latestPublication item.tenantID o.serviceID o.targetGeneration)

def loadPublication (item : Item) (operation : Uuid) (o : OperationRow) : M Publication := do
  match ← publicationRow item o with
  | some (generation, p) =>
    return ⟨item.tenantID, o.serviceID, operation, generation, item.leaseToken, some operation,
      p.invocationURL, p.observedPhase⟩
  | none =>
    return ⟨item.tenantID, item.serviceID, operation, o.targetGeneration, item.leaseToken,
      some operation, "", .withdrawn⟩

/-- An update and a restart replace what an earlier generation holds. -/
def loadPrevious (item : Item) (o : OperationRow) : M (Option (Uuid × ReservationRow)) :=
  if o.kind = .update ∨ o.kind = .restart then
    read (.previousReservation item.tenantID o.serviceID o.targetGeneration)
  else return none

/-- `CurrentOperation`: statement after statement, with no transaction around them. -/
def currentOperation (item : Item) : M OperationContext := do
  match ← read (.leasedOperation item.tenantID item.leaseToken) with
  | none => throw .staleGeneration
  | some (id, o) =>
    let managed ← loadManaged item.tenantID o.serviceID
    let spec ← loadSpec item.tenantID o.serviceID o
    let facts ← specFacts spec
    let caller ← read (.auditContext item.tenantID id)
    let active ← read (.activeReservation item.tenantID o.serviceID o.targetGeneration)
    let active ← loadReservation item id active
    let previous ← loadPrevious item o
    let previous ← loadReservation item id previous
    let publication ← loadPublication item id o
    return {
      tenantID := item.tenantID, serviceID := o.serviceID, id := id, kind := o.kind
      actor := (caller.map Prod.fst).getD "", requestID := (caller.map Prod.snd).getD ""
      leaseToken := item.leaseToken, phase := o.phase, step := o.step, attempt := o.attempt
      targetGeneration := o.targetGeneration, reservation := active
      previousReservation := previous, publication := publication
      gpuRequest := facts.gpuRequest, gpuSnapshot := facts.gpuSnapshot
      managed := managed.managed, managedGPU := managed.managedGPU
      managedGPUCreateOperationID := managed.createOperationID
      managedGPUReleasePods := managed.pods, managedGPUReleaseSealedAt := managed.sealedAt
      replicas := facts.replicas, workerReplicas := facts.workerReplicas
      runtimeMode := facts.runtimeMode }

variable (r : Runner)

def retryDelay : Nat := if r.retryAfter = 0 then 5 else r.retryAfter

def transitionOf (op : OperationContext) (phase : Phase) (step : Step) (code : String)
    (message : Option Err) : StepTransition :=
  ⟨op.tenantID, op.id, op.kind, op.leaseToken, op.targetGeneration, op.phase, op.step, phase, step,
    code, message⟩

def auditOf (op : OperationContext) (phase : Phase) (step : Step) (type : EventType) : AuditEvent :=
  ⟨op.tenantID, .step op.id phase step op.attempt,
    ⟨op.serviceID, op.id, op.targetGeneration, type, op.actor, op.requestID⟩⟩

def transition (op : OperationContext) (phase : Phase) (step : Step) (event : String) : M Unit :=
  write (.advance (transitionOf op phase step "" none) (auditOf op phase step (.step event)))

/-- The step stays where it is and `cause` is what the caller is told. -/
def retry {α : Type} (op : OperationContext) (cause : Err) : M α :=
  joinWith cause (write (.retry (transitionOf op .pending op.step "provider_retry" (some cause))
    (retryDelay r) (auditOf op .pending op.step .retry)))

/-- An error of `x` sends the step back for a retry. -/
def orRetry {α : Type} (op : OperationContext) (x : M α) : M α := do
  match ← attempt x with
  | .ok a => return a
  | .error e => retry r op e

def claimed (op : OperationContext) : M OperationContext := do
  if op.phase = .pending then
    orRetry r op (transition op .running op.step "claimed")
    return { op with phase := .running }
  else return op

/-- `Runner.Execute`: exactly one step of the operation behind a claimed item. -/
def execute (item : Item) : M Unit := do
  failIf (item.generation < 1) .staleGeneration
  let op ← currentOperation item
  failIf (op.serviceID ≠ item.serviceID ∨ op.targetGeneration ≠ item.generation) .staleGeneration
  if op.phase.active then
    let op ← claimed r op
    let result ← orRetry r op (runStep r op)
    orRetry r op (transition op result.phase result.step result.event)
  else return ()

/-- `Reconciler.Execute`: the observation of a service whose operation has ended. -/
def observe (item : Item) : M Unit := do
  failIf (item.generation < 1) .staleGeneration
  let desired ← read (.leasedDesired item.tenantID item.serviceID item.leaseToken)
  failIf (desired ≠ some item.generation) .staleGeneration
  let observation ← provider (.ensureRuntime item)
  failIf (observation.generation ≠ item.generation) .staleGeneration
  write (.observation item observation)

/-- `durableExecutor.Execute`. -/
def durableExecute (item : Item) : M Unit := do
  let op ← currentOperation item
  if op.phase.active then execute r item else observe item

/-- What `RunOnce` does with the item it has claimed. -/
def runItem (item : Item) : M Unit := do
  match ← attempt (durableExecute r item) with
  | .ok _ => work (.commit item)
  | .error e =>
    work (.retry item e)
    throw e

/-- `Worker.RunOnce`. -/
def runOnce (tenant : Uuid) : M Unit := do
  match ← work (.claim tenant) with
  | none => return ()
  | some item => runItem r item

/-- The context the close scanner releases a device with. -/
def closeContext (item : CloseItem) (scope : ReleaseScope) (sealedAt : Time) : OperationContext :=
  { tenantID := item.tenantID, serviceID := item.resourceID, id := item.operationID, kind := .delete
    actor := "", requestID := "", leaseToken := item.leaseToken, phase := .pending
    step := .releaseQuota, attempt := 0, targetGeneration := 0, reservation := none
    previousReservation := none
    publication := ⟨item.tenantID, item.resourceID, item.operationID, 0, item.leaseToken, none, "",
      .withdrawn⟩
    gpuRequest := none, gpuSnapshot := none, managed := true, managedGPU := true
    managedGPUCreateOperationID := some item.createOperationID
    managedGPUReleasePods := scope.pods, managedGPUReleaseSealedAt := some sealedAt, replicas := 0
    workerReplicas := 0, runtimeMode := "" }

/-- What `RunManagedCloses` does with the delete it has claimed. -/
def closeItem (item : CloseItem) : M Unit := do
  let original ← loadRefundContext item.tenantID item.resourceID item.createOperationID
  failIf (original.resourceClass = .cpu) (.text "CPU pending close lacks proven nonexecution")
  failIf (!r.managedGPURelease) (.text "managed GPU release is not configured")
  match ← read (.releaseScope item.tenantID item.resourceID item.operationID) with
  | none => throw .noRows
  | some scope =>
    checked "invalid managed GPU release scope" (validateReleasePods scope.pods [])
    match scope.sealedAt with
    | none => throw (.text "managed close seal missing")
    | some sealedAt => reportRelease (closeContext item scope sealedAt)

/-- One tenant of a pass. Errors only go to the log. -/
def closeTenant (tenant : Uuid) : M Unit := do
  match ← work (.claimClose tenant) with
  | none => return ()
  | some item =>
    match ← attempt (closeItem r item) with
    | .ok _ => work (.completeClose item)
    | .error _ => work (.retryClose item)

def closeTenants : List Uuid → M Unit
  | [] => return ()
  | tenant :: rest => do
    let _ ← attempt (closeTenant r tenant)
    closeTenants rest

/-- `RunManagedCloses`, one pass of the close scanner. -/
def runManagedCloses : M Unit := do
  let tenants ← read .closeTenants
  closeTenants r tenants

end Runner

/-- The processes of the service: workers, callers, notifications and time. -/
inductive Client (r : Runner) : Prog Call Call.Answer Unit → Prop
  | worker (tenant : Uuid) : Client r (discard (Runner.runOnce r tenant).run)
  | request (q : Request) : Client r (.call (.request q) fun _ => .ret ())
  | notify (tenant service : Uuid) (dirty : Nat) :
      Client r (.call (.work (.notify tenant service dirty)) fun _ => .ret ())
  | repair (tenant service : Uuid) (dirty : Nat) :
      Client r (.call (.work (.repair tenant service dirty)) fun _ => .ret ())
  | closer : Client r (discard (Runner.runManagedCloses r).run)
  | time : Client r (.call .tick fun _ => .ret ())

def World.start : World := ⟨.empty, 0, 1, []⟩

/-- The pools the service can be in. -/
def Running (opts : WorkOptions) (r : Runner) (s : Pool World Call Call.Answer) : Prop :=
  Reachable (C := Call.Choice) (exec opts) (Client r) (· = World.start) s

end AniInference
