import AniInference.Worker

namespace AniInference
open Lib

/-- What the outside answers while a schedule runs: which service the queue offers, which ids
are drawn, how far time moves, whether a transaction is lost, what the ports find, and what they
answer where they do not simply do what they are asked to. -/
structure Outside where
  candidate : Uuid
  fresh : Fresh
  delay : Nat
  fault : Fault
  withdrawn : Bool
  absent : Bool
  pods : List Gpu.PodRef
  answers : (p : Provider) → Option (Except Err p.Result)

namespace Outside
variable (o : Outside)

def runtime : RuntimeObservation :=
  { ready := true, runtimePhase := "", runtimeMode := "", readyReplicas := 1, readyGroups := 0,
    readyWorkers := 0, lwsUID := "", modelReady := true, modelReadyKnown := true,
    invocationHealth := "healthy", absent := false, reason := "", objects := [],
    releasePods := o.pods }

def absence : RuntimeObservation :=
  { o.runtime with
    ready := false, readyReplicas := 0, modelReady := false, modelReadyKnown := false,
    absent := o.absent }

def observation (item : Item) : Observation :=
  { generation := item.generation, runtimePhase := "ready", runtimeMode := "", readyReplicas := 1,
    readyGroups := 0, readyWorkers := 0, lwsUID := "", modelReady := true, modelReadyKnown := true,
    publicationPhase := "", invocationHealth := "healthy", reason := "", objects := [] }

/-- Ports that do what they are asked to. -/
def port : (p : Provider) → Except Err p.Result
  | .ensureModel _ => .ok ⟨true, true, ""⟩
  | .resolveGPU _ => .ok none
  | .quotaGet _ _ => .error .reservationNotFound
  | .quotaReserve reservation => .ok { reservation with state := .reserved }
  | .confirmWithdrawn _ => .ok o.withdrawn
  | .confirmPublished _ => .ok true
  | .endpoint _ => .ok "http://model.internal"
  | .observeRuntime _ => .ok o.runtime
  | .observeAbsence _ => .ok o.absence
  | .ensureRuntime item => .ok (observation item)
  | .admission _ | .cleanupModel _ | .quotaConfirm _ | .quotaRelease _ | .withdraw _ | .publish _
  | .applyCR _ | .applyRuntime _ | .deleteRuntime _ | .deleteCR _ | .releaseManagedGPU _
  | .reportReleased _ => .ok ()

def choice : (c : Call) → c.Choice
  | .read _ | .write _ => o.fault
  | .request _ => (o.fault, o.fresh)
  | .work _ => (o.fault, o.candidate)
  | .provider p => (o.answers p).getD (o.port p)
  | .clock => ()
  | .tick => o.delay

end Outside

/-- The programs of `Client`, as data. -/
inductive Process
  | worker (tenant : Uuid)
  | request (q : Request)
  | notify (tenant service : Uuid) (dirty : Nat)
  | repair (tenant service : Uuid) (dirty : Nat)
  | closer
  | time

def Process.program (r : Runner) : Process → Prog Call Call.Answer Unit
  | .worker tenant => discard (Runner.runOnce r tenant).run
  | .request q => .call (.request q) fun _ => .ret ()
  | .notify tenant service dirty => .call (.work (.notify tenant service dirty)) fun _ => .ret ()
  | .repair tenant service dirty => .call (.work (.repair tenant service dirty)) fun _ => .ret ()
  | .closer => discard (Runner.runManagedCloses r).run
  | .time => .call .tick fun _ => .ret ()

theorem Process.client (p : Process) : Client r (p.program r) := by
  cases p with
  | worker tenant => exact .worker tenant
  | request q => exact .request q
  | notify tenant service dirty => exact .notify tenant service dirty
  | repair tenant service dirty => exact .repair tenant service dirty
  | closer => exact .closer
  | time => exact .time

/-- One entry of a schedule: a process starts, makes its next calls, or dies. -/
inductive Event
  | start (p : Process)
  | calls (process count : Nat) (outside : Outside)
  | crash (process : Nat)

def Event.actions (r : Runner) : Event → List (Action Call Call.Answer Call.Choice)
  | .start p => [.spawn (p.program r)]
  | .calls i n outside => List.replicate n (.run i outside.choice)
  | .crash i => [.crash i]

/-- Where a schedule leads. -/
def played (opts : WorkOptions) (r : Runner) (events : List Event) : Pool World Call Call.Answer :=
  Pool.run (exec opts) ⟨World.start, []⟩ (events.flatMap (Event.actions r))

/-- Processes that run one after the other, from the process number `first` on. -/
def oneByOne (first : Nat) : List (Process × Nat × Outside) → List Event
  | [] => []
  | (p, n, outside) :: rest => .start p :: .calls first n outside :: oneByOne (first + 1) rest

theorem Event.actions_legal (e : Event) : ∀ a ∈ e.actions r, Action.Legal (Client r) a := by
  intro a ha
  cases e with
  | start p =>
    obtain rfl := List.mem_singleton.mp ha
    exact p.client
  | calls i n outside =>
    obtain ⟨_, rfl⟩ := List.mem_replicate.mp ha
    trivial
  | crash i =>
    obtain rfl := List.mem_singleton.mp ha
    trivial

/-- Every schedule is a run of the service. -/
theorem running_played (opts : WorkOptions) (r : Runner) (events : List Event) :
    Running opts r (played opts r events) := by
  refine ⟨World.start, events.flatMap (Event.actions r), rfl, fun a ha => ?_, rfl⟩
  obtain ⟨e, _, he⟩ := List.mem_flatMap.mp ha
  exact e.actions_legal a he

/-- A runner with every port. -/
def Runner.configured : Runner := ⟨true, true, true, true, true, true, true, true, 5⟩

namespace Sample

/-- The queue offers the service 7, and everything goes well. -/
def outside : Outside := ⟨7, ⟨7, 8, 9⟩, 40, .none, true, true, [], fun _ => none⟩

/-- Turns of a worker of tenant 1, each with its number of calls and followed by some time. -/
def turns (counts : List Nat) (outside : Outside) : List (Process × Nat × Outside) :=
  counts.flatMap fun n => [(.worker 1, n, outside), (.time, 1, outside)]

def content : SpecContent :=
  { modelID := none, modelVersionID := some 1, artifactProvider := "", artifactRef := ""
    artifactSHA256 := "", imageRef := "", servedModelName := "model", engineRuntime := ""
    commandArgv := ""
    resources := ⟨[], [], none⟩, replicas := 1, runtimeMode := "", workerReplicas := 1
    runtimeProvider := "", specJSON := [], endpoint := none, gpuRequest := none }

/-- Tenant 1 creates a service. -/
def create : CreateInput :=
  { tenantID := 1, name := "service", content := content, gpuPlan := none, gpuPlanDigest := ""
    requestID := "request", requestHash := "hash", actor := "actor", managed := none }

/-- What the first worker loads of the operation that creates the service. -/
def context : OperationContext :=
  { tenantID := 1, serviceID := 7, id := 8, kind := .create, actor := "actor"
    requestID := "request", leaseToken := 2, phase := .pending, step := .admission, attempt := 0
    targetGeneration := 1, reservation := none, previousReservation := none
    publication := ⟨1, 7, 8, 1, 2, some 8, "", .withdrawn⟩, gpuRequest := none, gpuSnapshot := none
    managed := false, managedGPU := false, managedGPUCreateOperationID := none
    managedGPUReleasePods := [], managedGPUReleaseSealedAt := none, replicas := 1
    workerReplicas := 1, runtimeMode := "deployment" }

/-- A request for one device, and the plan Governance froze for it. -/
def gpuRequest : Gpu.Request :=
  { clusterID := "11111111-1111-1111-8111-111111111111"
    poolID := "22222222-2222-2222-8222-222222222222"
    profileID := "33333333-3333-3333-8333-333333333333"
    profileVersion := 1, replicas := 1, devicesPerReplica := 1
    containerName := "kserve-container" }

def digest : String := "0123456789abcdef0123456789abcdef0123456789abcdef0123456789abcdef"

def plan : Gpu.Snapshot :=
  { request := some gpuRequest
    execution := some ⟨"", "", "", [], [], [], digest⟩
    display := some ⟨gpuRequest.profileID, 1, "profile", "model", 1⟩
    executionDigest := digest }

def managedContext : RefundContext :=
  { resourceClass := .gpu, createCommandDigest := "create", tenantID := 1, resourceID := 7
    originalCreateOperationID := 8, deleteOperationID := none, ownerService := "ani-inference"
    clusterID := gpuRequest.clusterID, snapshot := some plan }

/-- Governance creates the service with a device. -/
def managedCreate : CreateInput :=
  { create with
    content := { content with gpuRequest := some gpuRequest }
    gpuPlan := some plan, gpuPlanDigest := digest
    managed := some
      { context := managedContext, resourceClass := .gpu, payload := "create"
        business := "business", businessDigest := "business", requestHash := "hash" } }

/-- Governance deletes it as the operation `operation`. -/
def managedDelete (operation : Uuid) : ManagedDeleteInput :=
  { tenantID := 1, serviceID := 7, requestID := "delete", requestHash := "delete", actor := "actor"
    command :=
      { context := { managedContext with deleteOperationID := some operation }
        resourceClass := .gpu, payload := "delete", business := "", businessDigest := ""
        requestHash := "delete" } }

/-- A lifecycle command on the service. -/
def command (kind : Kind) (generation : Generation) : CommandInput :=
  { tenantID := 1, serviceID := 7, kind := kind, expectedGeneration := generation
    requestID := kind.text, requestHash := kind.text, legacyHash := fun _ => "", actor := "actor" }

/-- A service is created, and its worker takes turns. -/
def created (input : CreateInput) (counts : List Nat) (outside : Outside) :
    List (Process × Nat × Outside) :=
  (.request (.create input), 1, outside) :: turns counts outside

/-- The turns of a create, and those of an update or a restart. -/
def createTurns : List Nat := [19, 21, 17, 18, 20, 18, 19, 22]

def replaceTurns : List Nat := [26, 22, 23, 23, 23, 19, 20, 22, 20, 21, 24]

def running : List (Process × Nat × Outside) := created create createTurns outside

/-- A command is accepted as the operation `id`, and its worker takes turns. -/
def commanded (kind : Kind) (generation : Generation) (id : Uuid) (counts : List Nat) :
    List (Process × Nat × Outside) :=
  (.request (.command (command kind generation)), 1, { outside with fresh := ⟨7, id, id + 1⟩ }) ::
    turns counts outside

end Sample

end AniInference
