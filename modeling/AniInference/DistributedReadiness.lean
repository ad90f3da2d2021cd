import AniInference.Executor
import AniInference.Readiness
import AniInference.RuntimeSelection
import Mathlib

namespace AniInference.Executor
open Lib Txn

/-- `metav1.OwnerReference`, as far as readiness reads it. -/
structure OwnerRef where
  kind : String
  uid : String
  controller : Bool
deriving DecidableEq

/-- A Pod, as far as readiness reads it. A label that is not there is empty. -/
structure Pod (C : Type) where
  workerIndex : String
  groupIndex : String
  phase : String
  conditions : List (String × String)
  containers : List C
deriving DecidableEq

structure Deployment where
  labels : Labels
  generation : Int
  observedGeneration : Int
  replicas : Option Int
  updatedReplicas : Int
  availableReplicas : Int
  readyReplicas : Int
deriving DecidableEq

structure LeaderWorkerSet (C : Type) where
  labels : Labels
  owners : List OwnerRef
  generation : Int
  observedGeneration : Int
  replicas : Option Int
  size : Option Int
  workerContainers : List C
  updatedReplicas : Int
  readyReplicas : Int
deriving DecidableEq

/-- One element of `status.conditions` of a KServe object. -/
structure KServeCondition where
  type : String
  status : String
  message : String
  reason : String
deriving DecidableEq

/-- A KServe runtime object. A list of conditions of another type is none. -/
structure KServeObject where
  labels : Labels
  generation : Int
  conditions : Option (List KServeCondition)
  -- none where the field is missing, and none within it where it is not a number
  observedGeneration : Option (Option Int)
deriving DecidableEq

/-- What the executors read, each at most once in an observation. -/
structure Reader (C : Type) where
  deployment : String → String → Except ApiError (Stored Deployment)
  leaderWorkerSet : String → String → Except ApiError (Stored (LeaderWorkerSet C))
  kserve : ObjectKind → String → String → Except ApiError (Stored KServeObject)
  endpoint : String → String → Except ApiError (Stored Labels)
  pods : String → List (String × String) → Except ApiError (List (Stored (Pod C)))
  -- `kservePredictorReady`, `kserveLLMTemplatesMatch` and `kserveContainerMatches`
  predictorReady : Stored KServeObject → Int → Bool × String
  templatesMatch : Stored KServeObject → Stored (LeaderWorkerSet C) → Bool
  containerMatches : C → C → Bool
  -- the answer of an invocation probe: state and reason
  probe : Option (String × String)

variable {C : Type}

/-- A condition that says a Pod is ready. -/
def Pod.ready (p : Pod C) : Bool := p.conditions.any fun c => c.1 = "Ready" && c.2 = "True"

/-- The worker a Pod is, by its labels. -/
def Pod.slot (p : Pod C) : Option (Int × Int) := do
  let worker ← parseInt 32 p.workerIndex
  let group ← parseInt 32 p.groupIndex
  return (group, worker)

/-- A worker of one of the groups. -/
def inRange (groups workers : Int) (slot : Int × Int) : Bool :=
  1 ≤ slot.2 && slot.2 ≤ workers && 0 ≤ slot.1 && slot.1 < groups

/-- The slots that are filled, each once. -/
def markSlots (counts : Stored (Pod C) → Bool) (groups workers : Int) :
    List (Stored (Pod C)) → List (Int × Int)
  | [] => []
  | p :: rest =>
    match p.value.slot with
    | none => markSlots counts groups workers rest
    | some slot =>
      if counts p && inRange groups workers slot && p.value.ready then
        (markSlots counts groups workers rest).insert slot
      else markSlots counts groups workers rest

def tenantIDLabel : String := "ani.kubercloud.com/tenant-id"
def serviceIDLabel : String := "ani.kubercloud.com/service-id"
def generationLabel : String := "ani.kubercloud.com/generation"
def setNameLabelKey : String := "leaderworkerset.sigs.k8s.io/name"

def running (p : Stored (Pod C)) : Bool := !p.deleting && p.value.phase = "Running"

/-- What the Pods of the runtime of a generation are listed by. -/
def workerLabels (spec : DesiredRuntime) : List (String × String) :=
  [(tenantIDLabel, text spec.tenantID), (serviceIDLabel, text spec.serviceID),
    (generationLabel, text spec.generation), (setNameLabelKey, spec.name)]

def readyLWSWorkers (r : Reader C) (spec : DesiredRuntime) : Except Err Int :=
  match r.pods spec.namespaceName (workerLabels spec) with
  | .error e => .error (.api e)
  | .ok pods => .ok (wrap32 (markSlots running spec.replicas spec.workerReplicas pods).length)

/-- A running Pod with the container of the worker template. -/
def runsTemplate (r : Reader C) (expected : C) (p : Stored (Pod C)) : Bool :=
  running p && match p.value.containers with
    | [actual] => r.containerMatches expected actual
    | _ => false

def readyKServeLWSWorkers (r : Reader C) (ns name : String) (lws : LeaderWorkerSet C)
    (groups workers : Int) : Except Err Int :=
  match r.pods ns [(setNameLabelKey, name)] with
  | .error e => .error (.api e)
  | .ok pods =>
    match lws.workerContainers with
    | [expected] => .ok (wrap32 (markSlots (runsTemplate r expected) groups workers pods).length)
    | _ => .error (.message "KServe LeaderWorkerSet worker template is invalid")

/-- The observation before anything is read. -/
def unobserved (spec : DesiredRuntime) : Observation :=
  { generation := spec.generation, runtimePhase := "", runtimeMode := runtimeModeForSpec spec
    readyReplicas := 0, readyGroups := 0, readyWorkers := 0, lwsUID := ""
    modelReady := false, modelReadyKnown := false
    publicationPhase := "unknown", invocationHealth := "unhealthy", reason := "", objects := [] }

def degraded (o : Observation) (reason : String) : Observation :=
  { o with runtimePhase := "degraded", reason := reason }

/-- The phase of an object whose status is current, has been rolled out and is ready. -/
def phased (o : Observation) (current updated ready : Bool) : Observation :=
  if current && updated && ready then { o with runtimePhase := "ready" }
  else if current && updated then degraded o "runtime readiness regressed"
  else { o with runtimePhase := "pending" }

def observeLeaderWorkerSet (r : Reader C) (spec : DesiredRuntime) (o : Observation)
    (lws : Stored (LeaderWorkerSet C)) : Except Err Observation := do
  let readyWorkers ← readyLWSWorkers r spec
  let desired := lws.value.replicas.getD 0
  let desiredWorkers := match lws.value.size with
    | some size => if size > 1 then wrap32 (desired * wrap32 (size - 1)) else 0
    | none => 0
  let o := { o with
    readyGroups := lws.value.readyReplicas, readyReplicas := lws.value.readyReplicas
    lwsUID := text lws.uid, readyWorkers := readyWorkers }
  return phased o
    (lws.value.generation > 0 && lws.value.observedGeneration ≥ lws.value.generation)
    (lws.value.updatedReplicas ≥ desired)
    (desired > 0 && lws.value.readyReplicas ≥ desired && readyWorkers ≥ desiredWorkers)

def observeDeployment (o : Observation) (deployment : Stored Deployment) :
    Except Err Observation :=
  let d := deployment.value
  let desired := d.replicas.getD 0
  let current : Bool := d.generation > 0 && d.observedGeneration ≥ d.generation
  let updated : Bool := d.updatedReplicas ≥ desired
  let o := { o with readyReplicas := d.readyReplicas }
  .ok (if current && updated && d.availableReplicas ≥ desired &&
        (desired > 0 && d.readyReplicas ≥ desired) then { o with runtimePhase := "ready" }
    else if current && updated then degraded o "runtime readiness regressed"
    else { o with runtimePhase := "pending" })

/-- What is observed of the object under the runtime's name, up to its status. -/
def observeObject {V : Type} (spec : DesiredRuntime) (expected : Option RuntimeBinding)
    (kind : ObjectKind) (labels : V → Labels) (got : Except ApiError (Stored V))
    (status : Observation → Stored V → Except Err Observation) : Except Err Observation := do
  let o := unobserved spec
  match got with
  | .error .notFound =>
    return { degraded o "runtime object is missing" with
      objects := (expected.map missingObject).toList }
  | .error e => throw (.api e)
  | .ok obj =>
    let fact ← validateObservedObject kind spec.namespaceName spec.name obj (labels obj.value)
      spec.tenantID spec.serviceID spec.generation expected
    let o := { o with objects := [fact] }
    if fact.missing then return degraded o "runtime object is missing"
    else if obj.deleting then return degraded o "runtime object is being deleted"
    else status o obj

def observe (r : Reader C) (spec : DesiredRuntime) (expected : Option RuntimeBinding) :
    Except Err Observation := do
  let kind := kindForRuntimeMode (runtimeModeForSpec spec)
  if expected.any (·.kind ≠ kind) then throw .staleGeneration
  else if kind = .leaderWorkerSet then
    observeObject spec expected kind (·.labels) (r.leaderWorkerSet spec.namespaceName spec.name)
      (observeLeaderWorkerSet r spec)
  else
    observeObject spec expected kind (·.labels) (r.deployment spec.namespaceName spec.name)
      observeDeployment

def observeInvocation (r : Reader C) (spec : DesiredRuntime) (o : Observation) : Observation :=
  if o.runtimePhase ≠ "ready" ∨ !spec.publicationPublished ∨ !spec.modelReadyKnown ∨
      !spec.modelReady then
    { o with
      invocationHealth := "unhealthy"
      reason := if o.reason = "" then "runtime_not_ready" else o.reason }
  else match r.probe with
    | none => { o with
        invocationHealth := "unknown"
        reason := if o.reason = "" then "invocation_probe_unavailable" else o.reason }
    | some (state, reason) => { o with
        invocationHealth := state
        reason := if reason ≠ "" then reason else o.reason }

/-- The part of `observeHealth` that looks at the endpoint Service. -/
def observeEndpoint (r : Reader C) (spec : DesiredRuntime) (o : Observation) :
    Except Err Observation :=
  if spec.endpoint.isNone then .ok o
  else match endpointBindingForSpec spec with
    | none => .ok (degraded o "endpoint binding is missing")
    | some b =>
      match r.endpoint b.namespaceName b.name with
      | .error .notFound =>
        .ok { degraded o "endpoint service is missing" with
          objects := o.objects ++ [missingObject b] }
      | .error e => .error (.api e)
      | .ok service => do
        let fact ← validateObservedObject b.kind b.namespaceName b.name service service.value
          spec.tenantID spec.serviceID b.generation (some b)
        let o := { o with objects := o.objects ++ [fact] }
        return if service.deleting then degraded o "endpoint service is being deleted"
          else o

/-- An object that is not ready yet is loading once its model is there. -/
def startLoading (spec : DesiredRuntime) (o : Observation) : Observation :=
  if o.runtimePhase = "pending" ∧ spec.modelReadyKnown ∧ spec.modelReady then
    { o with
      runtimePhase := "loading"
      reason := if o.reason = "" then "runtime_loading" else o.reason }
  else o

def observeHealth (r : Reader C) (spec : DesiredRuntime) (expected : Option RuntimeBinding) :
    Except Err Observation := do
  let o ← observe r spec expected
  let o ← observeEndpoint r spec o
  let o := { o with modelReady := spec.modelReady, modelReadyKnown := spec.modelReadyKnown }
  return observeInvocation r spec (startLoading spec o)

def kServeLLMWorkloadName (name : String) : String := name ++ "-kserve-mn"

def runtimeLoadingPhase (modelReadyKnown modelReady : Bool) : String :=
  if modelReadyKnown && modelReady then "loading" else "pending"

def validateKServeObject (kind : ObjectKind) (spec : DesiredRuntime) (o : Stored KServeObject)
    (expected : Option RuntimeBinding) : Except Err RuntimeObject := do
  unless ownedBy o.value.labels spec.tenantID spec.serviceID do
    throw (.message "observed KServe ownership labels do not match")
  match parseInt 64 o.value.labels.generation with
  | none => throw .staleGeneration
  | some labelled =>
    if labelled < 1 ∨ labelled ≠ (spec.generation : Int) then throw .staleGeneration
  if expected.any fun b => b.namespaceName ≠ spec.namespaceName ∨ b.name ≠ spec.name ∨
      b.uid ≠ text o.uid then throw .staleGeneration
  return {
    bindingGeneration := spec.generation, kind := kind, namespaceName := spec.namespaceName
    name := spec.name, uid := text o.uid, resourceVersion := text o.version, role := .runtime
    expectedUID := expectedUID expected, expectedResourceVersion := expectedResourceVersion expected
    missing := false }

/-- `kserveReady`: the first condition of type `Ready` decides. -/
def kserveReady (o : KServeObject) : Bool × String :=
  match o.conditions with
  | none => (false, "KServe readiness condition is not available")
  | some conditions =>
    match conditions.find? (·.type = "Ready") with
    | none => (false, "KServe Ready condition is not available")
    | some c =>
      if c.status = "True" then (true, "")
      else if !Text.blank c.message then (false, c.message)
      else if !Text.blank c.reason then (false, c.reason)
      else (false, "KServe Ready condition is not true")

/-- What `kserveLLMReady` answers. -/
structure LLMReadiness where
  ready : Bool
  reason : String
  readyGroups : Int
  readyWorkers : Int
  lwsUID : String
deriving DecidableEq

def LLMReadiness.no (reason : String) (lwsUID : String) : LLMReadiness :=
  ⟨false, reason, 0, 0, lwsUID⟩

def kserveOwned (owners : List OwnerRef) (uid : Nat) : Bool :=
  owners.any fun owner => owner.controller && owner.uid = text uid &&
    owner.kind = "LLMInferenceService"

def kserveLLMReady (r : Reader C) (spec : DesiredRuntime) (obj : Stored KServeObject) :
    LLMReadiness :=
  if obj.value.observedGeneration.any fun n => n.all (· < obj.value.generation) then
    .no "KServe LLMInferenceService status is stale" ""
  else match r.leaderWorkerSet spec.namespaceName (kServeLLMWorkloadName spec.name) with
  | .error .notFound => .no "KServe LeaderWorkerSet is not available" ""
  | .error e => .no (reprStr e) ""
  | .ok lws =>
    let desiredSize :=
      if wrap32 (spec.workerReplicas + 1) < 2 then 2 else wrap32 (spec.workerReplicas + 1)
    if !kserveOwned lws.value.owners obj.uid then
      .no "KServe LeaderWorkerSet is not owned by this LLMInferenceService" (text lws.uid)
    else if lws.value.generation < 1 ∨ lws.value.observedGeneration < lws.value.generation then
      .no "KServe LeaderWorkerSet status is stale" (text lws.uid)
    else if lws.value.replicas ≠ some spec.replicas then
      .no "KServe LeaderWorkerSet replica spec is stale" (text lws.uid)
    else if lws.value.size ≠ some desiredSize then
      .no "KServe LeaderWorkerSet parallelism is stale" (text lws.uid)
    else if !r.templatesMatch obj lws then
      .no "KServe LeaderWorkerSet template has not applied the current container spec"
        (text lws.uid)
    else if lws.value.updatedReplicas < spec.replicas then
      .no "KServe LeaderWorkerSet is not ready" (text lws.uid)
    else match readyKServeLWSWorkers r spec.namespaceName
      (kServeLLMWorkloadName spec.name) lws.value
        spec.replicas (wrap32 (desiredSize - 1)) with
    | .error e => .no (reprStr e) (text lws.uid)
    | .ok readyWorkers =>
      if lws.value.readyReplicas < spec.replicas then
        ⟨false, "KServe LeaderWorkerSet is not ready", lws.value.readyReplicas, readyWorkers,
          text lws.uid⟩
      else if readyWorkers < wrap32 (spec.replicas * wrap32 (desiredSize - 1)) then
        ⟨false, "KServe LeaderWorkerSet workers are not ready", lws.value.readyReplicas,
          readyWorkers, text lws.uid⟩
      else ⟨true, "", lws.value.readyReplicas, readyWorkers, text lws.uid⟩

/-- The status part of `observeKServe`. -/
def observeKServeStatus (r : Reader C) (spec : DesiredRuntime) (o : Observation)
    (obj : Stored KServeObject) : Observation :=
  let loading (o : Observation) (reason : String) : Observation :=
    { o with
      runtimePhase := runtimeLoadingPhase spec.modelReadyKnown spec.modelReady, reason := reason }
  match kserveReady obj.value with
  | (false, reason) => loading o reason
  | (true, _) =>
    if kserveKindForMode spec.runtimeMode = .kserveInferenceService then
      match r.predictorReady obj spec.replicas with
      | (true, _) => { o with runtimePhase := "ready", readyReplicas := spec.replicas }
      | (false, reason) => loading o reason
    else
      let answer := kserveLLMReady r spec obj
      let o := { o with
        readyGroups := answer.readyGroups, readyWorkers := answer.readyWorkers
        lwsUID := answer.lwsUID, readyReplicas := answer.readyGroups }
      if answer.ready then { o with runtimePhase := "ready" } else loading o answer.reason

def observeKServe (r : Reader C) (spec : DesiredRuntime) (expected : Option RuntimeBinding) :
    Except Err Observation := do
  let kind := kserveKindForMode spec.runtimeMode
  let o := unobserved spec
  match r.kserve kind spec.namespaceName spec.name with
  | .error .notFound => return degraded o "KServe runtime object is missing"
  | .error e => throw (.api e)
  | .ok obj =>
    let fact ← validateKServeObject kind spec obj expected
    let o := { o with objects := [fact] }
    if obj.deleting then return degraded o "KServe runtime object is being deleted"
    else return observeKServeStatus r spec o obj

/-- What `observeCurrent` makes of it. -/
def observeKServeHealth (r : Reader C) (spec : DesiredRuntime) (expected : Option RuntimeBinding) :
    Except Err Observation := do
  let o ← observeKServe r spec expected
  return observeInvocation r spec
    { o with modelReady := spec.modelReady, modelReadyKnown := spec.modelReadyKnown }

/-- The runtime an operation is executed for, with the results that are recorded for it. -/
def operationRuntime (namespaceName : String) (op : OperationContext) : Tx DesiredRuntime := do
  reject (op.targetGeneration < 1) .staleGeneration
  let spec ←
    RuntimeSource.currentRuntime namespaceName op.tenantID op.serviceID op.targetGeneration
  return { spec with
    quotaReserved := spec.quotaReserved || op.reservation.any (·.state = .confirmed)
    publicationWithdrawn := spec.publicationWithdrawn || op.publication.state = .withdrawn
    publicationPublished := spec.publicationPublished ||
      (op.publication.state = .published && op.publication.generation = op.targetGeneration) }

/-- What is answered of an observation and of `managedGPUReleasePods`. -/
def reported (o : Observation) (releasePods : List Gpu.PodRef) : RuntimeObservation :=
  { ready := o.runtimePhase = "ready", runtimePhase := o.runtimePhase, runtimeMode := o.runtimeMode
    readyReplicas := o.readyReplicas, readyGroups := o.readyGroups, readyWorkers := o.readyWorkers
    lwsUID := o.lwsUID, modelReady := o.modelReady, modelReadyKnown := o.modelReadyKnown
    invocationHealth := o.invocationHealth, absent := false, reason := o.reason
    objects := o.objects, releasePods := releasePods }

/-- `RuntimeExecutor.ObserveRuntime`, for the runtime it has read. -/
def observeRuntime (r : Reader C) (releasePods : Except Err (List Gpu.PodRef))
    (spec : DesiredRuntime) : Except Err RuntimeObservation := do
  let o ← observeHealth r spec spec.runtimeBindingForMode
  return reported o (← releasePods)

/-- `KServeRuntimeExecutor.ObserveRuntime`, for the runtime it has read. -/
def observeKServeRuntime (r : Reader C) (releasePods : Except Err (List Gpu.PodRef))
    (spec : DesiredRuntime) : Except Err RuntimeObservation := do
  let o ← observeKServe r spec spec.kserveBindingForSpec
  let o := observeInvocation r spec o
  return { reported o (← releasePods) with
    runtimeMode := runtimeModeForSpec spec
    modelReady := spec.modelReady, modelReadyKnown := spec.modelReadyKnown }

/-- The workers of the groups of a specification. -/
noncomputable def slots (groups workers : Int) : Finset (Int × Int) :=
  Finset.Ico 0 groups ×ˢ Finset.Icc 1 workers

/-- A Pod does the work of a slot. -/
structure Fills (slot : Int × Int) (p : Stored (Pod C)) : Prop where
  labelled : p.value.slot = some slot
  running : p.value.phase = "Running"
  ready : ("Ready", "True") ∈ p.value.conditions
  kept : p.deleting = false

/-- Every worker of every group has a Pod of its own in the list. -/
def Covered (groups workers : Int) (pods : List (Stored (Pod C))) : Prop :=
  ∃ pick : Int × Int → Nat,
    (∀ slot ∈ slots groups workers, ∃ p, pods[pick slot]? = some p ∧ Fills slot p) ∧
      Set.InjOn pick (slots groups workers)

section Counting

variable {groups workers : Int} {counts : Stored (Pod C) → Bool} {pods : List (Stored (Pod C))}
  {slot : Int × Int}

theorem mem_slots : slot ∈ slots groups workers ↔ inRange groups workers slot = true := by
  simp only [slots, Finset.mem_product, Finset.mem_Ico, Finset.mem_Icc, inRange, Bool.and_eq_true,
    decide_eq_true_eq]
  tauto

theorem card_slots (hgroups : 0 ≤ groups) (hworkers : 0 ≤ workers) :
    ((slots groups workers).card : Int) = groups * workers := by
  rw [slots, Finset.card_product, Int.card_Ico, Int.card_Icc, Nat.cast_mul]
  congr 1 <;> omega

theorem mem_markSlots : slot ∈ markSlots counts groups workers pods ↔
    inRange groups workers slot = true ∧
      ∃ p ∈ pods, p.value.slot = some slot ∧ counts p = true ∧ p.value.ready = true := by
  induction pods with
  | nil => simp [markSlots]
  | cons p rest ih =>
    have hskip : (∀ s, p.value.slot = some s →
        ¬(counts p = true ∧ inRange groups workers s = true ∧ p.value.ready = true)) →
        ((inRange groups workers slot = true ∧ ∃ q ∈ p :: rest, q.value.slot = some slot ∧
          counts q = true ∧ q.value.ready = true) ↔
        (inRange groups workers slot = true ∧ ∃ q ∈ rest, q.value.slot = some slot ∧
          counts q = true ∧ q.value.ready = true)) := by
      intro hp
      rw [List.exists_mem_cons_iff]
      constructor
      · rintro ⟨hrange, ⟨hslot, hcounts, hready⟩ | hrest⟩
        · exact absurd ⟨hcounts, hrange, hready⟩ (hp slot hslot)
        · exact ⟨hrange, hrest⟩
      · rintro ⟨hrange, hrest⟩
        exact ⟨hrange, .inr hrest⟩
    unfold markSlots
    split
    case h_1 hnone =>
      rw [hskip (by simp [hnone])]
      exact ih
    case h_2 s hs =>
      split
      case isTrue hcond =>
        simp only [Bool.and_eq_true] at hcond
        rw [List.mem_insert_iff, ih, List.exists_mem_cons_iff]
        constructor
        · rintro (rfl | ⟨hrange, hrest⟩)
          · exact ⟨hcond.1.2, .inl ⟨hs, hcond.1.1, hcond.2⟩⟩
          · exact ⟨hrange, .inr hrest⟩
        · rintro ⟨hrange, ⟨hslot, _⟩ | hrest⟩
          · exact .inl (Option.some.inj (hslot.symm.trans hs))
          · exact .inr ⟨hrange, hrest⟩
      case isFalse hcond =>
        rw [hskip ?_]
        · exact ih
        · intro s' hs' ⟨hcounts, hrange, hready⟩
          obtain rfl := Option.some.inj (hs.symm.trans hs')
          exact hcond (by simp [hcounts, hrange, hready])

theorem nodup_markSlots : (markSlots counts groups workers pods).Nodup := by
  induction pods with
  | nil => exact List.nodup_nil
  | cons p rest ih =>
    unfold markSlots
    split
    · exact ih
    · split
      · exact ih.insert
      · exact ih

theorem markSlots_subset :
    (markSlots counts groups workers pods).toFinset ⊆ slots groups workers := by
  intro slot hslot
  exact mem_slots.mpr (mem_markSlots.mp (List.mem_toFinset.mp hslot)).1

theorem length_markSlots_le (hgroups : 0 ≤ groups) (hworkers : 0 ≤ workers) :
    ((markSlots counts groups workers pods).length : Int) ≤ groups * workers := by
  rw [← card_slots hgroups hworkers, ← List.toFinset_card_of_nodup nodup_markSlots]
  exact_mod_cast Finset.card_le_card markSlots_subset

theorem Pod.ready_iff {p : Pod C} : p.ready = true ↔ ("Ready", "True") ∈ p.conditions := by
  simp only [Pod.ready, List.any_eq_true, Bool.and_eq_true, decide_eq_true_eq]
  constructor
  · rintro ⟨⟨type, status⟩, hmem, rfl, rfl⟩
    exact hmem
  · intro hmem
    exact ⟨_, hmem, rfl, rfl⟩

theorem fills_of_marked {p : Stored (Pod C)} (hslot : p.value.slot = some slot)
    (hrunning : running p = true) (hready : p.value.ready = true) : Fills slot p := by
  simp only [running, Bool.and_eq_true, Bool.not_eq_true', decide_eq_true_eq] at hrunning
  exact ⟨hslot, hrunning.2, Pod.ready_iff.mp hready, hrunning.1⟩

/-- As many filled slots as there are workers fill every slot, and a Pod fills only one. -/
theorem covered_of_count (hcounts : ∀ p, counts p = true → running p = true)
    (hgroups : 1 ≤ groups) (hworkers : 1 ≤ workers) (hfits : groups * workers < 2 ^ 31)
    (hcount : groups * workers ≤ wrap32 (markSlots counts groups workers pods).length) :
    Covered groups workers pods := by
  have hle : ((markSlots counts groups workers pods).length : Int) ≤ groups * workers :=
    length_markSlots_le (by omega) (by omega)
  rw [wrap32_of_fits (by omega) (by omega)] at hcount
  have hall : (markSlots counts groups workers pods).toFinset = slots groups workers := by
    refine Finset.eq_of_subset_of_card_le markSlots_subset ?_
    rw [List.toFinset_card_of_nodup nodup_markSlots]
    have hcard : ((slots groups workers).card : Int) = groups * workers :=
      card_slots (by omega) (by omega)
    omega
  have hfilled : ∀ slot ∈ slots groups workers,
      ∃ i : Nat, ∃ p, pods[i]? = some p ∧ Fills slot p := by
    intro slot hslot
    rw [← hall, List.mem_toFinset, mem_markSlots] at hslot
    obtain ⟨_, p, hp, hlabels, hcounted, hready⟩ := hslot
    obtain ⟨i, hi⟩ := List.getElem?_of_mem hp
    exact ⟨i, p, hi, fills_of_marked hlabels (hcounts p hcounted) hready⟩
  choose! pick hpick using hfilled
  refine ⟨pick, hpick, fun slot hslot slot' hslot' heq => ?_⟩
  obtain ⟨p, hp, hfills⟩ := hpick slot hslot
  obtain ⟨p', hp', hfills'⟩ := hpick slot' hslot'
  rw [heq, hp'] at hp
  obtain rfl := Option.some.inj hp
  exact Option.some.inj (hfills.labelled.symm.trans hfills'.labelled)

end Counting

section Answers

variable {r : Reader C} {spec : DesiredRuntime} {o : Observation} {namespaceName : String}

@[simp] theorem observeInvocation_modelFacts :
    (observeInvocation r spec o).modelReadyKnown = o.modelReadyKnown ∧
      (observeInvocation r spec o).modelReady = o.modelReady := by
  unfold observeInvocation
  split
  · exact ⟨rfl, rfl⟩
  · split <;> exact ⟨rfl, rfl⟩

@[simp] theorem startLoading_modelFacts :
    (startLoading spec o).modelReadyKnown = o.modelReadyKnown ∧
      (startLoading spec o).modelReady = o.modelReady := by
  unfold startLoading
  split <;> exact ⟨rfl, rfl⟩

/-- Both executors answer with the model facts of the runtime they have read. -/
theorem observeRuntime_eq {releasePods : Except Err (List Gpu.PodRef)} {fact : RuntimeObservation}
    (h : observeRuntime r releasePods spec = .ok fact ∨
      observeKServeRuntime r releasePods spec = .ok fact) :
    fact = AniInference.observeRuntime (spec.modelReadyKnown, spec.modelReady) fact := by
  rcases h with h | h
  · obtain ⟨_, hhealth, h⟩ := except_bind_eq_ok.mp h
    obtain ⟨_, _, hhealth⟩ := except_bind_eq_ok.mp hhealth
    obtain ⟨_, _, hhealth⟩ := except_bind_eq_ok.mp hhealth
    obtain ⟨_, _, h⟩ := except_bind_eq_ok.mp h
    cases hhealth
    cases h
    simp [AniInference.observeRuntime, reported]
  · obtain ⟨_, _, h⟩ := except_bind_eq_ok.mp h
    obtain ⟨_, _, h⟩ := except_bind_eq_ok.mp h
    cases h
    simp [AniInference.observeRuntime, reported]

theorem runs_operationRuntime {op : OperationContext} {db db' : Db}
    (h : Runs (operationRuntime namespaceName op) db spec db') :
    (spec.modelReadyKnown, spec.modelReady) = db.modelFacts op.tenantID op.serviceID := by
  unfold operationRuntime at h
  simp only [runs_bind, runs_reject, runs_pure] at h
  obtain ⟨_, _, ⟨_, rfl⟩, _, _, hread, rfl, _⟩ := h
  exact (RuntimeSource.runs_currentRuntime hread).2.2

/-- An answer of an executor that has read the runtime in the database of the call is one that
`Entry.observes` asks for. -/
theorem observes_of_executor {e : Entry}
    (h : ∀ op fact, e.seen = ⟨.provider (.observeRuntime op), .ok fact⟩ →
      ∃ (r : Reader C) (releasePods : _) (spec : _),
        Runs (operationRuntime namespaceName op) e.before spec e.before ∧
          (observeRuntime r releasePods spec = .ok fact ∨
            observeKServeRuntime r releasePods spec = .ok fact)) : e.observes = true := by
  unfold Entry.observes
  split
  · next op fact hseen =>
    obtain ⟨r, releasePods, spec, hread, hanswer⟩ := h op fact hseen
    rw [decide_eq_true_eq, ← runs_operationRuntime hread]
    exact observeRuntime_eq hanswer
  · rfl

end Answers

section Ready

variable {r : Reader C} {spec : DesiredRuntime} {expected : Option RuntimeBinding}
  {o o' : Observation}

@[simp] theorem observeInvocation_runtimePhase :
    (observeInvocation r spec o).runtimePhase = o.runtimePhase := by
  unfold observeInvocation
  split
  · rfl
  · split <;> rfl

theorem startLoading_ready (h : (startLoading spec o).runtimePhase = "ready") :
    o.runtimePhase = "ready" := by
  unfold startLoading at h
  split at h
  · simp at h
  · exact h

theorem observeEndpoint_ready (h : observeEndpoint r spec o = .ok o')
    (hready : o'.runtimePhase = "ready") : o.runtimePhase = "ready" := by
  unfold observeEndpoint at h
  split at h
  · cases h
    exact hready
  · split at h
    · cases h
      simp [degraded] at hready
    · split at h
      · cases h
        simp [degraded] at hready
      · cases h
      · obtain ⟨fact, _, h⟩ := except_bind_eq_ok.mp h
        cases h
        split at hready
        · simp [degraded] at hready
        · exact hready

theorem observeHealth_ready (h : observeHealth r spec expected = .ok o)
    (hready : o.runtimePhase = "ready") :
    ∃ o', observe r spec expected = .ok o' ∧ o'.runtimePhase = "ready" := by
  obtain ⟨o₁, h₁, h⟩ := except_bind_eq_ok.mp h
  obtain ⟨o₂, h₂, h⟩ := except_bind_eq_ok.mp h
  cases h
  rw [observeInvocation_runtimePhase] at hready
  have hready₂ := startLoading_ready hready
  exact ⟨o₁, h₁, observeEndpoint_ready h₂ hready₂⟩

theorem observeObject_ready {V : Type} {kind : ObjectKind} {labels : V → Labels}
    {got : Except ApiError (Stored V)} {status : Observation → Stored V → Except Err Observation}
    (h : observeObject spec expected kind labels got status = .ok o)
    (hready : o.runtimePhase = "ready") :
    ∃ o' obj, got = .ok obj ∧ status o' obj = .ok o := by
  unfold observeObject at h
  split at h
  · cases h
    simp [degraded] at hready
  · cases h
  · next obj =>
    obtain ⟨fact, _, h⟩ := except_bind_eq_ok.mp h
    split at h
    · cases h
      simp [degraded] at hready
    · split at h
      · cases h
        simp [degraded] at hready
      · exact ⟨_, obj, rfl, h⟩

theorem phased_ready (h : (phased o current updated ready).runtimePhase = "ready") :
    ready = true := by
  unfold phased at h
  split at h
  · next hall =>
    simp only [Bool.and_eq_true] at hall
    exact hall.2
  · split at h <;> simp [degraded] at h

theorem readyLWSWorkers_ok (h : readyLWSWorkers r spec = .ok n) :
    ∃ pods, r.pods spec.namespaceName (workerLabels spec) = .ok pods ∧
      n = wrap32 (markSlots running spec.replicas spec.workerReplicas pods).length := by
  unfold readyLWSWorkers at h
  split at h
  · cases h
  · next pods hpods => exact ⟨pods, hpods, (Except.ok.inj h).symm⟩

theorem readyKServeLWSWorkers_ok (h : readyKServeLWSWorkers r ns name lws groups workers = .ok n) :
    ∃ pods expected, r.pods ns [(setNameLabelKey, name)] = .ok pods ∧
      n = wrap32 (markSlots (runsTemplate r expected) groups workers pods).length := by
  unfold readyKServeLWSWorkers at h
  split at h
  · cases h
  · next pods hpods =>
    split at h
    · exact ⟨pods, _, hpods, (Except.ok.inj h).symm⟩
    · cases h

/-- A LeaderWorkerSet with the size its specification renders. -/
structure Rendered (spec : DesiredRuntime) (lws : LeaderWorkerSet C) : Prop where
  replicas : lws.replicas = some spec.replicas
  size : lws.size = some (spec.workerReplicas + 1)

/-- A specification whose workers can be counted. -/
structure Countable (spec : DesiredRuntime) : Prop where
  groups : 1 ≤ spec.replicas
  workers : 1 ≤ spec.workerReplicas
  slots : spec.replicas * spec.workerReplicas < 2 ^ 31
  size : spec.workerReplicas + 1 < 2 ^ 31

theorem Countable.wrap_workers (h : Countable spec) :
    wrap32 (spec.workerReplicas + 1 - 1) = spec.workerReplicas := by
  obtain ⟨_, hworkers, _, hsize⟩ := h
  rw [Int.add_sub_cancel]
  exact wrap32_of_fits (by omega) (by omega)

theorem Countable.wrap_slots (h : Countable spec) :
    wrap32 (spec.replicas * spec.workerReplicas) = spec.replicas * spec.workerReplicas := by
  have hgroups := h.groups
  have hworkers := h.workers
  have hpos : 0 ≤ spec.replicas * spec.workerReplicas := Int.mul_nonneg (by omega) (by omega)
  exact wrap32_of_fits (by omega) h.slots

/-- The native executor. -/
theorem observe_covers (hmode : spec.runtimeMode = "leader_worker_set") (hspec : Countable spec)
    (hlws : ∀ lws, r.leaderWorkerSet spec.namespaceName spec.name = .ok lws →
      Rendered spec lws.value)
    (h : observe r spec expected = .ok o) (hready : o.runtimePhase = "ready") :
    ∃ pods, r.pods spec.namespaceName (workerLabels spec) = .ok pods ∧
      Covered spec.replicas spec.workerReplicas pods := by
  have hkind : kindForRuntimeMode (runtimeModeForSpec spec) = .leaderWorkerSet := by
    simp [runtimeModeForSpec, hmode, kindForRuntimeMode]
  simp only [observe, hkind, if_true] at h
  split at h
  · cases h
  obtain ⟨o', lws, hgot, h⟩ := observeObject_ready h hready
  obtain ⟨hreplicas, hsize⟩ := hlws lws hgot
  obtain ⟨n, hn, h⟩ := except_bind_eq_ok.mp h
  obtain ⟨pods, hpods, rfl⟩ := readyLWSWorkers_ok hn
  cases h
  have hcount := phased_ready hready
  have hworkers := hspec.workers
  rw [hreplicas, hsize] at hcount
  simp only [Option.getD_some, Bool.and_eq_true, decide_eq_true_eq, hspec.wrap_workers,
    hspec.wrap_slots, ge_iff_le, if_pos (show spec.workerReplicas + 1 > 1 by omega)] at hcount
  exact ⟨pods, hpods,
    covered_of_count (fun _ => id) hspec.groups hspec.workers hspec.slots hcount.2⟩

theorem running_of_runsTemplate (h : runsTemplate r c p = true) : running p = true := by
  unfold runsTemplate at h
  rw [Bool.and_eq_true] at h
  exact h.1

/-- The KServe path checks the size of the LeaderWorkerSet itself. -/
theorem kserveLLMReady_covers (hspec : Countable spec)
    (hready : (kserveLLMReady r spec obj).ready = true) :
    ∃ pods,
      r.pods spec.namespaceName [(setNameLabelKey, kServeLLMWorkloadName spec.name)] = .ok pods ∧
      Covered spec.replicas spec.workerReplicas pods := by
  have hsize : wrap32 (spec.workerReplicas + 1) = spec.workerReplicas + 1 := by
    have := hspec.workers
    exact wrap32_of_fits (by omega) hspec.size
  have hbig : ¬spec.workerReplicas + 1 < 2 := by
    have := hspec.workers
    omega
  unfold kserveLLMReady at hready
  simp only [hsize, if_neg hbig, hspec.wrap_workers, hspec.wrap_slots] at hready
  split at hready
  · cases hready
  split at hready
  · cases hready
  · cases hready
  next lws _ =>
    iterate 6
      split at hready
      · cases hready
    split at hready
    · cases hready
    next n hn =>
      split at hready
      · cases hready
      split at hready
      · cases hready
      next hcount =>
        obtain ⟨pods, c, hpods, rfl⟩ := readyKServeLWSWorkers_ok hn
        exact ⟨pods, hpods, covered_of_count (fun _ => running_of_runsTemplate) hspec.groups
          hspec.workers hspec.slots (Int.not_lt.mp hcount)⟩

theorem observeKServeHealth_covers (hmode : spec.runtimeMode = "leader_worker_set")
    (hspec : Countable spec) (h : observeKServeHealth r spec expected = .ok o)
    (hready : o.runtimePhase = "ready") :
    ∃ pods,
      r.pods spec.namespaceName [(setNameLabelKey, kServeLLMWorkloadName spec.name)] = .ok pods ∧
      Covered spec.replicas spec.workerReplicas pods := by
  obtain ⟨o₁, h₁, h⟩ := except_bind_eq_ok.mp h
  cases h
  rw [observeInvocation_runtimePhase] at hready
  unfold observeKServe at h₁
  dsimp only at h₁
  split at h₁
  · cases h₁
    simp [degraded] at hready
  · cases h₁
  next obj _ =>
    obtain ⟨fact, _, h₁⟩ := except_bind_eq_ok.mp h₁
    split at h₁
    · cases h₁
      simp [degraded] at hready
    cases h₁
    have hphase : runtimeLoadingPhase spec.modelReadyKnown spec.modelReady ≠ "ready" := by
      unfold runtimeLoadingPhase
      split <;> decide
    have hkind : kserveKindForMode spec.runtimeMode ≠ .kserveInferenceService := by
      simp [kserveKindForMode, hmode]
    unfold observeKServeStatus at hready
    split at hready
    · exact absurd hready hphase
    · rw [if_neg hkind] at hready
      dsimp only at hready
      split at hready
      · next hllm => exact kserveLLMReady_covers hspec hllm
      · exact absurd hready hphase

end Ready

/-- A distributed runtime is reported ready only where every worker of every group has a Pod of its
own that runs, is ready and is not on its way out. -/
theorem ready_covers_workers (r : Reader C) (spec : DesiredRuntime)
    (expected : Option RuntimeBinding) (hmode : spec.runtimeMode = "leader_worker_set")
    (hspec : Countable spec) :
    (∀ o, observeHealth r spec expected = .ok o → o.runtimePhase = "ready" →
      (∀ lws, r.leaderWorkerSet spec.namespaceName spec.name = .ok lws → Rendered spec lws.value) →
      ∃ pods, r.pods spec.namespaceName (workerLabels spec) = .ok pods ∧
        Covered spec.replicas spec.workerReplicas pods) ∧
    ∀ o, observeKServeHealth r spec expected = .ok o → o.runtimePhase = "ready" →
      ∃ pods,
        r.pods spec.namespaceName [(setNameLabelKey, kServeLLMWorkloadName spec.name)] = .ok pods ∧
          Covered spec.replicas spec.workerReplicas pods := by
  constructor
  · intro o h hready hlws
    obtain ⟨o', h', hready'⟩ := observeHealth_ready h hready
    exact observe_covers hmode hspec hlws h' hready'
  · intro o h hready
    exact observeKServeHealth_covers hmode hspec h hready

namespace Sample

def spec : DesiredRuntime :=
  { tenantID := 1, serviceID := 2, generation := 3, name := "llm", namespaceName := "ns"
    servedModelName := "m", artifactProvider := "", runtimeProvider := ""
    runtimeMode := "leader_worker_set", replicas := 2, workerReplicas := 1
    resources := ⟨[], [], none⟩, gpuSnapshot := none, managed := false, managedGPU := false
    endpoint := none, desiredState := .running, runtimePhase := "pending", modelReady := true
    modelReadyKnown := true, quotaReserved := false, publicationWithdrawn := false
    publicationPublished := false, bindings := [] }

def labels : Labels := ⟨some 1, some 2, "3"⟩

def leaderWorkerSet : Stored (LeaderWorkerSet Unit) :=
  ⟨7, 8, false, ⟨labels, [⟨"LLMInferenceService", "5", true⟩], 1, 1, some 2, some 2, [()], 2, 2⟩⟩

def worker (uid : Nat) (group : String) (deleting : Bool) : Stored (Pod Unit) :=
  ⟨uid, uid, deleting, ⟨"1", group, "Running", [("Ready", "True")], [()]⟩⟩

/-- Every read finds what is there, and these Pods. -/
def reader (pods : List (Stored (Pod Unit))) : Reader Unit :=
  { deployment := fun _ _ => .error .notFound
    leaderWorkerSet := fun _ _ => .ok leaderWorkerSet
    kserve := fun _ _ _ => .ok ⟨5, 6, false, ⟨labels, 1, some [⟨"Ready", "True", "", ""⟩], none⟩⟩
    endpoint := fun _ _ => .error .notFound
    pods := fun _ _ => .ok pods
    predictorReady := fun _ _ => (false, "")
    templatesMatch := fun _ _ => true
    containerMatches := fun _ _ => true
    probe := none }

def phases (r : Reader Unit) : Option String × Option String :=
  ((observeHealth r spec none).toOption.map (·.runtimePhase),
    (observeKServeHealth r spec none).toOption.map (·.runtimePhase))

-- A duplicate and a Pod on its way out do not stand in for the second group.
example : phases (reader [worker 20 "0" false, worker 21 "0" false, worker 22 "1" true]) =
    (some "degraded", some "loading") := by decide +kernel

def twoGroups : List (Stored (Pod Unit)) :=
  [worker 20 "0" false, worker 21 "0" false, worker 22 "1" false]

end Sample

open Executor.Sample in
/-- Two groups of one worker, one of them doubled. -/
theorem ready_covers_workers_two_groups :
    phases (reader twoGroups) = (some "ready", some "ready") ∧ Covered 2 1 twoGroups := by
  have hphases : phases (reader twoGroups) = (some "ready", some "ready") := by decide +kernel
  have hphase : (observeHealth (reader twoGroups) spec none).toOption.map (·.runtimePhase) =
      some "ready" := congrArg Prod.fst hphases
  obtain ⟨o, ho, hready⟩ := Option.map_eq_some_iff.mp hphase
  obtain ⟨hnative, _⟩ := ready_covers_workers (reader twoGroups) spec none rfl
    ⟨by decide, by decide, by decide, by decide⟩
  obtain ⟨pods, hpods, hcovered⟩ := hnative o (ok_of_toOption ho) hready (by
    intro lws hlws
    cases hlws
    exact ⟨rfl, rfl⟩)
  cases hpods
  exact ⟨hphases, hcovered⟩

end AniInference.Executor
