import AniInference.Effects.Statements
import AniInference.Schedule
import AniInference.Lib.UuidText

namespace AniInference
open Lib Txn

/-- `kube.RuntimeBinding`. -/
structure RuntimeBinding where
  kind : ObjectKind
  namespaceName : String
  name : String
  uid : String
  resourceVersion : String
  role : Role
  generation : Generation
deriving DecidableEq

/-- `kube.DesiredRuntime`, without what is only rendered. -/
structure DesiredRuntime where
  tenantID : Uuid
  serviceID : Uuid
  generation : Generation
  name : String
  namespaceName : String
  servedModelName : String
  artifactProvider : String
  runtimeProvider : String
  runtimeMode : String
  replicas : Int
  workerReplicas : Int
  resources : Resources.Spec
  gpuSnapshot : Option Gpu.Snapshot
  managed : Bool
  managedGPU : Bool
  endpoint : Option (Nat × Nat × String × String)
  desiredState : DesiredState
  runtimePhase : String
  modelReady : Bool
  modelReadyKnown : Bool
  quotaReserved : Bool
  publicationWithdrawn : Bool
  publicationPublished : Bool
  bindings : List RuntimeBinding
deriving DecidableEq

def ObjectKind.text : ObjectKind → String
  | .inferenceService => "InferenceService"
  | .deployment => "Deployment"
  | .service => "Service"
  | .pod => "Pod"
  | .leaderWorkerSet => "LeaderWorkerSet"
  | .kserveInferenceService => "KServeInferenceService"
  | .kserveLLMInferenceService => "KServeLLMInferenceService"

def kindForRuntimeMode (mode : String) : ObjectKind :=
  if mode = "leader_worker_set" then .leaderWorkerSet else .deployment

def kserveKindForMode (mode : String) : ObjectKind :=
  if mode = "leader_worker_set" then .kserveLLMInferenceService else .kserveInferenceService

/-- The kinds in the order of their names. -/
def ObjectKind.sorted : List ObjectKind :=
  [.deployment, .inferenceService, .kserveInferenceService, .kserveLLMInferenceService,
    .leaderWorkerSet, .pod, .service]

/-- The roles in the order of their names. -/
def Role.sorted : List Role := [.control, .endpoint, .member, .runtime]

theorem ObjectKind.mem_sorted (kind : ObjectKind) : kind ∈ ObjectKind.sorted := by
  cases kind <;> decide

theorem Role.mem_sorted (role : Role) : role ∈ Role.sorted := by
  cases role <;> decide

example : (ObjectKind.sorted.map ObjectKind.text).Pairwise (· < ·) := by decide

namespace Sql

/-- The newest binding of a kind and role up to a generation. -/
def newestBinding (db : Db) (tenant service : Uuid) (kind : ObjectKind) (role : Role) :
    Nat → Option (Generation × Binding)
  | 0 => (db.bindings.lookup (tenant, service, 0, kind, role)).map fun b => (0, b)
  | g + 1 =>
    match db.bindings.lookup (tenant, service, g + 1, kind, role) with
    | some b => some (g + 1, b)
    | none => newestBinding db tenant service kind role g

def boundAs (kind : ObjectKind) (role : Role) (found : Generation × Binding) : RuntimeBinding :=
  ⟨kind, found.2.objectNamespace, found.2.objectName, found.2.objectUID, found.2.resourceVersion,
    role, found.1⟩

/-- `DISTINCT ON` the kind and the role, in their order. -/
def boundUpTo (db : Db) (tenant service : Uuid) (generation : Generation) : List RuntimeBinding :=
  ObjectKind.sorted.flatMap fun kind => Role.sorted.filterMap fun role =>
    (newestBinding db tenant service kind role generation).map (boundAs kind role)

def listCurrentRuntimeBindings (tenant service : Uuid) (generation : Generation) :
    Tx (List RuntimeBinding) := do
  return boundUpTo (← get) tenant service generation

section
variable {db : Db} {tenant service : Uuid} {kind : ObjectKind} {role : Role} {g : Nat}

theorem newestBinding_row (h : newestBinding db tenant service kind role g = some found) :
    found.1 ≤ g ∧ db.bindings.lookup (tenant, service, found.1, kind, role) = some found.2 := by
  induction g with
  | zero =>
    obtain ⟨b, hb, rfl⟩ := Option.map_eq_some_iff.mp h
    exact ⟨le_rfl, hb⟩
  | succ g ih =>
    unfold newestBinding at h
    cases hrow : db.bindings.lookup (tenant, service, g + 1, kind, role) with
    | some b =>
      simp only [hrow, Option.some.injEq] at h
      subst h
      exact ⟨le_rfl, hrow⟩
    | none =>
      simp only [hrow] at h
      obtain ⟨hle, hfound⟩ := ih h
      exact ⟨Nat.le_succ_of_le hle, hfound⟩

theorem newestBinding_eq_none :
    newestBinding db tenant service kind role g = none ↔
      ∀ g', g' ≤ g → db.bindings.lookup (tenant, service, g', kind, role) = none := by
  induction g with
  | zero => simp [newestBinding]
  | succ g ih =>
    unfold newestBinding
    cases h : db.bindings.lookup (tenant, service, g + 1, kind, role) with
    | some b =>
      simp only [reduceCtorEq, false_iff, not_forall]
      exact ⟨g + 1, le_rfl, by rw [h]; simp⟩
    | none =>
      simp only [ih]
      constructor
      · intro hall g' hg'
        rcases Nat.le_or_eq_of_le_succ hg' with hle | rfl
        · exact hall g' hle
        · exact h
      · intro hall g' hg'
        exact hall g' (Nat.le_succ_of_le hg')

/-- A binding of the generation itself is the newest. -/
theorem newestBinding_self (h : db.bindings.lookup (tenant, service, g, kind, role) = some b) :
    newestBinding db tenant service kind role g = some (g, b) := by
  cases g with
  | zero | succ g => simp [newestBinding, h]

theorem mem_boundUpTo :
    b ∈ boundUpTo db tenant service g ↔ ∃ found,
      newestBinding db tenant service b.kind b.role g = some found ∧
        b = boundAs b.kind b.role found := by
  simp only [boundUpTo, List.mem_flatMap, List.mem_filterMap, Option.map_eq_some_iff]
  constructor
  · rintro ⟨kind, _, role, _, found, hfound, rfl⟩
    exact ⟨found, hfound, rfl⟩
  · rintro ⟨found, hfound, hb⟩
    exact ⟨b.kind, b.kind.mem_sorted, b.role, b.role.mem_sorted, found, hfound, hb.symm⟩

end

end Sql

namespace RuntimeSource

/-- The specification of the generation, or for a deleted service the latest one before it. -/
def findRuntimeSpec (tenant service : Uuid) (generation : Generation) (desired : DesiredState) :
    Tx Spec := do
  match ← Sql.getSpec tenant service generation with
  | some spec => return spec
  | none =>
    reject (desired ≠ .deleted) (.text s!"inference spec generation {generation} not found")
    let latest ← Sql.getLatestSpec tenant service generation
    require latest (.text s!"inference spec generation <= {generation} not found")

/-- The frozen GPU plan, checked against its digest and its request. -/
def persistedPlan (spec : Spec) (gpu : Option Gpu.Request) : Tx (Option Gpu.Snapshot) :=
  match spec.gpuPlan with
  | none => return none
  | some plan => do
    reject (spec.gpuPlanDigest.any (· ≠ plan.executionDigest))
      (.text "GPU plan digest does not match persisted digest")
    reject gpu.isNone (.text "GPU plan has no GPU request")
    let plan ← checked (Gpu.validateSnapshot (some plan) gpu)
    return some plan

/-- A managed service with a GPU has a plan. -/
def frozenPlan (spec : Spec) (gpu : Option Gpu.Request) (managed : Bool) :
    Tx (Option Gpu.Snapshot) := do
  let plan ← persistedPlan spec gpu
  if managed ∧ gpu.isSome then
    let frozen ← relabel (.wrapped "invalid accepted Governance GPU snapshot")
      (checked (Gpu.validateSnapshot plan gpu))
    return some frozen
  else return plan

/-- The bindings up to the generation, and where there are none those up to the one before. -/
def currentBindings (tenant service : Uuid) (generation : Generation) :
    Tx (List RuntimeBinding) := do
  let bindings ← Sql.listCurrentRuntimeBindings tenant service generation
  if bindings.isEmpty ∧ generation > 1 then
    Sql.listCurrentRuntimeBindings tenant service (generation - 1)
  else return bindings

/-- What of the publication the runtime gates look at. -/
def publicationGates (generation : Generation) : Option (Generation × PublicationRow) → Bool × Bool
  | none => (true, false)
  | some (g, p) =>
    (p.observedPhase = .withdrawn ∧ p.desiredPhase = .withdrawn,
      g = generation ∧ p.observedPhase = .published ∧ p.desiredPhase = .published)

def normalizeRuntimePhase (phase : String) : String :=
  if phase = "" ∨ phase = "unknown" then "pending" else phase

/-- `RuntimeSource.CurrentRuntime`, for a service placed in the namespace. -/
def currentRuntime (namespaceName : String) (tenant service : Uuid) (generation : Generation) :
    Tx DesiredRuntime := do
  reject (namespaceName = "") (.text "runtime source namespace is required")
  reject (generation < 1) (.text "runtime source generation must be positive")
  let managed ← Sql.getManagedResource tenant service
  let row ← Sql.getService tenant service
  let aggregate ← require row (.text s!"inference service {tenant}/{service} not found")
  reject (aggregate.desiredGeneration ≠ generation) (.text
    s!"desired generation {aggregate.desiredGeneration} does not match requested {generation}")
  let spec ← findRuntimeSpec tenant service generation aggregate.desiredState
  let gpu := spec.content.resources.gpu.orElse fun _ => spec.content.gpuRequest
  let normalized ← checked (Resources.normalize { spec.content.resources with gpu := gpu })
  let plan ← frozenPlan spec gpu managed.isSome
  let bindings ← currentBindings tenant service generation
  let runtime ← Sql.getRuntime tenant service
  let reservation ← Sql.getActiveQuotaReservation tenant service generation
  let publication ← Sql.getLatestPublication tenant service generation
  let gates := publicationGates generation publication
  return {
    tenantID := tenant, serviceID := service, generation := generation, name := aggregate.name
    namespaceName := namespaceName, servedModelName := spec.content.servedModelName
    artifactProvider := spec.content.artifactProvider
    runtimeProvider := Store.orDefault spec.content.runtimeProvider "deployment"
    runtimeMode := Store.orDefault spec.content.runtimeMode "deployment"
    replicas := spec.content.replicas
    workerReplicas := if spec.content.workerReplicas = 0 then 1 else spec.content.workerReplicas
    resources := normalized, gpuSnapshot := plan, managed := managed.isSome
    managedGPU := managed.isSome && gpu.isSome, endpoint := spec.content.endpoint
    desiredState := aggregate.desiredState
    runtimePhase := (runtime.map fun r => normalizeRuntimePhase r.runtimePhase).getD "pending"
    modelReady := (runtime.map (·.modelReady)).getD false
    modelReadyKnown := (runtime.map (·.modelReadyKnown)).getD false
    quotaReserved := reservation.any fun r => r.2.state = .confirmed
    publicationWithdrawn := gates.1, publicationPublished := gates.2, bindings := bindings }

section
variable {db db' : Db} {namespaceName : String} {tenant service : Uuid} {g : Generation}

theorem runs_currentBindings (h : Runs (currentBindings tenant service g) db bindings db') :
    db' = db ∧ (bindings = Sql.boundUpTo db tenant service g ∨
      Sql.boundUpTo db tenant service g = [] ∧
        bindings = Sql.boundUpTo db tenant service (g - 1)) := by
  simp only [currentBindings, Sql.listCurrentRuntimeBindings, bind_assoc, pure_bind, runs_get_bind,
    runs_ite, runs_pure, List.isEmpty_iff] at h
  rcases h with ⟨⟨hnone, _⟩, hb, rfl⟩ | ⟨_, hb, rfl⟩
  · exact ⟨rfl, .inr ⟨hnone, hb⟩⟩
  · exact ⟨rfl, .inl hb⟩

theorem runs_getLatestSpec (h : Runs (Sql.getLatestSpec tenant service g) db spec db') :
    db' = db := by
  simp only [Sql.getLatestSpec, runs_get_bind, runs_pure] at h
  exact h.2

theorem runs_getActiveQuotaReservation
    (h : Runs (Sql.getActiveQuotaReservation tenant service g) db row db') : db' = db := by
  simp only [Sql.getActiveQuotaReservation, Sql.latestReservation, runs_get_bind, runs_pure] at h
  exact h.2

theorem runs_getLatestPublication
    (h : Runs (Sql.getLatestPublication tenant service g) db row db') : db' = db := by
  simp only [Sql.getLatestPublication, runs_get_bind, runs_pure] at h
  exact h.2

theorem runs_findRuntimeSpec (h : Runs (findRuntimeSpec tenant service g desired) db spec db') :
    db' = db := by
  obtain ⟨found, db₁, hfound, h₁⟩ := runs_bind.mp h
  obtain ⟨_, rfl⟩ := Sql.runs_getSpec.mp hfound
  cases found with
  | some found => exact (runs_pure.mp h₁).2
  | none =>
    obtain ⟨_, db₂, hreject, h₂⟩ := runs_bind.mp h₁
    obtain ⟨_, rfl⟩ := runs_reject.mp hreject
    obtain ⟨latest, db₃, hlatest, h₃⟩ := runs_bind.mp h₂
    obtain rfl := runs_getLatestSpec hlatest
    exact (runs_require.mp h₃).2

theorem runs_persistedPlan (h : Runs (persistedPlan spec gpu) db plan db') : db' = db := by
  unfold persistedPlan at h
  split at h
  · exact (runs_pure.mp h).2
  · simp only [runs_bind, runs_reject, runs_checked, runs_pure] at h
    obtain ⟨_, _, ⟨_, rfl⟩, _, _, ⟨_, rfl⟩, _, _, ⟨_, rfl⟩, _, rfl⟩ := h
    rfl

theorem runs_frozenPlan (h : Runs (frozenPlan spec gpu managed) db plan db') : db' = db := by
  obtain ⟨first, db₁, hfirst, h₁⟩ := runs_bind.mp h
  obtain rfl := runs_persistedPlan hfirst
  rcases runs_ite.mp h₁ with ⟨_, h₂⟩ | ⟨_, h₂⟩
  · simp only [runs_bind, runs_relabel, runs_checked, runs_pure] at h₂
    obtain ⟨_, _, ⟨_, rfl⟩, _, rfl⟩ := h₂
    rfl
  · exact (runs_pure.mp h₂).2

/-- What a runtime that was read says of the bindings and the model of the service. -/
theorem runs_currentRuntime (h : Runs (currentRuntime namespaceName tenant service g) db spec db') :
    db' = db ∧ Runs (currentBindings tenant service g) db spec.bindings db ∧
      (spec.modelReadyKnown, spec.modelReady) = db.modelFacts tenant service := by
  unfold currentRuntime at h
  simp only [runs_bind, runs_reject, runs_require, runs_checked, Sql.runs_getManagedResource,
    Sql.runs_getService, Sql.runs_getRuntime, runs_pure] at h
  obtain ⟨_, _, ⟨_, rfl⟩, _, _, ⟨_, rfl⟩, _, _, ⟨_, rfl⟩, _, _, ⟨hs, rfl⟩, _, _, ⟨rfl, rfl⟩, _, _,
    ⟨_, rfl⟩, found, _, hfound, _, _, ⟨_, rfl⟩, _, _, hplan, bindings, _, hbindings, _, _,
    ⟨rfl, rfl⟩, _, _, hreservation, _, _, hpublication, rfl, rfl⟩ := h
  obtain rfl := runs_findRuntimeSpec hfound
  obtain rfl := runs_frozenPlan hplan
  obtain ⟨rfl, _⟩ := runs_currentBindings hbindings
  obtain rfl := runs_getActiveQuotaReservation hreservation
  obtain rfl := runs_getLatestPublication hpublication
  refine ⟨rfl, hbindings, ?_⟩
  cases hr : db'.runtimes.lookup (tenant, service) <;>
    simp [Db.modelFacts, Sql.currentRuntime, ← hs, hr]

end

end RuntimeSource

end AniInference
