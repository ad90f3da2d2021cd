import AniInference.Commands
import AniInference.Lib.Program

namespace AniInference.MaskedUpdate
open Lib Model

/-- `EngineSpec`. -/
structure Engine where
  kind : String
  image : String
  command : String
  imageID : String
  imageScope : String
deriving DecidableEq

/-- `UpdateInferenceServiceRequest`. A model version that is not given is none; `frozen` says that
it carries a resource, topology, provider, endpoint, artifact or GPU part. -/
structure Request where
  tenantID : Uuid
  serviceID : Uuid
  requestID : String
  expectedGeneration : Generation
  contractVersion : Nat
  mask : List String
  modelVersionID : Option Uuid
  servedModelName : String
  engine : Option Engine
  frozen : Bool
  actor : String
  requestHash : String
  managedOperationID : Option Uuid

/-- What a provider says instead of an answer. -/
structure Rejection where
  message : String
deriving DecidableEq

structure Platform where
  os : String
  architecture : String
  variant : String
deriving DecidableEq

inductive Scope
  | unspecified | platform | tenant
deriving DecidableEq

/-- `ResolveImageForWorkloadResponse`. -/
structure Resolved where
  tenantID : Uuid
  imageID : String
  scope : Scope
  digest : String
  reference : String
  registry : String
  platform : Platform
deriving DecidableEq

/-- `ImageSelection`. -/
structure ImageSelection where
  imageID : String
  scope : String
  platform : Platform
  registryAuthority : String
  pullSecretRef : String
deriving DecidableEq

/-- What the image client resolves a selection to. -/
structure Image where
  ref : String
  selection : ImageSelection
deriving DecidableEq

/-- `ModelVersion`, with the capabilities of its model. -/
structure Version where
  id : Uuid
  status : String
  checksum : String
  storagePath : String
  capabilities : List String
deriving DecidableEq

inductive Failure
  | invalid (why : String)
  | precondition (why : String)
  | dataLoss (why : String)
  | internal (why : String)
  | versionMissing
  | rejected (r : Rejection)
  | database (e : Err)
deriving DecidableEq

inductive Call
  | prepareUpdate (input : UpdateInput)
  | namespaceForService (tenant service : Uuid)
  | resolveImageForWorkload (tenant : Uuid) (id : String) (scope : Scope)
  | getModelVersion (tenant version : Uuid)
  | update (input : UpdateInput)

def Call.Answer : Call → Type
  | .prepareUpdate _ => Except Err (Option Response)
  | .namespaceForService .. => Except Err String
  | .resolveImageForWorkload .. => Except Rejection Resolved
  | .getModelVersion .. => Except Rejection (Option Version)
  | .update _ => Except Err Response

abbrev Seen := Σ e : Call, e.Answer

abbrev Flow := ExceptT Failure (Prog Call Call.Answer)

def perform (e : Call) : Flow e.Answer := ExceptT.lift (Prog.perform e)

/-- `^img_[0-9a-f]{32}$`. -/
def catalogImageID (s : String) : Bool :=
  s.toList.take 4 = ['i', 'm', 'g', '_'] && s.toList.length = 36 &&
    (s.toList.drop 4).all Gpu.hexDigit

def validateEngineSelection (engine : Option Engine) (version : Nat) : Except Failure Unit :=
  match engine with
  | none => .error (.invalid "engine type and complete command are required")
  | some e =>
    if Text.blank e.kind ∨ Text.blank e.command then
      .error (.invalid "engine type and complete command are required")
    else if version = 0 then
      if e.imageID ≠ "" ∨ e.imageScope ≠ "" ∨ Text.blank e.image then
        .error (.invalid "legacy engine requires raw image and no catalog selection")
      else .ok ()
    else if version = 2 then
      if !catalogImageID e.imageID then
        .error (.invalid "image_id must be a Resource catalog image ID")
      else if e.imageScope ≠ "platform" ∧ e.imageScope ≠ "tenant" then
        .error (.invalid "image_scope must be platform or tenant")
      else if e.image ≠ "" then
        .error (.invalid "catalog selection and raw image are mutually exclusive")
      else .ok ()
    else .error (.invalid "unsupported command contract version")

def validatePath (req : Request) (path : String) : Except Failure Unit :=
  if path = "model_version_id" then
    if req.modelVersionID.isNone then .error (.invalid "model_version_id must be a canonical UUID")
    else .ok ()
  else if path = "served_model_name" then
    if Text.blank req.servedModelName then
      .error (.invalid "selected served_model_name must not be empty")
    else .ok ()
  else if path = "engine" then validateEngineSelection req.engine req.contractVersion
  else .error (.invalid s!"unsupported update_mask path {path}")

/-- The loop of `ValidateUpdatePatch` over the mask. -/
def validatePaths (req : Request) : List String → List String → Except Failure Unit
  | _, [] => .ok ()
  | seen, path :: rest =>
    if path ∈ seen then .error (.invalid s!"duplicate update_mask path {path}")
    else match validatePath req path with
      | .error e => .error e
      | .ok _ => validatePaths req (path :: seen) rest

/-- `ValidateUpdatePatch`. -/
def validateUpdatePatch (req : Request) : Except Failure Unit :=
  if req.requestID = "" then .error (.invalid "request_id is required")
  else if req.expectedGeneration < 1 then .error (.invalid "expected_generation must be positive")
  else if req.frozen then
    .error (.invalid
      "UPDATE cannot modify frozen resources, topology, provider, endpoint or artifact")
  else if req.mask = [] then .error (.invalid "update_mask is required and must not be empty")
  else validatePaths req [] req.mask

/-- `inference.UpdateInput`: the part the store reads, and what the layers before it read. -/
structure Input where
  update : UpdateInput
  imageID : String
  imageScope : String

/-- The input `UpdateInferenceService` makes of a request: what is off the mask is cleared. -/
def inputOf (req : Request) : Input :=
  let engine := if "engine" ∈ req.mask then req.engine else none
  { update :=
      { tenantID := req.tenantID, serviceID := req.serviceID
        expectedGeneration := req.expectedGeneration, requestID := req.requestID
        requestHash := req.requestHash, actor := req.actor
        managedOperationID := req.managedOperationID, updateMask := req.mask
        content :=
          { modelID := none
            modelVersionID := if "model_version_id" ∈ req.mask then req.modelVersionID else none
            artifactProvider := "", artifactRef := "", artifactSHA256 := ""
            imageRef := (engine.map (·.image)).getD ""
            servedModelName := if "served_model_name" ∈ req.mask then req.servedModelName else ""
            engineRuntime := (engine.map (·.kind)).getD ""
            commandArgv := (engine.map (·.command)).getD ""
            resources := ⟨[], [], none⟩, replicas := 0, runtimeMode := "", workerReplicas := 0
            runtimeProvider := "", specJSON := [], endpoint := none, gpuRequest := none }
        modelCapabilities := none, imageSelection := none, gpuPlan := none
        gpuPlanDigest := "" }
    imageID := (engine.map (·.imageID)).getD ""
    imageScope := (engine.map (·.imageScope)).getD "" }

def prepareUpdate (input : Input) : Flow (Option Response) := do
  match ← perform (.prepareUpdate input.update) with
  | .ok out => return out
  | .error e => throw (.database e)

/-- `postgres.UpdateUseCase.Update`, as one call. -/
def storeUpdate (input : Input) : Flow Response := do
  match ← perform (.update input.update) with
  | .ok out => return out
  | .error e => throw (.database e)

/-- `sha256.Size` bytes in hexadecimal digits. -/
def isSHA256 (s : String) : Bool :=
  s.toList.length = 64 && s.toList.all fun c => Gpu.hexDigit c || ('A' ≤ c && c ≤ 'F')

/-- The loop of `GetReadyVersion` over the capabilities: in lower case, none empty, each once. -/
def normalizeCapabilities (given : List String) : List String :=
  given.foldl (fun capabilities capability =>
    let capability := Text.lower (Text.trim capability)
    if capability = "" ∨ capability ∈ capabilities then capabilities
    else capabilities ++ [capability]) []

/-- What `GetReadyVersion` makes of the answer of the Model service. -/
def readyVersion (version : Uuid) : Except Rejection (Option Version) → Except Failure Snapshot
  | .error r => .error (.rejected r)
  | .ok none => .error .versionMissing
  | .ok (some v) =>
    if v.id ≠ version then .error (.dataLoss "Model returned a different version")
    else if v.status ≠ "ready" then .error (.precondition "Model version is not ready")
    else if !isSHA256 v.checksum ∨ Text.blank v.storagePath then
      .error (.dataLoss "Model artifact is incomplete")
    else .ok ⟨v.storagePath, v.checksum, normalizeCapabilities v.capabilities⟩

def Input.withVersion (input : Input) (v : Snapshot) : Input :=
  { input with update := { input.update with
      modelCapabilities := some v.capabilities
      content := { input.update.content with
        artifactProvider := "model", artifactRef := v.artifactRef
        artifactSHA256 := v.artifactSHA256 } } }

def artifactGiven (c : SpecContent) : Bool :=
  c.artifactProvider ≠ "" || c.artifactRef ≠ "" || c.artifactSHA256 ≠ ""

/-- `model.UpdateUseCase.Update`. -/
def modelUpdate (input : Input) : Flow Response := do
  match ← prepareUpdate input with
  | some out => return out
  | none =>
    match input.update.content.modelVersionID with
    | none =>
      if artifactGiven input.update.content then
        throw (.invalid "artifact changes require model_version_id")
      else storeUpdate input
    | some version => do
      let answer ← perform (.getModelVersion input.update.tenantID version)
      match readyVersion version answer with
      | .error e => throw e
      | .ok v =>
        if artifactAgrees input.update.content v then storeUpdate (input.withVersion v)
        else throw (.invalid "artifact does not match Model version")

/-- `image.Client`. The name of a pull Secret, none for an incomplete scope, and the text a
selection is stored as are taken from outside. -/
structure Client where
  platform : Option Platform
  clientNamespace : String
  clusterID : String
  requireCatalog : Bool
  pullSecretName : Uuid → String → String → String → Option String
  encode : ImageSelection → String

/-- How the image layer is set up. Without a lookup of its own it uses the client's namespace. -/
structure Config where
  client : Option Client
  looksUp : Bool

/-- `^sha256:[a-f0-9]{64}$`. -/
def fixedDigest (s : String) : Bool :=
  s.toList.take 7 = "sha256:".toList && s.toList.length = 71 && (s.toList.drop 7).all Gpu.hexDigit

def wireScope (scope : String) : Option Scope :=
  if scope = "platform" then some .platform
  else if scope = "tenant" then some .tenant
  else none

/-- What `ResolveInNamespace` makes of the answer of the Resource service. -/
def checkResolved (c : Client) (p : Platform) (tenant : Uuid) (id scope ns : String) (wire : Scope)
    (r : Resolved) : Except Failure Image :=
  if r.tenantID ≠ tenant ∨ r.imageID ≠ id ∨ r.scope ≠ wire ∨ !fixedDigest r.digest ∨
      !(("@" ++ r.digest).toList.isSuffixOf r.reference.toList) ∨ r.registry = "" ∨
      !((r.registry ++ "/").toList.isPrefixOf r.reference.toList) ∨ r.platform ≠ p then
    .error (.internal "invalid image runtime resolution")
  else match c.pullSecretName tenant c.clusterID ns r.registry with
    | none => .error (.internal "invalid pull Secret scope")
    | some name => .ok ⟨r.reference, ⟨id, scope, r.platform, r.registry, name⟩⟩

/-- `ResolveInNamespace`. -/
def resolveInNamespace (client : Option Client) (tenant : Uuid) (id scope ns : String) :
    Flow (Except Failure (Image × String)) :=
  match client with
  | none => return .error (.precondition "image runtime is not configured")
  | some c =>
    match c.platform with
    | none => return .error (.precondition "image runtime is not configured")
    | some p =>
      if ns = "" ∨ c.clusterID = "" then
        return .error (.precondition "image runtime is not configured")
      else match wireScope scope with
        | none => return .error (.invalid "invalid image scope")
        | some wire => do
          match ← perform (.resolveImageForWorkload tenant id wire) with
          | .error r => return .error (.rejected r)
          | .ok resolved =>
            match checkResolved c p tenant id scope ns wire resolved with
            | .error e => return .error e
            | .ok image => return .ok (image, c.encode image.selection)

def Input.withImage (input : Input) (ref selection : String) : Input :=
  { input with update := { input.update with
      imageSelection := some selection
      content := { input.update.content with imageRef := ref } } }

def namespaceFor (cfg : Config) (input : Input) : Flow String :=
  if cfg.looksUp then do
    match ← perform (.namespaceForService input.update.tenantID input.update.serviceID) with
    | .ok ns => return ns
    | .error e => throw (.database e)
  else return (cfg.client.map (·.clientNamespace)).getD ""

/-- `image.UpdateUseCase.Update`, once the selection is to be resolved. -/
def resolveImage (cfg : Config) (input : Input) : Flow Response := do
  let ns ← namespaceFor cfg input
  match ← resolveInNamespace cfg.client input.update.tenantID input.imageID input.imageScope ns with
  | .ok (image, selection) => modelUpdate (input.withImage image.ref selection)
  | .error e =>
    match ← prepareUpdate input with
    | some out => return out
    | none => throw e

/-- `image.UpdateUseCase.Update`. -/
def imageUpdate (cfg : Config) (input : Input) : Flow Response := do
  match ← prepareUpdate input with
  | some out => return out
  | none =>
    if input.update.updateMask = [] ∨ "engine" ∈ input.update.updateMask then
      if input.imageID = "" then
        if cfg.client.any (·.requireCatalog) then
          throw (.precondition "image update requires catalog selection")
        else modelUpdate input
      else resolveImage cfg input
    else modelUpdate input

/-- `UpdateInferenceService`. -/
def updateInferenceService (cfg : Config) (req : Request) : Flow Response :=
  match validateUpdatePatch req with
  | .error e => throw e
  | .ok _ => imageUpdate cfg (inputOf req)

end AniInference.MaskedUpdate
