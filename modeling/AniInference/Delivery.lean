import AniInference.Effects.Commands
import AniInference.Lib.Walk
import AniInference.Lib.Runs

namespace AniInference
open Lib

/-- A receipt, the recorded answer to a Governance command, stays and stays the same. -/
def ReceiptsKept (db db' : Db) : Prop :=
  ∀ k row, db.managedCommands.lookup k = some row →
    ∃ row', db'.managedCommands.lookup k = some row' ∧ row'.payloadHash = row.payloadHash ∧
      row'.responseSnapshot = row.responseSnapshot

namespace Delivery
open Model
open Prog (Asks Played Only)

/-- What a provider says instead of an answer. `reason` is the one an image rejection states. -/
structure Rejection where
  message : String
  reason : String
deriving DecidableEq

/-- `TenantNamespace`. -/
structure Namespace where
  name : String
  uid : String
deriving DecidableEq

/-- What the image catalog resolves a selection to; the selection as it is stored. -/
structure Image where
  ref : String
  selection : String
deriving DecidableEq

/-- `inference.CreateInput`: the part the store reads, and what the layers before it add. -/
structure Request where
  create : CreateInput
  runtimeNamespace : String
  runtimeNamespaceUID : String
  imageID : String
  imageScope : String
  imageSelection : Option String
  modelCapabilities : Option (List String)

/-- How the layers are put together. -/
structure Config where
  requireCatalog : Bool
  clientNamespace : String
  prerequisites : Bool
deriving DecidableEq

inductive Call
  | prepareCreate (c : ManagedCommand)
  | resolveNamespace (tenant : Uuid)
  | checkPrerequisites (ns : Namespace)
  | resolveInNamespace (tenant : Uuid) (id scope ns : String)
  | getReadyVersion (tenant : Uuid) (version : Option Uuid)
  | createService (input : CreateInput)
  | other (tx : { f : Db → Db // ∀ db, ReceiptsKept db (f db) })

def Call.Answer : Call → Type
  | .prepareCreate _ => Except Err (Option Response)
  | .resolveNamespace _ => Except Rejection Namespace
  | .checkPrerequisites _ => Except Rejection Unit
  | .resolveInNamespace .. => Except Rejection Image
  | .getReadyVersion .. => Except Rejection Snapshot
  | .createService _ => Except Err CreateResult
  | .other _ => Unit

/-- The calls that leave the service for a provider. -/
def Call.provider : Call → Bool
  | .resolveNamespace _ | .checkPrerequisites _ | .resolveInNamespace ..
  | .getReadyVersion .. => true
  | .prepareCreate _ | .createService _ | .other _ => false

/-- `IMAGE_ADMISSION_REJECTED` and its metadata. -/
structure Admission where
  operationID : Uuid
  resourceID : Uuid
  tenantID : Uuid
  requestDigest : String
  imageReason : String
deriving DecidableEq

inductive Failure
  | catalogRequired
  | incomplete
  | artifactMismatch
  | rejected (r : Rejection)
  | admission (a : Admission)
  | database (e : Err)
deriving DecidableEq

/-- A delivery that ends with what a provider said: its own words, or that what it said about the
artifact does not fit the request. -/
def Failure.ofProvider : Failure → Bool
  | .artifactMismatch | .rejected _ | .admission _ => true
  | .catalogRequired | .incomplete | .database _ => false

abbrev Flow := ExceptT Failure (Prog Call Call.Answer)

def perform (e : Call) : Flow e.Answer := ExceptT.lift (Prog.perform e)

/-- `Preflight.PrepareCreate`: the answer the command was given before, if it was. -/
def prepareCreate (input : Request) : Flow (Option Response) := do
  match input.create.managed with
  | none => return none
  | some c =>
    match ← perform (.prepareCreate c) with
    | .ok out => return out
    | .error e => throw (.database e)

/-- The second look after a provider failed. -/
def recheck (input : Request) (failure : Failure) : Flow Response := do
  match ← prepareCreate input with
  | some out => return out
  | none => throw failure

/-- The reasons that are a denial and not a failure to ask. -/
def rejectionReason (r : Rejection) : Option String :=
  if r.reason ∈ ["IMAGE_NOT_FOUND", "SPACE_NOT_FOUND", "SPACE_NOT_READY", "IMAGE_PROJECT_DENIED",
      "UNSUPPORTED_ARTIFACT", "PLATFORM_MISMATCH", "INVALID_REFERENCE",
      "SPACE_OWNERSHIP_UNCONFIRMED"] then some r.reason
  else none

def admissionError (r : Rejection) (input : Request) : Failure :=
  match rejectionReason r, input.create.managed with
  | some reason, some c =>
    .admission ⟨c.context.originalCreateOperationID, c.context.resourceID, input.create.tenantID,
      c.context.createCommandDigest, reason⟩
  | _, _ => .rejected r

/-- The spec document of a create. -/
def Request.specJSON (input : Request) : List (String × String) :=
  ("model_capabilities", capabilitiesJSON input.modelCapabilities) ::
    (input.imageSelection.map fun s => ("image_selection", s)).toList

/-- `postgres.CreateUseCase.Create`. -/
def storeCreate (input : Request) : Flow Response := do
  let create :=
    { input.create with content := { input.create.content with specJSON := input.specJSON } }
  match ← perform (.createService create) with
  | .ok result =>
    return result.response.getD (Managed.createResponse result.serviceID result.operationID)
  | .error e => throw (.database e)

/-- What `model.CreateUseCase` makes of the answer about the version. -/
def checkVersion (content : SpecContent) : Except Rejection Snapshot → Except Failure Snapshot
  | .error r => .error (.rejected r)
  | .ok v => if artifactAgrees content v then .ok v else .error .artifactMismatch

def engineGiven (input : Request) : Bool :=
  !Text.blank input.create.content.engineRuntime &&
  (!Text.blank input.create.content.imageRef || input.imageID ≠ "") &&
  !Text.blank input.create.content.commandArgv

def Request.withVersion (input : Request) (v : Snapshot) : Request :=
  { input with
    modelCapabilities := some v.capabilities
    create := { input.create with content := { input.create.content with
      artifactProvider := "model", artifactRef := v.artifactRef
      artifactSHA256 := v.artifactSHA256 } } }

/-- `model.CreateUseCase.Create`. It has no second look: a version that is rejected ends the
delivery. -/
def modelCreate (input : Request) : Flow Response := do
  match ← prepareCreate input with
  | some out => return out
  | none =>
    if engineGiven input then do
      let answer ← perform (.getReadyVersion input.create.tenantID
        input.create.content.modelVersionID)
      match checkVersion input.create.content answer with
      | .ok v => storeCreate (input.withVersion v)
      | .error failure => throw failure
    else throw .incomplete

def Request.withImage (input : Request) (image : Image) : Request :=
  { input with
    imageSelection := some image.selection
    create := { input.create with content := { input.create.content with imageRef := image.ref } } }

/-- `image.CreateUseCase.Create`. -/
def imageCreate (cfg : Config) (input : Request) : Flow Response := do
  match ← prepareCreate input with
  | some out => return out
  | none =>
    if input.imageID = "" then
      if cfg.requireCatalog then throw .catalogRequired else modelCreate input
    else do
      match ← perform (.resolveInNamespace input.create.tenantID input.imageID input.imageScope
        (if input.runtimeNamespace = "" then cfg.clientNamespace else input.runtimeNamespace)) with
      | .ok image => modelCreate (input.withImage image)
      | .error r => recheck input (admissionError r input)

def Request.withNamespace (input : Request) (ns : Namespace) : Request :=
  { input with runtimeNamespace := ns.name, runtimeNamespaceUID := ns.uid }

/-- The rest of `NamespaceCreate.Create` once the namespace is known. -/
def createIn (cfg : Config) (input : Request) (ns : Namespace) : Flow Response :=
  if cfg.prerequisites then do
    match ← perform (.checkPrerequisites ns) with
    | .ok _ => imageCreate cfg (input.withNamespace ns)
    | .error r => recheck input (.rejected r)
  else imageCreate cfg (input.withNamespace ns)

/-- `NamespaceCreate.Create`: one delivery of a create. -/
def deliver (cfg : Config) (input : Request) : Flow Response := do
  match ← prepareCreate input with
  | some out => return out
  | none =>
    match ← perform (.resolveNamespace input.create.tenantID) with
    | .ok ns => createIn cfg input ns
    | .error r => recheck input (.rejected r)

/-- Deliveries, and whatever else works on the database and leaves receipts as they are. -/
inductive Party
  | delivery (cfg : Config) (input : Request)
  | rest (program : Prog Call Call.Answer (Except Failure Response))
      (only : program.Only fun e => ∃ tx, e = .other tx)

def Party.program : Party → Prog Call Call.Answer (Except Failure Response)
  | .delivery cfg input => (deliver cfg input).run
  | .rest program _ => program

/-- What the outside decides about a call: how the database takes it, or what a provider says. -/
def Call.Choice : Call → Type
  | .prepareCreate _ => Fault
  | .createService _ => Time × Fresh × Fault
  | .other _ => Unit
  | .resolveNamespace _ => Except Rejection Namespace
  | .checkPrerequisites _ => Except Rejection Unit
  | .resolveInNamespace .. => Except Rejection Image
  | .getReadyVersion .. => Except Rejection Snapshot

def act (_ : Nat) : (e : Call) → e.Choice → Db → e.Answer × Db
  | .prepareCreate c, fault, db => (Managed.prepareCreate c).settle .connection fault db
  | .createService input, (now, fresh, fault), db =>
    (Managed.createService now fresh input).settle .connection fault db
  | .other tx, _, db => ((), tx.1 db)
  | .resolveNamespace _, answer, db => (answer, db)
  | .checkPrerequisites _, answer, db => (answer, db)
  | .resolveInNamespace .., answer, db => (answer, db)
  | .getReadyVersion .., answer, db => (answer, db)

/-- The runs of any such parties, from any database. -/
abbrev DeliveryRun (parties : Nat → Party) :=
  Run act (fun i => (parties i).program) fun _ => True

abbrev DeliveryMoment := Moment Db Call Call.Answer

abbrev Seen := Σ e : Call, e.Answer

/-- The key a command's receipt is kept under. -/
def receiptKey (c : ManagedCommand) : Uuid × Uuid :=
  (c.context.tenantID, c.context.originalCreateOperationID)

/-- The version is rejected: the Model service has no ready version, or not this artifact. -/
def Rejects (content : SpecContent) : Seen → Bool
  | ⟨.getReadyVersion .., answer⟩ => !(checkVersion content answer).isOk
  | _ => false

/-- The database did not answer. -/
def Unheard : Seen → Bool
  | ⟨.prepareCreate _, answer⟩ => !answer.isOk
  | ⟨.createService _, answer⟩ => !answer.isOk
  | _ => false

end Delivery
end AniInference
