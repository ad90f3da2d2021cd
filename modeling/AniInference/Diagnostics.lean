import AniInference.RuntimeSource
import AniInference.Lib.ObjectStore
import AniInference.Lib.Walk
import AniInference.Lib.Runs
import Mathlib.Data.List.Sort

namespace AniInference.Diagnostics
open Lib
open Prog (Asks Only Played)

structure Scope where
  tenantID : Uuid
  serviceID : Uuid
  generation : Generation
deriving DecidableEq

/-- `metav1.OwnerReference`; a controller that is not set is none. -/
structure OwnerRef where
  apiVersion : String
  kind : String
  name : String
  uid : String
  controller : Bool
deriving DecidableEq

/-- `diagnosticOwnerKey`. -/
structure OwnerKey where
  ns : String
  apiVersion : String
  kind : String
  name : String
deriving DecidableEq

/-- A Pod, as far as it is read. A label that is empty is none. -/
structure Pod where
  tenantLabel : Option Uuid
  serviceLabel : Option Uuid
  owners : List OwnerRef
  phase : String
  containers : List String
  initContainers : List String
deriving DecidableEq

/-- A Pod with its name. -/
abbrev NamedPod := String × Stored Pod

/-- An object that may own others: its own owners. -/
abbrev Ancestor := Stored (List OwnerRef)

/-- The uid the API server gave an object, as text. -/
def uidText (uid : Nat) : String := toString uid

inductive Stamp
  | missing | invalid
  | at (t : Time)
deriving DecidableEq

/-- A line of a log stream, cut at its first blank. -/
structure RawLine where
  length : Nat
  stamp : Stamp
  message : String
deriving DecidableEq

/-- An open log stream: the uid of the Pod whose container writes it, the lines the scanner cuts
it into, and whether the scanner fails at its end. -/
structure Stream where
  pod : Nat
  lines : List RawLine
  broken : Bool
deriving DecidableEq

structure LogLine where
  timestamp : Time
  message : String
deriving DecidableEq

structure Instance where
  name : String
  uid : Nat
  phase : String
  containers : List String
deriving DecidableEq

/-- A time that is not given is none. -/
structure LogsQuery where
  instanceName : String
  container : String
  since : Option Time
  until_ : Option Time
  tailLines : Int
  follow : Bool
deriving DecidableEq

inductive Err
  | source (e : AniInference.Err)
  | scopeMismatch
  | limit
  | notFound
  | selectContainer
  | stampMissing
  | stampInvalid
  | scanner
  | emit
  | cancelled
  | api (cause : ApiError)
deriving DecidableEq

/-- What others change. -/
inductive Change
  | pods (w : ObjectStore.Write (String × String) Pod)
  | ancestors (w : ObjectStore.Write OwnerKey (List OwnerRef))
  | commit (db : Db)

inductive Call
  | currentRuntime (scope : Scope)
  | listPods (ns : String)
  | getAncestor (key : OwnerKey)
  | getLogs (ns name container : String)
  | getPod (ns name : String)
  | cancelled
  | emit (line : LogLine)
  | change (c : Change)

def Call.Answer : Call → Type
  | .currentRuntime _ => Except AniInference.Err DesiredRuntime
  | .listPods _ => Except ApiError (List NamedPod × Bool)
  | .getAncestor _ => Except ApiError Ancestor
  | .getLogs .. => Except ApiError Stream
  | .getPod .. => Except ApiError (Stored Pod)
  | .cancelled | .emit _ => Bool
  | .change _ => Unit

/-- What the outside decides: faults, where the service is placed, what a container writes. -/
def Call.Choice : Call → Type
  | .currentRuntime _ => Fault × String
  | .listPods _ | .getAncestor _ | .getPod .. => Fault
  | .getLogs .. => Fault × List RawLine × Bool
  | .cancelled | .emit _ => Bool
  | .change _ => Unit

structure Site where
  db : Db
  pods : ObjectStore (String × String) Pod
  ancestors : ObjectStore OwnerKey (List OwnerRef)

def maxDiagnosticPods : Nat := 500

def maxLogBytes : Nat := 2 * 1024 * 1024

/-- The Pods of a namespace. -/
def Site.podsIn (s : Site) (ns : String) : List NamedPod :=
  s.pods.objects.entries.filterMap fun e =>
    if e.1.1 = ns then some (e.1.2, e.2) else none

def Change.run : Change → Site → Site
  | .pods w, s => { s with pods := w.run s.pods }
  | .ancestors w, s => { s with ancestors := w.run s.ancestors }
  | .commit db, s => { s with db := db }

/-- The stream a log request opens: that of the Pod which has the name now. -/
def openLogs (s : Site) (ns name : String) (lines : List RawLine) (broken : Bool) :
    Except ApiError Stream :=
  (s.pods.get (ns, name)).map fun pod => ⟨pod.uid, lines, broken⟩

def act (_ : Nat) : (e : Call) → e.Choice → Site → e.Answer × Site
  | .currentRuntime scope, (fault, ns), s =>
    (heard fault .connection ((RuntimeSource.currentRuntime ns scope.tenantID scope.serviceID
      scope.generation s.db).map Prod.fst), s)
  | .listPods ns, fault, s =>
    (heard fault .unavailable (.ok ((s.podsIn ns).take (maxDiagnosticPods + 1),
      decide ((s.podsIn ns).length > maxDiagnosticPods + 1))), s)
  | .getAncestor key, fault, s => (heard fault .unavailable (s.ancestors.get key), s)
  | .getLogs ns name _, (fault, lines, broken), s =>
    (heard fault .unavailable (openLogs s ns name lines broken), s)
  | .getPod ns name, fault, s => (heard fault .unavailable (s.pods.get (ns, name)), s)
  | .cancelled, answer, s => (answer, s)
  | .emit _, answer, s => (answer, s)
  | .change c, _, s => ((), c.run s)

abbrev Flow := ExceptT Err (Prog Call Call.Answer)

def perform (e : Call) : Flow e.Answer := ExceptT.lift (Prog.perform e)

/-- `ctx.Err()`. -/
def checkContext : Flow Unit := do
  match ← perform .cancelled with
  | true => throw .cancelled
  | false => return ()

def diagnosticBindingKind : ObjectKind → String
  | .kserveInferenceService => "InferenceService"
  | .kserveLLMInferenceService => "LLMInferenceService"
  | kind => kind.text

def hasStart (start text : String) : Bool := start.toList.isPrefixOf text.toList

def diagnosticOwnerKind (apiVersion kind : String) : Bool :=
  if kind = "Deployment" ∨ kind = "ReplicaSet" ∨ kind = "StatefulSet" then apiVersion = "apps/v1"
  else if kind = "Job" then apiVersion = "batch/v1"
  else if kind = "LeaderWorkerSet" then hasStart "leaderworkerset.x-k8s.io/" apiVersion
  else if kind = "InferenceService" then
    hasStart "serving.kserve.io/" apiVersion || hasStart "ani.kubercloud.com/" apiVersion
  else if kind = "LLMInferenceService" then hasStart "serving.kserve.io/" apiVersion
  else false

/-- The binding is of this object. -/
def binds (b : RuntimeBinding) (ns kind name uid : String) : Bool :=
  b.namespaceName = ns && diagnosticBindingKind b.kind = kind && b.name = name && b.uid = uid

/-- The ancestors read for this request; one that was not found is none. -/
abbrev Ancestors := Table OwnerKey (Option Ancestor)

def OwnerRef.key (o : OwnerRef) (ns : String) : OwnerKey := ⟨ns, o.apiVersion, o.kind, o.name⟩

/-- The owner references that are followed. -/
def OwnerRef.followed (o : OwnerRef) : Bool :=
  diagnosticOwnerKind o.apiVersion o.kind && o.controller

/-- Each ancestor is read once. -/
def loadAncestor (key : OwnerKey) (table : Ancestors) : Flow (Option Ancestor × Ancestors) :=
  match table.lookup key with
  | some object => return (object, table)
  | none => do
    match ← perform (.getAncestor key) with
    | .ok object => return (some object, table.insert key (some object))
    | .error .notFound => return (none, table.insert key none)
    | .error e => throw (.api e)

/-- The loop of `boundObject` over the owners; `visit` is its call on an owner. -/
def searchOwners (ns : String) (visit : OwnerRef → Ancestor → Ancestors → Flow (Bool × Ancestors)) :
    List OwnerRef → Ancestors → Flow (Bool × Ancestors)
  | [], table => return (false, table)
  | o :: rest, table =>
    if o.followed then do
      match ← loadAncestor (o.key ns) table with
      | (none, table) => searchOwners ns visit rest table
      | (some object, table) =>
        if uidText object.uid = o.uid then do
          match ← visit o object table with
          | (true, table) => return (true, table)
          | (false, table) => searchOwners ns visit rest table
        else searchOwners ns visit rest table
    else searchOwners ns visit rest table

/-- `boundObject` at the depth `9 - n`. -/
def boundObject (bindings : List RuntimeBinding) (ns : String) :
    Nat → (kind name uid : String) → List OwnerRef → Ancestors → Flow (Bool × Ancestors)
  | 0, _, _, _, _, table => do
    checkContext
    return (false, table)
  | n + 1, kind, name, uid, owners, table => do
    checkContext
    if uid = "" then return (false, table)
    else if bindings.any (binds · ns kind name uid) then return (true, table)
    else
      searchOwners ns
        (fun o object => boundObject bindings ns n o.kind o.name o.uid object.value) owners table

/-- No label says that the Pod is of another tenant or service. -/
def admissible (scope : Scope) (pod : Pod) : Bool :=
  pod.tenantLabel.all (· = scope.tenantID) && pod.serviceLabel.all (· = scope.serviceID)

/-- The loop of `ownedPods` over the Pods of the namespace. -/
def siftPods (scope : Scope) (runtime : DesiredRuntime) :
    List NamedPod → Ancestors → Flow (List NamedPod)
  | [], _ => return []
  | pod :: rest, table =>
    if admissible scope pod.2.value then do
      let (owned, table) ← boundObject runtime.bindings runtime.namespaceName 9 "Pod" pod.1
        (uidText pod.2.uid) pod.2.value.owners table
      let owners ← siftPods scope runtime rest table
      return if owned then pod :: owners else owners
    else siftPods scope runtime rest table

def inScope (scope : Scope) (runtime : DesiredRuntime) : Bool :=
  runtime.tenantID = scope.tenantID && runtime.serviceID = scope.serviceID &&
  runtime.generation = scope.generation && runtime.namespaceName ≠ ""

/-- The Pods of a runtime that is in scope. -/
def podsOf (scope : Scope) (runtime : DesiredRuntime) : Flow (List NamedPod) := do
  match ← perform (.listPods runtime.namespaceName) with
  | .error e => throw (.api e)
  | .ok (items, more) =>
    if items.length > maxDiagnosticPods ∨ more = true then throw .limit
    else do
      let pods ← siftPods scope runtime items ∅
      return pods.insertionSort fun a b => a.1 ≤ b.1

/-- `ownedPods`. -/
def ownedPods (scope : Scope) : Flow (DesiredRuntime × List NamedPod) := do
  match ← perform (.currentRuntime scope) with
  | .error e => throw (.source e)
  | .ok runtime =>
    if inScope scope runtime then do
      let pods ← podsOf scope runtime
      return (runtime, pods)
    else throw .scopeMismatch

def instanceOf (pod : NamedPod) : Instance :=
  ⟨pod.1, pod.2.uid, pod.2.value.phase, pod.2.value.containers ++ pod.2.value.initContainers⟩

inductive Reply
  | instances (result : List Instance)
  | logs (truncated : Bool)
deriving DecidableEq

/-- `Instances`. -/
def instances (scope : Scope) : Flow Reply := do
  let (_, pods) ← ownedPods scope
  return .instances (pods.map instanceOf)

def chooseContainer (query : LogsQuery) (pod : Pod) : Except Err String :=
  if query.container ≠ "" then
    if query.container ∈ pod.containers ++ pod.initContainers then .ok query.container
    else .error .notFound
  else match pod.containers with
    | [container] => .ok container
    | _ => .error .selectContainer

/-- What is done with a line: it is left out, ends the stream, or is emitted. -/
inductive Verdict
  | skip | stop | emit (line : LogLine)

def judge (query : LogsQuery) (raw : RawLine) : Except Err Verdict :=
  match raw.stamp with
  | .missing => .error .stampMissing
  | .invalid => .error .stampInvalid
  | .at t =>
    if query.since.any (t < ·) then .ok .skip
    else if query.until_.any (· ≤ t) then .ok (if query.follow then .stop else .skip)
    else .ok (.emit ⟨t, raw.message⟩)

/-- `readRuntimeLogs`, with the bytes and lines so far. -/
def readRuntimeLogs (query : LogsQuery) (broken : Bool) : Nat → Int → List RawLine → Flow Bool
  | bytes, _, [] => if broken then throw .scanner else return decide (bytes ≥ maxLogBytes)
  | bytes, lines, raw :: rest => do
    checkContext
    if bytes + raw.length + 1 > maxLogBytes then return true
    else match judge query raw with
      | .error e => throw e
      | .ok .skip => readRuntimeLogs query broken (bytes + raw.length + 1) lines rest
      | .ok .stop => return false
      | .ok (.emit line) =>
        if query.follow = false ∧ lines ≥ query.tailLines then return true
        else do
          match ← perform (.emit line) with
          | true => readRuntimeLogs query broken (bytes + raw.length + 1) (lines + 1) rest
          | false => throw .emit

/-- `Logs` once the Pod and its container are chosen. The stream is opened by name, so the name's
uid is read again before anything of it is emitted. -/
def streamLogs (query : LogsQuery) (ns : String) (pod : NamedPod) (container : String) :
    Flow Reply := do
  match ← perform (.getLogs ns pod.1 container) with
  | .error e => throw (.api e)
  | .ok stream =>
    match ← perform (.getPod ns pod.1) with
    | .error e => throw (.api e)
    | .ok actual =>
      if actual.uid = pod.2.uid then do
        let truncated ← readRuntimeLogs query stream.broken 0 0 stream.lines
        return .logs truncated
      else throw .notFound

/-- `Logs`. -/
def logs (scope : Scope) (query : LogsQuery) : Flow Reply := do
  let (runtime, pods) ← ownedPods scope
  match pods.find? fun pod => pod.1 = query.instanceName with
  | none => throw .notFound
  | some pod =>
    match chooseContainer query pod.2.value with
    | .error e => throw e
    | .ok container => streamLogs query runtime.namespaceName pod container

/-- Diagnostics requests, and whoever else changes the cluster and the database. -/
inductive Party
  | instances (scope : Scope)
  | logs (scope : Scope) (query : LogsQuery)
  | rest (program : Prog Call Call.Answer (Except Err Reply))
      (only : program.Only fun e => ∃ c, e = .change c)

def Party.program : Party → Prog Call Call.Answer (Except Err Reply)
  | .instances scope => (Diagnostics.instances scope).run
  | .logs scope query => (Diagnostics.logs scope query).run
  | .rest program _ => program

/-- The runs of any such parties. -/
abbrev DiagnosticsRun (parties : Nat → Party) :=
  Run act (fun i => (parties i).program) fun s => s.pods.Sound

abbrev DiagnosticsMoment := Moment Site Call Call.Answer

abbrev Seen := Σ e : Call, e.Answer

end AniInference.Diagnostics
