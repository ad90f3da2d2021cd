import AniInference.Operation
import AniInference.Lib.UuidText
import Mathlib.Algebra.Group.Int.Defs

namespace AniInference

/-- What a worker can be told instead of a result. The sentinels the source compares with
`errors.Is` are constructors of their own. -/
inductive Err
  | noRows
  | connection
  | uniqueViolation
  | foreignKeyViolation
  | staleGeneration
  | leaseLost
  | operationCAS
  | reservationNotFound
  | providerMissing (what : String)
  | notReady (what : String)
  | notFound
  | generationConflict
  | idempotencyConflict
  | operationActive
  | invalidState (why : String)
  | text (message : String)
  | wrapped (context : String) (cause : Err)
  | join (first second : Err)
deriving DecidableEq, Repr

namespace Gpu
open Lib.Text (blank trim)

structure Request where
  clusterID : String
  poolID : String
  profileID : String
  profileVersion : Nat
  replicas : Nat
  devicesPerReplica : Nat
  containerName : String
deriving DecidableEq, Repr

structure Execution where
  schedulerName : String
  queueName : String
  runtimeClassName : String
  nodeSelector : List (String × String)
  podAnnotations : List (String × String)
  resources : List (String × String)
  executionDigest : String
deriving DecidableEq, Repr

structure Display where
  profileID : String
  profileVersion : Nat
  profileName : String
  modelKey : String
  mode : Int
deriving DecidableEq, Repr

structure Snapshot where
  request : Option Request
  execution : Option Execution
  display : Option Display
  executionDigest : String
deriving DecidableEq, Repr

/-- One Pod that may hold a device: names alone do not tell a replacement apart. -/
structure PodRef where
  clusterID : String
  namespaceName : String
  name : String
  uid : String
  containerName : String
deriving DecidableEq, Repr

def hexDigit (c : Char) : Bool := c.isDigit || ('a' ≤ c && c ≤ 'f')

/-- The shape `uuidPattern` asks for, position by position. -/
def uuidShape : List (Char → Bool) :=
  let hex (n : Nat) := List.replicate n hexDigit
  let dash : List (Char → Bool) := [(· == '-')]
  hex 8 ++ dash ++ hex 4 ++ dash ++ [fun c => '1' ≤ c && c ≤ '8'] ++ hex 3 ++ dash ++
    [fun c => c == '8' || c == '9' || c == 'a' || c == 'b'] ++ hex 3 ++ dash ++ hex 12

def matchesShape (shape : List (Char → Bool)) (s : String) : Bool :=
  shape.length == s.toList.length && (shape.zip s.toList).all fun p => p.1 p.2

def uuidPattern (s : String) : Bool := matchesShape uuidShape s

def digestPattern (s : String) : Bool := matchesShape (List.replicate 64 hexDigit) s

def namePattern (s : String) : Bool :=
  let edge (c : Char) := c.isDigit || c.isLower
  let cs := s.toList
  cs.head?.any edge && cs.getLast?.any edge && cs.all fun c => edge c || c == '-'

def validateRequest : Option Request → Except Err Unit
  | none => .error (.text "invalid GPU request")
  | some r =>
    if !uuidPattern r.clusterID || !uuidPattern r.poolID || !uuidPattern r.profileID ||
        r.profileVersion == 0 then
      .error (.text "invalid GPU request")
    else if r.replicas < 1 || r.replicas > 16 || r.devicesPerReplica < 1 ||
        r.containerName.toList.length == 0 || r.containerName.toList.length > 63 ||
        !namePattern r.containerName then
      .error (.text "unsupported GPU request shape")
    else .ok ()

def totalPods (replicas : Int) (mode : String) (workers : Int) : Except Err Int :=
  if replicas < 1 then .error (.text "replicas must be positive")
  else if mode = "" ∨ mode = "deployment" then
    if workers > 1 ∨ workers < 0 then
      .error (.text "worker_replicas is only valid for leader_worker_set")
    else .ok replicas
  else if mode = "leader_worker_set" then
    if workers < 1 then .error (.text "leader_worker_set requires workers")
    else if replicas * (workers + 1) > 2 ^ 31 - 1 then
      .error (.text "GPU topology overflows pod count")
    else .ok (replicas * (workers + 1))
  else .error (.text s!"unsupported runtime mode {quoted mode}")

def validateTopology (request : Option Request) (replicas : Int) (mode : String)
    (workers : Int) : Except Err Unit := do
  validateRequest request
  if replicas < 1 then throw (.text "replicas must be positive")
  let expected ← totalPods replicas mode workers
  let r ← match request with
    | some r => pure r
    | none => throw (.text "invalid GPU request")
  if (r.replicas : Int) ≠ expected then
    throw (.text s!"GPU replicas must match GPU-bearing pod count {expected}")
  if mode = "" ∨ mode = "deployment" then
    if r.containerName ≠ "kserve-container" then
      throw (.text "deployment GPU container must be kserve-container")
  else if r.containerName ≠ "main" then
    throw (.text "leader_worker_set GPU container must be main")

def validateExecution (e : Execution) : Except Err Unit := do
  if !digestPattern (trim e.executionDigest) then
    throw (.text "GPU execution digest is required")
  for (name, values) in [("node_selector", e.nodeSelector),
      ("pod_annotations", e.podAnnotations), ("resources", e.resources)] do
    for (k, v) in values do
      if blank k || blank v then throw (.text s!"empty GPU execution {name} key/value")

/-- `ValidateSnapshot`. A snapshot without its own digest takes its execution's, so the
checked snapshot is the result. -/
def validateSnapshot (s : Option Snapshot) (request : Option Request) : Except Err Snapshot :=
  match s, request with
  | some s, some request =>
    match s.request, s.execution, s.display with
    | some r, some e, some d =>
      if r ≠ request then .error (.text "invalid GPU execution snapshot")
      else do
        validateRequest (some request)
        validateExecution e
        if !uuidPattern d.profileID || d.profileID != request.profileID || d.profileVersion == 0 ||
            blank d.profileName || blank d.modelKey then
          throw (.text "invalid GPU display selection")
        if d.profileVersion != request.profileVersion || (d.mode != 1 && d.mode != 2) then
          throw (.text "GPU display does not match request")
        let digest := if s.executionDigest = "" then e.executionDigest else s.executionDigest
        if digest = "" ∨ e.executionDigest = "" ∨ digest ≠ e.executionDigest then
          throw (.text "GPU execution digest is required")
        pure { s with executionDigest := digest }
    | _, _, _ => .error (.text "invalid GPU execution snapshot")
  | _, _ => .error (.text "invalid GPU execution snapshot")

end Gpu
end AniInference
