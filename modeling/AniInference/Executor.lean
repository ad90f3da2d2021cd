import AniInference.RuntimeSource
import AniInference.Lib.Decimal
import AniInference.Lib.ObjectStore

namespace AniInference.Executor
open Lib

/-- Why a request of a runtime executor fails. -/
inductive Err
  | source (cause : AniInference.Err)
  | staleGeneration
  | message (why : String)
  | api (cause : ApiError)
deriving DecidableEq, Repr

/-- The labels by which an object of a service is known. An empty identity is none. -/
structure Labels where
  tenant : Option Uuid
  service : Option Uuid
  generation : String
deriving DecidableEq

/-- The uid or the version the API server gave an object, as text. -/
def text (n : Nat) : String := toString n

def ownedBy (labels : Labels) (tenant service : Uuid) : Bool :=
  labels.tenant = some tenant && labels.service = some service

def runtimeModeForSpec (spec : DesiredRuntime) : String :=
  if spec.runtimeMode = "" then "deployment" else spec.runtimeMode

def endpointBindingForSpec (spec : DesiredRuntime) : Option RuntimeBinding :=
  spec.bindings.find? fun b => b.role = .endpoint ∧ b.kind = .service

def expectedUID (expected : Option RuntimeBinding) : String := expected.elim "" (·.uid)

def expectedResourceVersion (expected : Option RuntimeBinding) : String :=
  expected.elim "" (·.resourceVersion)

/-- `validateObservedObject`, for the object read under a name. -/
def validateObservedObject {V : Type} (kind : ObjectKind) (ns name : String) (o : Stored V)
    (labels : Labels) (tenant service : Uuid) (generation : Generation)
    (expected : Option RuntimeBinding) : Except Err RuntimeObject := do
  unless ownedBy labels tenant service do
    throw (.message "observed runtime ownership labels do not match")
  match parseInt 64 labels.generation with
  | none => throw (.message "observed runtime is missing a valid generation label")
  | some labelled =>
    if labelled < 1 then throw (.message "observed runtime is missing a valid generation label")
    if labelled ≠ (generation : Int) then throw .staleGeneration
  if expected.any fun b => b.namespaceName ≠ ns ∨ b.name ≠ name then throw .staleGeneration
  if expected.any fun b => b.uid = "" ∨ b.uid ≠ text o.uid then throw .staleGeneration
  return {
    bindingGeneration := generation, kind := kind, namespaceName := ns, name := name
    uid := text o.uid, resourceVersion := text o.version
    role := expected.elim .runtime (·.role)
    expectedUID := expectedUID expected, expectedResourceVersion := expectedResourceVersion expected
    missing := false }

/-- What `observeBinding` reports of a bound object that is not there. -/
def missingObject (b : RuntimeBinding) : RuntimeObject :=
  { bindingGeneration := b.generation, kind := b.kind, namespaceName := b.namespaceName
    name := b.name, uid := b.uid, resourceVersion := b.resourceVersion, role := b.role
    expectedUID := b.uid, expectedResourceVersion := b.resourceVersion, missing := true }

end AniInference.Executor
