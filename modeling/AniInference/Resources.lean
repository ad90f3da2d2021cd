import AniInference.Gpu
import Mathlib.Data.List.Dedup
import Mathlib.Data.List.Sort

namespace AniInference
namespace Resources

/-- `resource.Quantity`, as its canonical text is parsed: `unscaled * 10 ^ exponent`. -/
structure Quantity where
  unscaled : Int
  exponent : Int
deriving DecidableEq, Repr

/-- `Quantity.Cmp` puts both on the smaller exponent. -/
def Quantity.le (p q : Quantity) : Bool :=
  let low := min p.exponent q.exponent
  p.unscaled * 10 ^ (p.exponent - low).toNat ≤ q.unscaled * 10 ^ (q.exponent - low).toNat

/-- `Quantity.Mul`: false where the product leaves 64 bits. -/
def Quantity.mul (q : Quantity) (units : Int) : Option Quantity :=
  let product := q.unscaled * units
  if -2 ^ 63 ≤ product ∧ product < 2 ^ 63 then some { q with unscaled := product } else none

/-- The maps are Go's: one entry a name, in no order. -/
structure Spec where
  requests : List (String × Quantity)
  limits : List (String × Quantity)
  gpu : Option Gpu.Request
deriving DecidableEq, Repr

/-- `resources.Demand`. -/
structure Demand where
  resources : Spec
  units : Int
deriving DecidableEq, Repr

def slashed (name : String) : Bool := name.toList.contains '/'

def isExtended (name : String) : Bool :=
  slashed name && !"kubernetes.io/".toList.isPrefixOf name.toList

def alphanumeric (c : Char) : Bool := c.isAlpha || c.isDigit

/-- One label of a qualified name, over the characters `inner` admits. -/
def label (edge inner : Char → Bool) (limit : Nat) (cs : List Char) : Bool :=
  cs.length ≤ limit && cs.head?.any edge && cs.getLast?.any edge && cs.all fun c =>
    edge c || inner c

/-- `utilvalidation.IsQualifiedName`: a name, behind a DNS subdomain and a slash where it has
one. -/
def qualifiedName (name : String) : Bool :=
  let part := label alphanumeric (fun c => c == '-' || c == '_' || c == '.') 63
  let domain := label (fun c => c.isLower || c.isDigit) (fun c => c == '-') 253
  match name.toList.splitOn '/' with
  | [base] => part base
  | [host, base] => (host.splitOn '.').all domain && host.length ≤ 253 && part base
  | _ => false

def Spec.names (s : Spec) : List String :=
  (s.requests.map Prod.fst ++ s.limits.map Prod.fst).dedup.insertionSort (· ≤ ·)

/-- Kubernetes defaults an extended resource's request from its limit. -/
def Spec.effectiveRequest (s : Spec) (name : String) : Option Quantity :=
  match s.requests.lookup name with
  | some q => some q
  | none => if isExtended name then s.limits.lookup name else none

/-- The checks `Normalize` makes of one name. -/
def Spec.checkName (s : Spec) (name : String) : Except Err Unit := do
  let request := s.requests.lookup name
  let limit := s.limits.lookup name
  let effective := s.effectiveRequest name
  if !qualifiedName name then throw (.text s!"invalid resource name {quoted name}")
  if request.any (·.unscaled < 0) then
    throw (.text s!"invalid request for {name}: quantity must be non-negative")
  if limit.any (·.unscaled < 0) then
    throw (.text s!"invalid limit for {name}: quantity must be non-negative")
  if effective.any fun q => limit.any fun l => !q.le l then
    throw (.text s!"request exceeds limit for {name}")
  if isExtended name && request.any fun q => limit.any fun l => !l.le q then
    throw (.text s!"extended resource {name} must have equal request and limit")

/-- A device and extended resources exclude each other. -/
def Spec.checkGPU (s : Spec) : Except Err Unit :=
  match s.gpu with
  | none => .ok ()
  | some request => do
    Gpu.validateRequest (some request)
    match (s.requests ++ s.limits).find? fun p => slashed p.1 with
    | some p => throw (.text s!"GPU request cannot use extended resource {p.1}")
    | none => return ()

/-- `Normalize`. -/
def normalize (s : Spec) : Except Err Spec := do
  s.checkGPU
  s.names.forM s.checkName
  return {
    requests := s.names.filterMap fun name => (s.effectiveRequest name).map fun q => (name, q)
    limits := s.names.filterMap fun name => (s.limits.lookup name).map fun q => (name, q)
    gpu := s.gpu }

/-- The containers a runtime shape runs. -/
def units (replicas : Int) (mode : String) (workers : Int) : Except Err Int :=
  if replicas < 1 then .error (.text "replicas must be positive")
  else if mode = "" ∨ mode = "deployment" then
    if workers > 1 ∨ workers < 0 then
      .error (.text "worker_replicas is only valid for leader_worker_set runtime")
    else .ok replicas
  else if mode = "leader_worker_set" then
    if workers < 1 then .error (.text "leader_worker_set requires at least one worker")
    else .ok (replicas * (workers + 1))
  else .error (.text s!"unsupported runtime mode {quoted mode}")

/-- One entry of a map, as many times as there are containers. -/
def multiplied (units : Int) (entry : String × Quantity) : Except Err (String × Quantity) :=
  match entry.2.mul units with
  | some q => .ok (entry.1, q)
  | none => .error (.text s!"aggregate resource {entry.1} exceeds quantity precision")

/-- `Aggregate`. -/
def aggregate (s : Spec) (replicas : Int) (mode : String) (workers : Int) : Except Err Demand := do
  let n ← units replicas mode workers
  let values ← normalize s
  let requests ← values.requests.mapM (multiplied n)
  let limits ← values.limits.mapM (multiplied n)
  return ⟨⟨requests, limits, values.gpu⟩, n⟩

end Resources

end AniInference
