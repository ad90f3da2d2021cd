import AniInference.Schema
import AniInference.Lib.ObjectStore
import AniInference.Lib.UuidText
import AniInference.Lib.Walk
import AniInference.Lib.Runs

namespace AniInference.Projection
open Lib
open Prog (Asks Only)

/-- Microseconds, as the database keeps time. -/
abbrev Instant := Nat

/-- `inference_services`, as far as a status is made of it; so also the tables below. -/
structure ServiceRow where
  tenantID : Uuid128
  id : Uuid128
  desiredGeneration : Int
  appliedGeneration : Int
  currentOperationID : Option Uuid128
  deletedAt : Option Instant
deriving DecidableEq

/-- An empty uid is none. -/
structure BindingRow where
  tenantID : Uuid128
  serviceID : Uuid128
  generation : Int
  kind : ObjectKind
  role : Role
  objectNamespace : String
  objectName : String
  objectUID : Option Nat
deriving DecidableEq

structure RuntimeRow where
  tenantID : Uuid128
  serviceID : Uuid128
  runtimePhase : String
  readyReplicas : Int
  modelReadyKnown : Bool
  modelReady : Bool
  invocationHealth : String
  observedAt : Option Instant
  staleAfter : Option Instant
deriving DecidableEq

structure PublicationRow where
  tenantID : Uuid128
  serviceID : Uuid128
  generation : Int
  desiredPhase : String
  observedPhase : String
  observedAt : Option Instant
  updatedAt : Instant
deriving DecidableEq

structure OperationRow where
  tenantID : Uuid128
  id : Uuid128
  kind : String
  phase : String
  step : String
  errorMessage : Option String
deriving DecidableEq

structure Tables where
  services : List ServiceRow
  bindings : List BindingRow
  runtimes : List RuntimeRow
  publications : List PublicationRow
  operations : List OperationRow
deriving DecidableEq

/-- `ORDER BY ... DESC LIMIT 1`. -/
def latest {α : Type} (newer : α → α → Bool) (rows : List α) : Option α :=
  rows.foldl (fun best row => if best.all (newer row) then some row else best) none

/-- The row of `GetStatusProjection`. -/
structure StatusRow where
  appliedGeneration : Int
  control : Option BindingRow
  runtimePhase : String
  readyReplicas : Int
  modelReady : Bool
  publicationPhase : String
  publicationEffective : Bool
  invocationHealth : String
  observedAt : Option Instant
  runtimeStaleAfter : Option Instant
  publicationObservedAt : Option Instant
  invocationObservedAt : Option Instant
  operation : Option OperationRow
deriving DecidableEq

/-- The statement `GetStatusProjection`: one snapshot of all tables. -/
def selectStatus (t : Tables) (tenant service : Uuid128) : Option StatusRow := do
  let s ← t.services.find? fun s => s.tenantID = tenant && s.id = service && s.deletedAt.isNone
  let control := latest (fun a b => b.generation < a.generation) <| t.bindings.filter fun b =>
    b.tenantID = tenant && b.serviceID = service && b.kind = .inferenceService &&
    b.role = .control && b.generation ≤ s.desiredGeneration
  let rt := t.runtimes.find? fun r => r.tenantID = tenant && r.serviceID = service
  let pub := latest (fun a b => b.generation < a.generation ||
      (b.generation = a.generation && b.updatedAt < a.updatedAt)) <| t.publications.filter fun p =>
    p.tenantID = tenant && p.serviceID = service && p.generation ≤ s.desiredGeneration
  let op := s.currentOperationID.bind fun id =>
    t.operations.find? fun o => o.tenantID = tenant && o.id = id
  return {
    appliedGeneration := s.appliedGeneration
    control := control
    runtimePhase := (rt.map (·.runtimePhase)).getD "pending"
    readyReplicas := (rt.map (·.readyReplicas)).getD 0
    modelReady := rt.any fun r => r.modelReadyKnown && r.modelReady
    publicationPhase := (pub.map (·.observedPhase)).getD "withdrawn"
    publicationEffective := pub.any fun p => p.generation = s.desiredGeneration &&
      p.desiredPhase = "published" && p.observedPhase = "published"
    invocationHealth := (rt.map (·.invocationHealth)).getD "unhealthy"
    observedAt := rt.bind (·.observedAt)
    runtimeStaleAfter := rt.bind (·.staleAfter)
    publicationObservedAt := pub.bind (·.observedAt)
    invocationObservedAt := rt.bind (·.observedAt)
    operation := op }

def normalizeRuntimePhase (phase : String) : String :=
  if phase = "" ∨ phase = "unknown" then "pending" else phase

def normalizePublicationPhase (phase : String) : String :=
  if phase = "" ∨ phase = "unknown" then "withdrawn" else phase

def normalizeInvocationHealth (runtimePhase publicationPhase health : String) : String :=
  let health := if health = "" then "unhealthy" else health
  if health = "unknown" ∧ (runtimePhase ≠ "ready" ∨ publicationPhase ≠ "published") then "unhealthy"
  else health

/-- `RuntimeBinding`, as far as the projector compares it. -/
structure ControlBinding where
  kind : ObjectKind
  role : Role
  ns : String
  name : String
  uid : Option Nat
deriving DecidableEq

/-- `OperationProjection`, and `OperationStatus` of the custom resource. -/
structure OperationStatus where
  id : Text
  kind : String
  phase : String
  step : String
  message : String
deriving DecidableEq

structure StatusProjection where
  controlBinding : Option ControlBinding
  appliedGeneration : Int
  runtimePhase : String
  readyReplicas : Int
  modelReady : Bool
  publicationPhase : String
  publicationEffective : Bool
  invocationHealth : String
  observedAt : Option Instant
  runtimeStaleAfter : Option Instant
  publicationObservedAt : Option Instant
  invocationObservedAt : Option Instant
  operation : Option OperationStatus
deriving DecidableEq

/-- The binding counts from generation 1 on. -/
def controlBinding (row : StatusRow) : Option ControlBinding :=
  (row.control.filter fun b => 0 < b.generation).map fun b =>
    ⟨.inferenceService, .control, b.objectNamespace, b.objectName, b.objectUID⟩

def projectionOf (row : StatusRow) : StatusProjection :=
  let runtimePhase := normalizeRuntimePhase row.runtimePhase
  let publicationPhase := normalizePublicationPhase row.publicationPhase
  { controlBinding := controlBinding row
    appliedGeneration := row.appliedGeneration
    runtimePhase := runtimePhase
    readyReplicas := row.readyReplicas
    modelReady := row.modelReady
    publicationPhase := publicationPhase
    publicationEffective := row.publicationEffective
    invocationHealth :=
      normalizeInvocationHealth runtimePhase publicationPhase row.invocationHealth
    observedAt := row.observedAt
    runtimeStaleAfter := row.runtimeStaleAfter
    publicationObservedAt := row.publicationObservedAt
    invocationObservedAt := row.invocationObservedAt
    operation := row.operation.map fun o =>
      ⟨o.id.text, o.kind, o.phase, o.step, o.errorMessage.getD ""⟩ }

inductive Err
  | missingLabels (ns name : String)
  | identityChanged
  | invalidID (label : String)
  | noRows
  | connection
  | unmatched
  | api (cause : ApiError)
deriving DecidableEq

/-- `GetStatusProjection`. -/
def getStatusProjection (t : Tables) (tenantID serviceID : Text) : Except Err StatusProjection :=
  match Uuid128.parse tenantID, Uuid128.parse serviceID with
  | none, _ => .error (.invalidID "tenant_id")
  | _, none => .error (.invalidID "service_id")
  | some tenant, some service =>
    match selectStatus t tenant service with
    | none => .error .noRows
    | some row => .ok (projectionOf row)

structure RuntimeStatus where
  phase : String
  readyReplicas : Int
  modelReady : Bool
  observedAt : Option Instant
  staleAfter : Option Instant
deriving DecidableEq

structure PublicationStatus where
  phase : String
  effective : Bool
  observedAt : Option Instant
deriving DecidableEq

structure InvocationStatus where
  health : String
  observedAt : Option Instant
deriving DecidableEq

/-- `InferenceServiceStatus`. -/
structure Status where
  observedGeneration : Int
  observedAt : Option Instant
  runtimePhase : String
  readyReplicas : Int
  modelReady : Bool
  publicationPhase : String
  invocationHealth : String
  runtime : Option RuntimeStatus
  publication : Option PublicationStatus
  invocation : Option InvocationStatus
  operation : Option OperationStatus
deriving DecidableEq

/-- `InferenceService`: the labels that name its service (empty if missing), the spec and the
status. -/
structure CR where
  tenantLabel : Text
  serviceLabel : Text
  spec : String
  status : Status
deriving DecidableEq

def statusFromProjection (p : StatusProjection) : Status :=
  { observedGeneration := p.appliedGeneration
    observedAt := p.observedAt
    runtimePhase := p.runtimePhase
    readyReplicas := p.readyReplicas
    modelReady := p.modelReady
    publicationPhase := p.publicationPhase
    invocationHealth := p.invocationHealth
    runtime := some ⟨p.runtimePhase, p.readyReplicas, p.modelReady, p.observedAt,
      p.runtimeStaleAfter⟩
    publication := some ⟨p.publicationPhase, p.publicationEffective, p.publicationObservedAt⟩
    invocation := some ⟨p.invocationHealth, p.invocationObservedAt⟩
    operation := p.operation }

/-- A time as the API server keeps it: in whole seconds. -/
def seconds (t : Instant) : Instant := t - t % 1000000

/-- A status as the API server keeps it. -/
def Status.wire (s : Status) : Status :=
  { s with
    observedAt := s.observedAt.map seconds
    runtime := s.runtime.map fun r => { r with
      observedAt := r.observedAt.map seconds, staleAfter := r.staleAfter.map seconds }
    publication := s.publication.map fun p => { p with observedAt := p.observedAt.map seconds }
    invocation := s.invocation.map fun i => { i with observedAt := i.observedAt.map seconds } }

/-- Namespace and name. -/
abbrev Key := String × String

inductive Call
  | get (key : Key)
  | getStatusProjection (tenantID serviceID : Text)
  | patchStatus (key : Key) (version : Nat) (status : Status)
  | write (w : ObjectStore.Write Key CR)
  | commit (t : Tables)

def Call.Answer : Call → Type
  | .get _ | .patchStatus .. => Except ApiError (Stored CR)
  | .getStatusProjection .. => Except Err StatusProjection
  | .write _ | .commit _ => Unit

def Call.Choice : Call → Type
  | .get _ | .getStatusProjection .. | .patchStatus .. => Fault
  | .write _ | .commit _ => Unit

/-- The API server's custom resources and the primary database. -/
structure Site where
  cluster : ObjectStore Key CR
  tables : Tables

def act (_ : Nat) : (e : Call) → e.Choice → Site → e.Answer × Site
  | .get key, fault, s => (heard fault .unavailable (s.cluster.get key), s)
  | .getStatusProjection tenant service, fault, s =>
    (heard fault .connection (Projection.getStatusProjection s.tables tenant service), s)
  | .patchStatus key version status, fault, s =>
    let r := s.cluster.settle fault (·.patch key version fun cr =>
      { cr with status := status.wire })
    (r.1, { s with cluster := r.2 })
  | .write w, _, s => ((), { s with cluster := w.run s.cluster })
  | .commit t, _, s => ((), { s with tables := t })

abbrev Flow := ExceptT Err (Prog Call Call.Answer)

def perform (e : Call) : Flow e.Answer := ExceptT.lift (Prog.perform e)

def identityFromObject (key : Key) (cr : CR) : Except Err (Text × Text) :=
  if cr.tenantLabel = [] ∨ cr.serviceLabel = [] then .error (.missingLabels key.1 key.2)
  else .ok (cr.tenantLabel, cr.serviceLabel)

/-- The binding of the snapshot is of this object. -/
def Controls (p : StatusProjection) (key : Key) (uid : Nat) : Prop :=
  ∃ b, p.controlBinding = some b ∧ b.kind = .inferenceService ∧ b.role = .control ∧
    b.uid = some uid ∧ b.ns = key.1 ∧ b.name = key.2

instance (p : StatusProjection) (key : Key) (uid : Nat) : Decidable (Controls p key uid) :=
  decidable_of_iff (p.controlBinding.any fun b => b.kind = .inferenceService && b.role = .control &&
      b.uid = some uid && b.ns = key.1 && b.name = key.2) <| by
    unfold Controls
    cases p.controlBinding with
    | none => simp
    | some b => simp [and_assoc]

/-- What the first attempt saw: the object's uid and labels. -/
structure Original where
  uid : Nat
  tenantID : Text
  serviceID : Text
deriving DecidableEq

/-- The snapshot is read, and the status patched if it is another; `again` is the next attempt. -/
def projectOnto (key : Key) (current : Stored CR) (again : Flow Unit) : Flow Unit := do
  match ← perform (.getStatusProjection current.value.tenantLabel current.value.serviceLabel) with
  | .error e => throw e
  | .ok p =>
    if Controls p key current.uid then
      if current.value.status = statusFromProjection p then return ()
      else
        match ← perform (.patchStatus key current.version (statusFromProjection p)) with
        | .ok _ => return ()
        | .error .conflict => again
        | .error e => throw (.api e)
    else throw .unmatched

/-- The attempts of `Project` that are left; only a conflict leads to another. -/
def attempts (key : Key) : Nat → Option Original → Flow Unit
  | 0, _ => throw (.api .conflict)
  | n + 1, original => do
    match ← perform (.get key) with
    | .error e => throw (.api e)
    | .ok current =>
      match identityFromObject key current.value with
      | .error e => throw e
      | .ok (tenantID, serviceID) =>
        if original.all (· = ⟨current.uid, tenantID, serviceID⟩) then
          projectOnto key current (attempts key n (some ⟨current.uid, tenantID, serviceID⟩))
        else throw .identityChanged

/-- `StatusProjector.Project`. `retry.DefaultBackoff` has four steps. -/
def project (key : Key) : Flow Unit := attempts key 4 none

/-- Projectors, and whoever else writes custom resources and commits to the database. -/
inductive Party
  | project (key : Key)
  | rest (program : Prog Call Call.Answer (Except Err Unit))
      (only : program.Only fun e => (∃ w, e = .write w) ∨ ∃ t, e = .commit t)

def Party.program : Party → Prog Call Call.Answer (Except Err Unit)
  | .project key => (Projection.project key).run
  | .rest program _ => program

/-- The runs of any such parties, from any site. -/
abbrev ProjectionRun (parties : Nat → Party) :=
  Run act (fun i => (parties i).program) fun s => s.cluster.Sound

abbrev ProjectionMoment := Moment Site Call Call.Answer

abbrev Seen := Σ e : Call, e.Answer

def Call.snapshots : Call → Bool
  | .getStatusProjection .. => true
  | _ => false

/-- The event writes a status onto the object `o` under `key`. -/
structure Written (x : ProjectionMoment) (key : Key) (o : Stored CR) (status : Status) : Prop where
  call : ∃ version, x.call = .patchStatus key version status
  found : x.before.cluster.find key = some o
  changed : x.after.cluster.find key ≠ some o

/-- The event `z` is the last snapshot the process `i` has taken. -/
structure Taken (i : Nat) (past : List ProjectionMoment) (z : ProjectionMoment)
    (older : List ProjectionMoment) : Prop where
  split : ∃ mid, past = mid ++ z :: older ∧ ∀ w ∈ mid, w.actor = i → w.call.snapshots = false
  actor : z.actor = i
  call : z.call.snapshots = true

section
variable {key : Key}

/-- A patch comes right after a read of the object and a snapshot of its service, and is for the
version read, with the status of the snapshot. -/
def Patches (key : Key) (es : List Seen) (e : Call) : Prop :=
  ∀ key' version status, e = .patchStatus key' version status → key' = key ∧
    ∃ es₁ current p, es = es₁ ++ [⟨.get key, .ok current⟩] ++
        [⟨.getStatusProjection current.value.tenantLabel current.value.serviceLabel, .ok p⟩] ∧
      version = current.version ∧ status = statusFromProjection p ∧ Controls p key current.uid

theorem walk_projectOnto (hagain : ∀ es, Walk (Patches key) (fun _ _ => True) es again.run) :
    Walk (Patches key) (fun _ _ => True) (es ++ [⟨.get key, .ok current⟩])
      (projectOnto key current again).run := by
  refine walk_lift_bind (fun _ _ _ h => by cases h) fun answer => ?_
  cases answer with
  | error e => trivial
  | ok p =>
    by_cases hcontrols : Controls p key current.uid
    · simp only [hcontrols, if_true]
      split
      · trivial
      · refine walk_lift_bind ?_ fun answer => ?_
        · intro key' version status heq
          cases heq
          exact ⟨rfl, es, current, p, rfl, rfl, rfl, hcontrols⟩
        · rcases answer with (_ | _ | _ | _ | _) | _
          case error.conflict => exact hagain _
          all_goals trivial
    · simp only [hcontrols, if_false]
      trivial

theorem walk_attempts (n : Nat) (original : Option Original) (es : List Seen) :
    Walk (Patches key) (fun _ _ => True) es (attempts key n original).run := by
  induction n generalizing original es with
  | zero => trivial
  | succ n ih =>
    refine walk_lift_bind (fun _ _ _ h => by cases h) fun answer => ?_
    cases answer with
    | error e => trivial
    | ok current =>
      cases hidentity : identityFromObject key current.value with
      | error e =>
        simp only [hidentity]
        trivial
      | ok id =>
        simp only [hidentity]
        split
        · exact walk_projectOnto fun es => ih _ es
        · trivial

end

/-- No step makes the custom resources go back. -/
theorem evolves_act (i : Nat) (e : Call) (choice : e.Choice) (s : Site) :
    s.cluster.Evolves (act i e choice s).2.cluster := by
  cases e with
  | get | getStatusProjection | commit => exact .refl _
  | patchStatus key version status => exact .settle (.patch key version _ _) choice
  | write w => exact .write w _

section
variable {parties : Nat → Party} {h past : List ProjectionMoment} {s : Site}

theorem evolves_of_arises
    (hmade : Arises act (fun i => (parties i).program) (fun s => s.cluster.Sound) x past) :
    x.before.cluster.Evolves x.after.cluster := by
  obtain ⟨choice, _, hafter⟩ := hmade.acted
  rw [hafter]
  exact evolves_act _ _ choice _

theorem sound_of_run (hr : ProjectionRun parties h s) : s.cluster.Sound := by
  refine hr.invariant (fun _ hs => hs) fun y older hy hsound => ?_
  exact (evolves_of_arises (hr.arises hy)).sound hsound

/-- From an event on the custom resources have only evolved. -/
theorem evolves_since (hr : ProjectionRun parties (mid ++ x :: past) s) :
    x.after.cluster.Evolves s.cluster := by
  refine hr.since (P := fun s => x.after.cluster.Evolves s.cluster) (.refl _) ?_
  intro y older _ hy hbefore
  exact hbefore.trans (evolves_of_arises (hr.arises hy))

/-- The last call of a process, found in the history. -/
theorem last_of_trace (ht : trace i past = es ++ [a]) :
    ∃ mid x older, past = mid ++ x :: older ∧ x.actor = i ∧ x.seen = a ∧ trace i older = es ∧
      ∀ w ∈ mid, w.actor ≠ i := by
  obtain ⟨mid, x, older, hpast, hx, hseen, holder, hmid⟩ := trace_split ht
  refine ⟨mid, x, older, hpast, hx, hseen, holder, fun w hw hwi => ?_⟩
  have hmem := mem_trace.mpr ⟨w, hw, hwi, rfl⟩
  rw [hmid] at hmem
  cases hmem

/-- A write is for the version it finds, and leaves a new one. -/
theorem Written.version (hx : Written x key o status)
    (hmade : Arises act (fun i => (parties i).program) (fun s => s.cluster.Sound) x past) :
    x.call = .patchStatus key o.version status ∧
      (∃ o', x.after.cluster.find key = some o' ∧ o'.version = x.before.cluster.next) ∧
      x.before.cluster.next < x.after.cluster.next := by
  obtain ⟨⟨version, hcall⟩, found, changed⟩ := hx
  obtain ⟨choice, _, hafter⟩ := hmade.acted
  obtain ⟨actor, call, answer, before, after⟩ := x
  dsimp only at hcall hafter found changed choice ⊢
  subst hcall hafter
  have hsite : (act actor (.patchStatus key version status) choice before).2.cluster =
      (before.cluster.patch key version fun cr => { cr with status := status.wire }).2 := by
    cases hc : (choice : Fault) with
    | none | unanswered => rfl
    | lost =>
      rw [hc] at changed
      exact absurd found changed
  rw [hsite] at changed ⊢
  obtain ⟨hversion, hfind, hnext⟩ := ObjectStore.patch_written found changed
  exact ⟨by rw [hversion], ⟨_, hfind, rfl⟩, hnext⟩

/-- Where a written status comes from: the object was read as it still is, then the snapshot was
taken, and the process did nothing since. -/
structure Origin (x : ProjectionMoment) (past : List ProjectionMoment) (key : Key) (o : Stored CR)
    (status : Status) (z : ProjectionMoment) (older : List ProjectionMoment) : Prop where
  taken : ∃ mid, past = mid ++ z :: older ∧ ∀ w ∈ mid, w.actor ≠ x.actor
  actor : z.actor = x.actor
  call : z.call = .getStatusProjection o.value.tenantLabel o.value.serviceLabel
  status : ∃ p, getStatusProjection z.before.tables o.value.tenantLabel
    o.value.serviceLabel = .ok p ∧ status = statusFromProjection p ∧ Controls p key o.uid
  read : ∃ g oldest, g :: oldest <:+ older ∧ g.call = .get key ∧
    g.before.cluster.find key = some o

theorem asks_patchStatus (hasks : Asks (parties i).program es (.patchStatus key version status)) :
    ∃ es₁ current p, es = es₁ ++ [⟨.get key, .ok current⟩] ++
        [⟨.getStatusProjection current.value.tenantLabel current.value.serviceLabel, .ok p⟩] ∧
      version = current.version ∧ status = statusFromProjection p ∧ Controls p key current.uid := by
  cases hparty : parties i with
  | project key' =>
    rw [hparty] at hasks
    obtain ⟨rfl, hpatch⟩ := (walk_attempts 4 none []).asks hasks _ _ _ rfl
    exact hpatch
  | rest program only =>
    rw [hparty] at hasks
    rcases only.asks hasks with ⟨w, hw⟩ | ⟨t, ht⟩
    · cases hw
    · cases ht

theorem read_of_arises
    (hmade : Arises act (fun i => (parties i).program) (fun s => s.cluster.Sound) g past)
    (hseen : g.seen = ⟨.get key, .ok o⟩) : g.before.cluster.find key = some o := by
  obtain ⟨choice, hanswer, _⟩ := hmade.acted
  obtain ⟨actor, call, answer, before, after⟩ := g
  cases hseen
  exact ObjectStore.get_ok.mp (heard_ok hanswer.symm)

theorem projected_of_arises
    (hmade : Arises act (fun i => (parties i).program) (fun s => s.cluster.Sound) z past)
    (hseen : z.seen = ⟨.getStatusProjection tenant service, .ok p⟩) :
    getStatusProjection z.before.tables tenant service = .ok p := by
  obtain ⟨choice, hanswer, _⟩ := hmade.acted
  obtain ⟨actor, call, answer, before, after⟩ := z
  cases hseen
  exact heard_ok hanswer.symm

theorem Written.origin (hx : Written x key o status)
    (hmade : Arises act (fun i => (parties i).program) (fun s => s.cluster.Sound) x past) :
    ∃ z older, Origin x past key o status z older := by
  obtain ⟨hcall, _, _⟩ := hx.version hmade
  have hasks := hmade.asks
  rw [hcall] at hasks
  obtain ⟨es₁, current, p, htrace, hversion, hstatus, hcontrols⟩ := asks_patchStatus hasks
  obtain ⟨mid, z, older, rfl, hz, hzseen, holder, hmid⟩ := last_of_trace htrace
  obtain ⟨mid', g, oldest, rfl, hg, hgseen, _, _⟩ := last_of_trace holder
  have hzmade : Arises _ _ _ z (mid' ++ g :: oldest) := hmade.run.arises (List.suffix_append _ _)
  have hgmade : Arises _ _ _ g oldest := hzmade.run.arises (List.suffix_append _ _)
  have hread := read_of_arises hgmade hgseen
  -- the version read is the one found, so the object is the one read
  have hevolves : g.before.cluster.Evolves x.before.cluster := by
    have hrun : ProjectionRun parties ((mid ++ z :: mid') ++ g :: oldest) x.before := by
      rw [List.append_assoc, List.cons_append]
      exact hmade.run
    exact (evolves_of_arises hgmade).trans (evolves_since hrun)
  obtain rfl := hevolves.unchanged (sound_of_run hgmade.run) hread hx.found hversion
  exact ⟨z, _, ⟨mid, rfl, hmid⟩, hz, congrArg Sigma.fst hzseen,
    ⟨p, projected_of_arises hzmade hzseen, hstatus, hcontrols⟩,
    g, oldest, List.suffix_append _ _, congrArg Sigma.fst hgseen, hread⟩

theorem Origin.isTaken {x z : ProjectionMoment} {older : List ProjectionMoment} {key : Key}
    {o : Stored CR} {status : Status} (h : Origin x past key o status z older) :
    Taken x.actor past z older := by
  obtain ⟨mid, hsplit, hmid⟩ := h.taken
  exact ⟨⟨mid, hsplit, fun w hw hwi => absurd hwi (hmid w hw)⟩, h.actor, by rw [h.call]; rfl⟩

theorem Taken.unique (h : Taken i past z older) (h' : Taken i past z' older') :
    z = z' ∧ older = older' := by
  obtain ⟨⟨mid, hsplit, hmid⟩, hactor, hcall⟩ := h
  obtain ⟨⟨mid', hsplit', hmid'⟩, hactor', hcall'⟩ := h'
  subst hsplit
  induction mid generalizing mid' with
  | nil =>
    cases mid' with
    | nil =>
      injection hsplit' with h₁ h₂
      exact ⟨h₁, h₂⟩
    | cons w mid' =>
      injection hsplit' with h₁ _
      have := hmid' w List.mem_cons_self (h₁ ▸ hactor)
      rw [← h₁, hcall] at this
      cases this
  | cons w mid ih =>
    cases mid' with
    | nil =>
      injection hsplit' with h₁ _
      have := hmid w List.mem_cons_self (h₁ ▸ hactor')
      rw [h₁, hcall'] at this
      cases this
    | cons w' mid' =>
      injection hsplit' with _ h₂
      exact ih (fun w hw => hmid w (List.mem_cons_of_mem _ hw)) mid'
        (fun w hw => hmid' w (List.mem_cons_of_mem _ hw)) h₂

/-- An object that is read and later written has not been written in between. -/
theorem Origin.after_write {x y z : ProjectionMoment} {key : Key} {o o' : Stored CR}
    {status status' : Status} {older oldery : List ProjectionMoment}
    (hx : Origin x past key o status z older) (hfound : x.before.cluster.find key = some o)
    (hr : ProjectionRun parties past x.before) (hy : Written y key o' status')
    (hysuf : y :: oldery <:+ past) : y :: oldery <:+ older := by
  obtain ⟨mid, hsplit, _⟩ := hx.taken
  obtain ⟨g, oldest, hgsuf, hgcall, hgread⟩ := hx.read
  have holder : older <:+ past := ⟨mid ++ [z], by simp [hsplit]⟩
  have hymade := hr.arises hysuf
  have hgmade := hr.arises (hgsuf.trans holder)
  obtain ⟨hycall, ⟨written, hwritten, hnew⟩, hnext⟩ := hy.version hymade
  have hne : y ≠ g := by
    rintro rfl
    rw [hycall] at hgcall
    cases hgcall
  rcases List.suffix_or_suffix_of_suffix hysuf (hgsuf.trans holder) with hlater | hearlier
  · exact hlater.trans hgsuf
  · exfalso
    rcases List.suffix_cons_iff.mp hearlier with heq | hearlier
    · injection heq with h₁ _
      exact hne h₁.symm
    · obtain ⟨between, hbetween⟩ := hearlier
      obtain ⟨since, hsince⟩ := hysuf
      have hbefore : g.before.cluster.Evolves y.before.cluster :=
        (evolves_of_arises hgmade).trans (evolves_since (hbetween ▸ hymade.run))
      have hafter : y.after.cluster.Evolves x.before.cluster := evolves_since (hsince ▸ hr)
      have hdated := (sound_of_run hgmade.run key o hgread).2
      have hle := hbefore.next
      rcases hafter.version key o hfound with hsame | hlate
      · obtain rfl := Option.some.inj (hsame.symm.trans hwritten)
        omega
      · omega

/-- Every status that is written was made of one snapshot of the database, the last one its
projector had taken, and of one whose control binding names the object written; and the snapshot
of a status was taken after the status before it had been written under that name. -/
theorem status_never_goes_back (hr : ProjectionRun parties h s) :
    (∀ x past key o status, x :: past <:+ h → Written x key o status → ∃ z older p,
      Taken x.actor past z older ∧
      getStatusProjection z.before.tables o.value.tenantLabel o.value.serviceLabel = .ok p ∧
      status = statusFromProjection p ∧ Controls p key o.uid) ∧
    ∀ x past y older key o o' status status', x :: past <:+ h → y :: older <:+ past →
      Written x key o status → Written y key o' status' →
      ∀ zx olderx zy oldery, Taken x.actor past zx olderx → Taken y.actor older zy oldery →
        zy :: oldery <:+ olderx := by
  constructor
  · intro x past key o status hx hwritten
    obtain ⟨z, older, horigin⟩ := hwritten.origin (hr.arises hx)
    obtain ⟨p, hp, hstatus, hcontrols⟩ := horigin.status
    exact ⟨z, older, p, horigin.isTaken, hp, hstatus, hcontrols⟩
  · intro x past y older key o o' status status' hx hy hwritten hwritten' zx olderx zy
      oldery hzx hzy
    have hmade := hr.arises hx
    obtain ⟨z, older', horigin⟩ := hwritten.origin hmade
    obtain ⟨rfl, rfl⟩ := hzx.unique horigin.isTaken
    have hafter := horigin.after_write hwritten.found hmade.run hwritten' hy
    obtain ⟨mid, hsplit, _⟩ := hzy.split
    have hzysuf : zy :: oldery <:+ y :: older := ⟨y :: mid, by simp [hsplit]⟩
    exact hzysuf.trans hafter

end

namespace Sample

def tenant : Uuid128 := .ofNumber 1

def service : Uuid128 := .ofNumber 7

def key : Key := ("tenant-1", "service-7")

/-- One service, its control binding, and a runtime in this phase. -/
def tables (phase : String) : Tables :=
  { services := [⟨tenant, service, 1, 1, none, none⟩]
    bindings := [⟨tenant, service, 1, .inferenceService, .control, "tenant-1", "service-7", some 0⟩]
    runtimes := [⟨tenant, service, phase, 1, true, true, "healthy", some 1500000, none⟩]
    publications := [], operations := [] }

def cr : CR :=
  { tenantLabel := tenant.text, serviceLabel := service.text, spec := "spec"
    status := ⟨0, none, "", 0, false, "", "", none, none, none, none⟩ }

def site : Site := ⟨ObjectStore.put key ⟨0, 1, false, cr⟩ ⟨∅, 1⟩, tables "pending"⟩

/-- Two projectors, and a commit in which the runtime becomes ready. -/
def parties : Nat → Party
  | 2 => .rest (.call (.commit (tables "ready")) fun _ => .ret (.ok ()))
      ⟨.inr ⟨_, rfl⟩, fun _ => trivial⟩
  | _ => .project key

def goes : (e : Call) → e.Choice
  | .get _ | .getStatusProjection .. | .patchStatus .. => Fault.none
  | .write _ | .commit _ => ()

/-- The first projector, the commit, the second projector. -/
def projected :=
  play act (fun i => (parties i).program) site
    [(0, goes), (0, goes), (0, goes), (2, goes), (1, goes), (1, goes), (1, goes)]

/-- The event writes a status onto the object. -/
def writes (x : ProjectionMoment) : Bool :=
  (match x.call with
    | .patchStatus key' _ _ => key' = key
    | _ => false) &&
  (x.before.cluster.find key).isSome &&
  x.after.cluster.find key ≠ x.before.cluster.find key

theorem written_of_writes (h : writes x = true) : ∃ o status, Written x key o status := by
  simp only [writes, Bool.and_eq_true, decide_eq_true_eq, Option.isSome_iff_exists] at h
  obtain ⟨⟨hcall, o, ho⟩, hne⟩ := h
  split at hcall
  · next key' version status heq =>
    obtain rfl := of_decide_eq_true hcall
    exact ⟨o, status, ⟨version, heq⟩, ho, fun heq => hne (heq.trans ho.symm)⟩
  · cases hcall

/-- The last event writes, and the fifth last. -/
def writesTwice : List ProjectionMoment → Bool
  | x :: _ :: _ :: _ :: y :: _ => writes x && writes y
  | _ => false

end Sample

set_option maxRecDepth 100000 in
theorem status_never_goes_back_projected :
    ∃ h s x past y older o o' status status', ProjectionRun Sample.parties h s ∧ x :: past <:+ h ∧
      y :: older <:+ past ∧ Written x Sample.key o status ∧ Written y Sample.key o' status' ∧
      ∃ zx olderx zy oldery, Taken x.actor past zx olderx ∧ Taken y.actor older zy oldery ∧
        zy :: oldery <:+ olderx := by
  have hsound : Sample.projected.Sound act (fun i => (Sample.parties i).program)
      (fun s => s.cluster.Sound) := by
    refine play_sound ?_ _
    intro k o ho
    change (ObjectStore.put Sample.key ⟨0, 1, false, Sample.cr⟩ ⟨∅, 1⟩).find k = some o at ho
    rw [ObjectStore.find_put] at ho
    split at ho
    · cases ho
      exact ⟨by decide, by decide⟩
    · cases ho
  have hrun : Sample.writesTwice Sample.projected.history = true := by
    decide +kernel
  unfold Sample.writesTwice at hrun
  split at hrun
  case h_2 => cases hrun
  case h_1 x a b c y older hhistory =>
    obtain ⟨hx, hy⟩ := Bool.and_eq_true_iff.mp hrun
    obtain ⟨o, status, hx⟩ := Sample.written_of_writes hx
    obtain ⟨o', status', hy⟩ := Sample.written_of_writes hy
    have hxsuf : x :: a :: b :: c :: y :: older <:+ Sample.projected.history := by
      rw [hhistory]
    have hysuf : y :: older <:+ a :: b :: c :: y :: older := ⟨[a, b, c], rfl⟩
    obtain ⟨hsource, horder⟩ := status_never_goes_back hsound.run
    obtain ⟨zx, olderx, _, hzx, _⟩ := hsource _ _ _ _ _ hxsuf hx
    obtain ⟨zy, oldery, _, hzy, _⟩ :=
      hsource _ _ _ _ _ ((hysuf.trans (List.suffix_cons _ _)).trans hxsuf) hy
    exact ⟨_, _, x, _, y, older, o, o', status, status', hsound.run, hxsuf, hysuf, hx, hy, zx,
      olderx, zy, oldery, hzx, hzy,
      horder _ _ _ _ _ _ _ _ _ hxsuf hysuf hx hy _ _ _ _ hzx hzy⟩

end AniInference.Projection
