import AniInference.Managed
import AniInference.Schedule
import AniInference.Lib.Walk
import AniInference.Lib.Runs
import Mathlib.Data.List.Sort

namespace AniInference.Lists
open Lib
open Prog (Asks Played)

structure ListOptions where
  status : String
  capability : String
  limit : Int
  offset : Int
deriving DecidableEq

def maxListPageSize : Int := 100

/-- Columns that no transaction changes: when a row was inserted, and the normalised
`model_capabilities` of a specification. -/
structure Columns where
  serviceCreated : Uuid × Uuid → Time
  operationCreated : Uuid × Uuid → Time
  capabilities : SpecContent → List String

/-- A row of `ListServicesPage`. -/
structure ServiceRow where
  id : Uuid
  service : Service
  spec : Option Spec
  runtime : Option RuntimeRow
  publication : Option PublicationRow
deriving DecidableEq

/-- A row of the view `inference_operation_projection`. -/
structure OperationProjection where
  id : Uuid
  serviceID : Uuid
  kind : Kind
  phase : Phase
  step : String
  targetGeneration : Generation
  errorCode : String
deriving DecidableEq

inductive Row
  | service (r : ServiceRow)
  | operation (r : OperationProjection)
deriving DecidableEq

/-- The lateral join with the specification. -/
def specOf (db : Db) (key : Uuid × Uuid) (s : Service) : Option Spec :=
  ((Table.select (fun k _ => k.1 = key.1 && k.2.1 = key.2 && (k.2.2 = s.desiredGeneration ||
    (s.desiredState = .deleted && k.2.2 < s.desiredGeneration))) db.specs).argmax
      fun r => r.1.2.2).map Prod.snd

def publicationOf (db : Db) (key : Uuid × Uuid) (s : Service) : Option PublicationRow :=
  ((Table.select (fun k _ => k.1 = key.1 && k.2.1 = key.2 && k.2.2 ≤ s.desiredGeneration)
    db.publications).argmax fun r => r.1.2.2).map Prod.snd

def serviceRow (db : Db) (key : Uuid × Uuid) (s : Service) : ServiceRow :=
  ⟨key.2, s, specOf db key s, db.runtimes.lookup key, publicationOf db key s⟩

/-- The `WHERE` clause of `CountServices` and `ListServicesPage`. -/
def shown (columns : Columns) (status capability : String) (r : ServiceRow) : Bool :=
  r.service.deletedAt = none &&
    (status = "" || (r.service.desiredState = .running &&
      (r.runtime.elim "pending" (·.runtimePhase)) = "ready")) &&
    (capability = "" || (r.spec.elim [] fun s =>
      columns.capabilities s.content).contains capability)

/-- The part of the view that comes from an operation. -/
def ownProjection (db : Db) (key : Uuid × Uuid) (o : OperationRow) : OperationProjection :=
  { id := key.2, serviceID := o.serviceID, kind := o.kind, phase := o.phase
    step :=
      if o.kind = .delete ∧ o.phase ≠ .succeeded ∧ o.phase ≠ .failed ∧
          ((db.managedCommands.lookup key).bind (·.releaseReport)).isSome then
        "report_resource_released"
      else o.step.text
    targetGeneration := o.targetGeneration, errorCode := o.errorCode }

/-- The part that comes from a command without an operation. -/
def commandProjection (key : Uuid × Uuid) (c : ManagedCommandRow) : OperationProjection :=
  { id := key.2, serviceID := c.resourceID, kind := c.kind
    phase :=
      if c.intent = .blockedByDelete then .failed
      else if c.closeState = .complete then .succeeded else .pending
    step :=
      if c.intent = .blockedByDelete then "cancelled_by_delete"
      else if c.closeState = .complete then "complete"
      else if c.releaseReport.isSome then "report_resource_released"
      else if c.closeState = .unknownExecution then "recover_execution"
      else if c.closeState = .pending then "observe_release" else "closing_intent"
    targetGeneration := 0
    errorCode := if c.intent = .blockedByDelete then "cancelled_by_delete" else "" }

def projected (db : Db) (key : Uuid × Uuid) (c : ManagedCommandRow) : Bool :=
  (c.kind = .delete || c.intent = .blockedByDelete) && (db.operations.lookup key).isNone

/-- What is listed. -/
inductive Query
  | services (tenant : Uuid) (status capability : String)
  | operations (tenant : Uuid) (service : Option Uuid)
deriving DecidableEq

/-- The rows a query matches in one state of the database, each with its place in the order. -/
def Query.matching (columns : Columns) (db : Db) : Query → List ((Time × Uuid) × Row)
  | .services tenant status capability =>
    (Table.select (fun k s => k.1 = tenant && shown columns status capability (serviceRow db k s))
      db.services).map fun r =>
        ((columns.serviceCreated r.1, r.1.2), .service (serviceRow db r.1 r.2))
  | .operations tenant service =>
    (Table.select (fun k o => k.1 = tenant && service.all (· = o.serviceID)) db.operations).map
        (fun r => ((columns.operationCreated r.1, r.1.2), .operation (ownProjection db r.1 r.2))) ++
      (Table.select (fun k c => k.1 = tenant && service.all (· = c.resourceID) && projected db k c)
        db.managedCommands).map
        fun r => ((columns.operationCreated r.1, r.1.2), .operation (commandProjection r.1 r.2))

/-- `ORDER BY created_at DESC, id DESC`. -/
def newerFirst (a b : (Time × Uuid) × Row) : Prop :=
  b.1.1 < a.1.1 ∨ (a.1.1 = b.1.1 ∧ b.1.2 ≤ a.1.2)

instance : DecidableRel newerFirst := fun a b =>
  inferInstanceAs (Decidable (b.1.1 < a.1.1 ∨ (a.1.1 = b.1.1 ∧ b.1.2 ≤ a.1.2)))

/-- `LIMIT limit OFFSET offset`. -/
def Query.page (columns : Columns) (db : Db) (q : Query) (limit offset : Nat) : List Row :=
  (((q.matching columns db).insertionSort newerFirst).map Prod.snd).drop offset |>.take limit

def Query.total (columns : Columns) (db : Db) (q : Query) : Nat := (q.matching columns db).length

/-- The statements of a listing, and a transaction of somebody else that commits. -/
inductive Call
  | begin
  | count (q : Query)
  | page (q : Query) (limit offset : Nat)
  | commit
  | transact (tx : Tx Unit)

def Call.Answer : Call → Type
  | .begin | .commit => Except Err Unit
  | .count _ => Except Err Nat
  | .page .. => Except Err (List Row)
  | .transact _ => Unit

def Call.Choice : Call → Type
  | .begin | .commit | .count _ | .page .. => Fault
  | .transact _ => Unit

/-- A statement of a transaction at `READ COMMITTED` sees what is committed when it starts. -/
def act (columns : Columns) (_ : Nat) : (e : Call) → e.Choice → Db → e.Answer × Db
  | .begin, fault, db => (heard fault .connection (.ok ()), db)
  | .count q, fault, db => (heard fault .connection (.ok (q.total columns db)), db)
  | .page q limit offset, fault, db =>
    (heard fault .connection (.ok (q.page columns db limit offset)), db)
  | .commit, fault, db => (heard fault .connection (.ok ()), db)
  | .transact tx, _, db => ((), match tx db with
    | .ok (_, db') => db'
    | .error _ => db)

abbrev Flow := ExceptT Err (Prog Call Call.Answer)

def perform (e : Call) : Flow e.Answer := ExceptT.lift (Prog.perform e)

def demand {α : Type} (x : Flow (Except Err α)) : Flow α := do
  match ← x with
  | .ok a => return a
  | .error e => throw e

section
variable {Item : Type}

def decodeRows (decode : Row → Except Err Item) : List Row → Except Err (List Item)
  | [] => .ok []
  | r :: rest => do
    let item ← decode r
    return item :: (← decodeRows decode rest)

/-- What both listings do: count, page and commit in one transaction of `readTx`. How a row is shown
is given; it may fail. -/
def listPage (decode : Row → Except Err Item) (q : Query) (options : ListOptions) :
    Flow (List Item × Nat) := do
  if options.limit < 1 ∨ options.limit > maxListPageSize ∨ options.offset < 0 ∨
      options.offset > 2 ^ 31 - 1 then
    throw (.text "invalid list options")
  else do
    demand (perform .begin)
    let total ← demand (perform (.count q))
    let rows ← demand (perform (.page q options.limit.toNat options.offset.toNat))
    let items ← ExceptT.mk (pure (decodeRows decode rows))
    demand (perform .commit)
    return (items, total)

def listServicesPage (decode : Row → Except Err Item) (tenant : Uuid) (options : ListOptions) :
    Flow (List Item × Nat) :=
  listPage decode (.services tenant options.status options.capability) options

def listOperationsPage (decode : Row → Except Err Item) (tenant : Uuid) (service : Option Uuid)
    (options : ListOptions) : Flow (List Item × Nat) :=
  listPage decode (.operations tenant service) options

/-- Somebody who lists, or somebody who writes. -/
inductive Party
  | services (tenant : Uuid) (options : ListOptions)
  | operations (tenant : Uuid) (service : Option Uuid) (options : ListOptions)
  | writer (txs : List (Tx Unit))

def write : List (Tx Unit) → Prog Call Call.Answer Unit
  | [] => .ret ()
  | tx :: rest => .call (.transact tx) fun _ => write rest

/-- What a party does. A writer has no result. -/
def Party.program (decode : Row → Except Err Item) :
    Party → Prog Call Call.Answer (Option (Except Err (List Item × Nat)))
  | .services tenant options => some <$> (listServicesPage decode tenant options).run
  | .operations tenant service options => some <$>
    (listOperationsPage decode tenant service options).run
  | .writer txs => (fun _ => none) <$> write txs

/-- What a party lists. -/
def Party.listing : Party → Option (Query × ListOptions)
  | .services tenant options =>
    some (.services tenant options.status options.capability, options)
  | .operations tenant service options => some (.operations tenant service, options)
  | .writer _ => none

abbrev ListRun (columns : Columns) (decode : Row → Except Err Item) (parties : Nat → Party) :=
  Run (act columns) (fun i => (parties i).program decode) fun _ => True

/-- A result belongs to this state of the database: the total is the number of matching rows and the
items are the requested page of them. -/
structure Belongs (columns : Columns) (decode : Row → Except Err Item) (q : Query)
    (options : ListOptions) (result : List Item × Nat) (db : Db) : Prop where
  total : result.2 = q.total columns db
  items : decodeRows decode (q.page columns db options.limit.toNat options.offset.toNat) =
    .ok result.1

/-- No transaction that commits between the two statements of the party changes how many rows its
query matches. -/
def Steady (columns : Columns) (i : Nat) (q : Query)
    (h : List (Moment Db Call Call.Answer)) : Prop :=
  ∀ new mid past x y limit offset, h = new ++ x :: (mid ++ y :: past) →
    x.actor = i → x.call = .page q limit offset → y.actor = i → y.call = .count q →
    ∀ z ∈ mid, q.total columns z.after = q.total columns z.before

variable {columns : Columns} {decode : Row → Except Err Item} {q : Query} {options : ListOptions}
  {es : List (Σ e : Call, e.Answer)} {α β : Type}

theorem played_perform_ok (h : Played (perform e).run es (.ok r)) : es = [⟨e, r⟩] := by
  have h' : Played (Prog.perform e >>= fun a => .ret (Except.ok a)) es
    (.ok r : Except Err e.Answer) := h
  obtain ⟨a, es₁, es₂, rfl, h₁, h₂⟩ := Prog.played_bind.mp h'
  obtain rfl := Prog.played_perform.mp h₁
  obtain ⟨rfl, ha⟩ := Prog.played_ret.mp h₂
  cases ha
  rfl

theorem played_demand_bind (h : Played (demand x >>= f).run es (.ok b)) :
    ∃ a es₁ es₂, es = es₁ ++ es₂ ∧
      Played x.run es₁ (.ok (.ok a)) ∧ Played (f a).run es₂ (.ok b) := by
  obtain ⟨a, es₁, es₂, rfl, h₁, h₂⟩ := played_run_bind_ok.mp h
  obtain ⟨r, es₃, es₄, rfl, h₃, h₄⟩ := played_run_bind_ok.mp h₁
  cases r with
  | error e =>
    obtain ⟨_, herr⟩ := Prog.played_ret.mp h₄
    cases herr
  | ok a' =>
    obtain ⟨rfl, ha⟩ := Prog.played_ret.mp h₄
    cases ha
    exact ⟨a, es₃, es₂, by simp, h₃, h₂⟩

/-- The statements of a listing that comes to a result. -/
theorem played_listPage (h : Played (listPage decode q options).run es (.ok result)) :
    ∃ rows, es = [⟨.begin, .ok ()⟩, ⟨.count q, .ok result.2⟩,
        ⟨.page q options.limit.toNat options.offset.toNat, .ok rows⟩, ⟨.commit, .ok ()⟩] ∧
      decodeRows decode rows = .ok result.1 := by
  unfold listPage at h
  split at h
  · cases h
  obtain ⟨_, _, _, rfl, hbegin, h₁⟩ := played_demand_bind h
  obtain ⟨total, _, _, rfl, hcount, h₂⟩ := played_demand_bind h₁
  obtain ⟨rows, _, _, rfl, hpage, h₃⟩ := played_demand_bind h₂
  obtain ⟨items, _, _, rfl, hitems, h₄⟩ := played_run_bind_ok.mp h₃
  obtain ⟨_, _, _, rfl, hcommit, h₅⟩ := played_demand_bind h₄
  obtain ⟨rfl, hdecoded⟩ := Prog.played_ret.mp hitems
  obtain ⟨rfl, hresult⟩ := Prog.played_ret.mp h₅
  cases hresult
  rw [played_perform_ok hbegin, played_perform_ok hcount, played_perform_ok hpage,
    played_perform_ok hcommit]
  exact ⟨rows, rfl, hdecoded.symm⟩

theorem played_some (h : Played (some <$> p) es (some a)) : Played p es a := by
  have h' : Played (p >>= fun a => .ret (some a)) es (some a) := h
  obtain ⟨b, es₁, es₂, rfl, h₁, h₂⟩ := Prog.played_bind.mp h'
  obtain ⟨rfl, hb⟩ := Prog.played_ret.mp h₂
  cases hb
  rwa [List.append_nil]

/-- Only who lists comes to a result, by the statements of the listing. -/
theorem played_party {party : Party} (h : Played (party.program decode) es (some (.ok result))) :
    ∃ q options, party.listing = some (q, options) ∧
      Played (listPage decode q options).run es (.ok result) := by
  cases party with
  | services tenant options
  | operations tenant service options => exact ⟨_, options, rfl, played_some h⟩
  | writer txs =>
    have h' : Played (write txs >>= fun _ => .ret none) es (some (Except.ok result)) := h
    obtain ⟨_, _, _, _, _, h₂⟩ := Prog.played_bind.mp h'
    obtain ⟨_, hnone⟩ := Prog.played_ret.mp h₂
    cases hnone

theorem count_answer {parties : Nat → Party} {x : Moment Db Call Call.Answer}
    (hx : Arises (act columns) (fun i => (parties i).program decode) (fun _ => True) x past)
    (hseen : x.seen = ⟨.count q, .ok n⟩) : n = q.total columns x.before ∧ x.after = x.before := by
  obtain ⟨actor, call, answer, before, after⟩ := x
  obtain ⟨fault, hanswer, hafter⟩ := hx.acted
  cases hseen
  exact ⟨(Except.ok.inj (heard_ok hanswer.symm)).symm, hafter⟩

theorem page_answer {parties : Nat → Party} {x : Moment Db Call Call.Answer}
    (hx : Arises (act columns) (fun i => (parties i).program decode) (fun _ => True) x past)
    (hseen : x.seen = ⟨.page q limit offset, .ok rows⟩) :
    rows = q.page columns x.before limit offset := by
  obtain ⟨actor, call, answer, before, after⟩ := x
  obtain ⟨fault, hanswer, hafter⟩ := hx.acted
  cases hseen
  exact (Except.ok.inj (heard_ok hanswer.symm)).symm

/-- The statements of a listing that has come to a result, in the history. -/
theorem statements_of_played {h : List (Moment Db Call Call.Answer)}
    {i : Nat} {result : List Item × Nat}
    (hplayed : Played (listPage decode q options).run (trace i h) (.ok result)) :
    ∃ new x mid y past rows, h = new ++ x :: (mid ++ y :: past) ∧ x.actor = i ∧ y.actor = i ∧
      x.seen = ⟨.page q options.limit.toNat options.offset.toNat, .ok rows⟩ ∧
      y.seen = ⟨.count q, .ok result.2⟩ ∧ decodeRows decode rows = .ok result.1 := by
  obtain ⟨rows, htrace, hdecoded⟩ := played_listPage hplayed
  have hsplit : trace i h = [⟨.begin, .ok ()⟩, ⟨.count q, .ok result.2⟩] ++
      ⟨.page q options.limit.toNat options.offset.toNat, .ok rows⟩ :: [⟨.commit, .ok ()⟩] := htrace
  obtain ⟨new, x, past, rfl, hx, hpage, hpast, _⟩ := trace_split hsplit
  have hsplit' : trace i past = [⟨.begin, .ok ()⟩] ++ ⟨.count q, .ok result.2⟩ :: [] := hpast
  obtain ⟨mid, y, old, rfl, hy, hcount, _, _⟩ := trace_split hsplit'
  exact ⟨new, x, mid, y, old, rows, rfl, hx, hy, hpage, hcount, hdecoded⟩

/-- A listing shows one state of the database where nobody changes the number of matching rows
between its two statements. -/
theorem listing_belongs_when_steady {parties : Nat → Party} {h : List (Moment Db Call Call.Answer)}
    {s : Db} (hrun : ListRun columns decode parties h s) {i : Nat} {result : List Item × Nat}
    (hlisting : (parties i).listing = some (q, options))
    (hplayed : Played ((parties i).program decode) (trace i h) (some (.ok result)))
    (hsteady : Steady columns i q h) :
    ∃ x ∈ h, Belongs columns decode q options result x.before := by
  obtain ⟨q', options', hlisting', hlist⟩ := played_party hplayed
  obtain ⟨rfl, rfl⟩ := Prod.mk.inj (Option.some.inj (hlisting'.symm.trans hlisting))
  obtain ⟨new, x, mid, y, past, rows, rfl, hx, hy, hpage, hcount, hdecoded⟩ :=
    statements_of_played hlist
  have hxArises := hrun.arises (List.suffix_append new _)
  have hyArises := hxArises.run.arises (List.suffix_append mid _)
  obtain ⟨htotal, hsame⟩ := count_answer hyArises hcount
  have hrows := page_answer hxArises hpage
  have hkept := hsteady new mid past x y _ _ rfl hx (congrArg Sigma.fst hpage) hy
    (congrArg Sigma.fst hcount)
  have hstill : q'.total columns x.before = result.2 := by
    refine hxArises.run.since (P := fun db => q'.total columns db = result.2) ?_ ?_
    · rw [hsame, htotal]
    · intro z older hz _ hbefore
      rw [hkept z hz, hbefore]
  exact ⟨x, by simp, hstill.symm, hrows ▸ hdecoded⟩

theorem steady_of_kept (hkept : ∀ z ∈ h, q.total columns z.after = q.total columns z.before) :
    Steady columns i q h := by
  rintro new mid past x y limit offset rfl _ _ _ _ z hz
  exact hkept z (by simp [hz])

/-- Where nothing matches, nothing is shown. -/
theorem Belongs.nil (h : Belongs columns decode q options result db) (hzero : result.2 = 0) :
    result.1 = [] := by
  have hnone : q.matching columns db = [] := List.length_eq_zero_iff.mp (h.total.symm.trans hzero)
  have hitems := h.items
  simp only [Query.page, hnone, List.insertionSort_nil, List.map_nil, List.drop_nil, List.take_nil,
    decodeRows, Except.ok.injEq] at hitems
  exact hitems.symm

end

namespace Sample

def columns : Columns := ⟨fun key => key.2, fun key => key.2, fun _ => []⟩

def options : ListOptions := ⟨"", "", 20, 0⟩

/-- The transaction that creates a service of tenant 1. -/
def creates : Tx Unit := do
  let _ ← Managed.createService 0 ⟨7, 8, 9⟩ AniInference.Sample.create
  return ()

def created : Db := ((creates Db.empty).toOption.map Prod.snd).getD Db.empty

/-- A delete of it is accepted, so that it is at its second generation, and still there. -/
def deletes : Tx Unit := do
  let _ ← Commands.command 0 ⟨7, 20, 21⟩ (AniInference.Sample.command .delete 1)
  return ()

/-- The first lists the services of tenant 1, the others create one and delete it. -/
def parties : Nat → Party
  | 0 => .services 1 options
  | 1 => .writer [creates]
  | 2 => .writer [deletes]
  | _ => .writer []

def smooth : (e : Call) → e.Choice
  | .begin | .commit | .count _ | .page .. => Fault.none
  | .transact _ => ()

def shows (row : Row) : Except Err Row := .ok row

def generation : Row → Generation
  | .service r => r.service.desiredGeneration
  | .operation r => r.targetGeneration

def listed (db : Db) (turns : List Nat) : Play Db Call Call.Answer
    (Option (Except Err (List Row × Nat))) :=
  play (act columns) (fun i => (parties i).program shows) db (turns.map fun i => (i, smooth))

/-- What the first party has come to. -/
def answer (db : Db) (turns : List Nat) : Option (List Row × Nat) :=
  ((listed db turns).result 0).join.bind (·.toOption)

theorem played_of_answer (h : answer db turns = some result) :
    ListRun columns shows parties (listed db turns).history (listed db turns).state ∧
      Played ((parties 0).program shows) (trace 0 (listed db turns).history)
        (some (.ok result)) := by
  have hsound : (listed db turns).Sound (act columns) (fun i => (parties i).program shows)
    fun _ => True := play_sound trivial _
  obtain ⟨r, hr, hresult⟩ := Option.bind_eq_some_iff.mp h
  refine ⟨hsound.run, hsound.played ?_⟩
  rw [← ok_of_toOption hresult]
  exact Option.join_eq_some_iff.mp hr

end Sample

open Lists.Sample in
/-- The service is created between the two statements: one item of none. -/
theorem listing_of_no_state : ∃ result : List Row × Nat, ∃ h s,
    ListRun columns shows parties h s ∧
      Played ((parties 0).program shows) (trace 0 h) (some (.ok result)) ∧
      (parties 0).listing = some (.services 1 "" "", options) ∧
      ∀ db, ¬Belongs columns shows (.services 1 "" "") options result db := by
  have hshown : (answer Db.empty [0, 0, 1, 0, 0]).map (fun r => (r.1.length, r.2)) =
    some (1, 0) := by
    decide +kernel
  obtain ⟨result, hresult, hnumbers⟩ := Option.map_eq_some_iff.mp hshown
  obtain ⟨hrun, hplayed⟩ := played_of_answer hresult
  refine ⟨result, _, _, hrun, hplayed, rfl, fun db hbelongs => ?_⟩
  obtain ⟨hlength, htotal⟩ := Prod.mk.inj hnumbers
  rw [hbelongs.nil htotal] at hlength
  cases hlength

open Lists.Sample in
/-- The service was created before both statements, and its delete is committed between them. -/
theorem listing_belongs_when_steady_deleted : ∃ result : List Row × Nat,
    answer created [0, 0, 2, 0, 0] = some result ∧ result.1.map generation = [2] ∧
      ∃ x ∈ (listed created [0, 0, 2, 0, 0]).history,
        Belongs columns shows (.services 1 "" "") options result x.before := by
  have hanswer : (answer created [0, 0, 2, 0, 0]).map (fun r => r.1.map generation) =
      some [2] := by decide +kernel
  have hkept : ∀ z ∈ (listed created [0, 0, 2, 0, 0]).history,
      (Query.services 1 "" "").total columns z.after =
        (Query.services 1 "" "").total columns z.before := by decide +kernel
  obtain ⟨result, hresult, hgeneration⟩ := Option.map_eq_some_iff.mp hanswer
  obtain ⟨hrun, hplayed⟩ := played_of_answer hresult
  exact ⟨result, hresult, hgeneration,
    listing_belongs_when_steady hrun rfl hplayed (steady_of_kept hkept)⟩

end AniInference.Lists
