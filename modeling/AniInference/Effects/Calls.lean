import AniInference.Effects.Ledger

namespace AniInference
open Lib Txn

namespace Store
variable {now : Time} {db db' : Db}

/-- The row a step leaves behind. -/
def steppedRow (now : Time) (t : StepTransition) (retry : Option Nat) (o : OperationRow) :
    OperationRow :=
  match retry with
  | some after => Sql.retriedRow now (stepCAS t) after o
  | none => Sql.advancedRow now (stepCAS t) t.nextPhase t.nextStep o

/-- What a step transition does to the row `o` it matched. -/
structure Stepped (now : Time) (t : StepTransition) (retry : Option Nat) (o : OperationRow)
    (db db' : Db) : Prop where
  checked : checkTransition t retry = .ok ()
  found : db.operations.lookup (t.tenantID, t.operationID) = some o
  matched : Sql.stepMatches now (stepCAS t) db o = true
  operations : db'.operations =
    db.operations.insert (t.tenantID, t.operationID) (steppedRow now t retry o)
  -- Only a delete that succeeds touches its service.
  services : db'.services = db.services ∨
    (retry = none ∧ t.kind = .delete ∧ t.nextPhase = .succeeded ∧
      ∃ s, db.services.lookup (t.tenantID, o.serviceID) = some s ∧ s.desiredState = .deleted ∧
        db'.services = db.services.insert (t.tenantID, o.serviceID)
          { s with deletedAt := some (s.deletedAt.getD now) })
  specs : db'.specs = db.specs
  work : db'.work = db.work
  reservations : db'.reservations = db.reservations
  publications : db'.publications = db.publications
  runtimes : db'.runtimes = db.runtimes
  bindings : db'.bindings = db.bindings
  releaseScopes : db'.releaseScopes = db.releaseScopes
  managed : db'.managedResources = db.managedResources

/-- The event a step transition is logged with. -/
structure Logged (now : Time) (t : StepTransition) (event : AuditEvent) (retry : Option Nat)
    (o : OperationRow) (db db' : Db) : Prop where
  -- Only a step that goes on waits for its time.
  due : retry = none → o.retryAt.all (· ≤ now) = true
  tenant : event.tenantID = t.tenantID
  operation : event.row.operationID = t.operationID
  generation : event.row.generation = t.targetGeneration
  service : event.row.serviceID = o.serviceID
  audit : db'.audit =
    if (db.audit.lookup (event.tenantID, event.eventID)).isSome then db.audit
    else db.audit.insert (event.tenantID, event.eventID) event.row
  idempotency : db'.idempotency = db.idempotency
  managedCommands : db'.managedCommands = db.managedCommands

theorem runs_stepStatement_one (h : Runs (stepStatement now t retry) db 1 db') :
    ∃ o, db.operations.lookup (t.tenantID, t.operationID) = some o ∧
      Sql.stepMatches now (stepCAS t) db o = true ∧
      (retry = none → o.retryAt.all (· ≤ now) = true) ∧
      db' = { db with
        operations := db.operations.insert (t.tenantID, t.operationID)
          (steppedRow now t retry o) } := by
  cases retry with
  | none =>
    simp only [stepStatement, Sql.advanceOperationStepCAS, runs_updateRow_one,
      Bool.and_eq_true] at h
    obtain ⟨o, ho, ⟨hm, hdue⟩, rfl⟩ := h
    exact ⟨o, ho, hm, fun _ => hdue, rfl⟩
  | some after =>
    simp only [stepStatement, Sql.retryOperationStepCAS, runs_updateRow_one] at h
    obtain ⟨o, ho, hm, rfl⟩ := h
    exact ⟨o, ho, hm, fun hr => (nomatch hr), rfl⟩

theorem runs_stepGuard (h : Runs (stepGuard now t event retry) db u db') :
    (event.tenantID = t.tenantID ∧ event.row.operationID = t.operationID ∧
      event.row.generation = t.targetGeneration) ∧
    checkTransition t retry = .ok () ∧ Runs (stepStatement now t retry) db 1 db' := by
  simp only [stepGuard, runs_bind, runs_reject, runs_checked, runs_exactlyOne, not_or, ne_eq,
    not_not] at h
  obtain ⟨_, _, ⟨_, rfl⟩, _, _, ⟨hevent, rfl⟩, _, _, ⟨hchecked, rfl⟩, _, _, hstep, rfl, rfl⟩ := h
  exact ⟨hevent, hchecked, hstep⟩

theorem runs_markDeleted (h : Runs (markDeleted now t service) db u db') :
    ∃ s, db.services.lookup (t.tenantID, service) = some s ∧ s.desiredState = .deleted ∧
      db' = { db with
        services := db.services.insert (t.tenantID, service)
          { s with deletedAt := some (s.deletedAt.getD now) } } := by
  simp only [markDeleted, runs_bind, runs_exactlyOne, Sql.markServiceDeleted] at h
  obtain ⟨_, _, h, rfl, rfl⟩ := h
  obtain ⟨s, hs, hc, rfl⟩ := runs_updateRow_one.mp h
  simp only [Bool.and_eq_true, decide_eq_true_eq] at hc
  exact ⟨s, hs, hc.1.2, rfl⟩

@[simp] theorem steppedRow_serviceID : (steppedRow now t retry o).serviceID = o.serviceID := by
  cases retry <;> rfl

theorem runs_stepWithAudit (h : Runs (stepWithAudit now t event retry) db u db') :
    ∃ o, Stepped now t retry o db db' ∧ Logged now t event retry o db db' := by
  simp only [stepWithAudit, auditedService, runs_bind, runs_reject, runs_require, runs_pure,
    Sql.runs_getOperation, ne_eq, not_not] at h
  obtain ⟨_, db₁, h₁, service, _, ⟨_, _, ⟨rfl, rfl⟩, row, _, ⟨hrow, rfl⟩, _, _, ⟨hsvc, rfl⟩, rfl,
    rfl⟩, _, db₃, h₃, h₄⟩ := h
  obtain ⟨⟨htenant, hoperation, hgeneration⟩, hchecked, h₁⟩ := runs_stepGuard h₁
  obtain ⟨o, ho, hm, hdue, rfl⟩ := runs_stepStatement_one h₁
  rw [AList.lookup_insert] at hrow
  obtain rfl := Option.some.inj hrow
  simp only [steppedRow_serviceID] at hsvc h₃
  have hlogged := Sql.booked_appendAuditEvent h₄
  rcases runs_onlyIf.mp h₃ with ⟨⟨hr, hk, hp⟩, h₃⟩ | ⟨_, rfl⟩
  · obtain ⟨s, hs, hd, rfl⟩ := runs_markDeleted h₃
    subst hlogged
    exact ⟨o, ⟨hchecked, ho, hm, rfl, .inr ⟨by simpa using hr, hk, hp, s, hs, hd, rfl⟩, rfl, rfl,
      rfl, rfl, rfl, rfl, rfl, rfl⟩, hdue, htenant, hoperation, hgeneration, hsvc.symm,
        rfl, rfl, rfl⟩
  · subst hlogged
    exact ⟨o, ⟨hchecked, ho, hm, rfl, .inl rfl, rfl, rfl, rfl, rfl, rfl, rfl, rfl, rfl⟩,
      hdue, htenant, hoperation, hgeneration, hsvc.symm, rfl, rfl, rfl⟩

/-- What saving a reservation does to the row it is kept in. -/
structure Saved (r : Reservation) (db db' : Db) : Prop where
  positive : 1 ≤ r.generation
  row : ∃ row, db.reservations.lookup (r.tenantID, r.operationID) = some row ∧
    row.generation = r.generation ∧
    db' = { db with
      reservations := db.reservations.insert (r.tenantID, r.operationID)
        { row with
          reservationID := r.reservationID.getD (.issued "")
          requestedResources := r.requestedResources, state := r.state
          lastErrorCode := r.lastErrorCode } }

theorem runs_saveQuotaReservation (h : Runs (saveQuotaReservation now r) db u db') :
    db.operationFenced r.tenantID (r.fenceOperationID.getD r.operationID) r.generation r.leaseToken
        now = true ∧ Saved r db db' := by
  simp only [saveQuotaReservation, reservationStatement,
    Sql.updateQuotaReservationFenced, runs_bind, runs_reject, runs_exactlyOne] at h
  obtain ⟨_, _, ⟨hpositive, rfl⟩, _, _, h, rfl, rfl⟩ := h
  obtain ⟨row, hrow, hc, rfl⟩ := runs_updateRow_one.mp h
  simp only [Bool.and_eq_true, decide_eq_true_eq] at hc
  exact ⟨hc.1 ▸ hc.2, Nat.le_of_not_lt hpositive, row, hrow, hc.1, rfl⟩

theorem runs_savePublication (h : Runs (savePublication now p) db u db') :
    db.operationFenced p.tenantID (p.fenceOperationID.getD p.operationID) p.generation p.leaseToken
        now = true ∧
      db' = { db with
        publications := db.publications.insert (p.tenantID, p.serviceID, p.generation)
          (Sql.publicationRow p.state (observedState p.state) p.url
            (db.publications.lookup (p.tenantID, p.serviceID, p.generation))) } := by
  simp only [savePublication, publicationStatement, Sql.upsertPublicationFenced, runs_bind,
    runs_exactlyOne] at h
  obtain ⟨_, _, h, rfl, rfl⟩ := h
  obtain ⟨row, hrow, hc, rfl⟩ := runs_updateRow_one.mp h
  obtain rfl := Option.some.inj hrow
  exact ⟨hc, rfl⟩

/-- The join of the statements on a service's runtime row: `generation` is the desired one and
`token` holds the lease. -/
def runtimeFenced (db : Db) (tenant service : Uuid) (generation : Generation) (token : Uuid)
    (now : Time) : Prop :=
  (∃ s, db.services.lookup (tenant, service) = some s ∧ s.desiredGeneration = generation) ∧
    db.leaseHeld tenant service token now = true

theorem runs_updateRuntimeForWork_one
    (h : Runs (Sql.updateRuntimeForWork now tenant service generation token change) db 1 db') :
    runtimeFenced db tenant service generation token now ∧
      ∃ t, db' = { db with runtimes := t } := by
  obtain ⟨r, _, hc, rfl⟩ := runs_updateRow_one.mp h
  simp only [Bool.and_eq_true, decide_eq_true_eq, Option.any_eq_true] at hc
  obtain ⟨⟨hs, _⟩, hl⟩ := hc
  exact ⟨⟨hs, hl⟩, _, rfl⟩

theorem runs_saveObject (h : Runs (saveObject item object) db u db') :
    ∃ t, db' = { db with bindings := t } := by
  simp only [saveObject, runs_bind, runs_reject, runs_exactlyOne] at h
  obtain ⟨_, _, ⟨_, rfl⟩, _, _, h, rfl, rfl⟩ := h
  rcases runs_ite.mp h with ⟨_, hdrop⟩ | ⟨_, hswap⟩
  · obtain ⟨_, _, _, rfl⟩ := runs_updateRow_one.mp hdrop
    exact ⟨_, rfl⟩
  · simp only [Sql.upsertRuntimeBindingCAS, runs_bind, Sql.runs_referencesService] at hswap
    obtain ⟨_, _, ⟨_, rfl⟩, hrow⟩ := hswap
    obtain ⟨_, _, _, rfl⟩ := runs_updateRow_one.mp hrow
    exact ⟨_, rfl⟩

theorem runs_saveObjects {objects : List RuntimeObject}
    (h : Runs (objects.forM (saveObject item)) db u db') :
    ∃ t, db' = { db with bindings := t } := by
  induction objects generalizing db with
  | nil =>
    obtain ⟨_, rfl⟩ := runs_pure.mp h
    exact ⟨_, rfl⟩
  | cons object rest ih =>
    obtain ⟨_, db₁, h₁, h₂⟩ := runs_bind.mp h
    obtain ⟨_, rfl⟩ := runs_saveObject h₁
    obtain ⟨_, rfl⟩ := ih h₂
    exact ⟨_, rfl⟩

/-- What an observation saved under a lease does. -/
structure Observed (now : Time) (item : Item) (db db' : Db) : Prop where
  fenced : runtimeFenced db item.tenantID item.serviceID item.generation item.leaseToken now
  services : ∃ s, db.services.lookup (item.tenantID, item.serviceID) = some s ∧
    db'.services = db.services.insert (item.tenantID, item.serviceID)
      { s with appliedGeneration := max s.appliedGeneration item.generation }
  rest : ∃ runtimes bindings, db' = { db with
    services := db'.services, runtimes := runtimes, bindings := bindings }

theorem runs_observedBefore (h : Runs (observedBefore item o) db current db') : db' = db := by
  simp only [observedBefore, runs_bind, runs_reject, Sql.runs_getRuntime] at h
  obtain ⟨_, _, ⟨_, rfl⟩, _, rfl⟩ := h
  rfl

theorem runs_observationGuard (h : Runs (observationGuard now item o current) db u db') :
    runtimeFenced db item.tenantID item.serviceID item.generation item.leaseToken now ∧
      ∃ t, db' = { db with runtimes := t } := by
  simp only [observationGuard, runs_bind, runs_exactlyOne] at h
  obtain ⟨_, _, hrow, rfl, rfl⟩ := h
  exact runs_updateRuntimeForWork_one hrow

theorem runs_saveObservationForWork (h : Runs (saveObservationForWork now item o) db u db') :
    Observed now item db db' := by
  simp only [saveObservationForWork, markApplied, runs_bind, runs_exactlyOne,
    Sql.markServiceAppliedGeneration] at h
  obtain ⟨current, _, h₀, _, _, h₁, _, _, ⟨_, db₂, h₂, rfl, rfl⟩, h₃⟩ := h
  obtain rfl := runs_observedBefore h₀
  obtain ⟨hf, _, rfl⟩ := runs_observationGuard h₁
  obtain ⟨s, hs, _, rfl⟩ := runs_updateRow_one.mp h₂
  obtain ⟨_, rfl⟩ := runs_saveObjects h₃
  exact ⟨hf, ⟨s, hs, rfl⟩, _, _, rfl⟩

theorem runs_saveModelObservation (h : Runs (saveModelObservation now op fact) db u db') :
    runtimeFenced db op.tenantID op.serviceID op.targetGeneration op.leaseToken now ∧
      ∃ t, db' = { db with runtimes := t } := by
  simp only [saveModelObservation, runs_bind, runs_reject, runs_exactlyOne] at h
  obtain ⟨_, _, ⟨_, rfl⟩, _, _, h, rfl, rfl⟩ := h
  exact runs_updateRuntimeForWork_one h

theorem runs_markModelMaterializing (h : Runs (markModelMaterializing now op) db u db') :
    runtimeFenced db op.tenantID op.serviceID op.targetGeneration op.leaseToken now ∧
      ∃ t, db' = { db with runtimes := t } := by
  simp only [markModelMaterializing, runs_bind, runs_exactlyOne] at h
  obtain ⟨_, _, h, rfl, rfl⟩ := h
  exact runs_updateRuntimeForWork_one h

/-- What a resolved GPU plan does to the specification it is saved in. -/
structure Planned (now : Time) (op : OperationContext) (db db' : Db) : Prop where
  fenced : db.fenced op.tenantID op.id op.leaseToken now = true
  specs : ∃ spec plan,
    db.specs.lookup (op.tenantID, op.serviceID, op.targetGeneration) = some spec ∧
    (spec.gpuPlan = none ∨ spec.gpuPlan = some plan) ∧
    db' = { db with
      specs := db.specs.insert (op.tenantID, op.serviceID, op.targetGeneration)
        { spec with gpuPlan := some plan, gpuPlanDigest := some plan.executionDigest } }

theorem runs_saveGPUSnapshot (h : Runs (saveGPUSnapshot now op plan) db u db') :
    Planned now op db db' := by
  simp only [saveGPUSnapshot, planStatement, runs_bind, runs_reject, runs_checked, runs_exactlyOne,
    Sql.saveGPUPlanCAS] at h
  obtain ⟨_, _, ⟨_, rfl⟩, valid, _, ⟨_, rfl⟩, _, _, h, rfl, rfl⟩ := h
  obtain ⟨spec, hspec, hc, rfl⟩ := runs_updateRow_one.mp h
  simp only [Bool.and_eq_true] at hc
  obtain ⟨⟨_, hf⟩, hplan⟩ := hc
  refine ⟨hf, spec, valid, hspec, ?_, rfl⟩
  cases hg : spec.gpuPlan with
  | none => exact .inl rfl
  | some old => exact .inr (by simpa [hg] using hplan)

end Store

/-- What a claim that finds work does: the lease is `token`'s until `expiry`. -/
structure Claimed (now : Time) (token : Uuid) (expiry : Time) (tenant service : Uuid)
    (db db' : Db) :
    Prop where
  live : ∃ s, db.services.lookup (tenant, service) = some s ∧ s.deletedAt = none
  -- A lease that still runs is not taken over.
  free : ∀ token' expiry', db.lease (tenant, service) = some (token', some expiry') → expiry' ≤ now
  work : ∃ row, row.lease = some (token, some expiry) ∧
    db' = { db with work := db.work.insert (tenant, service) row }

theorem workOf_eq_some {db : Db} (h : db.workOf tenant service = some r) :
    db.work.lookup (tenant, service) = some r.1 ∧
      db.services.lookup (tenant, service) = some r.2 := by
  unfold Db.workOf at h
  split at h
  · next w s hw hs =>
    obtain rfl := Option.some.inj h
    exact ⟨hw, hs⟩
  · cases h

namespace Work

/-- The row a claim leaves. -/
def claimedRow (token : Uuid) (expiry : Time) (w : WorkRow) : WorkRow :=
  { w with leaseToken := some token, leaseUntil := some expiry, attempt := w.attempt + 1 }

/-- The row a commit leaves: what was notified meanwhile is due at once. -/
def committedRow (now : Time) (claimed delay : Nat) (s : Service) (w : WorkRow) : WorkRow :=
  { w.released with
    acknowledgedVersion := max w.acknowledgedVersion claimed
    nextRunAt :=
      if s.deletedAt.isSome then none
      else if w.dirtyVersion > claimed then some now
      else some (now + delay)
    attempt := 0, lastErrorCode := "" }

/-- The row a retry leaves. -/
def retriedRow (now : Time) (delay : Nat) (code : String) (w : WorkRow) : WorkRow :=
  { w.released with nextRunAt := some (now + delay), lastErrorCode := code }

/-- The calls of the close scanner. -/
def closes : Work → Bool
  | .claimClose _ | .retryClose _ | .completeClose _ => true
  | _ => false

/-- What the calls on the queue do to it. -/
inductive Moves (now : Time) (token : Uuid) (db : Db) : Work → Db → Prop
  | claimed {tenant service : Uuid} {expiry : Time} {w : WorkRow} {s : Service}
      (row : db.work.lookup (tenant, service) = some w)
      (owner : db.services.lookup (tenant, service) = some s) (live : s.deletedAt = none)
      (due : Sql.claimable now w = true) :
      Moves now token db (.claim tenant) { db with
        work := db.work.insert (tenant, service) (claimedRow token expiry w) }
  | committed {item : Item} {delay : Nat} {w : WorkRow} {s : Service}
      (row : db.work.lookup (item.tenantID, item.serviceID) = some w)
      (owner : db.services.lookup (item.tenantID, item.serviceID) = some s)
      (generation : s.desiredGeneration = item.generation)
      (held : w.heldBy item.leaseToken now = true) (seen : item.dirtyVersion ≤ w.dirtyVersion) :
      Moves now token db (.commit item) { db with
        work := db.work.insert (item.tenantID, item.serviceID)
          (committedRow now item.dirtyVersion delay s w) }
  | retried {item : Item} {cause : Err} {delay : Nat} {w : WorkRow} {s : Service}
      (row : db.work.lookup (item.tenantID, item.serviceID) = some w)
      (owner : db.services.lookup (item.tenantID, item.serviceID) = some s)
      (live : s.deletedAt = none) (generation : s.desiredGeneration = item.generation)
      (held : w.heldBy item.leaseToken now = true) :
      Moves now token db (.retry item cause) { db with
        work := db.work.insert (item.tenantID, item.serviceID)
          (retriedRow now delay (workErrorCode cause) w) }
  | notified {tenant service : Uuid} {dirty : Nat}
      (owner : (db.services.lookup (tenant, service)).isSome = true) :
      Moves now token db (.notify tenant service dirty) { db with
        work := db.work.insert (tenant, service)
          (.notified now dirty (db.work.lookup (tenant, service))) }
  | ensured {tenant service : Uuid} {dirty : Nat}
      (owner : (db.services.lookup (tenant, service)).isSome = true)
      (missing : db.work.lookup (tenant, service) = none) :
      Moves now token db (.repair tenant service dirty) { db with
        work := db.work.insert (tenant, service) (.notified now dirty none) }
  | closing {k : Work} (commands : Table (Uuid × Uuid) ManagedCommandRow)
    (scanner : k.closes = true) :
      Moves now token db k { db with managedCommands := commands }

variable {opts : WorkOptions} {now : Time} {token candidate : Uuid} {db db' : Db}

/-- A claim that finds work says what it found. -/
theorem moves_claim (h : Runs ((Work.claim tenant).tx opts now token candidate) db o db') :
    (o = none ∧ db' = db) ∨ ∃ w s, db.work.lookup (tenant, candidate) = some w ∧
      db.services.lookup (tenant, candidate) = some s ∧ s.deletedAt = none ∧
      Sql.claimable now w = true ∧
      o = some ⟨tenant, candidate, s.desiredGeneration, w.dirtyVersion, token⟩ ∧
      db' = { db with
        work := db.work.insert (tenant, candidate)
          (claimedRow token (now + opts.leaseSeconds) w) } := by
  simp only [Work.tx, runs_bind, runs_pure] at h
  obtain ⟨found, _, h, rfl, rfl⟩ := h
  simp only [Sql.claimResourceWork, runs_get_bind] at h
  cases hw : db.workOf tenant candidate with
  | none =>
    simp only [hw, runs_pure] at h
    exact .inl ⟨by simp [h.1], h.2⟩
  | some r =>
    obtain ⟨hrow, hs⟩ := workOf_eq_some hw
    simp only [hw, runs_ite, runs_bind, runs_set, runs_pure] at h
    rcases h with ⟨hc, _, _, rfl, rfl, rfl⟩ | ⟨_, rfl, rfl⟩
    · simp only [Bool.and_eq_true, Option.isNone_iff_eq_none] at hc
      exact .inr ⟨r.1, r.2, hrow, hs, hc.1, hc.2, rfl, rfl⟩
    · exact .inl ⟨rfl, rfl⟩

theorem runs_claim (h : Runs ((Work.claim tenant).tx opts now token candidate) db o db') :
    (o = none ∧ db' = db) ∨
      (Claimed now token (now + opts.leaseSeconds) tenant candidate db db' ∧
        ∃ i, o = some i ∧ i.tenantID = tenant ∧ i.serviceID = candidate ∧
          i.leaseToken = token) := by
  refine (moves_claim h).imp_right fun hclaim => ?_
  obtain ⟨w, s, hrow, hs, hlive, hc, rfl, rfl⟩ := hclaim
  refine ⟨⟨⟨s, hs, hlive⟩, ?_, _, rfl, rfl⟩, _, rfl, rfl, rfl, rfl⟩
  intro token' expiry' hl
  simp only [Db.lease, hrow, Option.bind_some, WorkRow.lease, Option.map_eq_some_iff,
    Prod.mk.injEq] at hl
  obtain ⟨_, _, _, hend⟩ := hl
  simp only [Sql.claimable, Bool.and_eq_true, hend] at hc
  simpa using hc.1

/-- The end of a worker's turn gives its lease back, and only a lease it holds. -/
def Settles (now : Time) (item : Item) (db db' : Db) : Prop :=
  Aside (fun k => k = (item.tenantID, item.serviceID) ∧
    db.leaseHeld item.tenantID item.serviceID item.leaseToken now = true) db db'

theorem settles_of_insert {item : Item} {row : WorkRow}
    (hr : db.workOf item.tenantID item.serviceID = some r)
    (hheld : r.1.heldBy item.leaseToken now = true) (hnone : row.lease = none) :
    Settles now item db { db with work := db.work.insert (item.tenantID, item.serviceID) row } := by
  refine .of_work rfl fun k => ?_
  rw [Db.lease_insert]
  split
  · next hk =>
    refine .inr ⟨⟨hk, ?_⟩, hnone⟩
    simp [Db.leaseHeld, (workOf_eq_some hr).1, hheld]
  · exact .inl rfl

theorem runs_commit (h : Runs ((Work.commit item).tx opts now token candidate) db u db') :
    Settles now item db db' ∧ Moves now token db (.commit item) db' := by
  simp only [Work.tx, runs_bind, runs_exactlyOne, Sql.commitResourceWork] at h
  obtain ⟨_, _, h, rfl, rfl⟩ := h
  obtain ⟨r, hr, hc, rfl⟩ := runs_updateRow_one.mp h
  simp only [Bool.and_eq_true, decide_eq_true_eq] at hc
  obtain ⟨hrow, hs⟩ := workOf_eq_some hr
  exact ⟨settles_of_insert hr hc.1.2 rfl, .committed hrow hs hc.1.1 hc.1.2 hc.2⟩

theorem runs_retry (h : Runs ((Work.retry item cause).tx opts now token candidate) db u db') :
    Settles now item db db' ∧ Moves now token db (.retry item cause) db' := by
  simp only [Work.tx, runs_bind, runs_exactlyOne, Sql.retryResourceWork] at h
  obtain ⟨_, _, h, rfl, rfl⟩ := h
  obtain ⟨r, hr, hc, rfl⟩ := runs_updateRow_one.mp h
  simp only [Bool.and_eq_true, decide_eq_true_eq, Option.isNone_iff_eq_none] at hc
  obtain ⟨hrow, hs⟩ := workOf_eq_some hr
  exact ⟨settles_of_insert hr hc.2 rfl, .retried hrow hs hc.1.1 hc.1.2 hc.2⟩

theorem moves_notify
    (h : Runs ((Work.notify tenant service dirty).tx opts now token candidate) db u db') :
    Moves now token db (.notify tenant service dirty) db' := by
  have howner : (db.services.lookup (tenant, service)).isSome = true := by
    simp [Work.tx, Sql.upsertResourceWork, runs_bind] at h
    exact h.1
  obtain rfl := Sql.booked_upsertResourceWork h
  exact .notified howner

/-- A row that is there is not written again. -/
theorem moves_repair
    (h : Runs ((Work.repair tenant service dirty).tx opts now token candidate) db u db') :
    db' = db ∨ Moves now token db (.repair tenant service dirty) db' := by
  simp [Work.tx, Sql.ensureResourceWork, runs_bind] at h
  obtain ⟨howner, ⟨hn, rfl⟩ | ⟨_, rfl⟩⟩ := h
  · exact .inr (.ensured howner hn)
  · exact .inl rfl

end Work

namespace Work
variable {opts : WorkOptions} {now : Time} {token candidate : Uuid} {db db' : Db}

theorem runs_claimClose (h : Runs ((Work.claimClose tenant).tx opts now token candidate) db o db') :
    (∃ commands, db' = { db with managedCommands := commands }) ∧ ∀ item, o = some item →
      item.tenantID = tenant ∧ item.leaseToken = token := by
  simp only [Work.tx, runs_bind, runs_pure] at h
  obtain ⟨row, _, h, rfl, rfl⟩ := h
  rcases Sql.runs_claimManagedClose h with ⟨rfl, rfl⟩ | ⟨c, _, rfl, hdb⟩
  · refine ⟨⟨_, rfl⟩, fun item hitem => ?_⟩
    cases hitem
  · refine ⟨⟨_, hdb⟩, fun item hitem => ?_⟩
    obtain rfl := Option.some.inj hitem
    exact ⟨rfl, rfl⟩

theorem runs_retryClose (h : Runs ((Work.retryClose item).tx opts now token candidate) db u db') :
    ∃ commands, db' = { db with managedCommands := commands } := by
  obtain ⟨n, h, _⟩ := runs_map.mp h
  rcases runs_updateRow.mp h with ⟨_, _, _, _, hdb⟩ | ⟨_, _, rfl⟩
  · exact ⟨_, hdb⟩
  · exact ⟨_, rfl⟩

theorem runs_completeClose
    (h : Runs ((Work.completeClose item).tx opts now token candidate) db u db') :
    ∃ commands, db' = { db with managedCommands := commands } := by
  simp only [Work.tx, runs_bind, runs_exactlyOne] at h
  obtain ⟨_, _, h, rfl, rfl⟩ := h
  obtain ⟨_, _, _, hdb⟩ := runs_updateRow_one.mp h
  exact ⟨_, hdb⟩

end Work

/-- A report writes the row of the delete it is about, and only where that has none yet or the
same one. -/
theorem Store.runs_saveManagedReleaseReport
    (h : Runs (Store.saveManagedReleaseReport now original proof n token) db u db') :
    ∃ operation c, original.deleteOperationID = some operation ∧
      Store.validateRefund n original = .ok () ∧
      db.managedCommands.lookup (original.tenantID, operation) = some c ∧ c.kind = .delete ∧
      (c.releaseReport = none ∨
        (c.releaseReport = some n ∧ c.releaseEvidence = some proof)) ∧
      db' = { db with
        managedCommands := db.managedCommands.insert (original.tenantID, operation)
          { c with releaseEvidence := some proof, releaseReport := some n } } := by
  simp only [Store.saveManagedReleaseReport, runs_bind, runs_checked, runs_require,
    runs_exactlyOne] at h
  obtain ⟨_, _, ⟨hvalid, rfl⟩, operation, _, ⟨hop, rfl⟩, _, _, h, rfl, rfl⟩ := h
  obtain ⟨c, hc, hkind, hreport, hdb⟩ := Sql.runs_saveManagedReleaseReport_one h
  exact ⟨operation, c, hop, hvalid, hc, hkind, hreport, hdb⟩

def Request.kind : Request → Kind
  | .command input => input.kind
  | .update _ => .update
  | .create _ | .prepareCreate _ => .create
  | .managedDelete _ => .delete

/-- Everything one call can do to the database. -/
inductive Effect (now : Time) (token : Uuid) (db : Db) : Call → Db → Prop
  | same (c : Call) : Effect now token db c db
  | aside {q : Request} {db' : Db} (h : Aside (fun _ => False) db db') (l : Unbooked db db') :
      Effect now token db (.request q) db'
  | accepted {q : Request} {tenant service operation : Uuid} {hash : String} {s : Service}
      {db' : Db} (h : Accepted now tenant service operation q.kind hash s db db')
      (l : Booked now q.replayKey hash q.kind
        (db.managedResources.lookup (tenant, service) = none ∧
          q.kind.reserves = true) tenant service
        operation (s.desiredGeneration + 1) db db') :
      Effect now token db (.request q) db'
  | created {q : Request} {tenant service operation : Uuid} {hash : String} {db' : Db}
      (h : Created tenant service operation hash db db')
      (l : Booked now q.replayKey hash .create (q.unmanaged = true) tenant service operation 1 db
        db') :
      Effect now token db (.request q) db'
  | closed {q : Request} {tenant resource operation : Uuid} {db' : Db}
      (h : Closed now tenant resource operation db db') (l : Unbooked db db') :
      Effect now token db (.request q) db'
  | claimed {tenant service : Uuid} {expiry : Time} {db' : Db}
      (h : Claimed now token expiry tenant service db db')
      (l : Work.Moves now token db (.claim tenant) db') :
      Effect now token db (.work (.claim tenant)) db'
  | queued {k : Work} {db' : Db} (h : Aside (fun _ => False) db db')
      (l : Work.Moves now token db k db') : Effect now token db (.work k) db'
  | committed {item : Item} {db' : Db} (h : Work.Settles now item db db')
      (l : Work.Moves now token db (.commit item) db') :
      Effect now token db (.work (.commit item)) db'
  | requeued {item : Item} {cause : Err} {db' : Db} (h : Work.Settles now item db db')
      (l : Work.Moves now token db (.retry item cause) db') :
      Effect now token db (.work (.retry item cause)) db'
  | advanced {t : StepTransition} {event : AuditEvent} {o : OperationRow} {db' : Db}
      (h : Store.Stepped now t none o db db') (l : Store.Logged now t event none o db db') :
      Effect now token db (.write (.advance t event)) db'
  | retried {t : StepTransition} {after : Nat} {event : AuditEvent} {o : OperationRow} {db' : Db}
      (h : Store.Stepped now t (some after) o db db')
      (l : Store.Logged now t event (some after) o db db') :
      Effect now token db (.write (.retry t after event)) db'
  | quota {r : Reservation} {reservations : Table (Uuid × Uuid) ReservationRow}
      (fenced : db.operationFenced r.tenantID (r.fenceOperationID.getD r.operationID) r.generation
        r.leaseToken now = true)
      (l : Store.Saved r db { db with reservations := reservations }) :
      Effect now token db (.write (.quota r)) { db with reservations := reservations }
  | publication {p : Publication}
      (fenced : db.operationFenced p.tenantID (p.fenceOperationID.getD p.operationID) p.generation
        p.leaseToken now = true) :
      Effect now token db (.write (.publication p)) { db with
        publications := db.publications.insert (p.tenantID, p.serviceID, p.generation)
          (Sql.publicationRow p.state (Store.observedState p.state) p.url
            (db.publications.lookup (p.tenantID, p.serviceID, p.generation))) }
  | runtimeObserved {op : OperationContext} {fact : RuntimeObservation} {db' : Db}
      (h : Store.Observed now (Store.contextItem op) db db') :
      Effect now token db (.write (.runtimeObservation op fact)) db'
  | observed {item : Item} {o : Observation} {db' : Db} (h : Store.Observed now item db db') :
      Effect now token db (.write (.observation item o)) db'
  | modelObserved {op : OperationContext} {fact : ModelObservation}
      {runtimes : Table (Uuid × Uuid) RuntimeRow}
      (fenced : Store.runtimeFenced db op.tenantID op.serviceID op.targetGeneration op.leaseToken
        now) :
      Effect now token db (.write (.modelObservation op fact)) { db with runtimes := runtimes }
  | materializing {op : OperationContext} {runtimes : Table (Uuid × Uuid) RuntimeRow}
      (fenced : Store.runtimeFenced db op.tenantID op.serviceID op.targetGeneration op.leaseToken
        now) :
      Effect now token db (.write (.modelMaterializing op)) { db with runtimes := runtimes }
  | planned {op : OperationContext} {plan : Gpu.Snapshot} {db' : Db}
      (h : Store.Planned now op db db') : Effect now token db (.write (.gpuSnapshot op plan)) db'
  | scopeSaved {op : OperationContext} {scope : ReleaseScope} :
      Effect now token db (.write (.releaseScope op scope)) { db with
        releaseScopes :=
          db.releaseScopes.insert (op.tenantID, op.serviceID, op.scopeOperation) scope }
  | reported {original : RefundContext} {proof : ReleaseProof} {n : ReleaseNotification}
      {holder : Uuid} {db' : Db} (h : Aside (fun _ => False) db db')
      (l : ∃ commands, db' = { db with managedCommands := commands }) :
      Effect now token db (.write (.releaseReport original proof n holder)) db'

section
variable {now : Time} {token : Uuid} {db db' : Db}

theorem Request.effect {fresh : Fresh} {q : Request} {a : q.Result}
    (h : Runs (q.tx now fresh) db a db') : Effect now token db (.request q) db' := by
  cases q with
  | command input =>
    rcases Commands.runs_command h with rfl | ⟨s, hacc, hbooked⟩
    · exact .same _
    · exact .accepted hacc hbooked
  | update input =>
    rcases Commands.runs_update h with rfl | ⟨s, hacc, hbooked⟩
    · exact .same _
    · exact .accepted hacc hbooked
  | create input =>
    rcases Managed.runs_createService h with ⟨ha, hu⟩ | ⟨service, operation, hc, hbooked⟩
    · exact .aside ha hu
    · exact .created hc hbooked
  | prepareCreate c =>
    obtain ⟨ha, hu⟩ := Managed.runs_prepareCreate h
    exact .aside ha hu
  | managedDelete input =>
    rcases Managed.runs_acceptManagedDelete h with ⟨ha, hu⟩ |
      ⟨operation, _, ⟨hc, hu⟩ | ⟨s, hacc, hbooked⟩⟩
    · exact .aside ha hu
    · exact .closed hc hu
    · exact .accepted hacc (hbooked.congr (by simp [Request.kind, Kind.reserves]))

theorem Work.effect {opts : WorkOptions} {candidate : Uuid} {k : Work} {a : k.Result}
    (h : Runs (k.tx opts now token candidate) db a db') : Effect now token db (.work k) db' := by
  have closing : k.closes = true → (∃ commands, db' = { db with managedCommands := commands }) →
      Effect now token db (.work k) db' := by
    rintro hk ⟨commands, rfl⟩
    exact .queued (.of_commands rfl) (.closing commands hk)
  cases k with
  | claim tenant =>
    rcases Work.runs_claim h with ⟨_, rfl⟩ | ⟨hc, i, rfl, _⟩
    · exact .same _
    · rcases Work.moves_claim h with ⟨hnone, _⟩ | ⟨w, s, hw, hs, hlive, hdue, _, rfl⟩
      · cases hnone
      · exact .claimed hc (.claimed hw hs hlive hdue)
  | commit item => exact .committed (Work.runs_commit h).1 (Work.runs_commit h).2
  | retry item cause => exact .requeued (Work.runs_retry h).1 (Work.runs_retry h).2
  | notify tenant service dirty => exact .queued (.upsertResourceWork h) (Work.moves_notify h)
  | repair tenant service dirty =>
    rcases Work.moves_repair h with rfl | hmoves
    · exact .same _
    · exact .queued (.ensureResourceWork h) hmoves
  | claimClose tenant => exact closing rfl (Work.runs_claimClose h).1
  | retryClose item => exact closing rfl (Work.runs_retryClose h)
  | completeClose item => exact closing rfl (Work.runs_completeClose h)

theorem Write.effect (h : Runs (x.tx now) db u db') : Effect now token db (.write x) db' := by
  cases x with
  | advance t event =>
    obtain ⟨o, ho, hlogged⟩ := Store.runs_stepWithAudit h
    exact .advanced ho hlogged
  | retry t after event =>
    obtain ⟨o, ho, hlogged⟩ := Store.runs_stepWithAudit h
    exact .retried ho hlogged
  | quota r =>
    obtain ⟨hf, hpositive, row, hrow, hgen, rfl⟩ := Store.runs_saveQuotaReservation h
    exact .quota hf ⟨hpositive, row, hrow, hgen, rfl⟩
  | publication p =>
    obtain ⟨hf, rfl⟩ := Store.runs_savePublication h
    exact .publication hf
  | runtimeObservation op fact => exact .runtimeObserved (Store.runs_saveObservationForWork h)
  | observation item o => exact .observed (Store.runs_saveObservationForWork h)
  | modelObservation op fact =>
    obtain ⟨hf, _, rfl⟩ := Store.runs_saveModelObservation h
    exact .modelObserved hf
  | modelMaterializing op =>
    obtain ⟨hf, _, rfl⟩ := Store.runs_markModelMaterializing h
    exact .materializing hf
  | gpuSnapshot op plan => exact .planned (Store.runs_saveGPUSnapshot h)
  | releaseScope op scope =>
    obtain rfl := Sql.runs_upsertReleaseScope.mp h
    exact .scopeSaved
  | releaseReport original proof n token =>
    obtain ⟨_, _, _, _, _, _, _, rfl⟩ := Store.runs_saveManagedReleaseReport h
    exact .reported (.of_commands rfl) ⟨_, rfl⟩

theorem Read.runs_same {r : Read} {a : r.Result} (h : Runs (r.tx now) db a db') : db' = db := by
  cases r <;>
    simp [Read.tx, Sql.getLeasedOperation, Sql.getLeasedDesired, Sql.getReleaseScope,
      Sql.getLatestSpec, Sql.getOperationAuditContext, Sql.getActiveQuotaReservation,
      Sql.getPreviousQuotaReservation, Sql.latestReservation, Sql.getPublication,
      Sql.getLatestPublication, Sql.getRefundContext, Sql.listManagedCloseTenants] at h <;>
    simp [h]

end

/-- Every call does one of the things `Effect` lists, or nothing. -/
theorem exec_effect (opts : WorkOptions) (c : Call) (choice : c.Choice) (w : World) :
    Effect w.now w.nextToken w.db c (exec opts c choice w).2.db := by
  have settled : ∀ {α : Type} (x : Tx α) (fault : Fault),
      (∀ a db', Runs x w.db a db' → Effect w.now w.nextToken w.db c db') →
      Effect w.now w.nextToken w.db c (x.settle .connection fault w.db).2 := by
    intro α x fault hx
    rcases settle_state x .connection fault w.db with hs | ⟨a, ha⟩
    · rw [hs]
      exact .same c
    · exact hx a _ ha
  cases c with
  | read r =>
    refine settled (r.tx w.now) choice fun a db' h => ?_
    rw [Read.runs_same h]
    exact .same _
  | write x => exact settled (x.tx w.now) choice fun _ _ h => Write.effect h
  | request q => exact settled (q.tx w.now choice.2) choice.1 fun _ _ h => Request.effect h
  | work k =>
    exact settled (k.tx opts w.now w.nextToken choice.2) choice.1 fun _ _ h => Work.effect h
  | provider p | clock | tick => exact .same _

end AniInference
