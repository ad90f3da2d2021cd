import AniInference.System

namespace AniInference
open Lib Txn

/-- What is stored about the model of a service: whether its readiness is known, and whether it is
ready. -/
def Db.modelFacts (db : Db) (tenant service : Uuid) : Bool × Bool :=
  match db.runtimes.lookup (tenant, service) with
  | some row => (row.modelReadyKnown, row.modelReady)
  | none => (false, false)

/-- The lease a work row records: its token and its end. -/
def WorkRow.lease (w : WorkRow) : Option (Uuid × Option Time) :=
  w.leaseToken.map fun token => (token, w.leaseUntil)

/-- The lease on a service's work. -/
def Db.lease (db : Db) (k : Uuid × Uuid) : Option (Uuid × Option Time) :=
  (db.work.lookup k).bind WorkRow.lease

theorem Db.leaseHeld_iff {db : Db} :
    db.leaseHeld tenant service token now = true ↔
      ∃ expiry, db.lease (tenant, service) = some (token, some expiry) ∧ now < expiry := by
  simp only [Db.leaseHeld, Db.lease, Option.any_eq_true, WorkRow.heldBy, Bool.and_eq_true,
    decide_eq_true_eq, Option.bind_eq_some_iff, WorkRow.lease, Option.map_eq_some_iff,
    Prod.mk.injEq]
  constructor
  · rintro ⟨w, hw, ht, expiry, he, hlt⟩
    exact ⟨expiry, ⟨w, hw, token, ht, rfl, he⟩, hlt⟩
  · rintro ⟨expiry, ⟨w, hw, _, ht, rfl, he⟩, hlt⟩
    exact ⟨w, hw, ht, expiry, he, hlt⟩

theorem Db.lease_insert {db : Db} {row : WorkRow} :
    ({ db with work := db.work.insert k row } : Db).lease k' =
      if k' = k then row.lease else db.lease k' := by
  simp only [Db.lease, Table.lookup_insert_ite]
  split <;> rfl

namespace Sql
variable {now : Time} {db db' : Db} {tenant service operation token : Uuid}

@[simp] theorem runs_referencesService :
    Runs (referencesService tenant service) db u db' ↔
      (db.services.lookup (tenant, service)).isSome ∧ db' = db := by
  simp [referencesService]
  cases db.services.lookup (tenant, service) <;> simp

@[simp] theorem runs_getService :
    Runs (getService tenant service) db o db' ↔
      o = db.services.lookup (tenant, service) ∧ db' = db := by
  simp [getService, and_comm]

@[simp] theorem runs_getSpec :
    Runs (getSpec tenant service generation) db o db' ↔
      o = db.specs.lookup (tenant, service, generation) ∧ db' = db := by
  simp [getSpec, and_comm]

@[simp] theorem runs_getOperation {id : Uuid} {o : Option OperationRow} :
    Runs (getOperation tenant id) db o db' ↔
      o = db.operations.lookup (tenant, id) ∧ db' = db := by
  simp [getOperation, and_comm]

@[simp] theorem runs_getIdempotency :
    Runs (getIdempotency tenant method key) db o db' ↔
      o = db.idempotency.lookup (tenant, method, key) ∧ db' = db := by
  simp [getIdempotency, and_comm]

@[simp] theorem runs_getManagedResource :
    Runs (getManagedResource tenant resource) db o db' ↔
      o = db.managedResources.lookup (tenant, resource) ∧ db' = db := by
  simp [getManagedResource, and_comm]

@[simp] theorem runs_getManagedCommand {id : Uuid} {o : Option ManagedCommandRow} :
    Runs (getManagedCommand tenant id) db o db' ↔
      o = db.managedCommands.lookup (tenant, id) ∧ db' = db := by
  simp [getManagedCommand, and_comm]

@[simp] theorem runs_getRuntime :
    Runs (getRuntime tenant service) db o db' ↔
      o = currentRuntime db tenant service ∧ db' = db := by
  simp [getRuntime, and_comm]

@[simp] theorem runs_getResultSnapshot {id : Uuid} {o : Option Response} :
    Runs (getResultSnapshot tenant id) db o db' ↔
      o = db.resultSnapshots.lookup (tenant, id) ∧ db' = db := by
  simp [getResultSnapshot, and_comm]

theorem runs_insertService :
    Runs (insertService tenant service name generation) db u db' ↔
      db.services.lookup (tenant, service) = none ∧
      Table.existsWhere (fun k s => k.1 = tenant && s.name = name && s.deletedAt.isNone)
        db.services = false ∧
      db' = { db with
        services := db.services.insert (tenant, service) (newService name generation) } := by
  simp [insertService, runs_bind, and_assoc]

theorem runs_insertSpec :
    Runs (insertSpec tenant service generation spec) db u db' ↔
      (db.services.lookup (tenant, service)).isSome ∧
      db.specs.lookup (tenant, service, generation) = none ∧
      db' = { db with specs := db.specs.insert (tenant, service, generation) spec } := by
  simp [insertSpec, runs_bind, and_assoc]

theorem runs_cloneSpec_one :
    Runs (cloneSpec tenant service source target overlay) db 1 db' ↔
      ∃ spec, db.specs.lookup (tenant, service, source) = some spec ∧
        Runs (insertSpec tenant service target (overlay spec)) db () db' := by
  simp only [cloneSpec, runs_get_bind]
  cases hs : db.specs.lookup (tenant, service, source) with
  | none => simp
  | some spec => simp [runs_insertSpec]

theorem runs_insertOperation {id : Uuid} {kind : Kind} {step : Step} {target : Generation}
    {hash : String} {u : Unit} :
    Runs (insertOperation tenant id service kind step target hash) db u db' ↔
      (db.services.lookup (tenant, service)).isSome ∧
      db.operations.lookup (tenant, id) = none ∧
      (∀ k o, db.operations.lookup k = some o → k.1 = tenant → o.serviceID = service →
        o.phase.active = false) ∧
      db' = { db with
        operations := db.operations.insert (tenant, id)
          (newOperation service kind step target hash) } := by
  simp [insertOperation, runs_bind, and_assoc, Table.existsWhere_eq_false]

theorem runs_transitionService_one :
    Runs (transitionService desired target operation tenant service expected) db 1 db' ↔
      ∃ s, db.services.lookup (tenant, service) = some s ∧ s.desiredGeneration = expected ∧
        s.deletedAt = none ∧
        db' = { db with
          services := db.services.insert (tenant, service)
            (s.moved desired target operation) } := by
  simp [transitionService, runs_updateRow_one, and_assoc]

theorem runs_cancelActiveOperation :
    Runs (cancelActiveOperation now tenant service) db n db' ↔
      n = Table.countWhere (cancellable db tenant service) db.operations ∧
      db' = { db with
        operations := Table.updateWhere (cancellable db tenant service)
          (fun _ o => cancelled now o) db.operations } := by
  simp [cancelActiveOperation, and_comm]

theorem runs_insertQuotaReservation {generation : Generation} {id : ReservationID}
    {resources : Resources.Spec} {u : Unit}
    (h : Runs (insertQuotaReservation tenant service operation generation id resources) db u db') :
    db.reservations.lookup (tenant, operation) = none ∧
      db' = { db with
        reservations := db.reservations.insert (tenant, operation)
          ⟨service, generation, id, resources, .pending, ""⟩ } := by
  simp [insertQuotaReservation, runs_bind] at h
  exact ⟨h.2.1.1, h.2.2⟩

theorem runs_upsertResourceWork (h : Runs (upsertResourceWork now tenant service dirty) db u db') :
    ∃ t, db' = { db with work := t } ∧ ∀ k, db'.lease k = db.lease k := by
  simp [upsertResourceWork, runs_bind] at h
  obtain ⟨_, rfl⟩ := h
  refine ⟨_, rfl, fun k => ?_⟩
  rw [Db.lease_insert]
  split
  · next hk =>
    subst hk
    unfold Db.lease
    cases db.work.lookup (tenant, service) <;> rfl
  · rfl

theorem runs_ensureResourceWork (h : Runs (ensureResourceWork now tenant service dirty) db u db') :
    ∃ t, db' = { db with work := t } ∧ ∀ k, db'.lease k = db.lease k := by
  simp [ensureResourceWork, runs_bind] at h
  obtain ⟨_, ⟨hn, rfl⟩ | ⟨_, rfl⟩⟩ := h
  · refine ⟨_, rfl, fun k => ?_⟩
    rw [Db.lease_insert]
    split
    · next hk =>
      subst hk
      rw [Db.lease, hn]
      rfl
    · rfl
  · exact ⟨_, rfl, fun _ => rfl⟩

theorem runs_releaseResourceWorkLease
    (h : Runs (releaseResourceWorkLease now tenant service) db u db') :
    ∃ t, db' = { db with work := t } ∧
      ∀ k, db'.lease k = if k = (tenant, service) then none else db.lease k := by
  simp only [releaseResourceWorkLease, runs_get_bind, runs_set] at h
  subst h
  refine ⟨_, rfl, fun k => ?_⟩
  simp only [Db.lease, Table.lookup_modify]
  split
  · cases db.work.lookup k <;> rfl
  · rfl

theorem runs_putIdempotency {method key hash : String} {n : Nat}
    (h : Runs (putIdempotency tenant method key hash operation) db n db') :
    ∃ t, db' = { db with idempotency := t } := by
  simp [putIdempotency, runs_bind] at h
  obtain ⟨_, _, rfl⟩ | ⟨_, rfl, _⟩ := h
  · exact ⟨_, rfl⟩
  · exact ⟨_, rfl⟩

theorem runs_appendAuditEvent {id : EventID} {row : AuditRow} {u : Unit}
    (h : Runs (appendAuditEvent tenant id row) db u db') : ∃ t, db' = { db with audit := t } := by
  simp only [appendAuditEvent, runs_modify] at h
  subst h
  split
  · exact ⟨_, rfl⟩
  · exact ⟨_, rfl⟩

theorem runs_setCurrentOperation :
    Runs (setCurrentOperation tenant service operation) db u db' ↔
      db' = { db with
        services := Table.modify (tenant, service)
          (fun s => { s with currentOperation := some operation }) db.services } := by
  simp [setCurrentOperation]

theorem runs_insertRuntime (h : Runs (insertRuntime tenant service generation mode) db u db') :
    ∃ t, db' = { db with runtimes := t } := by
  simp [insertRuntime, runs_bind] at h
  obtain ⟨_, _, rfl⟩ := h
  exact ⟨_, rfl⟩

theorem runs_insertManagedCommand (h : Runs (insertManagedCommand tenant operation row) db u db') :
    db.managedCommands.lookup (tenant, operation) = none ∧
      (db.managedResources.lookup (tenant, row.resourceID)).any
        (·.createOperationID = row.createOperationID) = true ∧
      db' = { db with
        managedCommands := db.managedCommands.insert (tenant, operation) row } := by
  simp [insertManagedCommand, runs_bind] at h
  simpa using h

theorem runs_setManagedCloseState :
    Runs (setManagedCloseState tenant operation state) db u db' ↔
      db' = { db with
        managedCommands := Table.modify (tenant, operation)
          (fun c => if c.kind = .delete then { c with closeState := state } else c)
          db.managedCommands } := by
  simp [setManagedCloseState]

theorem runs_upsertReleaseScope :
    Runs (upsertReleaseScope tenant service operation scope) db u db' ↔
      db' = { db with
        releaseScopes := db.releaseScopes.insert (tenant, service, operation) scope } := by
  simp [upsertReleaseScope]

/-- Saving a report writes the row of the delete only. -/
theorem runs_saveManagedReleaseReport_one
    (h : Runs (saveManagedReleaseReport now tenant operation proof report token) db 1 db') :
    ∃ c, db.managedCommands.lookup (tenant, operation) = some c ∧ c.kind = .delete ∧
      (c.releaseReport = none ∨
        (c.releaseReport = some report ∧ c.releaseEvidence = some proof)) ∧
      db' = { db with
        managedCommands := db.managedCommands.insert (tenant, operation)
          { c with releaseEvidence := some proof, releaseReport := some report } } := by
  obtain ⟨c, hc, hcond, rfl⟩ := runs_updateRow_one.mp h
  simp only [Bool.and_eq_true, Bool.or_eq_true, decide_eq_true_eq] at hcond
  exact ⟨c, hc, hcond.1.1.1, hcond.2, rfl⟩

/-- Claiming a delete takes a lease on its row, and nothing else. -/
theorem runs_claimManagedClose (h : Runs (claimManagedClose now tenant token operation) db o db') :
    (o = none ∧ db' = db) ∨ ∃ c, db.managedCommands.lookup (tenant, operation) = some c ∧
      o = some { c with leaseToken := some token, leaseUntil := some (now + 30) } ∧
      db' = { db with
        managedCommands := db.managedCommands.insert (tenant, operation)
          { c with leaseToken := some token, leaseUntil := some (now + 30) } } := by
  simp only [claimManagedClose, runs_get_bind] at h
  cases hc : db.managedCommands.lookup (tenant, operation) with
  | none =>
    rw [hc] at h
    exact .inl (runs_pure.mp h)
  | some c =>
    simp only [hc, runs_ite, runs_bind, runs_set, runs_pure] at h
    rcases h with ⟨_, _, _, rfl, rfl, rfl⟩ | ⟨_, rfl, rfl⟩
    · exact .inr ⟨c, rfl, rfl, rfl⟩
    · exact .inl ⟨rfl, rfl⟩

end Sql

/-- What a managed resource keeps for good: what it was created as and, once it has one, the
operation that deletes it. -/
structure ManagedResource.Keeps (m m' : ManagedResource) : Prop where
  createOperationID : m'.createOperationID = m.createOperationID
  resourceClass : m'.resourceClass = m.resourceClass
  createCommandDigest : m'.createCommandDigest = m.createCommandDigest
  originalContext : m'.originalContext = m.originalContext
  deleteOperationID : m.deleteOperationID.isSome = true →
    m'.deleteOperationID = m.deleteOperationID

/-- Managed resources keep what they are, and a new one is named after its create. -/
structure ManagedKept (db db' : Db) : Prop where
  kept : ∀ k m, db.managedResources.lookup k = some m →
    ∃ m', db'.managedResources.lookup k = some m' ∧ m.Keeps m'
  fresh : ∀ k m', db.managedResources.lookup k = none → db'.managedResources.lookup k = some m' →
    m'.originalContext.originalCreateOperationID = m'.createOperationID

theorem ManagedResource.Keeps.refl (m : ManagedResource) : m.Keeps m :=
  ⟨rfl, rfl, rfl, rfl, fun _ => rfl⟩

namespace ManagedKept
variable {db db' db'' : Db}

theorem of_eq (h : db'.managedResources = db.managedResources) : ManagedKept db db' where
  kept k m hm := ⟨m, by rw [h]; exact hm, .refl m⟩
  fresh k m' hn hm' := by
    rw [h, hn] at hm'
    cases hm'

theorem trans (h : ManagedKept db db') (h' : ManagedKept db' db'') : ManagedKept db db'' where
  kept k m hm := by
    obtain ⟨m', hm', hk⟩ := h.kept k m hm
    obtain ⟨m'', hm'', hk'⟩ := h'.kept k m' hm'
    refine ⟨m'', hm'', hk'.1.trans hk.1, hk'.2.trans hk.2, hk'.3.trans hk.3, hk'.4.trans hk.4,
      fun hd => ?_⟩
    have hkept := hk.deleteOperationID hd
    rw [← hkept]
    exact hk'.deleteOperationID (by rw [hkept]; exact hd)
  fresh k m'' hn hm'' := by
    cases hm' : db'.managedResources.lookup k with
    | none => exact h'.fresh k m'' hm' hm''
    | some m' =>
      have hid := h.fresh k m' hn hm'
      obtain ⟨m₂, hm₂, hk⟩ := h'.kept k m' hm'
      rw [hm''] at hm₂
      obtain rfl := Option.some.inj hm₂
      rw [hk.originalContext, hk.createOperationID]
      exact hid

theorem after (h : ManagedKept db' db'') (he : db'.managedResources = db.managedResources) :
    ManagedKept db db'' :=
  (of_eq he).trans h

theorem modify (h : db'.managedResources = Table.modify k f db.managedResources)
    (hf : ∀ m : ManagedResource, m.Keeps (f m)) : ManagedKept db db' where
  kept k' m hm := by
    rw [h, Table.lookup_modify]
    split
    · exact ⟨f m, by rw [hm]; rfl, hf m⟩
    · exact ⟨m, hm, .refl m⟩
  fresh k' m' hn hm' := by
    rw [h, Table.lookup_modify, hn] at hm'
    simp at hm'

theorem insert (hn : db.managedResources.lookup k = none)
    (h : db'.managedResources = db.managedResources.insert k m)
    (hid : m.originalContext.originalCreateOperationID = m.createOperationID) :
      ManagedKept db db' where
  kept k' m₀ hm₀ := by
    rw [h, Table.lookup_insert_ite, if_neg]
    · exact ⟨m₀, hm₀, .refl m₀⟩
    · intro hk
      rw [hk, hn] at hm₀
      cases hm₀
  fresh k' m' hn' hm' := by
    rw [h, Table.lookup_insert_ite] at hm'
    split at hm'
    · obtain rfl := Option.some.inj hm'
      exact hid
    · rw [hn'] at hm'
      cases hm'

end ManagedKept

/-- Writes beside the aggregate: reservations, work, audit, replay keys and the Governance
ledger. They give no lease and take away at most the `dropped` ones. -/
structure Aside (dropped : Uuid × Uuid → Prop) (db db' : Db) : Prop where
  services : db'.services = db.services
  specs : db'.specs = db.specs
  operations : db'.operations = db.operations
  publications : db'.publications = db.publications
  runtimes : db'.runtimes = db.runtimes
  bindings : db'.bindings = db.bindings
  releaseScopes : db'.releaseScopes = db.releaseScopes
  leases : ∀ k, db'.lease k = db.lease k ∨ (dropped k ∧ db'.lease k = none)
  managed : ManagedKept db db'

namespace Aside
variable {dropped : Uuid × Uuid → Prop} {db db' db'' : Db}

theorem refl (db : Db) : Aside dropped db db :=
  ⟨rfl, rfl, rfl, rfl, rfl, rfl, rfl, fun _ => .inl rfl, .of_eq rfl⟩

theorem trans (h : Aside dropped db db') (h' : Aside dropped db' db'') : Aside dropped db db'' where
  services := h'.services.trans h.services
  specs := h'.specs.trans h.specs
  operations := h'.operations.trans h.operations
  publications := h'.publications.trans h.publications
  runtimes := h'.runtimes.trans h.runtimes
  bindings := h'.bindings.trans h.bindings
  releaseScopes := h'.releaseScopes.trans h.releaseScopes
  leases := by
    intro k
    rcases h'.leases k with he | hd
    · rw [he]
      exact h.leases k
    · exact .inr hd
  managed := h.managed.trans h'.managed

theorem onlyIf [Decidable c] (h : Runs (Txn.onlyIf c x) db u db')
    (hx : Runs x db u db' → Aside dropped db db') : Aside dropped db db' := by
  rcases runs_onlyIf.mp h with ⟨_, h⟩ | ⟨_, rfl⟩
  · exact hx h
  · exact refl _

theorem of_work (h : db' = { db with work := t })
    (hl : ∀ k, db'.lease k = db.lease k ∨ (dropped k ∧ db'.lease k = none)) :
    Aside dropped db db' := by
  subst h
  exact ⟨rfl, rfl, rfl, rfl, rfl, rfl, rfl, hl, .of_eq rfl⟩

variable {now : Time} {tenant service operation : Uuid}

theorem upsertResourceWork (h : Runs (Sql.upsertResourceWork now tenant service dirty) db u db') :
    Aside dropped db db' := by
  obtain ⟨_, hdb, hl⟩ := Sql.runs_upsertResourceWork h
  exact of_work hdb fun k => .inl (hl k)

theorem ensureResourceWork (h : Runs (Sql.ensureResourceWork now tenant service dirty) db u db') :
    Aside dropped db db' := by
  obtain ⟨_, hdb, hl⟩ := Sql.runs_ensureResourceWork h
  exact of_work hdb fun k => .inl (hl k)

theorem releaseResourceWorkLease
    (h : Runs (Sql.releaseResourceWorkLease now tenant service) db u db') :
    Aside (· = (tenant, service)) db db' := by
  obtain ⟨_, hdb, hl⟩ := Sql.runs_releaseResourceWorkLease h
  refine of_work hdb fun k => ?_
  rw [hl]
  split
  · next hk => exact .inr ⟨hk, rfl⟩
  · exact .inl rfl

theorem insertQuotaReservation {generation : Generation} {id : ReservationID}
    {resources : Resources.Spec}
    {u : Unit}
    (h : Runs (Sql.insertQuotaReservation tenant service operation generation id resources) db u
      db') : Aside dropped db db' := by
  obtain ⟨_, rfl⟩ := Sql.runs_insertQuotaReservation h
  exact ⟨rfl, rfl, rfl, rfl, rfl, rfl, rfl, fun _ => .inl rfl, .of_eq rfl⟩

theorem putIdempotency {method key hash : String} {u : Unit}
    (h : Runs (discard (Sql.putIdempotency tenant method key hash operation)) db u db') :
    Aside dropped db db' := by
  obtain ⟨n, hn, _⟩ := runs_map.mp h
  obtain ⟨_, rfl⟩ := Sql.runs_putIdempotency hn
  exact ⟨rfl, rfl, rfl, rfl, rfl, rfl, rfl, fun _ => .inl rfl, .of_eq rfl⟩

theorem appendAuditEvent {id : EventID} {row : AuditRow} {u : Unit}
    (h : Runs (Sql.appendAuditEvent tenant id row) db u db') : Aside dropped db db' := by
  obtain ⟨_, rfl⟩ := Sql.runs_appendAuditEvent h
  exact ⟨rfl, rfl, rfl, rfl, rfl, rfl, rfl, fun _ => .inl rfl, .of_eq rfl⟩

theorem saveOperationAcceptanceResponse {id : Uuid} {response : Response}
    (h : Runs (Sql.saveOperationAcceptanceResponse tenant id response) db 1 db') :
    Aside dropped db db' := by
  obtain ⟨_, _, _, rfl⟩ := runs_updateRow_one.mp h
  exact ⟨rfl, rfl, rfl, rfl, rfl, rfl, rfl, fun _ => .inl rfl, .of_eq rfl⟩

/-- Only the commands of Governance are written. -/
theorem of_commands (h : db' = { db with managedCommands := t }) : Aside dropped db db' := by
  subst h
  exact ⟨rfl, rfl, rfl, rfl, rfl, rfl, rfl, fun _ => .inl rfl, .of_eq rfl⟩

end Aside

end AniInference
