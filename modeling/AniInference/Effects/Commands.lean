import AniInference.Effects.Statements

namespace AniInference
open Lib Txn

namespace Managed
variable {db db' : Db} {c : ManagedCommand} {kind : Kind} {operation : Uuid}
variable {dropped : Uuid × Uuid → Prop}

/-- How an intake can end. -/
inductive Prepared (c : ManagedCommand) (kind : Kind) (operation : Uuid) (db : Db) :
    Intake → Db → Prop
  | replay (existing : ManagedCommandRow)
      (found : db.managedCommands.lookup (c.context.tenantID, operation) = some existing)
      (same : existing.payloadHash = c.payload) :
      Prepared c kind operation db (.replay existing.responseSnapshot) db
  | blocked (saved : ManagedResource)
      (first : db.managedCommands.lookup (c.context.tenantID, operation) = none)
      (found : db.managedResources.lookup (c.context.tenantID, c.context.resourceID) = some saved)
      (identity : sameIdentity c.context saved = true) (create : kind = .create)
      (deleted : saved.deleteOperationID.isSome = true) :
      Prepared c kind operation db (.closing c) db
  | delete (saved : ManagedResource)
      (first : db.managedCommands.lookup (c.context.tenantID, operation) = none)
      (found : db.managedResources.lookup (c.context.tenantID, c.context.resourceID) = some saved)
      (identity : sameIdentity c.context saved = true) (delete : kind = .delete)
      (agrees : deleteDiffers c.context saved.originalContext = false)
      (own : saved.deleteOperationID.isSome = true → saved.deleteOperationID = some operation) :
      Prepared c kind operation db (Intake.ofClosing saved.deleteOperationID.isSome
        (restored c saved.originalContext)) db
  | again (saved : ManagedResource)
      (first : db.managedCommands.lookup (c.context.tenantID, operation) = none)
      (found : db.managedResources.lookup (c.context.tenantID, c.context.resourceID) = some saved)
      (identity : sameIdentity c.context saved = true)
      (create : kind = .create → saved.deleteOperationID = none) (notDelete : kind ≠ .delete) :
      Prepared c kind operation db (Intake.ofClosing saved.deleteOperationID.isSome c) db
  | record (first : db.managedCommands.lookup (c.context.tenantID, operation) = none)
      (absent : db.managedResources.lookup (c.context.tenantID, c.context.resourceID) = none)
      (direct : db.services.lookup (c.context.tenantID, c.context.resourceID) = none) :
      Prepared c kind operation db (.fresh c) { db with
        managedResources := db.managedResources.insert
          (c.context.tenantID, c.context.resourceID) (recordedResource c) }

theorem runs_prepareManagedCommand
    (h : Runs (prepareManagedCommand c kind operation) db intake db') :
    Prepared c kind operation db intake db' := by
  simp only [prepareManagedCommand, runs_bind, Sql.runs_getManagedCommand, and_assoc,
    exists_and_left, exists_eq_left] at h
  cases hc : db.managedCommands.lookup (c.context.tenantID, operation) with
  | some existing =>
    simp [hc] at h
    obtain ⟨⟨hp, rfl⟩, rfl⟩ := h
    exact .replay existing hc hp
  | none =>
    simp only [hc, runs_bind, Sql.runs_getManagedResource, and_assoc, exists_and_left,
      exists_eq_left] at h
    cases hr : db.managedResources.lookup (c.context.tenantID, c.context.resourceID) with
    | some saved =>
      simp [hr, prepareRecorded, runs_bind] at h
      obtain ⟨hid, ⟨⟨hk, hd⟩, rfl, rfl⟩ | ⟨hn, ⟨hk, hag, ⟨hown, rfl⟩, rfl⟩ |
        ⟨hk, _, ⟨_, rfl⟩, rfl⟩⟩⟩ := h
      · exact .blocked saved hc hr hid hk hd
      · exact .delete saved hc hr hid hk hag hown
      · exact .again saved hc hr hid hn hk
    | none =>
      simp [hr, runs_bind, Sql.insertManagedResource] at h
      obtain ⟨hs, _, rfl, rfl⟩ := h
      exact .record hc hr hs

theorem runs_persistManagedCommand
    (h : Runs (persistManagedCommand c kind operation intent response) db u db') :
    ManagedKept db db' ∧ ∃ resources commands,
      db' = { db with managedResources := resources, managedCommands := commands } := by
  simp only [persistManagedCommand, runs_bind, runs_onlyIf] at h
  obtain ⟨_, db₁, h₁, _, db₂, h₂, h₃⟩ := h
  have hdb₁ : ManagedKept db db₁ ∧ ∃ resources,
    db₁ = { db with managedResources := resources } := by
    rcases h₁ with ⟨_, h₁⟩ | ⟨_, rfl⟩
    · simp [Sql.setManagedClosing] at h₁
      refine ⟨.modify (congrArg Db.managedResources h₁)
        (fun m => ⟨rfl, rfl, rfl, rfl, fun hd => ?_⟩), _, h₁⟩
      obtain ⟨id, hid⟩ := Option.isSome_iff_exists.mp hd
      simp [hid]
    · exact ⟨.of_eq rfl, _, rfl⟩
  have hdb₂ : ManagedKept db₁ db₂ ∧
      ∃ resources, db₂ = { db₁ with managedResources := resources } := by
    rcases h₂ with ⟨_, h₂⟩ | ⟨_, rfl⟩
    · simp [Sql.saveManagedCreate] at h₂
      refine ⟨.modify (congrArg Db.managedResources h₂) (fun m => ?_), _, h₂⟩
      split
      · exact ⟨rfl, rfl, rfl, rfl, fun _ => rfl⟩
      · exact ⟨rfl, rfl, rfl, rfl, fun _ => rfl⟩
    · exact ⟨.of_eq rfl, _, rfl⟩
  have hdb₃ := (Sql.runs_insertManagedCommand h₃).2.2
  have hman : db'.managedResources = db₂.managedResources := by rw [hdb₃]
  have hkept := (hdb₁.1.trans hdb₂.1).trans (.of_eq hman)
  obtain ⟨_, resources, rfl⟩ := hdb₁
  obtain ⟨_, resources', rfl⟩ := hdb₂
  exact ⟨hkept, _, _, hdb₃⟩

theorem aside_persistManagedCommand
    (h : Runs (persistManagedCommand c kind operation intent response) db u db') :
    Aside dropped db db' := by
  obtain ⟨hkept, _, _, rfl⟩ := runs_persistManagedCommand h
  exact ⟨rfl, rfl, rfl, rfl, rfl, rfl, rfl, fun _ => .inl rfl, hkept⟩

theorem aside_prepareManagedCommand
    (h : Runs (prepareManagedCommand c kind operation) db intake db') : Aside dropped db db' := by
  cases runs_prepareManagedCommand h with
  | record first absent =>
    exact ⟨rfl, rfl, rfl, rfl, rfl, rfl, rfl, fun _ => .inl rfl, .insert absent rfl rfl⟩
  | _ => exact .refl _

end Managed

/-- The desired states a command of this kind is accepted in. -/
def Kind.Admits : Kind → DesiredState → Prop
  | .create, _ => False
  | .start, state => state = .stopped
  | .stop, state | .update, state => state = .running
  | .restart, state | .delete, state => state ≠ .deleted

/-- What accepting a command does to a service `s` that exists. -/
structure Accepted (now : Time) (tenant service operation : Uuid) (kind : Kind) (hash : String)
    (s : Service) (db db' : Db) : Prop where
  found : db.services.lookup (tenant, service) = some s
  live : s.deletedAt = none
  admits : kind.Admits s.desiredState
  services : db'.services = db.services.insert (tenant, service)
    (s.moved (Commands.targetState kind s.desiredState) (s.desiredGeneration + 1) operation)
  unused : db.operations.lookup (tenant, operation) = none
  -- Only a delete goes past an active operation, and it cancels it.
  idle : ∀ k o, db.operations.lookup k = some o → k.1 = tenant → o.serviceID = service →
    o.phase.active = true → kind = .delete ∧ Sql.cancellable db tenant service k o = true
  operations : ∀ k, db'.operations.lookup k =
    if k = (tenant, operation) then
      some (Sql.newOperation service kind (Commands.firstStep kind) (s.desiredGeneration + 1) hash)
    else (db.operations.lookup k).map fun o =>
      if kind = .delete ∧ Sql.cancellable db tenant service k o = true then Sql.cancelled now o
      else o
  specs : (kind = .delete ∧ db'.specs = db.specs) ∨
    (kind ≠ .delete ∧
      db.specs.lookup (tenant, service, s.desiredGeneration + 1) = none ∧
      ∃ spec, db'.specs = db.specs.insert (tenant, service, s.desiredGeneration + 1) spec)
  leases : ∀ k, db'.lease k = db.lease k ∨ (k = (tenant, service) ∧ db'.lease k = none)
  publications : db'.publications = db.publications
  runtimes : db'.runtimes = db.runtimes
  bindings : db'.bindings = db.bindings
  releaseScopes : db'.releaseScopes = db.releaseScopes
  managed : ManagedKept db db'

/-- The operations as a command leaves them before it adds its own. -/
def cancelledFor (now : Time) (kind : Kind) (tenant service : Uuid) (db : Db) : Db :=
  if kind = .delete then
    { db with
      operations := Table.updateWhere (Sql.cancellable db tenant service)
        (fun _ o => Sql.cancelled now o) db.operations }
  else db

theorem lookup_cancelledFor (k : Uuid × Uuid) :
    (cancelledFor now kind tenant service db).operations.lookup k =
      (db.operations.lookup k).map fun o =>
        if kind = .delete ∧ Sql.cancellable db tenant service k o = true then Sql.cancelled now o
        else o := by
  unfold cancelledFor
  by_cases hk : kind = .delete
  · simp [hk, Table.lookup_updateWhere]
  · simp [hk]

theorem Accepted.mk_of_runs {now : Time} {tenant service operation : Uuid} {kind : Kind}
    {hash : String} {s : Service} {db db₂ db₃ db₄ db' : Db} {u : Unit}
    (hs : db.services.lookup (tenant, service) = some s) (hadmits : kind.Admits s.desiredState)
    (hspecs : (kind = .delete ∧ db₂ = cancelledFor now kind tenant service db) ∨
      (kind ≠ .delete ∧ db.specs.lookup (tenant, service, s.desiredGeneration + 1) = none ∧
        ∃ spec, db₂ = { db with
          specs := db.specs.insert (tenant, service, s.desiredGeneration + 1) spec }))
    (htrans : Runs (Sql.transitionService (Commands.targetState kind s.desiredState)
      (s.desiredGeneration + 1) operation tenant service s.desiredGeneration) db₂ 1 db₃)
    (hop : Runs (Commands.insertOperation tenant operation service kind (Commands.firstStep kind)
      (s.desiredGeneration + 1) hash) db₃ u db₄)
    (haside : Aside (· = (tenant, service)) db₄ db') :
    Accepted now tenant service operation kind hash s db db' := by
  have hops : db₂.operations = (cancelledFor now kind tenant service db).operations := by
    rcases hspecs with ⟨_, rfl⟩ | ⟨hd, _, _, rfl⟩
    · rfl
    · simp [cancelledFor, hd]
  have hframe : db₂.services = db.services ∧ db₂.publications = db.publications ∧
      db₂.runtimes = db.runtimes ∧ db₂.bindings = db.bindings ∧
      db₂.releaseScopes = db.releaseScopes ∧ db₂.work = db.work ∧
      db₂.managedResources = db.managedResources := by
    rcases hspecs with ⟨hd, rfl⟩ | ⟨_, _, _, rfl⟩
    · simp [cancelledFor, hd]
    · simp
  obtain ⟨hserv, hpub, hrun, hbind, hscope, hwork, hman⟩ := hframe
  obtain ⟨s', hs', _, hlive, rfl⟩ := Sql.runs_transitionService_one.mp htrans
  obtain rfl : s' = s := by
    rw [hserv, hs] at hs'
    exact (Option.some.inj hs').symm
  simp only [Commands.insertOperation, runs_relabel, Sql.runs_insertOperation] at hop
  obtain ⟨_, hfresh, hidle, rfl⟩ := hop
  have hlookup : ∀ k, db₂.operations.lookup k = (db.operations.lookup k).map fun o =>
      if kind = .delete ∧ Sql.cancellable db tenant service k o = true then Sql.cancelled now o
      else o := by
    intro k
    rw [hops, lookup_cancelledFor]
  refine
    { found := hs, live := hlive, admits := hadmits
      services := haside.services.trans (by simp [hserv])
      unused := ?_, idle := ?_, operations := ?_, specs := ?_
      leases := ?_
      publications := haside.publications.trans hpub
      runtimes := haside.runtimes.trans hrun
      bindings := haside.bindings.trans hbind
      releaseScopes := haside.releaseScopes.trans hscope
      managed := haside.managed.after hman }
  · simpa [hlookup] using hfresh
  · intro k o ho hkt hos hact
    have hidle' := hidle k _ (by rw [hlookup, ho]; rfl) hkt
    by_contra hc
    simp [hc, hos, hact] at hidle'
  · intro k
    rw [haside.operations, Table.lookup_insert_ite, hlookup]
  · rcases hspecs with ⟨hd, rfl⟩ | ⟨hd, hn, spec, rfl⟩
    · exact .inl ⟨hd, haside.specs.trans (by simp [cancelledFor, hd])⟩
    · exact .inr ⟨hd, hn, spec, haside.specs⟩
  · intro k
    have hlease : ∀ k, db₂.lease k = db.lease k := fun k => by rw [Db.lease, hwork, Db.lease]
    exact hlease k ▸ haside.leases k

namespace Commands
variable {now : Time} {fresh : Fresh} {db db' : Db} {response : Response}

theorem runs_replayed (h : Runs (replayed input) db o db') : db' = db := by
  simp only [replayed, runs_bind, Sql.runs_getIdempotency, and_assoc, exists_and_left,
    exists_eq_left] at h
  cases hr : (if input.requestID = "" then none
    else db.idempotency.lookup (input.tenantID, "InferenceService/" ++ input.kind.text,
      input.requestID)) with
  | none =>
    simp only [hr, runs_pure] at h
    exact h.2
  | some existing =>
    simp [hr, runs_bind] at h
    obtain ⟨_, _, ⟨_, hdb⟩, _⟩ := h
    exact hdb

theorem runs_admitCommand (h : Runs (admitCommand input) db r db') :
    db' = db ∧ db.services.lookup (input.tenantID, input.serviceID) = some r.1 ∧
      r.1.deletedAt = none ∧ validCommandState input.kind r.1.desiredState = .ok () ∧
      (input.kind ≠ .delete → r.1.desiredGeneration = input.expectedGeneration) ∧
      r.2 = db.managedResources.lookup (input.tenantID, input.serviceID) := by
  simp [admitCommand, runs_bind] at h
  obtain ⟨s, hs, ⟨hgen, hlive⟩, _, _, ⟨⟨_, hstate⟩, hdb⟩, rfl⟩ := h
  exact ⟨hdb, hs, hlive, hstate, hgen, rfl⟩

theorem admits_of_validCommandState (h : validCommandState kind state = .ok ())
    (hc : kind ≠ .create) (hu : kind ≠ .update) : kind.Admits state := by
  cases kind <;> cases state <;> simp [validCommandState, Kind.Admits] at h hc hu ⊢

theorem runs_requestedResources (h : Runs (requestedResources input generation) db a db') :
    db' = db := by
  simp [requestedResources, runs_bind] at h
  rcases h with ⟨_, _, ⟨_, hdb⟩, _⟩ | ⟨_, _, hdb⟩
  · exact hdb
  · exact hdb

theorem runs_cloneGeneration (h : Runs (cloneGeneration input generation) db u db') :
    db.specs.lookup (input.tenantID, input.serviceID, generation + 1) = none ∧
      ∃ spec, db' = { db with
        specs := db.specs.insert (input.tenantID, input.serviceID, generation + 1) spec } := by
  simp only [cloneGeneration, runs_bind, runs_exactlyOne] at h
  obtain ⟨_, _, h, rfl, rfl⟩ := h
  obtain ⟨spec, _, h⟩ := Sql.runs_cloneSpec_one.mp h
  obtain ⟨_, hn, rfl⟩ := Sql.runs_insertSpec.mp h
  exact ⟨hn, _, rfl⟩

theorem runs_acceptCommand (hs : db.services.lookup (input.tenantID, input.serviceID) = some s)
    (hadmits : input.kind.Admits s.desiredState)
    (h : Runs (acceptCommand now fresh input s m) db response db') :
    Accepted now input.tenantID input.serviceID fresh.operation input.kind input.requestHash s db
      db' := by
  simp only [acceptCommand, runs_bind, runs_exactlyOne] at h
  obtain ⟨n, db₁, h₁, res, db₂, h₂, _, db₃, h₃, _, db₄, h₄, _, _, ⟨rfl, rfl⟩, _, db₅, h₅, _, db₆,
    h₆, _, db₇, h₇, _, db₈, h₈, _, db₉, h₉, _, db₁₀, h₁₀, h₁₁⟩ := h
  have hcancel : db₁ = cancelledFor now input.kind input.tenantID input.serviceID db := by
    rcases runs_ite.mp h₁ with ⟨hd, h₁⟩ | ⟨hd, h₁⟩
    · simpa [cancelledFor, hd] using (Sql.runs_cancelActiveOperation.mp h₁).2
    · simpa [cancelledFor, hd] using (runs_pure.mp h₁).2
  obtain rfl := runs_requestedResources h₂
  have haside : Aside (· = (input.tenantID, input.serviceID)) db₅ db₁₀ :=
    (Aside.onlyIf h₆ .releaseResourceWorkLease).trans <|
      (Aside.onlyIf h₇ .insertQuotaReservation).trans <|
      (Aside.upsertResourceWork h₈).trans <|
      (Aside.onlyIf h₉ .putIdempotency).trans (.appendAuditEvent h₁₀)
  obtain ⟨_, rfl⟩ := runs_pure.mp h₁₁
  refine Accepted.mk_of_runs hs hadmits ?_ h₄ h₅ haside
  rcases runs_onlyIf.mp h₃ with ⟨hd, h₃⟩ | ⟨hd, rfl⟩
  · have hdb : db₂ = db := by simpa [cancelledFor, hd] using hcancel
    subst hdb
    exact .inr ⟨hd, runs_cloneGeneration h₃⟩
  · exact .inl ⟨not_not.mp hd, hcancel⟩

theorem runs_managedOperation (h : Runs (managedOperation input) db o db') : db' = db := by
  unfold managedOperation at h
  cases hm : input.managedOperationID with
  | none =>
    simp only [hm, runs_pure] at h
    exact h.2
  | some id =>
    simp only [hm, Sql.runs_getOperation] at h
    exact h.2

theorem runs_replayedUpdate (h : Runs (replayedUpdate input) db o db') : db' = db := by
  simp only [replayedUpdate, runs_bind] at h
  obtain ⟨m, db₁, h₁, h⟩ := h
  obtain rfl := runs_managedOperation h₁
  split at h
  · simp only [runs_bind, runs_reject, Sql.runs_getResultSnapshot, runs_pure] at h
    obtain ⟨_, _, ⟨_, rfl⟩, _, _, ⟨_, rfl⟩, _, rfl⟩ := h
    rfl
  · simp only [runs_bind, Sql.runs_getIdempotency, and_assoc, exists_and_left,
      exists_eq_left] at h
    split at h
    · exact (runs_pure.mp h).2
    · simp only [runs_bind, runs_reject, runs_require, Sql.runs_getOperation,
        Sql.runs_getResultSnapshot, runs_pure] at h
      obtain ⟨_, _, ⟨_, rfl⟩, _, _, ⟨_, rfl⟩, _, _, ⟨_, rfl⟩, _, _, ⟨_, rfl⟩, _, rfl⟩ := h
      rfl

theorem runs_admitUpdate (h : Runs (admitUpdate input) db r db') :
    db' = db ∧ db.services.lookup (input.tenantID, input.serviceID) = some r.1 ∧
      r.1.deletedAt = none ∧ r.1.desiredState = .running ∧
      r.1.desiredGeneration = input.expectedGeneration ∧
      r.2 = db.managedResources.lookup (input.tenantID, input.serviceID) := by
  simp [admitUpdate, runs_bind] at h
  obtain ⟨s, hs, ⟨hgen, hlive⟩, hstate, _, ⟨_, hdb⟩, rfl⟩ := h
  exact ⟨hdb, hs, hlive, hstate, hgen, rfl⟩

theorem runs_effectiveUpdate (h : Runs (effectiveUpdate input m generation) db effective db') :
    db' = db ∧ effective.tenantID = input.tenantID ∧ effective.serviceID = input.serviceID ∧
      effective.requestHash = input.requestHash ∧ effective.requestID = input.requestID := by
  simp [effectiveUpdate, runs_bind] at h
  rcases h with ⟨_, ⟨_, hdb⟩, rfl⟩ | ⟨_, _, _, ⟨_, hdb⟩, rfl⟩
  · exact ⟨hdb, rfl, rfl, rfl, rfl⟩
  · exact ⟨hdb, rfl, rfl, rfl, rfl⟩

theorem runs_acceptUpdate {operation event : Uuid} {input : UpdateInput} {s : Service}
    {m : Option ManagedResource}
    (hs : db.services.lookup (input.tenantID, input.serviceID) = some s)
    (hw : s.desiredState = .running)
    (h : Runs (acceptUpdate now operation event input s m) db response db') :
    Accepted now input.tenantID input.serviceID operation .update input.requestHash s db db' := by
  simp only [acceptUpdate, runs_bind, runs_exactlyOne] at h
  obtain ⟨_, db₁, h₁, _, _, ⟨rfl, rfl⟩, _, db₂, h₂, _, _, ⟨rfl, rfl⟩, _, db₃, h₃, _, db₄, h₄, _,
    db₅, h₅, _, db₆, h₆, _, db₇, h₇, _, _, h₈, _, db₈, ⟨rfl, rfl⟩, h₉⟩ := h
  obtain ⟨spec, _, h₁⟩ := Sql.runs_cloneSpec_one.mp h₁
  obtain ⟨_, hn, rfl⟩ := Sql.runs_insertSpec.mp h₁
  have haside : Aside (· = (input.tenantID, input.serviceID)) db₃ db₈ :=
    (Aside.onlyIf h₄ .insertQuotaReservation).trans <| (Aside.upsertResourceWork h₅).trans <|
      (Aside.onlyIf h₆ .putIdempotency).trans <| (Aside.appendAuditEvent h₇).trans
        (.saveOperationAcceptanceResponse h₈)
  obtain ⟨_, rfl⟩ := runs_pure.mp h₉
  exact Accepted.mk_of_runs hs hw (.inr ⟨by simp, hn, _, rfl⟩) h₂ h₃ haside

end Commands
/-- What accepting a create does. -/
structure Created (tenant service operation : Uuid) (hash : String) (db db' : Db) : Prop where
  absent : db.services.lookup (tenant, service) = none
  services : ∃ name, db'.services = db.services.insert (tenant, service)
    { Sql.newService name 1 with currentOperation := some operation }
  unused : db.operations.lookup (tenant, operation) = none
  idle : ∀ k o, db.operations.lookup k = some o → k.1 = tenant → o.serviceID = service →
    o.phase.active = false
  operations : db'.operations = db.operations.insert (tenant, operation)
    (Sql.newOperation service .create .admission 1 hash)
  specs : db.specs.lookup (tenant, service, 1) = none ∧
    ∃ spec, db'.specs = db.specs.insert (tenant, service, 1) spec
  leases : ∀ k, db'.lease k = db.lease k
  publications : db'.publications = db.publications
  bindings : db'.bindings = db.bindings
  releaseScopes : db'.releaseScopes = db.releaseScopes
  managed : ManagedKept db db'

/-- What a delete does to a resource without a service. -/
structure Closed (now : Time) (tenant resource operation : Uuid) (db db' : Db) : Prop where
  absent : db.services.lookup (tenant, resource) = none
  services : db'.services = db.services
  specs : db'.specs = db.specs
  operations : db'.operations = db.operations
  leases : ∀ k, db'.lease k = db.lease k
  publications : db'.publications = db.publications
  runtimes : db'.runtimes = db.runtimes
  bindings : db'.bindings = db.bindings
  releaseScopes : db'.releaseScopes = db.releaseScopes ∨
    db'.releaseScopes = db.releaseScopes.insert (tenant, resource, operation) ⟨some now, []⟩
  managed : ManagedKept db db'
  -- The scope is not kept under the key a create would have.
  other : ∃ m, db'.managedResources.lookup (tenant, resource) = some m ∧
    m.createOperationID ≠ operation

theorem Aside.lease_eq (h : Aside (fun _ => False) db db') (k : Uuid × Uuid) :
    db'.lease k = db.lease k :=
  (h.leases k).elim id fun hd => hd.1.elim

theorem Aside.created {tenant service operation : Uuid} {hash : String} {db db₁ db₂ db' : Db}
    (h₁ : Aside (fun _ => False) db db₁) (h : Created tenant service operation hash db₁ db₂)
    (h₂ : Aside (fun _ => False) db₂ db') :
    Created tenant service operation hash db db' where
  absent := h₁.services ▸ h.absent
  services := by
    obtain ⟨name, hs⟩ := h.services
    exact ⟨name, by rw [h₂.services, hs, h₁.services]⟩
  unused := h₁.operations ▸ h.unused
  idle := h₁.operations ▸ h.idle
  operations := by rw [h₂.operations, h.operations, h₁.operations]
  specs := by
    obtain ⟨hn, spec, hs⟩ := h.specs
    exact ⟨h₁.specs ▸ hn, spec, by rw [h₂.specs, hs, h₁.specs]⟩
  leases k := ((h₂.lease_eq k).trans (h.leases k)).trans (h₁.lease_eq k)
  publications := by rw [h₂.publications, h.publications, h₁.publications]
  bindings := by rw [h₂.bindings, h.bindings, h₁.bindings]
  releaseScopes := by rw [h₂.releaseScopes, h.releaseScopes, h₁.releaseScopes]
  managed := (h₁.managed.trans h.managed).trans h₂.managed

theorem Aside.closed (h₁ : Aside (fun _ => False) db db₁)
    (h : Closed now tenant resource operation db₁ db') :
    Closed now tenant resource operation db db' where
  absent := h₁.services ▸ h.absent
  services := h.services.trans h₁.services
  specs := h.specs.trans h₁.specs
  operations := h.operations.trans h₁.operations
  leases k := (h.leases k).trans (h₁.lease_eq k)
  publications := h.publications.trans h₁.publications
  runtimes := h.runtimes.trans h₁.runtimes
  bindings := h.bindings.trans h₁.bindings
  releaseScopes := h₁.releaseScopes ▸ h.releaseScopes
  managed := h₁.managed.trans h.managed
  other := h.other

theorem Aside.accepted {now : Time} {tenant service operation : Uuid} {kind : Kind} {hash : String}
    {s : Service} {db db₁ db' : Db} (h₁ : Aside (fun _ => False) db db₁)
    (h : Accepted now tenant service operation kind hash s db₁ db') :
    Accepted now tenant service operation kind hash s db db' := by
  have hcancel : Sql.cancellable db₁ tenant service = Sql.cancellable db tenant service := by
    funext k o
    simp [Sql.cancellable, h₁.services]
  exact
    { found := h₁.services ▸ h.found, live := h.live, admits := h.admits
      services := h₁.services ▸ h.services
      unused := h₁.operations ▸ h.unused
      idle := hcancel ▸ h₁.operations ▸ h.idle
      operations := hcancel ▸ h₁.operations ▸ h.operations
      specs := h₁.specs ▸ h.specs
      leases := fun k => h₁.lease_eq k ▸ h.leases k
      publications := h.publications.trans h₁.publications
      runtimes := h.runtimes.trans h₁.runtimes
      bindings := h.bindings.trans h₁.bindings
      releaseScopes := h.releaseScopes.trans h₁.releaseScopes
      managed := h₁.managed.trans h.managed }

namespace Managed
variable {now : Time} {fresh : Fresh} {db db' : Db}

theorem runs_acceptCreate
    (h : Runs (acceptCreate now event service operation input) db result db') :
    Created input.tenantID service operation input.requestHash db db' := by
  simp only [acceptCreate, runs_bind] at h
  obtain ⟨_, db₁, h₁, _, db₂, h₂, _, db₃, h₃, _, db₄, h₄, _, db₅, h₅, _, db₆, h₆, _, db₇, h₇, _,
    db₈, h₈, _, db₉, h₉, h₁₀⟩ := h
  obtain ⟨habs, _, rfl⟩ := Sql.runs_insertService.mp h₁
  obtain ⟨_, hunused, hidle, rfl⟩ := Sql.runs_insertOperation.mp h₂
  obtain rfl := Sql.runs_setCurrentOperation.mp h₃
  obtain ⟨_, hspec, rfl⟩ := Sql.runs_insertSpec.mp h₄
  obtain ⟨_, rfl⟩ := Sql.runs_insertRuntime h₅
  have haside : Aside (fun _ => False) _ db₉ :=
    (Aside.onlyIf h₆ .insertQuotaReservation).trans <| (Aside.upsertResourceWork h₇).trans <|
      (Aside.onlyIf h₈ .putIdempotency).trans (.appendAuditEvent h₉)
  obtain ⟨_, rfl⟩ := runs_pure.mp h₁₀
  refine
    { absent := habs
      services := ⟨input.name, haside.services.trans ?_⟩
      unused := hunused, idle := hidle
      operations := haside.operations
      specs := ⟨hspec, _, haside.specs⟩
      leases := haside.lease_eq
      publications := haside.publications
      bindings := haside.bindings
      releaseScopes := haside.releaseScopes
      managed := haside.managed.after rfl }
  simp [Table.modify]

theorem runs_replayedCreate (h : Runs (replayedCreate input) db o db') : db' = db := by
  simp only [replayedCreate, runs_bind, Sql.runs_getIdempotency, and_assoc, exists_and_left,
    exists_eq_left] at h
  split at h
  · exact (runs_pure.mp h).2
  · simp [runs_bind] at h
    obtain ⟨_, _, ⟨_, hdb⟩, _⟩ := h
    exact hdb

theorem aside_blockCreate (h : Runs (blockCreate c operation) db result db') :
    Aside (fun _ => False) db db' := by
  simp only [blockCreate, runs_bind, runs_pure] at h
  obtain ⟨_, _, h, _, rfl⟩ := h
  exact aside_persistManagedCommand h

theorem runs_deleteService
    (hs : db.services.lookup (c.context.tenantID, c.context.resourceID) = some s)
    (hw : s.desiredState ≠ .deleted)
    (h : Runs (deleteService now event input c operation s) db response db') :
    Accepted now c.context.tenantID c.context.resourceID operation .delete input.requestHash s db
      db' := by
  simp only [deleteService, runs_bind, runs_exactlyOne] at h
  obtain ⟨_, db₁, h₁, _, db₂, h₂, _, _, ⟨rfl, rfl⟩, _, db₃, h₃, _, db₄, h₄, _, db₅, h₅, _, db₆, h₆,
    _, db₇, h₇, h₈⟩ := h
  have haside : Aside (· = (c.context.tenantID, c.context.resourceID)) db₃ db₇ :=
    (Aside.onlyIf h₄ .releaseResourceWorkLease).trans <| (Aside.upsertResourceWork h₅).trans <|
      (Aside.appendAuditEvent h₆).trans (aside_persistManagedCommand h₇)
  obtain ⟨_, rfl⟩ := runs_pure.mp h₈
  have hcancel := (Sql.runs_cancelActiveOperation.mp h₁).2
  exact Accepted.mk_of_runs hs hw (.inl ⟨rfl, hcancel⟩) h₂ h₃ haside

/-- The resource of a command is recorded, and created by another operation than this one. -/
def Recorded (c : ManagedCommand) (operation : Uuid) (db : Db) : Prop :=
  ∃ m, db.managedResources.lookup (c.context.tenantID, c.context.resourceID) = some m ∧
    m.createOperationID ≠ operation

theorem runs_closeWithoutService
    (hs : db.services.lookup (c.context.tenantID, c.context.resourceID) = none)
    (hm : Recorded c operation db)
    (h : Runs (closeWithoutService now c operation) db response db') :
    Closed now c.context.tenantID c.context.resourceID operation db db' := by
  simp only [closeWithoutService, runs_bind, Sql.runs_setManagedCloseState] at h
  obtain ⟨unknown, db₁, h₁, _, db₂, h₂, _, _, rfl, _, db₃, h₃, h₄⟩ := h
  obtain ⟨_, rfl⟩ := runs_pure.mp h₄
  have hdb₁ : db₁ = db := by
    simp [Sql.managedExecutionFacts] at h₁
    exact h₁.1
  subst hdb₁
  obtain ⟨hkept, resources, _, hdb₂⟩ := runs_persistManagedCommand h₂
  obtain ⟨m, hm, hne⟩ := hm
  obtain ⟨m', hm', hk⟩ := hkept.kept _ _ hm
  rw [← hk.createOperationID] at hne
  subst hdb₂
  simp only [runs_onlyIf, Sql.runs_upsertReleaseScope] at h₃
  rcases h₃ with ⟨_, rfl⟩ | ⟨_, rfl⟩
  · exact ⟨hs, rfl, rfl, rfl, fun _ => rfl, rfl, rfl, rfl, .inr rfl, hkept.trans (.of_eq rfl), m',
      hm', hne⟩
  · exact ⟨hs, rfl, rfl, rfl, fun _ => rfl, rfl, rfl, rfl, .inl rfl, hkept.trans (.of_eq rfl), m',
      hm', hne⟩

/-- The command an intake hands on is about the same resource. -/
theorem Prepared.sameResource (h : Prepared c kind operation db intake db')
    (hc : intake = .fresh c' ∨ intake = .closing c') :
    c'.context.tenantID = c.context.tenantID ∧ c'.context.resourceID = c.context.resourceID := by
  cases h with
  | replay existing => simp at hc
  | blocked saved | record =>
    have hc' : c' = c := by simpa [eq_comm] using hc
    simp [hc']
  | delete saved =>
    have hc' : c' = restored c saved.originalContext := by
      unfold Intake.ofClosing at hc
      split at hc <;> simpa [eq_comm] using hc
    simp [hc', restored]
  | again saved =>
    have hc' : c' = c := by
      unfold Intake.ofClosing at hc
      split at hc <;> simpa [eq_comm] using hc
    simp [hc']

/-- An intake that hands a command on leaves its resource recorded. -/
theorem Prepared.recorded (h : Prepared c kind operation db intake db')
    (hc : intake = .fresh c' ∨ intake = .closing c')
    (hne : operation ≠ c.context.originalCreateOperationID) : Recorded c' operation db' := by
  obtain ⟨ht, hr⟩ := h.sameResource hc
  unfold Recorded
  rw [ht, hr]
  have known : ∀ saved, sameIdentity c.context saved = true →
      saved.createOperationID ≠ operation := by
    intro saved hid heq
    simp only [sameIdentity, Bool.and_eq_true, decide_eq_true_eq] at hid
    exact hne (heq.symm.trans hid.1.1.1)
  cases h with
  | replay existing => simp at hc
  | blocked saved first found identity
  | delete saved first found identity => exact ⟨saved, found, known saved identity⟩
  | again saved first found identity => exact ⟨saved, found, known saved identity⟩
  | record => exact ⟨_, AList.lookup_insert _, hne.symm⟩

end Managed

end AniInference
