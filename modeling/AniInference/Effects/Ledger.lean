import AniInference.Effects.Commands

namespace AniInference
open Lib Txn

/-- A work row after a notification about `dirty`. -/
def WorkRow.notified (now : Time) (dirty : Nat) : Option WorkRow → WorkRow
  | some w => { w with dirtyVersion := max (w.dirtyVersion + 1) dirty, nextRunAt := some now }
  | none => ⟨dirty, 0, some now, 0, none, none, ""⟩

/-- A work row whose lease a delete has dropped. -/
def WorkRow.dropped (now : Time) (w : WorkRow) : WorkRow :=
  { w.released with nextRunAt := some now }

/-- The commands that bring a runtime up reserve quota for it. -/
def Kind.reserves : Kind → Bool
  | .create | .start | .restart | .update => true
  | .stop | .delete => false

namespace Request

/-- The key a request is replayed under. -/
def replayKey : Request → Option (Uuid × String × String)
  | .command input =>
    if input.requestID = "" then none
    else some (input.tenantID, "InferenceService/" ++ input.kind.text, input.requestID)
  | .update input =>
    if input.requestID = "" then none
    else some (input.tenantID, "InferenceService/update", input.requestID)
  | .create input =>
    if input.managed.isSome ∨ input.requestID = "" then none
    else some (input.tenantID, "CreateInferenceService", input.requestID)
  | .prepareCreate _ | .managedDelete _ => none

/-- The request comes without a Governance attachment. -/
def unmanaged : Request → Bool
  | .command _ => true
  | .update input => input.managedOperationID.isNone
  | .create input => input.managed.isNone
  | .prepareCreate _ | .managedDelete _ => false

end Request

/-- The queue, the quota ledger, the replay keys and the audit log are left alone. -/
structure Unbooked (db db' : Db) : Prop where
  work : db'.work = db.work
  reservations : db'.reservations = db.reservations
  idempotency : db'.idempotency = db.idempotency
  audit : db'.audit = db.audit

theorem Unbooked.refl (db : Db) : Unbooked db db := ⟨rfl, rfl, rfl, rfl⟩

theorem Unbooked.trans (h : Unbooked db db') (h' : Unbooked db' db'') : Unbooked db db'' where
  work := h'.work.trans h.work
  reservations := h'.reservations.trans h.reservations
  idempotency := h'.idempotency.trans h.idempotency
  audit := h'.audit.trans h.audit

/-- Quota is asked for the specification the operation is to bring up, or not at all. -/
inductive Reserved (reserve : Prop) (tenant service operation : Uuid) (target : Generation)
    (db db' : Db) : Prop
  | placed (asked : reserve) (spec : Spec)
      (unused : db.reservations.lookup (tenant, operation) = none)
      (own : ∀ k r, db.reservations.lookup k = some r → k.1 = tenant →
        r.reservationID ≠ .placeholder operation)
      (found : db'.specs.lookup (tenant, service, target) = some spec)
      (row : db'.reservations = db.reservations.insert (tenant, operation)
        ⟨service, target, .placeholder operation, spec.content.resources, .pending, ""⟩)
  | left (unasked : ¬reserve) (same : db'.reservations = db.reservations)

/-- The rows an accepted request writes beside the aggregate. -/
structure Booked (now : Time) (key : Option (Uuid × String × String)) (hash : String) (kind : Kind)
    (reserve : Prop) (tenant service operation : Uuid) (target : Generation) (db db' : Db) :
    Prop where
  work : ∃ w, (w = db.work.lookup (tenant, service) ∨
      (kind = .delete ∧ w = (db.work.lookup (tenant, service)).map (·.dropped now))) ∧
    ∀ k, db'.work.lookup k =
      if k = (tenant, service) then some (.notified now target w) else db.work.lookup k
  reservations : Reserved reserve tenant service operation target db db'
  unused : ∀ k, key = some k → db.idempotency.lookup k = none
  idempotency : db'.idempotency =
    key.elim db.idempotency fun k => db.idempotency.insert k ⟨hash, operation⟩
  audit : ∃ event actor requestID, db'.audit =
    if (db.audit.lookup (tenant, .fresh event)).isSome then db.audit
    else db.audit.insert (tenant, .fresh event)
      (Commands.acceptedEvent kind service operation target actor requestID)

/-- What the intake and the record of a Governance command leave alone. -/
theorem Unbooked.booked {now : Time} {key : Option (Uuid × String × String)} {hash : String}
    {kind : Kind} {reserve : Prop} {tenant service operation : Uuid} {target : Generation}
    {db db₁ db₂ db' : Db} (h₁ : Unbooked db db₁)
    (h : Booked now key hash kind reserve tenant service operation target db₁ db₂)
    (h₂ : Unbooked db₂ db') (hspecs : db'.specs = db₂.specs) :
    Booked now key hash kind reserve tenant service operation target db db' where
  work := by
    obtain ⟨w, hw, hlookup⟩ := h.work
    rw [h₁.work] at hw
    refine ⟨w, hw, fun k => ?_⟩
    rw [h₂.work, hlookup, h₁.work]
  reservations := by
    cases h.reservations with
    | placed asked spec unused own found row =>
      rw [h₁.reservations] at unused own row
      exact .placed asked spec unused own (hspecs ▸ found) (h₂.reservations.trans row)
    | left unasked same =>
      exact .left unasked ((h₂.reservations.trans same).trans h₁.reservations)
  unused k hk := by
    rw [← h₁.idempotency]
    exact h.unused k hk
  idempotency := by rw [h₂.idempotency, h.idempotency, h₁.idempotency]
  audit := by
    obtain ⟨event, actor, requestID, ha⟩ := h.audit
    exact ⟨event, actor, requestID, by rw [h₂.audit, ha, h₁.audit]⟩

namespace Sql
variable {now : Time} {db db' : Db} {tenant service operation : Uuid}

theorem booked_upsertResourceWork
    (h : Runs (upsertResourceWork now tenant service dirty) db u db') : db' = { db with
      work := db.work.insert (tenant, service)
        (.notified now dirty (db.work.lookup (tenant, service))) } := by
  simp [upsertResourceWork, runs_bind] at h
  obtain ⟨_, rfl⟩ := h
  cases hw : db.work.lookup (tenant, service) with
  | none | some w => simp [WorkRow.notified]

theorem booked_releaseResourceWorkLease
    (h : Runs (releaseResourceWorkLease now tenant service) db u db') :
    db' = { db with work := Table.modify (tenant, service) (·.dropped now) db.work } := by
  simp only [releaseResourceWorkLease, runs_get_bind, runs_set] at h
  exact h

theorem booked_putIdempotency {method key hash : String} {u : Unit}
    (hn : db.idempotency.lookup (tenant, method, key) = none)
    (h : Runs (discard (putIdempotency tenant method key hash operation)) db u db') :
    db' = { db with
      idempotency := db.idempotency.insert (tenant, method, key) ⟨hash, operation⟩ } := by
  obtain ⟨n, h, _⟩ := runs_map.mp h
  simp [putIdempotency, runs_bind, hn] at h
  exact h.1

/-- A request writes its replay key, if it has one. -/
theorem booked_onlyIf_putIdempotency {c : Prop} [Decidable c] {method id hash : String} {u : Unit}
    {key : Option (Uuid × String × String)}
    (hc : key = if c then some (tenant, method, id) else none)
    (hkey : ∀ k, key = some k → db.idempotency.lookup k = none)
    (h : Runs (onlyIf c (discard (putIdempotency tenant method id hash operation))) db u db') :
    db' = { db with
      idempotency := key.elim db.idempotency fun k =>
        db.idempotency.insert k ⟨hash, operation⟩ } := by
  rcases runs_onlyIf.mp h with ⟨hp, h⟩ | ⟨hp, rfl⟩
  · rw [if_pos hp] at hc
    rw [hc]
    exact booked_putIdempotency (hkey _ hc) h
  · rw [if_neg hp] at hc
    rw [hc]
    rfl

theorem booked_appendAuditEvent {id : EventID} {row : AuditRow} {u : Unit}
    (h : Runs (appendAuditEvent tenant id row) db u db') :
    db' = { db with
      audit := if (db.audit.lookup (tenant, id)).isSome then db.audit
        else db.audit.insert (tenant, id) row } := by
  simp only [appendAuditEvent, runs_modify] at h
  subst h
  split
  · rfl
  · rfl

theorem booked_insertQuotaReservation {generation : Generation} {id : ReservationID}
    {resources : Resources.Spec} {u : Unit}
    (h : Runs (insertQuotaReservation tenant service operation generation id resources) db u db') :
    db.reservations.lookup (tenant, operation) = none ∧
      (∀ k r, db.reservations.lookup k = some r → k.1 = tenant → r.reservationID ≠ id) ∧
      db' = { db with
        reservations := db.reservations.insert (tenant, operation)
          ⟨service, generation, id, resources, .pending, ""⟩ } := by
  simp [insertQuotaReservation, runs_bind, Table.existsWhere_eq_false] at h
  obtain ⟨_, ⟨hn, hown⟩, rfl⟩ := h
  exact ⟨hn, fun k r hr hk => hown k.1 k.2 r hr hk, rfl⟩

end Sql

/-- The last writes of an acceptance, in the order all of them make them: the lease a delete
drops, the quota it asks for, the notification, the replay key and the event. -/
theorem Booked.mk_of_runs {now : Time} {key : Option (Uuid × String × String)} {hash : String}
    {kind : Kind} {reserve release : Prop} [Decidable reserve] [Decidable release]
    {tenant service operation : Uuid} {target : Generation} {event : Uuid}
    {actor requestID : String} {resources : Resources.Spec} {put : Tx Unit}
    {db db₁ db₂ db₃ db₄ db' : Db} {u₁ u₂ u₃ u₄ u₅ : Unit}
    (hkind : release → kind = .delete)
    (hspec : reserve → ∃ spec, db.specs.lookup (tenant, service, target) = some spec ∧
      spec.content.resources = resources)
    (hkey : ∀ k, key = some k → db.idempotency.lookup k = none)
    (hput : ∀ db₃ db₄, db₃.idempotency = db.idempotency → Runs put db₃ u₄ db₄ →
      db₄ = { db₃ with
        idempotency := key.elim db₃.idempotency fun k =>
          db₃.idempotency.insert k ⟨hash, operation⟩ })
    (h₁ : Runs (onlyIf release (Sql.releaseResourceWorkLease now tenant service)) db u₁ db₁)
    (h₂ : Runs (onlyIf reserve (Sql.insertQuotaReservation tenant service operation target
      (.placeholder operation) resources)) db₁ u₂ db₂)
    (h₃ : Runs (Sql.upsertResourceWork now tenant service target) db₂ u₃ db₃)
    (h₄ : Runs put db₃ u₄ db₄)
    (h₅ : Runs (Sql.appendAuditEvent tenant (.fresh event)
      (Commands.acceptedEvent kind service operation target actor requestID)) db₄ u₅ db') :
    Booked now key hash kind reserve tenant service operation target db db' := by
  have hdb₁ : ∃ t, db₁ = { db with work := t } ∧
      (t = db.work ∨ (kind = .delete ∧ t = Table.modify (tenant, service)
        (·.dropped now) db.work)) := by
    rcases runs_onlyIf.mp h₁ with ⟨hr, h₁⟩ | ⟨_, rfl⟩
    · exact ⟨_, Sql.booked_releaseResourceWorkLease h₁, .inr ⟨hkind hr, rfl⟩⟩
    · exact ⟨_, rfl, .inl rfl⟩
  obtain ⟨t, rfl, ht⟩ := hdb₁
  have hdb₂ : ∃ reservations, db₂ = { db with work := t, reservations := reservations } ∧
      ((reserve ∧ db.reservations.lookup (tenant, operation) = none ∧
          (∀ k r, db.reservations.lookup k = some r → k.1 = tenant →
            r.reservationID ≠ .placeholder operation) ∧
          reservations = db.reservations.insert (tenant, operation)
            ⟨service, target, .placeholder operation, resources, .pending, ""⟩) ∨
        (¬reserve ∧ reservations = db.reservations)) := by
    rcases runs_onlyIf.mp h₂ with ⟨hr, h₂⟩ | ⟨hr, rfl⟩
    · obtain ⟨hn, hown, rfl⟩ := Sql.booked_insertQuotaReservation h₂
      exact ⟨_, rfl, .inl ⟨hr, hn, hown, rfl⟩⟩
    · exact ⟨_, rfl, .inr ⟨hr, rfl⟩⟩
  obtain ⟨reservations, rfl, hres⟩ := hdb₂
  have hdb₃ := Sql.booked_upsertResourceWork h₃
  have hdb₄ := hput db₃ db₄ (by rw [hdb₃]) h₄
  have hdb' := Sql.booked_appendAuditEvent h₅
  subst hdb' hdb₄ hdb₃
  refine ⟨?_, ?_, hkey, rfl, event, actor, requestID, rfl⟩
  · refine ⟨t.lookup (tenant, service), ?_, fun k => ?_⟩
    · rcases ht with rfl | ⟨hd, rfl⟩
      · exact .inl rfl
      · exact .inr ⟨hd, by rw [Table.lookup_modify, if_pos rfl]⟩
    · change (t.insert _ _).lookup k = _
      rw [Table.lookup_insert_ite]
      split
      · rfl
      · next hk =>
        rcases ht with rfl | ⟨_, rfl⟩
        · rfl
        · rw [Table.lookup_modify, if_neg hk]
  · rcases hres with ⟨hr, hn, hown, rfl⟩ | ⟨hr, rfl⟩
    · obtain ⟨spec, hlookup, rfl⟩ := hspec hr
      exact .placed hr spec hn hown hlookup rfl
    · exact .left hr rfl

/-- A write that is not asked for. -/
theorem runs_unasked (x : Tx Unit) (db : Db) : Runs (onlyIf False x) db () db :=
  runs_onlyIf.mpr (.inr ⟨not_false, rfl⟩)

/-- Which of two equivalent conditions asks for quota does not matter. -/
theorem Booked.congr {now : Time} {key : Option (Uuid × String × String)} {hash : String}
    {kind : Kind} {reserve reserve' : Prop} {tenant service operation : Uuid} {target : Generation}
    {db db' : Db} (h : Booked now key hash kind reserve tenant service operation target db db')
    (hr : reserve ↔ reserve') :
    Booked now key hash kind reserve' tenant service operation target db db' := by
  rw [← propext hr]
  exact h

namespace Commands
variable {now : Time} {fresh : Fresh} {db db' : Db} {response : Response}

/-- A request that was not answered before finds no row under its key. -/
theorem unused_of_replayed (h : Runs (replayed input) db none db') :
    ∀ k, (Request.command input).replayKey = some k → db.idempotency.lookup k = none := by
  intro k hk
  simp only [Request.replayKey] at hk
  split at hk
  · cases hk
  · next hid =>
    obtain rfl := Option.some.inj hk
    simp only [replayed, runs_bind, Sql.runs_getIdempotency, and_assoc, exists_and_left,
      exists_eq_left, if_neg hid] at h
    cases hr : db.idempotency.lookup (input.tenantID, "InferenceService/" ++ input.kind.text,
      input.requestID) with
    | none => rfl
    | some existing => simp [hr, runs_bind] at h

/-- What a command writes before the rows that `Booked` lists. -/
theorem unbooked_insertOperation {tenant id service : Uuid} {kind : Kind} {step : Step}
    {target : Generation} {hash : String} {u : Unit}
    (h : Runs (insertOperation tenant id service kind step target hash) db u db') :
    Unbooked db db' ∧ db'.specs = db.specs ∧ db'.managedResources = db.managedResources := by
  simp only [insertOperation, runs_relabel, Sql.runs_insertOperation] at h
  obtain ⟨_, _, _, rfl⟩ := h
  exact ⟨⟨rfl, rfl, rfl, rfl⟩, rfl, rfl⟩

theorem unbooked_transitionService
    (h : Runs (Sql.transitionService desired target operation tenant service expected) db 1 db') :
    Unbooked db db' ∧ db'.specs = db.specs ∧ db'.managedResources = db.managedResources := by
  obtain ⟨_, _, _, _, rfl⟩ := Sql.runs_transitionService_one.mp h
  exact ⟨⟨rfl, rfl, rfl, rfl⟩, rfl, rfl⟩

theorem booked_cloneSpec (h : Runs (Sql.cloneSpec tenant service source target overlay) db 1 db') :
    ∃ spec, db.specs.lookup (tenant, service, source) = some spec ∧
      db' = { db with specs := db.specs.insert (tenant, service, target) (overlay spec) } := by
  obtain ⟨spec, hspec, h⟩ := Sql.runs_cloneSpec_one.mp h
  obtain ⟨_, _, rfl⟩ := Sql.runs_insertSpec.mp h
  exact ⟨spec, hspec, rfl⟩

theorem resources_of_requested (hk : input.kind = .start ∨ input.kind = .restart)
    (h : Runs (requestedResources input generation) db resources db') :
    ∃ spec, db.specs.lookup (input.tenantID, input.serviceID, generation) = some spec ∧
      spec.content.resources = resources := by
  simp [requestedResources, hk, runs_bind] at h
  obtain ⟨spec, ⟨hspec, _⟩, rfl⟩ := h
  exact ⟨spec, hspec, rfl⟩

/-- The condition under which a command asks for quota. -/
theorem reserves_iff {kind : Kind} {m : Option ManagedResource} (hc : kind ≠ .create)
    (hu : kind ≠ .update) :
    (m.isNone ∧ (kind = .start ∨ kind = .restart)) ↔ (m = none ∧ kind.reserves = true) := by
  cases kind <;> simp [Kind.reserves] at hc hu ⊢

theorem booked_acceptCommand (hc : input.kind ≠ .create) (hu : input.kind ≠ .update)
    (hm : m = db.managedResources.lookup (input.tenantID, input.serviceID))
    (hkey : ∀ k, (Request.command input).replayKey = some k → db.idempotency.lookup k = none)
    (h : Runs (acceptCommand now fresh input s m) db response db') :
    Booked now (Request.command input).replayKey input.requestHash input.kind
      (db.managedResources.lookup (input.tenantID, input.serviceID) = none ∧
        input.kind.reserves = true)
      input.tenantID input.serviceID fresh.operation (s.desiredGeneration + 1) db db' := by
  simp only [acceptCommand, runs_bind, runs_exactlyOne] at h
  obtain ⟨n, db₁, h₁, resources, db₂, h₂, _, db₃, h₃, _, db₄, h₄, _, _, ⟨rfl, rfl⟩, _, db₅, h₅, _,
    db₆, h₆, _, db₇, h₇, _, db₈, h₈, _, db₉, h₉, _, db₁₀, h₁₀, h₁₁⟩ := h
  have hcancel : Unbooked db db₁ ∧ db₁.specs = db.specs ∧ (input.kind ≠ .delete → n = 0) := by
    rcases runs_ite.mp h₁ with ⟨hd, h₁⟩ | ⟨hd, h₁⟩
    · obtain ⟨_, rfl⟩ := Sql.runs_cancelActiveOperation.mp h₁
      exact ⟨⟨rfl, rfl, rfl, rfl⟩, rfl, fun hn => absurd hd hn⟩
    · obtain ⟨rfl, rfl⟩ := runs_pure.mp h₁
      exact ⟨.refl _, rfl, fun _ => rfl⟩
  obtain rfl := runs_requestedResources h₂
  have hclone : Unbooked db₂ db₃ ∧ (input.kind = .start ∨ input.kind = .restart →
      ∃ spec, db₃.specs.lookup (input.tenantID, input.serviceID, s.desiredGeneration + 1) =
        some spec ∧ spec.content.resources = resources) := by
    rcases runs_onlyIf.mp h₃ with ⟨_, h₃⟩ | ⟨hd, rfl⟩
    · simp only [cloneGeneration, runs_bind, runs_exactlyOne] at h₃
      obtain ⟨_, _, h₃, rfl, rfl⟩ := h₃
      obtain ⟨spec, hspec, rfl⟩ := booked_cloneSpec h₃
      refine ⟨⟨rfl, rfl, rfl, rfl⟩, fun hk => ⟨spec, AList.lookup_insert _, ?_⟩⟩
      obtain ⟨spec', hspec', rfl⟩ := resources_of_requested hk h₂
      rw [hspec] at hspec'
      rw [Option.some.inj hspec']
    · refine ⟨.refl _, fun hk => ?_⟩
      rw [not_not.mp hd] at hk
      simp at hk
  obtain ⟨hmove, hspecs₄, _⟩ := unbooked_transitionService h₄
  obtain ⟨hinsert, hspecs₅, _⟩ := unbooked_insertOperation h₅
  have hbefore : Unbooked db db₅ :=
    ((hcancel.1.trans hclone.1).trans hmove).trans hinsert
  obtain ⟨_, rfl⟩ := runs_pure.mp h₁₁
  have hbooked : Booked now (Request.command input).replayKey input.requestHash input.kind
      (m.isNone ∧ (input.kind = .start ∨ input.kind = .restart)) input.tenantID input.serviceID
      fresh.operation (s.desiredGeneration + 1) db₅ db' := by
    refine Booked.mk_of_runs (fun hn => ?_) (fun hr => ?_) ?_
      (fun db₃ db₄ he hput => ?_) h₆ h₇ h₈ h₉
      h₁₀
    · by_contra hd
      simp [hcancel.2.2 hd] at hn
    · rw [hspecs₅, hspecs₄]
      exact hclone.2 hr.2
    · rw [hbefore.idempotency]
      exact hkey
    · rw [← hbefore.idempotency, ← he] at hkey
      exact Sql.booked_onlyIf_putIdempotency (by simp [Request.replayKey]) hkey hput
  have hreserve := reserves_iff (m := m) hc hu
  rw [hm] at hreserve
  exact (hbefore.booked (hm ▸ hbooked) (.refl _) rfl).congr hreserve

theorem unused_of_replayedUpdate (h : Runs (replayedUpdate input) db none db') :
    ∀ k, (Request.update input).replayKey = some k → db.idempotency.lookup k = none := by
  intro k hk
  simp only [Request.replayKey] at hk
  split at hk
  · cases hk
  · next hid =>
    obtain rfl := Option.some.inj hk
    simp only [replayedUpdate, runs_bind] at h
    obtain ⟨m, db₁, h₁, h⟩ := h
    obtain rfl := runs_managedOperation h₁
    split at h
    · simp only [runs_bind, runs_pure] at h
      obtain ⟨_, _, _, _, _, _, hnone, _⟩ := h
      cases hnone
    · simp only [runs_bind, Sql.runs_getIdempotency, and_assoc, exists_and_left, exists_eq_left,
        if_neg hid] at h
      cases hr : db₁.idempotency.lookup (input.tenantID, "InferenceService/update",
        input.requestID) with
      | none => rfl
      | some existing => simp [hr, runs_bind] at h

theorem booked_acceptUpdate (hm : m = db.managedResources.lookup (input.tenantID, input.serviceID))
    (hkey : ∀ k, (Request.update input).replayKey = some k → db.idempotency.lookup k = none)
    (h : Runs (acceptUpdate now operation event input s m) db response db') :
    Booked now (Request.update input).replayKey input.requestHash .update
      (db.managedResources.lookup (input.tenantID, input.serviceID) = none ∧
        Kind.update.reserves = true)
      input.tenantID input.serviceID operation (s.desiredGeneration + 1) db db' := by
  simp only [acceptUpdate, runs_bind, runs_exactlyOne] at h
  obtain ⟨_, _, h₁, _, db₁, ⟨rfl, rfl⟩, _, db₂, h₂, _, _, ⟨rfl, rfl⟩, _, db₃, h₃, _, db₄, h₄, _,
    db₅, h₅, _, db₆, h₆, _, db₇, h₇, _, _, h₈, _, db₈, ⟨rfl, rfl⟩, h₉⟩ := h
  obtain ⟨_, _, _, hdb₈⟩ := runs_updateRow_one.mp h₈
  have hsaved : Unbooked db₇ db₈ := by
    rw [hdb₈]
    exact ⟨rfl, rfl, rfl, rfl⟩
  obtain ⟨spec, _, hdb₁⟩ := booked_cloneSpec h₁
  have hclone : Unbooked db db₁ := by
    rw [hdb₁]
    exact ⟨rfl, rfl, rfl, rfl⟩
  obtain ⟨hmove, hspecs₂, _⟩ := unbooked_transitionService h₂
  obtain ⟨hinsert, hspecs₃, _⟩ := unbooked_insertOperation h₃
  have hbefore : Unbooked db db₃ := (hclone.trans hmove).trans hinsert
  obtain ⟨_, rfl⟩ := runs_pure.mp h₉
  have hbooked : Booked now (Request.update input).replayKey input.requestHash .update
      (m.isNone = true) input.tenantID input.serviceID operation (s.desiredGeneration + 1) db₃
      db₇ := by
    refine Booked.mk_of_runs (fun hf => hf.elim) (fun _ => ?_) ?_ (fun db₃ db₄ he hput => ?_)
      (runs_unasked (Sql.releaseResourceWorkLease now input.tenantID input.serviceID)
        db₃) h₄ h₅ h₆ h₇
    · rw [hspecs₃, hspecs₂, hdb₁]
      exact ⟨_, AList.lookup_insert _, rfl⟩
    · rw [hbefore.idempotency]
      exact hkey
    · rw [← hbefore.idempotency, ← he] at hkey
      exact Sql.booked_onlyIf_putIdempotency (by simp [Request.replayKey]) hkey hput
  rw [hm] at hbooked
  exact (hbefore.booked hbooked hsaved (by rw [hdb₈])).congr (by simp [Kind.reserves])

end Commands

namespace Managed
variable {now : Time} {fresh : Fresh} {db db' : Db}

theorem unbooked_persistManagedCommand
    (h : Runs (persistManagedCommand c kind operation intent response) db u db') :
    Unbooked db db' ∧ db'.specs = db.specs := by
  obtain ⟨_, _, _, rfl⟩ := runs_persistManagedCommand h
  exact ⟨⟨rfl, rfl, rfl, rfl⟩, rfl⟩

theorem unbooked_prepareManagedCommand
    (h : Runs (prepareManagedCommand c kind operation) db intake db') : Unbooked db db' := by
  cases runs_prepareManagedCommand h with
  | record first absent => exact ⟨rfl, rfl, rfl, rfl⟩
  | _ => exact .refl _

theorem unbooked_blockCreate (h : Runs (blockCreate c operation) db result db') :
    Unbooked db db' := by
  simp only [blockCreate, runs_bind, runs_pure] at h
  obtain ⟨_, _, h, _, rfl⟩ := h
  exact (unbooked_persistManagedCommand h).1

theorem unused_of_replayedCreate (hm : input.managed = none)
    (h : Runs (replayedCreate input) db none db') :
    ∀ k, (Request.create input).replayKey = some k → db.idempotency.lookup k = none := by
  intro k hk
  simp only [Request.replayKey, hm, Option.isSome_none, Bool.false_eq_true, false_or] at hk
  split at hk
  · cases hk
  · next hid =>
    obtain rfl := Option.some.inj hk
    simp only [replayedCreate, runs_bind, Sql.runs_getIdempotency, and_assoc, exists_and_left,
      exists_eq_left, if_neg hid] at h
    cases hr : db.idempotency.lookup (input.tenantID, "CreateInferenceService",
      input.requestID) with
    | none => rfl
    | some existing => simp [hr, runs_bind] at h

theorem booked_acceptCreate
    (hkey : ∀ k, (Request.create input).replayKey = some k → db.idempotency.lookup k = none)
    (h : Runs (acceptCreate now event service operation input) db result db') :
    Booked now (Request.create input).replayKey input.requestHash .create
      ((Request.create input).unmanaged = true) input.tenantID service operation 1 db db' := by
  simp only [acceptCreate, runs_bind] at h
  obtain ⟨_, db₁, h₁, _, db₂, h₂, _, db₃, h₃, _, db₄, h₄, _, db₅, h₅, _, db₆, h₆, _, db₇, h₇, _,
    db₈, h₈, _, db₉, h₉, h₁₀⟩ := h
  have hbefore : Unbooked db db₅ ∧ db₅.specs.lookup (input.tenantID, service, 1) =
      some ⟨input.content, input.gpuPlan, Sql.pgText input.gpuPlanDigest⟩ := by
    obtain ⟨_, _, rfl⟩ := Sql.runs_insertService.mp h₁
    obtain ⟨_, _, _, rfl⟩ := Sql.runs_insertOperation.mp h₂
    obtain rfl := Sql.runs_setCurrentOperation.mp h₃
    obtain ⟨_, _, rfl⟩ := Sql.runs_insertSpec.mp h₄
    obtain ⟨_, rfl⟩ := Sql.runs_insertRuntime h₅
    exact ⟨⟨rfl, rfl, rfl, rfl⟩, AList.lookup_insert _⟩
  obtain ⟨_, rfl⟩ := runs_pure.mp h₁₀
  refine hbefore.1.booked (Booked.mk_of_runs (fun hf => hf.elim) (fun _ => ⟨_, hbefore.2, rfl⟩) ?_
    (fun db₃ db₄ he hput => ?_)
    (runs_unasked (Sql.releaseResourceWorkLease now input.tenantID service) db₅) h₆ h₇ h₈ h₉)
    (.refl _) rfl
  · rw [hbefore.1.idempotency]
    exact hkey
  · rw [← hbefore.1.idempotency, ← he] at hkey
    refine Sql.booked_onlyIf_putIdempotency ?_ hkey hput
    by_cases hm : input.managed.isNone = true <;> by_cases hid : input.requestID = "" <;>
      simp_all [Request.replayKey]

theorem booked_deleteService
    (h : Runs (deleteService now event input c operation s) db response db') :
    Booked now none input.requestHash .delete False c.context.tenantID
      c.context.resourceID operation
      (s.desiredGeneration + 1) db db' := by
  simp only [deleteService, runs_bind, runs_exactlyOne] at h
  obtain ⟨_, db₁, h₁, _, db₂, h₂, _, _, ⟨rfl, rfl⟩, _, db₃, h₃, _, db₄, h₄, _, db₅, h₅, _, db₆, h₆,
    _, db₇, h₇, h₈⟩ := h
  have hcancel : Unbooked db db₁ := by
    rw [(Sql.runs_cancelActiveOperation.mp h₁).2]
    exact ⟨rfl, rfl, rfl, rfl⟩
  obtain ⟨hmove, _, _⟩ := Commands.unbooked_transitionService h₂
  obtain ⟨hinsert, _, _⟩ := Commands.unbooked_insertOperation h₃
  have hbefore : Unbooked db db₃ := (hcancel.trans hmove).trans hinsert
  obtain ⟨hafter, hspecs⟩ := unbooked_persistManagedCommand h₇
  obtain ⟨_, rfl⟩ := runs_pure.mp h₈
  have hquota := runs_unasked (Sql.insertQuotaReservation c.context.tenantID c.context.resourceID
    operation (s.desiredGeneration + 1) (.placeholder operation) ⟨[], [], none⟩) db₄
  have hput : Runs (pure () : Tx Unit) db₅ () db₅ := runs_pure.mpr ⟨rfl, rfl⟩
  refine hbefore.booked (Booked.mk_of_runs (fun _ => rfl) (fun hf => hf.elim)
    (by simp) (fun db₃ db₄ _ hp => ?_) h₄ hquota h₅ hput h₆) hafter hspecs
  obtain ⟨_, rfl⟩ := runs_pure.mp hp
  rfl

theorem unbooked_closeWithoutService
    (h : Runs (closeWithoutService now c operation) db response db') : Unbooked db db' := by
  simp only [closeWithoutService, runs_bind, Sql.runs_setManagedCloseState] at h
  obtain ⟨unknown, db₁, h₁, _, db₂, h₂, _, _, rfl, _, db₃, h₃, h₄⟩ := h
  obtain ⟨_, rfl⟩ := runs_pure.mp h₄
  have hdb₁ : db₁ = db := by
    simp [Sql.managedExecutionFacts] at h₁
    exact h₁.1
  subst hdb₁
  obtain ⟨hpersist, _⟩ := unbooked_persistManagedCommand h₂
  simp only [runs_onlyIf, Sql.runs_upsertReleaseScope] at h₃
  rcases h₃ with ⟨_, rfl⟩ | ⟨_, rfl⟩
  · exact hpersist.trans ⟨rfl, rfl, rfl, rfl⟩
  · exact hpersist.trans ⟨rfl, rfl, rfl, rfl⟩

end Managed

namespace Commands
variable {now : Time} {fresh : Fresh} {db db' : Db} {response : Response}

/-- A command that commits either replays an earlier one or is accepted. -/
theorem runs_command (h : Runs (command now fresh input) db response db') :
    db' = db ∨ ∃ s,
      Accepted now input.tenantID input.serviceID fresh.operation input.kind input.requestHash s db
        db' ∧
      Booked now (Request.command input).replayKey input.requestHash input.kind
        (db.managedResources.lookup (input.tenantID, input.serviceID) = none ∧
          input.kind.reserves = true)
        input.tenantID input.serviceID fresh.operation (s.desiredGeneration + 1) db db' := by
  simp only [command, runs_bind, runs_reject] at h
  obtain ⟨_, _, ⟨_, rfl⟩, _, _, ⟨hk, rfl⟩, o, db₁, h₁, h⟩ := h
  obtain rfl := runs_replayed h₁
  cases o with
  | some r => exact .inl (runs_pure.mp h).2
  | none =>
    simp only [runs_bind] at h
    obtain ⟨r, db₂, h₂, h₃⟩ := h
    obtain ⟨rfl, hs, _, hstate, _, hm⟩ := runs_admitCommand h₂
    have hc : input.kind ≠ .create := fun hc => hk (.inl hc)
    have hu : input.kind ≠ .update := fun hu => hk (.inr hu)
    exact .inr ⟨r.1, runs_acceptCommand hs (admits_of_validCommandState hstate hc hu) h₃,
      booked_acceptCommand hc hu hm (unused_of_replayed h₁) h₃⟩

/-- An update that commits either replays an earlier one or is accepted. -/
theorem runs_update (h : Runs (update now fresh input) db response db') :
    db' = db ∨ ∃ s,
      Accepted now input.tenantID input.serviceID (input.managedOperationID.getD fresh.operation)
        .update input.requestHash s db db' ∧
      Booked now (Request.update input).replayKey input.requestHash .update
        (db.managedResources.lookup (input.tenantID, input.serviceID) = none ∧
          Kind.update.reserves = true)
        input.tenantID input.serviceID (input.managedOperationID.getD fresh.operation)
        (s.desiredGeneration + 1) db db' := by
  simp only [update, runs_bind, runs_reject] at h
  obtain ⟨_, _, ⟨_, rfl⟩, o, db₁, h₁, h⟩ := h
  obtain rfl := runs_replayedUpdate h₁
  cases o with
  | some r => exact .inl (runs_pure.mp h).2
  | none =>
    simp only [runs_bind] at h
    obtain ⟨r, db₂, h₂, effective, db₃, h₃, h₄⟩ := h
    obtain ⟨rfl, hs, _, hstate, _, hm⟩ := runs_admitUpdate h₂
    have hunused := unused_of_replayedUpdate h₁
    obtain ⟨rfl, ht, hsv, hh, hid⟩ := runs_effectiveUpdate h₃
    have hkey : (Request.update effective).replayKey = (Request.update input).replayKey := by
      simp only [Request.replayKey, ht, hid]
    rw [← ht, ← hsv] at hs hm
    rw [← hkey] at hunused
    have hacc := runs_acceptUpdate hs hstate h₄
    have hbooked := booked_acceptUpdate hm hunused h₄
    rw [ht, hsv, hh] at hacc hbooked
    rw [hkey] at hbooked
    exact .inr ⟨r.1, hacc, hbooked⟩

end Commands

namespace Managed
variable {now : Time} {fresh : Fresh} {db db' : Db}

/-- A create that commits replays, is blocked, or is accepted. -/
theorem runs_createService (h : Runs (createService now fresh input) db result db') :
    (Aside (fun _ => False) db db' ∧ Unbooked db db') ∨ ∃ service operation,
      Created input.tenantID service operation input.requestHash db db' ∧
      Booked now (Request.create input).replayKey input.requestHash .create
        ((Request.create input).unmanaged = true) input.tenantID service operation 1 db db' := by
  cases hm : input.managed with
  | none =>
    simp only [createService, hm, runs_bind] at h
    obtain ⟨o, db₁, h₁, h⟩ := h
    obtain rfl := runs_replayedCreate h₁
    cases o with
    | some r =>
      obtain ⟨_, rfl⟩ := runs_pure.mp h
      exact .inl ⟨.refl _, .refl _⟩
    | none =>
      exact .inr ⟨_, _, runs_acceptCreate h,
        booked_acceptCreate (unused_of_replayedCreate hm h₁) h⟩
  | some c =>
    simp only [createService, hm, runs_bind, runs_reject] at h
    obtain ⟨_, _, ⟨_, rfl⟩, intake, db₁, h₁, h⟩ := h
    have ha : Aside (fun _ => False) _ db₁ := aside_prepareManagedCommand h₁
    have hu := unbooked_prepareManagedCommand h₁
    cases intake with
    | replay response =>
      obtain ⟨_, rfl⟩ := runs_pure.mp h
      exact .inl ⟨ha, hu⟩
    | closing c' => exact .inl ⟨ha.trans (aside_blockCreate h), hu.trans (unbooked_blockCreate h)⟩
    | fresh c' =>
      simp only [runs_bind, runs_pure] at h
      obtain ⟨_, db₂, h₂, _, _, h₃, _, rfl⟩ := h
      have hkey : (Request.create input).replayKey = none := by simp [Request.replayKey, hm]
      obtain ⟨hpersist, hspecs⟩ := unbooked_persistManagedCommand h₃
      refine .inr ⟨_, _, ha.created (runs_acceptCreate h₂) (aside_persistManagedCommand h₃),
        hu.booked (booked_acceptCreate (fun k hk => ?_) h₂) hpersist hspecs⟩
      rw [hkey] at hk
      cases hk

theorem runs_prepareCreate (h : Runs (prepareCreate c) db response db') :
    Aside (fun _ => False) db db' ∧ Unbooked db db' := by
  simp only [prepareCreate, runs_get_bind] at h
  rw [runs_bind] at h
  obtain ⟨intake, db₁, h₁, h⟩ := h
  have ha : Aside (fun _ => False) _ db₁ := aside_prepareManagedCommand h₁
  have hu := unbooked_prepareManagedCommand h₁
  cases intake with
  | replay response =>
    obtain ⟨_, rfl⟩ := runs_pure.mp h
    exact ⟨ha, hu⟩
  | fresh _ =>
    simp only [runs_bind, runs_set, runs_pure] at h
    obtain ⟨_, _, rfl, _, rfl⟩ := h
    exact ⟨.refl _, .refl _⟩
  | closing c' =>
    simp only [runs_bind, runs_pure] at h
    obtain ⟨_, _, h, _, rfl⟩ := h
    exact ⟨ha.trans (aside_blockCreate h), hu.trans (unbooked_blockCreate h)⟩

theorem runs_deleteOrClose (hm : Recorded c operation db)
    (h : Runs (deleteOrClose now event input operation c) db response db') :
    (Closed now c.context.tenantID c.context.resourceID operation db db' ∧ Unbooked db db') ∨
      ∃ s, Accepted now c.context.tenantID c.context.resourceID operation .delete
          input.requestHash s db db' ∧
        Booked now none input.requestHash .delete False c.context.tenantID c.context.resourceID
          operation (s.desiredGeneration + 1) db db' := by
  simp only [deleteOrClose, runs_bind, Sql.runs_getService, and_assoc, exists_and_left,
    exists_eq_left] at h
  cases hs : db.services.lookup (c.context.tenantID, c.context.resourceID) with
  | none =>
    simp only [hs] at h
    exact .inl ⟨runs_closeWithoutService hs hm h, unbooked_closeWithoutService h⟩
  | some s =>
    simp only [hs, runs_bind, runs_reject, not_or] at h
    obtain ⟨_, _, ⟨⟨_, hw⟩, rfl⟩, h⟩ := h
    exact .inr ⟨s, runs_deleteService hs hw h, booked_deleteService h⟩

/-- A managed delete that commits replays, closes a resource without a service, or is accepted
as a command on the service. -/
theorem runs_acceptManagedDelete (h : Runs (acceptManagedDelete now fresh input) db response db') :
    (Aside (fun _ => False) db db' ∧ Unbooked db db') ∨
      ∃ operation, input.command.context.deleteOperationID = some operation ∧
      ((Closed now input.tenantID input.serviceID operation db db' ∧ Unbooked db db') ∨
        ∃ s, Accepted now input.tenantID input.serviceID operation .delete input.requestHash s db
            db' ∧
          Booked now none input.requestHash .delete False input.tenantID input.serviceID operation
            (s.desiredGeneration + 1) db db') := by
  simp only [acceptManagedDelete, runs_bind, runs_reject, runs_require, not_or, not_not] at h
  obtain ⟨_, _, ⟨⟨ht, hsv⟩, rfl⟩, operation, _, ⟨hop, rfl⟩, _, db₀, ⟨hne, rfl⟩, intake, db₁, h₁,
    h⟩ := h
  have hp := runs_prepareManagedCommand h₁
  have ha : Aside (fun _ => False) _ db₁ := aside_prepareManagedCommand h₁
  have hu := unbooked_prepareManagedCommand h₁
  have key : ∀ c, (intake = .fresh c ∨ intake = .closing c) →
      Runs (deleteOrClose now fresh.event input operation c) db₁ response db' →
      (Closed now input.tenantID input.serviceID operation db₀ db' ∧ Unbooked db₀ db') ∨
        ∃ s, Accepted now input.tenantID input.serviceID operation .delete input.requestHash s db₀
            db' ∧
          Booked now none input.requestHash .delete False input.tenantID input.serviceID operation
            (s.desiredGeneration + 1) db₀ db' := by
    intro c hc hrun
    obtain ⟨hct, hcr⟩ := hp.sameResource hc
    have hdone := runs_deleteOrClose (hp.recorded hc hne) hrun
    rw [hct, hcr, ht, hsv] at hdone
    rcases hdone with ⟨hclosed, hunbooked⟩ | ⟨s, hacc, hbooked⟩
    · exact .inl ⟨ha.closed hclosed, hu.trans hunbooked⟩
    · exact .inr ⟨s, ha.accepted hacc, hu.booked hbooked (.refl _) rfl⟩
  cases intake with
  | replay r =>
    obtain ⟨_, rfl⟩ := runs_pure.mp h
    exact .inl ⟨ha, hu⟩
  | fresh c => exact .inr ⟨operation, hop, key c (.inl rfl) h⟩
  | closing c => exact .inr ⟨operation, hop, key c (.inr rfl) h⟩

end Managed

end AniInference
