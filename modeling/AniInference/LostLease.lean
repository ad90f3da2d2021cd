import AniInference.Lib.Script
import AniInference.Workers
import AniInference.Schedule

namespace AniInference
open Lib Txn

namespace Store

end Store

namespace Write

/-- How many statements come before it. -/
def reads : Write → Nat
  | .runtimeObservation .. | .observation .. => 1
  | _ => 0

/-- The writes the steps of an operation are made of. -/
def ofStep : Write → Bool
  | .observation .. | .releaseScope .. | .releaseReport .. => false
  | _ => true

end Write

/-- The writes of the operation store, made for the operation `op`. -/
inductive Write.Of (op : OperationContext) : Write → Prop
  | advance {t : StepTransition} {event : AuditEvent} (tenant : t.tenantID = op.tenantID)
      (operation : t.operationID = op.id) (token : t.leaseToken = op.leaseToken) :
      Of op (.advance t event)
  | retry {t : StepTransition} {after : Nat} {event : AuditEvent}
      (tenant : t.tenantID = op.tenantID) (operation : t.operationID = op.id)
      (token : t.leaseToken = op.leaseToken) : Of op (.retry t after event)
  | quota {r : Reservation} (tenant : r.tenantID = op.tenantID)
      (fence : r.fenceOperationID = some op.id) (token : r.leaseToken = op.leaseToken) :
      Of op (.quota r)
  | publication {p : Publication} (tenant : p.tenantID = op.tenantID)
      (fence : p.fenceOperationID = some op.id) (token : p.leaseToken = op.leaseToken) :
      Of op (.publication p)
  | runtimeObservation (fact : RuntimeObservation) : Of op (.runtimeObservation op fact)
  | modelObservation (fact : ModelObservation) : Of op (.modelObservation op fact)
  | modelMaterializing : Of op (.modelMaterializing op)
  | gpuSnapshot (plan : Gpu.Snapshot) : Of op (.gpuSnapshot op plan)

section
variable {opts : WorkOptions} {r : Runner} {w : World} {op : OperationContext}
variable {now : Time} {db : Db} {x : Write}

/-- What was loaded is still there, and the token it was loaded with was out before. -/
theorem Loaded.row (hw : w.Kept)
    (hrec : Recorded World.history (Call.entry opts) (fun c w => w.Kept ∧ c.Proper opts r w) w)
    (h : Loaded op w.history) :
    (∃ o, w.db.operations.lookup (op.tenantID, op.id) = some o ∧
      o.aim = (op.serviceID, op.kind, op.targetGeneration)) ∧
    op.leaseToken ≤ w.history.length := by
  obtain ⟨o, e, past, hseen, haim, hsuf⟩ := h
  obtain ⟨c, choice, w₀, ⟨hkept, _⟩, rfl, rfl⟩ := hrec e past hsuf
  rw [seen_entry] at hseen
  obtain ⟨rfl, hanswer⟩ := Sigma.mk.inj hseen
  obtain ⟨hrow, hf⟩ := fenced_of_read (eq_of_heq hanswer)
  constructor
  · obtain ⟨o', ho', haim'⟩ := hw.chronicle.rows _ _ hsuf _ o hrow
    exact ⟨o', ho', haim'.trans haim⟩
  · obtain ⟨o', _, _, hlease⟩ := Db.fenced_iff.mp hf
    obtain ⟨expiry, hl, _⟩ := Db.leaseHeld_iff.mp hlease
    have hissued := hkept.chronicle.sound.issued _ _ _ hl
    have hlen := hsuf.length_le
    rw [hkept.chronicle.numbered] at hissued
    simp only [List.length_cons] at hlen
    have htoken : op.leaseToken ≤ w₀.history.length := Nat.le_of_lt_succ hissued
    exact htoken.trans ((Nat.le_succ _).trans hlen)

/-- The writes a worker makes carry the fence of the operation it has loaded. -/
theorem Write.Proper.of (hp : x.Proper opts r w) (hx : x.ofStep = true) :
    ∃ op, Loaded op w.history ∧ x.Of op := by
  cases x with
  | advance t event =>
    obtain ⟨op, hknown, ⟨_, rfl⟩ | ⟨_, result, es, _, _, rfl, _⟩⟩ := hp
    · exact ⟨op, hknown.loaded, .advance rfl rfl rfl⟩
    · exact ⟨op, hknown.loaded, .advance rfl rfl rfl⟩
  | retry t after event =>
    obtain ⟨op, cause, hknown, _, rfl⟩ := hp
    exact ⟨op, hknown.loaded, .retry rfl rfl rfl⟩
  | quota reservation =>
    obtain ⟨op, hknown, htenant, htoken, hfence, _⟩ := hp
    exact ⟨op, hknown.loaded, .quota htenant hfence htoken⟩
  | publication p =>
    obtain ⟨op, hknown, htenant, _, htoken, hfence⟩ := hp
    exact ⟨op, hknown.loaded, .publication htenant hfence htoken⟩
  | runtimeObservation op fact => exact ⟨op, OperationContext.Known.loaded hp,
    .runtimeObservation _⟩
  | modelObservation op fact => exact ⟨op, OperationContext.Known.loaded hp, .modelObservation _⟩
  | modelMaterializing op => exact ⟨op, OperationContext.Known.loaded hp, .modelMaterializing⟩
  | gpuSnapshot op plan => exact ⟨op, OperationContext.Known.loaded hp.1, .gpuSnapshot _⟩
  | observation | releaseScope | releaseReport => cases hx

end

/-- The call by which `op` was loaded. -/
def Entry.loads (op : OperationContext) : Entry → Bool
  | ⟨.read (.leasedOperation tenant token), .ok (some (id, o)), _, _, _⟩ =>
    tenant = op.tenantID && token = op.leaseToken && id = op.id &&
      o.aim = (op.serviceID, op.kind, op.targetGeneration)
  | _ => false

/-- The claim that the worker then makes. -/
def Sample.claim : Write :=
  .advance (Runner.transitionOf Sample.context .running .admission "" none)
    (Runner.auditOf Sample.context .running .admission (.step "claimed"))

/-- The operation is claimed, and the audit log says so. -/
def Sample.claimed (db : Db) : Bool :=
  (db.operations.lookup (1, 8)).any (·.phase = .running) &&
    (db.audit.lookup (1, .step 8 .running .admission 0)).isSome

end AniInference
