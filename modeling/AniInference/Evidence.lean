import AniInference.Chronicle
import AniInference.Paths

namespace AniInference
open Lib

/-- The step that a call took the operation `k` on from, if it did. -/
def Entry.left (k : Uuid × Uuid) (e : Entry) : Option Step :=
  match e.before.operations.lookup k, e.after.operations.lookup k with
  | some o, some o' => if o'.step = o.step then none else some o.step
  | _, _ => none

/-- The steps the operation `k` has gone on from, the first one first. -/
def completed (k : Uuid × Uuid) : List Entry → List Step
  | [] => []
  | e :: past => completed k past ++ (e.left k).toList

/-- `generation` is the highest publication of the service up to `target`. -/
structure Latest (db : Db) (tenant service : Uuid) (target generation : Generation) : Prop where
  row : (db.publications.lookup (tenant, service, generation)).isSome = true
  le : generation ≤ target
  max : ∀ g, (db.publications.lookup (tenant, service, g)).isSome = true → g ≤ target →
    g ≤ generation

/-- In the operation `k`, the authority confirmed that the latest publication is withdrawn, and
then that was saved. -/
structure Withdrawal (k : Uuid × Uuid) (service : Uuid) (target : Generation) (p : Publication)
    (confirmed saved : Entry) : Prop where
  answer : confirmed.seen = ⟨.provider (.confirmWithdrawn p), .ok true⟩
  tenantID : p.tenantID = k.1
  serviceID : p.serviceID = service
  fence : p.fenceOperationID = some k.2
  latest : Latest confirmed.before k.1 service target p.generation
  written : saved.seen = ⟨.write (.publication { p with state := .withdrawn }), .ok ()⟩
  durable : ∃ row, saved.after.publications.lookup (k.1, service, p.generation) = some row ∧
    row.observedPhase = .withdrawn

def Withdrew (k : Uuid × Uuid) (service : Uuid) (target : Generation) (history : List Entry) :
    Prop :=
  ∃ p confirmed saved past past', Withdrawal k service target p confirmed saved ∧
    saved :: past' <:+ history ∧ confirmed :: past <:+ past'

/-- In the operation `k`, the runtime was observed to be absent. -/
def Absent (k : Uuid × Uuid) (history : List Entry) : Prop :=
  ∃ op fact e past, e.seen = ⟨.provider (.observeAbsence op), .ok fact⟩ ∧ fact.absent = true ∧
    op.tenantID = k.1 ∧ op.id = k.2 ∧ e :: past <:+ history

/-- The clock read `sealedAt` after a worker had observed the service's runtime to be absent. -/
def Sealed (tenant service : Uuid) (sealedAt : Time) (history : List Entry) : Prop :=
  ∃ op fact observed read past past',
    observed.seen = ⟨.provider (.observeAbsence op), .ok fact⟩ ∧ fact.absent = true ∧
    op.tenantID = tenant ∧ op.serviceID = service ∧ read.seen = ⟨.clock, sealedAt⟩ ∧
    read :: past' <:+ history ∧ observed :: past <:+ past'

/-- The operation was read under the lease of its worker. -/
def Loaded (op : OperationContext) (history : List Entry) : Prop :=
  ∃ o e past, e.seen = ⟨.read (.leasedOperation op.tenantID op.leaseToken), .ok (some (op.id, o))⟩ ∧
    o.aim = (op.serviceID, op.kind, op.targetGeneration) ∧ e :: past <:+ history

/-- The lease that `token` was claimed with has not run out, and no command was accepted on the
service since. -/
def InTime (opts : WorkOptions) (tenant service token : Uuid) (history : List Entry) (now : Time) :
    Prop :=
  ∃ since e rest item, history = since ++ e :: rest ∧
    e.seen = ⟨.work (.claim tenant), .ok (some item)⟩ ∧ item.leaseToken = token ∧
    now < e.time + opts.leaseSeconds ∧ ∀ e' ∈ since, ¬e'.accepts (tenant, service)

section
variable {e : Entry} {history : List Entry} {k : Uuid × Uuid} {tenant service : Uuid}

theorem Withdrew.cons (h : Withdrew k service target history) :
    Withdrew k service target (e :: history) := by
  obtain ⟨p, confirmed, saved, past, past', hw, hs, hc⟩ := h
  exact ⟨p, confirmed, saved, past, past', hw, hs.trans (List.suffix_cons _ _), hc⟩

theorem Absent.cons (h : Absent k history) : Absent k (e :: history) := by
  obtain ⟨op, fact, e', past, hs, ha, ht, hid, hp⟩ := h
  exact ⟨op, fact, e', past, hs, ha, ht, hid, hp.trans (List.suffix_cons _ _)⟩

theorem Sealed.cons (h : Sealed tenant service sealedAt history) :
    Sealed tenant service sealedAt (e :: history) := by
  obtain ⟨op, fact, observed, read, past, past', ho, ha, ht, hs, hr, hp', hp⟩ := h
  exact ⟨op, fact, observed, read, past, past', ho, ha, ht, hs, hr,
    hp'.trans (List.suffix_cons _ _), hp⟩

theorem Loaded.cons (h : Loaded op history) : Loaded op (e :: history) := by
  obtain ⟨o, e', past, hs, ha, hp⟩ := h
  exact ⟨o, e', past, hs, ha, hp.trans (List.suffix_cons _ _)⟩

end

/-- For as long as the worker is in time, the lease is its own and the service aims at what it
aimed at. -/
def Holds (opts : WorkOptions) (tenant service token : Uuid)
    (aim : DesiredState × Generation × Option Uuid) (w : World) : Prop :=
  ∀ since e rest item, w.history = since ++ e :: rest →
    e.seen = ⟨.work (.claim tenant), .ok (some item)⟩ → item.leaseToken = token →
    w.now < e.time + opts.leaseSeconds → (∀ e' ∈ since, ¬e'.accepts (tenant, service)) →
    w.db.lease (tenant, service) = some (token, some (e.time + opts.leaseSeconds)) ∧
      (w.db.services.lookup (tenant, service)).map Service.aim = some aim

section
variable {opts : WorkOptions} {tenant service token : Uuid}
variable {aim : DesiredState × Generation × Option Uuid}

/-- A claim hands out a token that was not out before. -/
theorem claim_token {c : Call} {choice : c.Choice} {w : World} {item : Item}
    (h : (c.entry opts choice w).seen = ⟨.work (.claim tenant), .ok (some item)⟩) :
    item.leaseToken = w.nextToken := by
  have hg := congrArg (fun s : Exchange => s.1.grants s.2) h
  exact @grants_eq opts c choice w item.leaseToken hg

/-- Nothing but its own end takes a lease from a worker that is in time. -/
theorem Holds.call {w : World} (h : Holds opts tenant service token aim w)
    (ht : token < w.nextToken) (c : Call) (choice : c.Choice) (hs : c.settles ≠ some token) :
    Holds opts tenant service token aim (exec opts c choice w).2 := by
  intro since e rest item hh hseen htok hnow hacc
  rw [exec_history] at hh
  cases since with
  | nil =>
    injection hh with he
    subst he
    rw [htok.symm.trans (claim_token hseen)] at ht
    exact absurd ht (Nat.lt_irrefl _)
  | cons e' since =>
    injection hh with he hh
    have hnow' : w.now < e.time + opts.leaseSeconds := lt_of_le_of_lt (exec_now_le c choice w) hnow
    obtain ⟨hl, haim⟩ := h since e rest item hh hseen htok hnow'
      fun e₀ he₀ => hacc e₀ (List.mem_cons_of_mem _ he₀)
    have hgen := not_not.mp (hacc e' List.mem_cons_self)
    subst he
    have heff := exec_effect opts c choice w
    refine ⟨heff.lease_kept hl hnow' hs hgen, ?_⟩
    obtain ⟨s, hsv, rfl⟩ := Option.map_eq_some_iff.mp haim
    obtain ⟨s', hsv', hsame | hmoved⟩ := heff.service_kept hsv
    · rw [hsv', Option.map_some, hsame]
    · have hgen' : (some s').map (·.desiredGeneration) = (some s).map (·.desiredGeneration) := by
        rw [← hsv', ← hsv]
        exact hgen
      simp only [Option.map_some, Option.some.injEq, hmoved] at hgen'
      exact absurd hgen' (Nat.succ_ne_self _)

/-- The lease is the worker's from its claim on. -/
theorem holds_of_claim (hw : w.Chronicle)
    (h : (exec opts (.work (.claim tenant)) choice w).1 = .ok (some item)) :
    ∃ aim, Holds opts item.tenantID item.serviceID item.leaseToken aim
      (exec opts (.work (.claim tenant)) choice w).2 := by
  obtain ⟨ht, htok, hc⟩ := claim_answer h
  obtain ⟨s, hsv, _⟩ := hc.live
  obtain ⟨row, hrow, hdb⟩ := hc.work
  refine ⟨s.aim, fun since e rest i hh hseen hi hnow hacc => ?_⟩
  rw [exec_history] at hh
  cases since with
  | nil =>
    injection hh with he
    subst he
    rw [hdb, Db.lease_insert, ht, if_pos rfl, htok]
    exact ⟨hrow, by rw [hsv]; rfl⟩
  | cons e' since =>
    -- No earlier call was answered with this token.
    injection hh with _ hh
    have hmem : e ∈ w.history := by simp [hh]
    have hg : e.call.grants e.answer = some i.leaseToken :=
      congrArg (fun s : Exchange => s.1.grants s.2) hseen
    have hlt := hw.granted e hmem _ hg
    rw [hi, htok] at hlt
    exact absurd hlt (Nat.lt_irrefl _)

/-- What the service aims at may be read again at any time. -/
theorem Holds.reread (h : Holds opts tenant service token aim w)
    (hs : w.db.services.lookup (tenant, service) = some s) :
    Holds opts tenant service token s.aim w := by
  intro since e rest item hh hseen htok hnow hacc
  obtain ⟨hl, _⟩ := h since e rest item hh hseen htok hnow hacc
  exact ⟨hl, by rw [hs]; rfl⟩

/-- A worker that is in time passes the fence. -/
theorem Holds.fenced (h : Holds opts tenant service token (desired, target, some operation) w)
    (ho : w.db.operations.lookup (tenant, operation) = some o) (hsv : o.serviceID = service)
    (hgen : o.targetGeneration = target) (ht : InTime opts tenant service token w.history w.now) :
    w.db.fenced tenant operation token w.now = true := by
  obtain ⟨since, e, rest, item, hh, hseen, htok, hnow, hacc⟩ := ht
  obtain ⟨hl, hservice⟩ := h since e rest item hh hseen htok hnow hacc
  obtain ⟨s, hs, haim⟩ := Option.map_eq_some_iff.mp hservice
  simp only [Service.aim, Prod.mk.injEq] at haim
  subst hsv
  have hcur : w.db.IsCurrent (tenant, operation) o := ⟨s, hs, haim.2.2, haim.2.1.trans hgen.symm⟩
  exact Db.fenced_iff.mpr ⟨o, ho, hcur, Db.leaseHeld_iff.mpr ⟨_, hl, hnow⟩⟩

end

end AniInference
