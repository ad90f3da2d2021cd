import AniInference.Effects.Calls
import AniInference.Worker

namespace AniInference
open Lib

/-- What commands decide about a service. -/
def Service.aim (s : Service) : DesiredState × Generation × Option Uuid :=
  (s.desiredState, s.desiredGeneration, s.currentOperation)

/-- What an operation is for. No statement changes it. -/
def OperationRow.aim (o : OperationRow) : Uuid × Kind × Generation :=
  (o.serviceID, o.kind, o.targetGeneration)

/-- The operation `k` is the current one of its service, for the generation it desires. -/
def Db.IsCurrent (db : Db) (k : Uuid × Uuid) (o : OperationRow) : Prop :=
  ∃ s, db.services.lookup (k.1, o.serviceID) = some s ∧ s.currentOperation = some k.2 ∧
    s.desiredGeneration = o.targetGeneration

/-- The invariant of services, operations and specifications. -/
structure Db.Aggregate (db : Db) : Prop where
  active : ∀ k o, db.operations.lookup k = some o → o.phase.active = true → db.IsCurrent k o
  -- Targets never run ahead, and only the current operation has the desired generation.
  target : ∀ k o, db.operations.lookup k = some o →
    ∃ s, db.services.lookup (k.1, o.serviceID) = some s ∧ o.targetGeneration ≤ s.desiredGeneration ∧
      (o.targetGeneration = s.desiredGeneration → s.currentOperation = some k.2)
  owned : ∀ k s id, db.services.lookup k = some s → s.currentOperation = some id →
    ∃ o, db.operations.lookup (k.1, id) = some o ∧ o.serviceID = k.2 ∧
      o.targetGeneration = s.desiredGeneration
  spec : ∀ k s, db.services.lookup k = some s → s.desiredState ≠ .deleted →
    (db.specs.lookup (k.1, k.2, s.desiredGeneration)).isSome = true
  -- No command follows a delete.
  deleted : ∀ k o, db.operations.lookup k = some o → o.kind = .delete →
    ∃ s, db.services.lookup (k.1, o.serviceID) = some s ∧ s.desiredState = .deleted ∧
      s.currentOperation = some k.2

theorem Db.fenced_iff {db : Db} :
    db.fenced tenant operation token now = true ↔
      ∃ o, db.operations.lookup (tenant, operation) = some o ∧ db.IsCurrent (tenant, operation) o ∧
        db.leaseHeld tenant o.serviceID token now = true := by
  simp only [Db.fenced, Option.any_eq_true, Bool.and_eq_true, decide_eq_true_eq, Db.IsCurrent]

theorem Db.operationFenced_iff {db : Db} :
    db.operationFenced tenant fence generation token now = true ↔
      ∃ o, db.operations.lookup (tenant, fence) = some o ∧ generation ≤ o.targetGeneration ∧
        (∃ s, db.services.lookup (tenant, o.serviceID) = some s ∧
          s.currentOperation = some fence) ∧
        db.leaseHeld tenant o.serviceID token now = true := by
  simp only [Db.operationFenced, Option.any_eq_true, Bool.and_eq_true, decide_eq_true_eq, and_assoc]

namespace Db.Aggregate
variable {db db' : Db}

/-- The current operation of a service is always for the generation it desires, so that the
fence of publications and reservations is the fence of operations. -/
theorem fenced (h : db.Aggregate)
    (hf : db.operationFenced tenant fence generation token now = true) :
    db.fenced tenant fence token now = true := by
  obtain ⟨o, ho, _, ⟨s, hs, hcur⟩, hlease⟩ := Db.operationFenced_iff.mp hf
  obtain ⟨o', ho', _, htarget⟩ := h.owned _ s fence hs hcur
  rw [ho] at ho'
  obtain rfl := Option.some.inj ho'
  exact Db.fenced_iff.mpr ⟨o, ho, ⟨s, hs, hcur, htarget.symm⟩, hlease⟩

theorem empty : Db.empty.Aggregate where
  active := by simp [Db.empty]
  target := by simp [Db.empty]
  owned := by simp [Db.empty]
  spec := by simp [Db.empty]
  deleted := by simp [Db.empty]

/-- The invariant reads what services and operations aim at, which operations are active and
which specifications are there. -/
theorem congr (h : db.Aggregate)
    (hs : ∀ k, (db'.services.lookup k).map Service.aim = (db.services.lookup k).map Service.aim)
    (ho : ∀ k, (db'.operations.lookup k).map OperationRow.aim =
      (db.operations.lookup k).map OperationRow.aim)
    (hact : ∀ k o', db'.operations.lookup k = some o' → o'.phase.active = true →
      ∃ o, db.operations.lookup k = some o ∧ db.IsCurrent k o)
    (hspec : ∀ k, (db.specs.lookup k).isSome = true → (db'.specs.lookup k).isSome = true) :
    db'.Aggregate where
  active k o' ho' ha := by
    obtain ⟨o, hok, s, hsk, hcur, hgen⟩ := hact k o' ho' ha
    obtain ⟨o₁, hok₁, haim⟩ := exists_of_map_eq (ho k) ho'
    obtain rfl : o₁ = o := by
      rw [hok] at hok₁
      exact (Option.some.inj hok₁).symm
    obtain ⟨s', hsk', haims⟩ := exists_of_map_eq (hs (k.1, o₁.serviceID)).symm hsk
    simp only [OperationRow.aim, Service.aim, Prod.mk.injEq] at haim haims
    refine ⟨s', by rw [haim.1]; exact hsk', haims.2.2 ▸ hcur, ?_⟩
    rw [haim.2.2, ← hgen, haims.2.1]
  target k o' ho' := by
    obtain ⟨o, hok, haim⟩ := exists_of_map_eq (ho k) ho'
    obtain ⟨s, hsk, hle, heq⟩ := h.target k o hok
    obtain ⟨s', hsk', haims⟩ := exists_of_map_eq (hs (k.1, o.serviceID)).symm hsk
    simp only [OperationRow.aim, Service.aim, Prod.mk.injEq] at haim haims
    refine ⟨s', by rw [haim.1]; exact hsk', ?_, ?_⟩
    · rw [haim.2.2, ← haims.2.1]
      exact hle
    · rw [haim.2.2, ← haims.2.1, ← haims.2.2]
      exact heq
  owned k s' id hsk' hid := by
    obtain ⟨s, hsk, haims⟩ := exists_of_map_eq (hs k) hsk'
    simp only [Service.aim, Prod.mk.injEq] at haims
    obtain ⟨o, hok, hsv, hgen⟩ := h.owned k s id hsk (haims.2.2 ▸ hid)
    obtain ⟨o', hok', haim⟩ := exists_of_map_eq (ho (k.1, id)).symm hok
    simp only [OperationRow.aim, Prod.mk.injEq] at haim
    exact ⟨o', hok', haim.1 ▸ hsv, by rw [← haim.2.2, hgen, haims.2.1]⟩
  spec k s' hsk' hd := by
    obtain ⟨s, hsk, haims⟩ := exists_of_map_eq (hs k) hsk'
    simp only [Service.aim, Prod.mk.injEq] at haims
    rw [haims.2.1]
    exact hspec _ (h.spec k s hsk (haims.1 ▸ hd))
  deleted k o' ho' hd := by
    obtain ⟨o, hok, haim⟩ := exists_of_map_eq (ho k) ho'
    simp only [OperationRow.aim, Prod.mk.injEq] at haim
    obtain ⟨s, hsk, hds, hcur⟩ := h.deleted k o hok (haim.2.1 ▸ hd)
    obtain ⟨s', hsk', haims⟩ := exists_of_map_eq (hs (k.1, o.serviceID)).symm hsk
    simp only [Service.aim, Prod.mk.injEq] at haims
    exact ⟨s', by rw [haim.1]; exact hsk', haims.1 ▸ hds, haims.2.2 ▸ hcur⟩

/-- Writes that leave all three tables alone. -/
theorem of_eq (h : db.Aggregate) (hs : db'.services = db.services)
    (ho : db'.operations = db.operations) (hp : db'.specs = db.specs) : db'.Aggregate := by
  refine h.congr (fun k => by rw [hs]) (fun k => by rw [ho]) (fun k o hok ha => ?_)
    (fun k => by rw [hp]; exact id)
  rw [ho] at hok
  exact ⟨o, hok, h.active k o hok ha⟩

section
variable {now : Time} {tenant service operation : Uuid} {kind : Kind} {hash : String} {s : Service}
variable (h : Accepted now tenant service operation kind hash s db db')
include h

theorem lookup_services_accepted (k : Uuid × Uuid) :
    db'.services.lookup k = if k = (tenant, service) then
      some (s.moved (Commands.targetState kind s.desiredState) (s.desiredGeneration + 1) operation)
    else db.services.lookup k := by
  rw [h.services, Table.lookup_insert_ite]

/-- An operation that was there keeps its aim, and stays active only if it is another
service's. -/
theorem lookup_operations_accepted (ho' : db'.operations.lookup k = some o') :
    (k = (tenant, operation) ∧
      o' = Sql.newOperation service kind (Commands.firstStep kind) (s.desiredGeneration + 1) hash) ∨
    (k ≠ (tenant, operation) ∧ ∃ o, db.operations.lookup k = some o ∧ o'.aim = o.aim ∧
      (o'.phase.active = true → o.phase.active = true ∧
        (k.1, o.serviceID) ≠ (tenant, service))) := by
  rw [h.operations] at ho'
  by_cases hk : k = (tenant, operation)
  · rw [if_pos hk] at ho'
    exact .inl ⟨hk, (Option.some.inj ho').symm⟩
  · rw [if_neg hk] at ho'
    obtain ⟨o, ho, rfl⟩ := Option.map_eq_some_iff.mp ho'
    refine .inr ⟨hk, o, ho, ?_, ?_⟩
    · split <;> rfl
    · intro hact
      by_cases hc : kind = .delete ∧ Sql.cancellable db tenant service k o = true
      · rw [if_pos hc] at hact
        cases hact
      · rw [if_neg hc] at hact
        refine ⟨hact, fun hsv => hc ?_⟩
        exact h.idle k o ho (congrArg Prod.fst hsv) (congrArg Prod.snd hsv) hact

theorem operation_kept_accepted (ho : db.operations.lookup k = some o) :
    ∃ o', db'.operations.lookup k = some o' ∧ o'.aim = o.aim := by
  have hne : k ≠ (tenant, operation) := by
    intro heq
    rw [heq, h.unused] at ho
    cases ho
  have hk := h.operations k
  rw [if_neg hne, ho, Option.map_some] at hk
  refine ⟨_, hk, ?_⟩
  split <;> rfl

theorem accepted (hi : db.Aggregate) : db'.Aggregate where
  active k o' ho' hact := by
    rcases lookup_operations_accepted h ho' with ⟨rfl, rfl⟩ | ⟨_, o, ho, haim, hsame⟩
    · exact ⟨_, (lookup_services_accepted h _).trans (if_pos rfl), rfl, rfl⟩
    · obtain ⟨hact', hne⟩ := hsame hact
      obtain ⟨s₀, hs₀, hcur, hgen⟩ := hi.active k o ho hact'
      simp only [OperationRow.aim, Prod.mk.injEq] at haim
      refine ⟨s₀, ?_, hcur, haim.2.2 ▸ hgen⟩
      rw [haim.1, lookup_services_accepted h, if_neg hne]
      exact hs₀
  target k o' ho' := by
    rcases lookup_operations_accepted h ho' with ⟨rfl, rfl⟩ | ⟨_, o, ho, haim, _⟩
    · exact ⟨_, (lookup_services_accepted h _).trans (if_pos rfl), le_refl _, fun _ => rfl⟩
    · obtain ⟨s₀, hs₀, hle, heq⟩ := hi.target k o ho
      simp only [OperationRow.aim, Prod.mk.injEq] at haim
      rw [haim.1, haim.2.2, lookup_services_accepted h]
      by_cases hsv : (k.1, o.serviceID) = (tenant, service)
      · rw [hsv, h.found] at hs₀
        obtain rfl := Option.some.inj hs₀
        have hlt : o.targetGeneration < s.desiredGeneration + 1 := Nat.lt_succ_of_le hle
        rw [if_pos hsv]
        exact ⟨_, rfl, le_of_lt hlt, fun h => absurd h (ne_of_lt hlt)⟩
      · rw [if_neg hsv]
        exact ⟨s₀, hs₀, hle, heq⟩
  owned k s' id hs' hid := by
    rw [lookup_services_accepted h] at hs'
    by_cases hk : k = (tenant, service)
    · rw [if_pos hk] at hs'
      obtain rfl := Option.some.inj hs'
      obtain rfl := Option.some.inj hid
      subst hk
      exact ⟨_, by rw [h.operations, if_pos rfl], rfl, rfl⟩
    · rw [if_neg hk] at hs'
      obtain ⟨o, ho, hsv, hgen⟩ := hi.owned k s' id hs' hid
      obtain ⟨o', ho', haim⟩ := operation_kept_accepted h ho
      simp only [OperationRow.aim, Prod.mk.injEq] at haim
      exact ⟨o', ho', haim.1.trans hsv, haim.2.2.trans hgen⟩
  spec k s' hs' hd := by
    rw [lookup_services_accepted h] at hs'
    by_cases hk : k = (tenant, service)
    · rw [if_pos hk] at hs'
      obtain rfl := Option.some.inj hs'
      subst hk
      rcases h.specs with ⟨hdel, _⟩ | ⟨_, _, spec, hspecs⟩
      · rw [hdel] at hd
        exact absurd rfl hd
      · rw [hspecs]
        simp [Service.moved]
    · rw [if_neg hk] at hs'
      have hold := hi.spec k s' hs' hd
      rcases h.specs with ⟨_, hspecs⟩ | ⟨_, _, spec, hspecs⟩
      · rw [hspecs]
        exact hold
      · rw [hspecs, Table.lookup_insert_ite]
        split
        · rfl
        · exact hold
  deleted k o' ho' hd := by
    rcases lookup_operations_accepted h ho' with ⟨rfl, rfl⟩ | ⟨_, o, ho, haim, _⟩
    · have hkind : kind = .delete := hd
      exact ⟨_, (lookup_services_accepted h _).trans (if_pos rfl), by rw [hkind]; rfl, rfl⟩
    · simp only [OperationRow.aim, Prod.mk.injEq] at haim
      obtain ⟨s₀, hs₀, hds, hcur⟩ := hi.deleted k o ho (haim.2.1 ▸ hd)
      refine ⟨s₀, ?_, hds, hcur⟩
      rw [haim.1, lookup_services_accepted h, if_neg]
      · exact hs₀
      · intro hsv
        rw [hsv, h.found] at hs₀
        obtain rfl := Option.some.inj hs₀
        have hadmits := h.admits
        rw [hds] at hadmits
        revert hadmits
        cases kind <;> simp [Kind.Admits]

end

theorem created {tenant service operation : Uuid} {hash : String} (hi : db.Aggregate)
    (h : Created tenant service operation hash db db') : db'.Aggregate := by
  obtain ⟨name, hservices⟩ := h.services
  obtain ⟨_, spec, hspecs⟩ := h.specs
  have hs : ∀ k, db'.services.lookup k = if k = (tenant, service) then
      some { Sql.newService name 1 with currentOperation := some operation }
      else db.services.lookup k := by
    intro k
    rw [hservices, Table.lookup_insert_ite]
  have ho : ∀ k, db'.operations.lookup k = if k = (tenant, operation) then
      some (Sql.newOperation service .create .admission 1 hash) else db.operations.lookup k := by
    intro k
    rw [h.operations, Table.lookup_insert_ite]
  -- No operation of a service that did not exist.
  have hnone : ∀ k o, db.operations.lookup k = some o → (k.1, o.serviceID) ≠ (tenant, service) := by
    intro k o hok hsv
    obtain ⟨s, hsk, _⟩ := hi.target k o hok
    rw [hsv, h.absent] at hsk
    cases hsk
  refine ⟨fun k o' ho' hact => ?_, fun k o' ho' => ?_, fun k s' id hs' hid => ?_,
    fun k s' hs' hd => ?_, fun k o' ho' hd => ?_⟩
  · rw [ho] at ho'
    split at ho'
    · next hk =>
      obtain rfl := Option.some.inj ho'
      subst hk
      exact ⟨_, (hs _).trans (if_pos rfl), rfl, rfl⟩
    · obtain ⟨s₀, hs₀, hcur⟩ := hi.active k o' ho' hact
      exact ⟨s₀, (hs _).trans ((if_neg (hnone k o' ho')).trans hs₀), hcur⟩
  · rw [ho] at ho'
    split at ho'
    · next hk =>
      obtain rfl := Option.some.inj ho'
      subst hk
      exact ⟨_, (hs _).trans (if_pos rfl), le_refl _, fun _ => rfl⟩
    · obtain ⟨s₀, hs₀, hle⟩ := hi.target k o' ho'
      exact ⟨s₀, (hs _).trans ((if_neg (hnone k o' ho')).trans hs₀), hle⟩
  · rw [hs] at hs'
    split at hs'
    · next hk =>
      obtain rfl := Option.some.inj hs'
      obtain rfl := Option.some.inj hid
      subst hk
      exact ⟨_, (ho _).trans (if_pos rfl), rfl, rfl⟩
    · obtain ⟨o, hok, hown⟩ := hi.owned k s' id hs' hid
      have hne : (k.1, id) ≠ (tenant, operation) := by
        intro heq
        rw [heq, h.unused] at hok
        cases hok
      exact ⟨o, (ho _).trans ((if_neg hne).trans hok), hown⟩
  · rw [hs] at hs'
    rw [hspecs, Table.lookup_insert_ite]
    split at hs'
    · next hk =>
      obtain rfl := Option.some.inj hs'
      subst hk
      simp [Sql.newService]
    · have hold := hi.spec k s' hs' hd
      split
      · rfl
      · exact hold
  · rw [ho] at ho'
    split at ho'
    · obtain rfl := Option.some.inj ho'
      cases hd
    · obtain ⟨s₀, hs₀, hdel⟩ := hi.deleted k o' ho' hd
      exact ⟨s₀, (hs _).trans ((if_neg (hnone k o' ho')).trans hs₀), hdel⟩

theorem stepped (hi : db.Aggregate) (h : Store.Stepped now t retry o db db') : db'.Aggregate := by
  have haim : (Store.steppedRow now t retry o).aim = o.aim := by cases retry <;> rfl
  refine hi.congr (fun k => ?_) (fun k => ?_) (fun k o' ho' hact => ?_)
    (fun k => by rw [h.specs]; exact id)
  · rcases h.services with hs | ⟨_, _, _, s, hs, _, hs'⟩
    · rw [hs]
    · rw [hs', Table.lookup_insert_ite]
      split
      · next hk =>
        rw [hk, hs]
        rfl
      · rfl
  · rw [h.operations, Table.lookup_insert_ite]
    split
    · next hk =>
      rw [hk, h.found, Option.map_some, Option.map_some, haim]
    · rfl
  · rw [h.operations, Table.lookup_insert_ite] at ho'
    split at ho'
    · next hk =>
      -- The fence of the step names the operation current, whatever the new phase.
      have hm := h.matched
      simp only [Sql.stepMatches, Bool.and_eq_true] at hm
      obtain ⟨o₁, ho₁, hcur, _⟩ := Db.fenced_iff.mp hm.2
      exact ⟨o₁, hk ▸ ho₁, hk ▸ hcur⟩
    · exact ⟨o', ho', hi.active k o' ho' hact⟩

theorem observed (hi : db.Aggregate) (h : Store.Observed now item db db') : db'.Aggregate := by
  obtain ⟨s, hs, hs'⟩ := h.services
  obtain ⟨_, _, hrest⟩ := h.rest
  have ho : db'.operations = db.operations := by rw [hrest]
  have hp : db'.specs = db.specs := by rw [hrest]
  refine hi.congr (fun k => ?_) (fun k => by rw [ho]) (fun k o' ho' hact => ?_)
    (fun k => by rw [hp]; exact id)
  · rw [hs', Table.lookup_insert_ite]
    split
    · next hk =>
      rw [hk, hs]
      rfl
    · rfl
  · rw [ho] at ho'
    exact ⟨o', ho', hi.active k o' ho' hact⟩

theorem planned (hi : db.Aggregate) (h : Store.Planned now op db db') : db'.Aggregate := by
  obtain ⟨spec, plan, hspec, _, rfl⟩ := h.specs
  refine hi.congr (fun k => rfl) (fun k => rfl) (fun k o ho hact => ⟨o, ho, hi.active k o ho hact⟩)
    (fun k hk => ?_)
  rw [Table.lookup_insert_ite]
  split
  · rfl
  · exact hk

/-- Every call keeps the invariant. -/
theorem effect (hi : db.Aggregate) (h : Effect now token db c db') : db'.Aggregate := by
  cases h with
  | same => exact hi
  | aside ha | closed ha | queued ha
  | reported ha => exact hi.of_eq ha.services ha.operations ha.specs
  | accepted ha => exact hi.accepted ha
  | created hc => exact hi.created hc
  | claimed hc =>
    obtain ⟨_, _, rfl⟩ := hc.work
    exact hi.of_eq rfl rfl rfl
  | committed ha | requeued ha => exact hi.of_eq ha.services ha.operations ha.specs
  | advanced hs | retried hs => exact hi.stepped hs
  | runtimeObserved ho | observed ho => exact hi.observed ho
  | planned hp => exact hi.planned hp
  | quota | publication | modelObserved | materializing | scopeSaved => exact hi.of_eq rfl rfl rfl

end Db.Aggregate
end AniInference
