import AniInference.History

namespace AniInference
open Lib Txn

/-- An operation of the service `k` was added: a command on it was accepted. -/
def Db.Adds (db db' : Db) (k : Uuid × Uuid) : Prop :=
  ∃ id o, db.operations.lookup (k.1, id) = none ∧ db'.operations.lookup (k.1, id) = some o ∧
    o.serviceID = k.2

/-- The generation is the one of an observation that the call saves. -/
def Applies (now : Time) (db db' : Db) (k : Uuid × Uuid) (generation : Generation) (c : Call) :
    Prop :=
  ∃ item, Store.Observed now item db db' ∧ k = (item.tenantID, item.serviceID) ∧
    generation = item.generation ∧
    ((∃ op fact, c = .write (.runtimeObservation op fact) ∧ item = Store.contextItem op) ∨
      ∃ o, c = .write (.observation item o))

/-- What a call can do to the row of a service. -/
inductive ServiceChange (now : Time) (db db' : Db) (k : Uuid × Uuid) : Call → Prop
  | none (c : Call) (same : db'.services.lookup k = db.services.lookup k)
      (quiet : ¬db.Adds db' k) : ServiceChange now db db' k c
  | written (c : Call) {s s' : Service} (found : db.services.lookup k = some s)
      (set : db'.services.lookup k = some s') (quiet : ¬db.Adds db' k) (aim : s'.aim = s.aim)
      (deleted : s.deletedAt.isSome = true → s'.deletedAt.isSome = true)
      (applied : s'.appliedGeneration = s.appliedGeneration ∨
        Applies now db db' k s'.appliedGeneration c) : ServiceChange now db db' k c
  | moved {q : Request} {operation : Uuid} {hash : String} {s : Service}
      (h : Accepted now k.1 k.2 operation q.kind hash s db db') :
      ServiceChange now db db' k (.request q)
  | created {q : Request} {operation : Uuid} {hash : String}
      (h : Created k.1 k.2 operation hash db db') : ServiceChange now db db' k (.request q)

section
variable {now : Time} {token : Uuid} {db db' : Db} {c : Call}

theorem Db.not_adds_of_none
    (h : ∀ id, db.operations.lookup (k.1, id) = none → db'.operations.lookup (k.1, id) = none) :
    ¬db.Adds db' k := by
  rintro ⟨id, o, hnone, hsome, _⟩
  rw [h id hnone] at hsome
  cases hsome

theorem Db.not_adds_of_eq (h : db'.operations = db.operations) : ¬db.Adds db' k := by
  apply Db.not_adds_of_none
  intro id hnone
  rw [h]
  exact hnone

/-- A step adds no operation. -/
theorem Store.Stepped.not_adds (h : Store.Stepped now t retry o db db') : ¬db.Adds db' k := by
  apply Db.not_adds_of_none
  intro id hnone
  rw [h.operations, Table.lookup_insert_ite]
  split
  · next hk =>
    rw [hk, h.found] at hnone
    cases hnone
  · exact hnone

theorem Accepted.not_adds {hash : String}
    (h : Accepted now tenant service operation kind hash s db db') (hk : k ≠ (tenant, service)) :
    ¬db.Adds db' k := by
  rintro ⟨id, o, hnone, hsome, hservice⟩
  rw [h.operations, hnone] at hsome
  split at hsome
  · next hid =>
    cases hsome
    exact hk (Prod.ext (Prod.mk.inj hid).1 hservice.symm)
  · cases hsome

theorem Created.not_adds {hash : String} (h : Created tenant service operation hash db db')
    (hk : k ≠ (tenant, service)) : ¬db.Adds db' k := by
  rintro ⟨id, o, hnone, hsome, hservice⟩
  rw [h.operations, Table.lookup_insert_ite, hnone] at hsome
  split at hsome
  · next hid =>
    cases hsome
    exact hk (Prod.ext (Prod.mk.inj hid).1 hservice.symm)
  · cases hsome

theorem Effect.serviceChange (h : Effect now token db c db') (k : Uuid × Uuid) :
    ServiceChange now db db' k c := by
  have kept : db'.services = db.services → db'.operations = db.operations →
      ServiceChange now db db' k c :=
    fun hs ho => .none c (by rw [hs]) (Db.not_adds_of_eq ho)
  have written : ∀ (k' : Uuid × Uuid) (s row : Service), db.services.lookup k' = some s →
      db'.services = db.services.insert k' row → ¬db.Adds db' k → row.aim = s.aim →
      (s.deletedAt.isSome = true → row.deletedAt.isSome = true) →
      (k = k' → row.appliedGeneration = s.appliedGeneration ∨
        Applies now db db' k row.appliedGeneration c) → ServiceChange now db db' k c := by
    intro k' s row hs hinsert hquiet haim hdeleted happlied
    by_cases hk : k = k'
    · subst hk
      exact .written c hs (by rw [hinsert, AList.lookup_insert]) hquiet haim hdeleted (happlied rfl)
    · exact .none c (by rw [hinsert, Table.lookup_insert_ite, if_neg hk]) hquiet
  have stepped : ∀ {t : StepTransition} {retry : Option Nat} {o : OperationRow},
      Store.Stepped now t retry o db db' → ServiceChange now db db' k c := by
    intro t retry o hst
    rcases hst.services with hsame | ⟨_, _, _, s, hs, _, hinsert⟩
    · exact .none c (by rw [hsame]) hst.not_adds
    · exact written _ s _ hs hinsert hst.not_adds rfl (fun _ => rfl) fun _ => .inl rfl
  have observed : ∀ {item : Item}, Store.Observed now item db db' →
      ((∃ op fact, c = .write (.runtimeObservation op fact) ∧ item = Store.contextItem op) ∨
        ∃ o, c = .write (.observation item o)) → ServiceChange now db db' k c := by
    intro item ho hcall
    obtain ⟨s, hs, hinsert⟩ := ho.services
    obtain ⟨_, _, hrest⟩ := ho.rest
    refine written _ s _ hs hinsert (Db.not_adds_of_eq (by rw [hrest])) rfl id fun hk => ?_
    rcases max_choice s.appliedGeneration item.generation with hmax | hmax
    · exact .inl hmax
    · exact .inr ⟨item, ho, hk, hmax, hcall⟩
  cases h with
  | same => exact kept rfl rfl
  | aside ha | closed ha | queued ha | reported ha | committed ha
  | requeued ha => exact kept ha.services ha.operations
  | claimed hc =>
    obtain ⟨_, _, rfl⟩ := hc.work
    exact kept rfl rfl
  | planned hp =>
    obtain ⟨_, _, _, _, rfl⟩ := hp.specs
    exact kept rfl rfl
  | advanced hst | retried hst => exact stepped hst
  | runtimeObserved ho => exact observed ho (.inl ⟨_, _, rfl, rfl⟩)
  | observed ho => exact observed ho (.inr ⟨_, rfl⟩)
  | @accepted _ tenant service _ _ _ _ ha =>
    by_cases hk : k = (tenant, service)
    · subst hk
      exact .moved ha
    · exact .none _ (by rw [ha.services, Table.lookup_insert_ite, if_neg hk]) (ha.not_adds hk)
  | @created _ tenant service _ _ _ hc =>
    by_cases hk : k = (tenant, service)
    · subst hk
      exact .created hc
    · obtain ⟨name, hservices⟩ := hc.services
      exact .none _ (by rw [hservices, Table.lookup_insert_ite, if_neg hk]) (hc.not_adds hk)
  | quota | publication | modelObserved | materializing | scopeSaved => exact kept rfl rfl

/-- A service row after a call aims at what it aimed at, or at an operation that is new. -/
theorem Effect.service (h : Effect now token db c db') (hs : db'.services.lookup k = some s') :
    (∃ s, db.services.lookup k = some s ∧ s'.aim = s.aim) ∨
      ∃ id, s'.currentOperation = some id ∧ db.operations.lookup (k.1, id) = none := by
  cases h.serviceChange k with
  | none _ same => exact .inl ⟨s', same.symm.trans hs, rfl⟩
  | written _ found set _ aim =>
    cases set.symm.trans hs
    exact .inl ⟨_, found, aim⟩
  | moved ha =>
    rw [ha.services, AList.lookup_insert] at hs
    cases hs
    exact .inr ⟨_, rfl, ha.unused⟩
  | created hc =>
    obtain ⟨name, hservices⟩ := hc.services
    rw [hservices, AList.lookup_insert] at hs
    cases hs
    exact .inr ⟨_, rfl, hc.unused⟩

end

/-- A delete of the service was accepted, as the operation `id`. -/
def DeleteAccepted (db db' : Db) (tenant service : Uuid) : Prop :=
  ∃ id s o, db.operations.lookup (tenant, id) = none ∧
    db'.operations.lookup (tenant, id) = some o ∧ o.kind = .delete ∧ o.serviceID = service ∧
    db'.services.lookup (tenant, service) = some s ∧ s.desiredState = .deleted ∧
    s.currentOperation = some id

/-- What a call can do to the row of an operation. -/
inductive RowChange (now : Time) (db db' : Db) (k : Uuid × Uuid) (o : OperationRow) :
    Call → OperationRow → Prop
  | none (c : Call) : RowChange now db db' k o c o
  | cancelled {q : Request} (delete : q.kind = .delete)
      (accepted : DeleteAccepted db db' k.1 o.serviceID) (active : o.phase.active = true) :
      RowChange now db db' k o (.request q) (Sql.cancelled now o)
  | advanced {t : StepTransition} {event : AuditEvent} (key : (t.tenantID, t.operationID) = k)
      (checked : Store.checkTransition t none = .ok ())
      (matched : Sql.stepMatches now (Store.stepCAS t) db o = true) :
      RowChange now db db' k o (.write (.advance t event)) (Store.steppedRow now t none o)
  | retried {t : StepTransition} {after : Nat} {event : AuditEvent}
      (key : (t.tenantID, t.operationID) = k)
      (matched : Sql.stepMatches now (Store.stepCAS t) db o = true) :
      RowChange now db db' k o (.write (.retry t after event))
        (Store.steppedRow now t (some after) o)

theorem Store.stepMatches_iff :
    Sql.stepMatches now (Store.stepCAS t) db o = true ↔
      o.targetGeneration = t.targetGeneration ∧ o.phase = t.expectedPhase ∧
      o.step = t.expectedStep ∧
      db.fenced t.tenantID t.operationID t.leaseToken now = true := by
  simp only [Sql.stepMatches, Bool.and_eq_true, decide_eq_true_eq, and_assoc]
  rfl

/-- How an operation comes to be. -/
inductive NewOperation (db db' : Db) (k : Uuid × Uuid) (o : OperationRow) : Prop
  | created {hash : String} {reserve : Prop}
      (row : o = Sql.newOperation o.serviceID .create .admission 1 hash)
      (absent : db.services.lookup (k.1, o.serviceID) = none)
      (service : ∃ s, db'.services.lookup (k.1, o.serviceID) = some s ∧ s.desiredState = .running ∧
        s.desiredGeneration = 1 ∧ s.currentOperation = some k.2)
      (reserved : Reserved reserve k.1 o.serviceID k.2 1 db db')
      (publications : db'.publications = db.publications) : NewOperation db db' k o
  | accepted {s : Service} {hash : String}
      (row : o = Sql.newOperation o.serviceID o.kind (Commands.firstStep o.kind)
        (s.desiredGeneration + 1) hash)
      (found : db.services.lookup (k.1, o.serviceID) = some s)
      (admits : o.kind.Admits s.desiredState)
      (service : db'.services.lookup (k.1, o.serviceID) = some
        (s.moved (Commands.targetState o.kind s.desiredState) (s.desiredGeneration + 1) k.2))
      -- Only a delete goes past an active operation.
      (idle : ∀ id o', db.operations.lookup (k.1, id) = some o' → o'.serviceID = o.serviceID →
        o'.phase.active = true → o.kind = .delete)
      (reserved : Reserved (db.managedResources.lookup (k.1, o.serviceID) = none ∧
        o.kind.reserves = true) k.1 o.serviceID k.2 (s.desiredGeneration + 1) db db')
      (publications : db'.publications = db.publications) : NewOperation db db' k o

/-- What a call can do to an operation. -/
inductive OperationChange (now : Time) (db db' : Db) (k : Uuid × Uuid) (c : Call) :
    Option OperationRow → Option OperationRow → Prop
  | none (o : Option OperationRow) : OperationChange now db db' k c o o
  | changed {o o' : OperationRow} (h : RowChange now db db' k o c o') :
      OperationChange now db db' k c (some o) (some o')
  | added {o : OperationRow} (h : NewOperation db db' k o) :
      OperationChange now db db' k c .none (some o)

theorem Effect.operationChange (h : Effect now token db c db') (k : Uuid × Uuid) :
    OperationChange now db db' k c (db.operations.lookup k) (db'.operations.lookup k) := by
  have kept : db'.operations = db.operations →
      OperationChange now db db' k c (db.operations.lookup k) (db'.operations.lookup k) := by
    intro he
    rw [he]
    exact .none _
  have stepped : ∀ {t : StepTransition} {retry : Option Nat} {o : OperationRow},
      Store.Stepped now t retry o db db' →
      (k = (t.tenantID, t.operationID) →
        RowChange now db db' k o c (Store.steppedRow now t retry o)) →
      OperationChange now db db' k c (db.operations.lookup k) (db'.operations.lookup k) := by
    intro t retry o hst hchange
    rw [hst.operations, Table.lookup_insert_ite]
    by_cases hk : k = (t.tenantID, t.operationID)
    · have hfound := hst.found
      rw [← hk] at hfound
      rw [if_pos hk, hfound]
      exact .changed (hchange hk)
    · rw [if_neg hk]
      exact .none _
  cases h with
  | same => exact kept rfl
  | aside ha | closed ha | queued ha | reported ha | committed ha
  | requeued ha => exact kept ha.operations
  | claimed hc =>
    obtain ⟨_, _, rfl⟩ := hc.work
    exact kept rfl
  | planned hp =>
    obtain ⟨_, _, _, _, rfl⟩ := hp.specs
    exact kept rfl
  | runtimeObserved hobs | observed hobs =>
    obtain ⟨_, _, hrest⟩ := hobs.rest
    exact kept (by rw [hrest])
  | advanced hst => exact stepped hst fun hk => .advanced hk.symm hst.checked hst.matched
  | retried hst => exact stepped hst fun hk => .retried hk.symm hst.matched
  | @accepted q tenant service operation hash s db' ha l =>
    rw [ha.operations k]
    split
    · next hk =>
      subst hk
      rw [ha.unused]
      refine .added (.accepted rfl ha.found ha.admits ?_ (fun id o' ho' hsv hactive => ?_)
        l.reservations ha.publications)
      · rw [ha.services]
        exact AList.lookup_insert _
      · exact (ha.idle _ o' ho' rfl hsv hactive).1
    · cases ho : db.operations.lookup k with
      | none => exact .none _
      | some o =>
        rw [Option.map_some]
        by_cases hc : q.kind = .delete ∧ Sql.cancellable db tenant service k o = true
        · rw [if_pos hc]
          have hact := hc.2
          simp only [Sql.cancellable, Bool.and_eq_true, decide_eq_true_eq] at hact
          obtain ⟨⟨⟨rfl, rfl⟩, hactive⟩, _⟩ := hact
          have hnew := ha.operations (k.1, operation)
          rw [if_pos rfl] at hnew
          have hmoved : db'.services.lookup (k.1, o.serviceID) =
              some (s.moved .deleted (s.desiredGeneration + 1) operation) := by
            rw [ha.services, AList.lookup_insert, hc.1]
            rfl
          exact .changed (.cancelled hc.1
            ⟨operation, _, _, ha.unused, hnew, hc.1, rfl, hmoved, rfl, rfl⟩ hactive)
        · rw [if_neg hc]
          exact .none _
  | @created q tenant service operation hash db' hc l =>
    rw [hc.operations, Table.lookup_insert_ite]
    split
    · next hk =>
      subst hk
      rw [hc.unused]
      obtain ⟨name, he⟩ := hc.services
      have hservice : db'.services.lookup (tenant, service) =
          some { Sql.newService name 1 with currentOperation := some operation } := by
        rw [he, AList.lookup_insert]
      exact .added (.created rfl hc.absent ⟨_, hservice, rfl, rfl, rfl⟩ l.reservations
        hc.publications)
    · exact .none _
  | quota | publication | modelObserved | materializing | scopeSaved => exact kept rfl

/-- Operations are never deleted, and their rows change in three ways only. -/
theorem Effect.operation (h : Effect now token db c db') (ho : db.operations.lookup k = some o) :
    ∃ o', db'.operations.lookup k = some o' ∧ RowChange now db db' k o c o' := by
  have hchange := h.operationChange k
  rw [ho] at hchange
  generalize db'.operations.lookup k = after at hchange
  cases hchange with
  | none => exact ⟨o, rfl, .none c⟩
  | changed hrow => exact ⟨_, rfl, hrow⟩

/-- Operations come from commands only. -/
theorem Effect.newOperation (h : Effect now token db c db') (hn : db.operations.lookup k = none)
    (ho : db'.operations.lookup k = some o) : NewOperation db db' k o := by
  have hchange := h.operationChange k
  rw [hn, ho] at hchange
  cases hchange with
  | added hnew => exact hnew

/-- A new operation waits at the first step of its path. -/
theorem Effect.operation_new (h : Effect now token db c db') (hn : db.operations.lookup k = none)
    (ho : db'.operations.lookup k = some o) :
    ∃ service kind step target hash, o = Sql.newOperation service kind step target hash ∧
      (Operation.paths kind).head? = some step := by
  cases h.newOperation hn ho with
  | created row => exact ⟨_, _, _, _, _, row, rfl⟩
  | accepted row _ admits =>
    refine ⟨_, _, _, _, _, row, ?_⟩
    revert admits
    cases o.kind with
    | create => exact False.elim
    | _ => exact fun _ => rfl

/-- A new operation takes the place of the one before it. -/
theorem NewOperation.current (h : NewOperation db db' k o) :
    ∃ s, db'.services.lookup (k.1, o.serviceID) = some s ∧ s.currentOperation = some k.2 := by
  cases h with
  | created _ _ service =>
    obtain ⟨s, hs, _, _, hid⟩ := service
    exact ⟨s, hs, hid⟩
  | accepted _ _ _ service => exact ⟨_, service, rfl⟩

/-- So whatever is current after it on its service is that operation. -/
theorem NewOperation.unique {db db' : Db} {tenant id id' : Uuid} {o o' : OperationRow}
    (h : NewOperation db db' (tenant, id) o) (hcurrent : db'.IsCurrent (tenant, id') o')
    (hservice : o.serviceID = o'.serviceID) : id' = id := by
  obtain ⟨s, hs, hid⟩ := h.current
  obtain ⟨s', hs', hid', _⟩ := hcurrent
  rw [hservice] at hs
  obtain rfl := Option.some.inj (hs.symm.trans hs')
  exact Option.some.inj (hid'.symm.trans hid)

/-- An operation that was there before and stays current is on another service. -/
theorem Effect.newOperation_elsewhere {tenant id id' : Uuid} {o o₀ o' : OperationRow}
    (h : Effect now token db c db') (hnew : db.operations.lookup (tenant, id) = none)
    (ho : db'.operations.lookup (tenant, id) = some o)
    (ho₀ : db.operations.lookup (tenant, id') = some o₀)
    (hcurrent : db'.IsCurrent (tenant, id') o') : o.serviceID ≠ o'.serviceID := by
  intro hservice
  obtain rfl := (h.newOperation hnew ho).unique hcurrent hservice
  rw [ho₀] at hnew
  cases hnew

theorem RowChange.aim (h : RowChange now db db' k o c o') : o'.aim = o.aim := by
  cases h <;> rfl

theorem Effect.aim (h : Effect now token db c db') (ho : db.operations.lookup k = some o) :
    ∃ o', db'.operations.lookup k = some o' ∧ o'.aim = o.aim := by
  obtain ⟨o', ho', hchange⟩ := h.operation ho
  exact ⟨o', ho', hchange.aim⟩

section
variable {opts : WorkOptions} {w : World} {tenant operation token : Uuid} {o : OperationRow}

/-- A lease on a token that is already out was held before. -/
theorem leaseHeld_back (c : Call) (choice : c.Choice) (ht : token < w.nextToken)
    (h : (exec opts c choice w).2.db.leaseHeld tenant service token
      (exec opts c choice w).2.now = true) : w.db.leaseHeld tenant service token w.now = true := by
  rw [Db.leaseHeld_iff] at h ⊢
  obtain ⟨expiry, hl, hlt⟩ := h
  rcases (exec_effect opts c choice w).lease (tenant, service) with he | hn | ⟨expiry', hnew⟩
  · exact ⟨expiry, he ▸ hl, lt_of_le_of_lt (exec_now_le c choice w) hlt⟩
  · rw [hn] at hl
    cases hl
  · rw [hnew] at hl
    injection hl with hl
    injection hl with htok
    exact absurd ht (htok ▸ Nat.lt_irrefl _)

/-- An operation that exists does not become current. -/
theorem isCurrent_back (c : Call) (choice : c.Choice)
    (ho : w.db.operations.lookup (tenant, operation) = some o)
    (h : (exec opts c choice w).2.db.IsCurrent (tenant, operation) o) :
    w.db.IsCurrent (tenant, operation) o := by
  obtain ⟨s', hs', hcur, hgen⟩ := h
  rcases (exec_effect opts c choice w).service hs' with ⟨s, hs, haim⟩ | ⟨id, hid, hnone⟩
  · simp only [Service.aim, Prod.mk.injEq] at haim
    exact ⟨s, hs, haim.2.2 ▸ hcur, haim.2.1 ▸ hgen⟩
  · rw [hcur] at hid
    obtain rfl := Option.some.inj hid
    rw [ho] at hnone
    cases hnone

/-- A fence that holds after a call on an operation that exists held before it. -/
theorem fenced_back (c : Call) (choice : c.Choice)
    (ho : w.db.operations.lookup (tenant, operation) = some o) (ht : token < w.nextToken)
    (h : (exec opts c choice w).2.db.fenced tenant operation token
      (exec opts c choice w).2.now = true) :
    w.db.fenced tenant operation token w.now = true := by
  obtain ⟨o', ho', hcur, hlease⟩ := Db.fenced_iff.mp h
  obtain ⟨o₁, ho₁, haim⟩ := (exec_effect opts c choice w).aim ho
  rw [ho₁] at ho'
  obtain rfl := Option.some.inj ho'
  simp only [OperationRow.aim, Prod.mk.injEq] at haim
  have hcur' : (exec opts c choice w).2.db.IsCurrent (tenant, operation) o := by
    obtain ⟨s, hs, hid, hgen⟩ := hcur
    exact ⟨s, haim.1 ▸ hs, hid, haim.2.2 ▸ hgen⟩
  rw [haim.1] at hlease
  exact Db.fenced_iff.mpr ⟨o, ho, isCurrent_back c choice ho hcur',
    leaseHeld_back c choice ht hlease⟩

end
end AniInference
