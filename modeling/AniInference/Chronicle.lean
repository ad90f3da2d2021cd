import AniInference.Fencing

namespace AniInference
open Lib Txn

/-- What the history of a world says about the world. -/
structure World.Chronicle (w : World) : Prop where
  sound : w.Sound
  numbered : w.nextToken = w.history.length + 1
  granted : ∀ e ∈ w.history, ∀ token, e.call.grants e.answer = some token → token < w.nextToken
  rows : ∀ e past, e :: past <:+ w.history → ∀ k o, e.before.operations.lookup k = some o →
    ∃ o', w.db.operations.lookup k = some o' ∧ o'.aim = o.aim
  -- A fence that holds now held ever since its operation was there and its token was out.
  fences : ∀ e past, e :: past <:+ w.history → ∀ tenant operation token o,
    e.before.operations.lookup (tenant, operation) = some o → token ≤ past.length →
    w.db.fenced tenant operation token w.now = true →
    e.before.fenced tenant operation token e.time = true

theorem World.chronicle_start : World.start.Chronicle where
  sound := World.sound_start
  numbered := rfl
  granted := by simp [World.start]
  rows := by simp [World.start]
  fences := by simp [World.start]

theorem World.Chronicle.exec (h : w.Chronicle) (c : Call) (choice : c.Choice) :
    (exec opts c choice w).2.Chronicle where
  sound := h.sound.exec c choice
  numbered := by
    rw [exec_nextToken, exec_history, h.numbered]
    rfl
  granted := by
    intro e he token hg
    rw [exec_nextToken]
    rw [exec_history] at he
    rcases List.mem_cons.mp he with rfl | he
    · have htok : token = w.nextToken := @grants_eq opts c choice w token hg
      exact htok ▸ Nat.lt_succ_self _
    · exact Nat.lt_succ_of_lt (h.granted e he token hg)
  rows := by
    intro e past hsuf k o ho
    rw [exec_history] at hsuf
    have before : ∃ o', w.db.operations.lookup k = some o' ∧ o'.aim = o.aim := by
      rcases List.suffix_cons_iff.mp hsuf with heq | hsuf
      · injection heq with he
        subst he
        exact ⟨o, ho, rfl⟩
      · exact h.rows e past hsuf k o ho
    obtain ⟨o₁, ho₁, haim₁⟩ := before
    obtain ⟨o₂, ho₂, haim₂⟩ := (exec_effect opts c choice w).aim ho₁
    exact ⟨o₂, ho₂, haim₂.trans haim₁⟩
  fences := by
    intro e past hsuf tenant operation token o ho ht hf
    rw [exec_history] at hsuf
    rcases List.suffix_cons_iff.mp hsuf with heq | hsuf
    · injection heq with he hp
      subst he hp
      have hissued : token < w.nextToken := h.numbered ▸ Nat.lt_succ_of_le ht
      exact fenced_back c choice ho hissued hf
    · obtain ⟨o', ho', _⟩ := h.rows e past hsuf _ o ho
      have hlen : past.length < w.history.length := by
        have := hsuf.length_le
        simp at this
        omega
      have hissued : token < w.nextToken := by
        rw [h.numbered]
        exact Nat.lt_succ_of_lt (lt_of_le_of_lt ht hlen)
      exact h.fences e past hsuf tenant operation token o ho ht
        (fenced_back c choice ho' hissued hf)

theorem Call.settles_ne {c : Call} (h : c.presents ≠ some token) : c.settles ≠ some token := by
  intro hs
  apply h
  cases c with
  | work k =>
    cases k with
    | commit item | retry item cause => exact hs
    | _ => cases hs
  | _ => cases hs

/-- The service takes another generation for its goal: a command was accepted on it. -/
def Entry.accepts (k : Uuid × Uuid) (e : Entry) : Prop :=
  (e.after.services.lookup k).map (·.desiredGeneration) ≠
    (e.before.services.lookup k).map (·.desiredGeneration)

section
variable {now : Time} {token : Uuid} {db db' : Db} {c : Call}

/-- Services are never deleted, and aim elsewhere only after a command. -/
theorem Effect.service_kept (h : Effect now token db c db') (hs : db.services.lookup k = some s) :
    ∃ s', db'.services.lookup k = some s' ∧
      (s'.aim = s.aim ∨ s'.desiredGeneration = s.desiredGeneration + 1) := by
  cases h.serviceChange k with
  | none _ same => exact ⟨s, same.trans hs, .inl rfl⟩
  | written _ found set _ aim =>
    cases found.symm.trans hs
    exact ⟨_, set, .inl aim⟩
  | moved ha =>
    cases ha.found.symm.trans hs
    exact ⟨_, by rw [ha.services, AList.lookup_insert], .inr rfl⟩
  | created hc => cases hc.absent.symm.trans hs

/-- A lease that runs is kept until its holder gives it back or a command is accepted. -/
theorem Effect.lease_kept (h : Effect now token db c db')
    (hl : db.lease k = some (holder, some expiry)) (hlive : now < expiry)
    (hs : c.settles ≠ some holder) (hgen : (db'.services.lookup k).map (·.desiredGeneration) =
      (db.services.lookup k).map (·.desiredGeneration)) :
    db'.lease k = some (holder, some expiry) := by
  cases h.leaseChange k with
  | kept same => exact same.trans hl
  | claimed _ hc => exact absurd hlive (Nat.not_lt.mpr (hc.free holder expiry hl))
  | settled item settles held =>
    obtain ⟨_, hl', _⟩ := Db.leaseHeld_iff.mp held
    obtain ⟨rfl, _⟩ := Prod.mk.inj (Option.some.inj (hl.symm.trans hl'))
    exact absurd settles hs
  | dropped ha =>
    rw [show k = (k.1, k.2) from rfl, ha.services, AList.lookup_insert, ha.found] at hgen
    simp only [Option.map_some, Service.moved, Option.some.injEq] at hgen
    exact absurd hgen (Nat.succ_ne_self _)

/-- Managed resources change by requests only, and keep what they are. -/
theorem Effect.managed (h : Effect now token db c db') : ManagedKept db db' := by
  have observed : ∀ {item : Item}, Store.Observed now item db db' → ManagedKept db db' := by
    intro item ho
    obtain ⟨_, _, hrest⟩ := ho.rest
    exact .of_eq (by rw [hrest])
  cases h with
  | aside ha | accepted ha | created ha | closed ha | queued ha | reported ha
  | committed ha => exact ha.managed
  | requeued ha => exact ha.managed
  | advanced hst | retried hst => exact .of_eq hst.managed
  | runtimeObserved ho | observed ho => exact observed ho
  | planned hp =>
    obtain ⟨_, _, _, _, rfl⟩ := hp.specs
    exact .of_eq rfl
  | claimed hc =>
    obtain ⟨_, _, rfl⟩ := hc.work
    exact .of_eq rfl
  | same | quota | publication | modelObserved | materializing | scopeSaved => exact .of_eq rfl

end

/-- The scope is kept under another operation than the one that created the resource. -/
def Db.OtherScope (db : Db) (tenant service operation : Uuid) : Prop :=
  ∃ m, db.managedResources.lookup (tenant, service) = some m ∧ m.createOperationID ≠ operation

/-- What a call can do to a release scope. -/
inductive ScopeChange (now : Time) (db db' : Db) (k : Uuid × Uuid × Uuid) : Call → Prop
  | none (c : Call) (same : db'.releaseScopes.lookup k = db.releaseScopes.lookup k) :
      ScopeChange now db db' k c
  | saved {op : OperationContext} {scope : ReleaseScope}
      (key : k = (op.tenantID, op.serviceID, op.scopeOperation))
      (written : db'.releaseScopes.lookup k = some scope) :
      ScopeChange now db db' k (.write (.releaseScope op scope))
  | closed {q : Request} (absent : db.services.lookup (k.1, k.2.1) = Option.none)
      (other : db'.OtherScope k.1 k.2.1 k.2.2)
      (written : db'.releaseScopes.lookup k = some ⟨some now, []⟩) :
      ScopeChange now db db' k (.request q)

theorem Effect.scope (h : Effect now token db c db') (k : Uuid × Uuid × Uuid) :
    ScopeChange now db db' k c := by
  have observed : ∀ {item : Item}, Store.Observed now item db db' → ScopeChange now db db' k c := by
    intro item ho
    obtain ⟨_, _, hrest⟩ := ho.rest
    exact .none c (by rw [hrest])
  cases h with
  | same => exact .none _ rfl
  | aside ha | accepted ha | created ha | queued ha
  | reported ha => exact .none _ (by rw [ha.releaseScopes])
  | committed ha | requeued ha | advanced ha
  | retried ha => exact .none _ (by rw [ha.releaseScopes])
  | runtimeObserved ho | observed ho => exact observed ho
  | planned hp =>
    obtain ⟨_, _, _, _, rfl⟩ := hp.specs
    exact .none _ rfl
  | claimed hc =>
    obtain ⟨_, _, rfl⟩ := hc.work
    exact .none _ rfl
  | @closed q tenant resource operation db' hc =>
    rcases hc.releaseScopes with he | he
    · exact .none _ (by rw [he])
    · by_cases hk : k = (tenant, resource, operation)
      · exact .closed (by rw [hk]; exact hc.absent) (by rw [hk]; exact hc.other)
          (by rw [he, hk, AList.lookup_insert])
      · exact .none _ (by rw [he, Table.lookup_insert_ite, if_neg hk])
  | @scopeSaved op scope =>
    by_cases hk : k = (op.tenantID, op.serviceID, op.scopeOperation)
    · exact .saved hk (by rw [hk, AList.lookup_insert])
    · exact .none _ (by rw [Table.lookup_insert_ite, if_neg hk])
  | quota | publication | modelObserved | materializing => exact .none _ rfl

/-- What a call can do to a publication. -/
inductive PublicationChange (now : Time) (db db' : Db) (k : Uuid × Uuid × Generation) : Call → Prop
  | none (c : Call) (same : db'.publications.lookup k = db.publications.lookup k) :
      PublicationChange now db db' k c
  | saved {p : Publication} (key : k = (p.tenantID, p.serviceID, p.generation))
      (fenced : db.operationFenced p.tenantID (p.fenceOperationID.getD p.operationID) p.generation
        p.leaseToken now = true)
      (written : db'.publications.lookup k = some (Sql.publicationRow p.state
        (Store.observedState p.state) p.url (db.publications.lookup k))) :
      PublicationChange now db db' k (.write (.publication p))

theorem Effect.publications (h : Effect now token db c db') (k : Uuid × Uuid × Generation) :
    PublicationChange now db db' k c := by
  have observed : ∀ {item : Item}, Store.Observed now item db db' →
      PublicationChange now db db' k c := by
    intro item ho
    obtain ⟨_, _, hrest⟩ := ho.rest
    exact .none c (by rw [hrest])
  cases h with
  | same => exact .none _ rfl
  | aside ha | accepted ha | created ha | closed ha
  | queued ha => exact .none _ (by rw [ha.publications])
  | reported ha | committed ha | requeued ha
  | advanced ha => exact .none _ (by rw [ha.publications])
  | retried hst => exact .none _ (by rw [hst.publications])
  | runtimeObserved ho | observed ho => exact observed ho
  | planned hp =>
    obtain ⟨_, _, _, _, rfl⟩ := hp.specs
    exact .none _ rfl
  | claimed hc =>
    obtain ⟨_, _, rfl⟩ := hc.work
    exact .none _ rfl
  | @publication p fenced =>
    by_cases hk : k = (p.tenantID, p.serviceID, p.generation)
    · exact .saved hk fenced (by rw [hk, AList.lookup_insert])
    · exact .none _ (by rw [Table.lookup_insert_ite, if_neg hk])
  | quota | modelObserved | materializing | scopeSaved => exact .none _ rfl

/-- Publications are never removed. -/
theorem PublicationChange.isSome (h : PublicationChange now db db' k c)
    (hk : (db.publications.lookup k).isSome = true) :
    (db'.publications.lookup k).isSome = true := by
  cases h with
  | none _ same =>
    rw [same]
    exact hk
  | saved _ _ written =>
    rw [written]
    rfl

/-- What a call can do to a specification: a plan is set together with its digest, where there was
none or that plan already. -/
inductive SpecChange (db db' : Db) (k : Uuid × Uuid × Generation) : Call → Prop
  | none (c : Call) (same : db'.specs.lookup k = db.specs.lookup k) : SpecChange db db' k c
  | added (c : Call) (absent : db.specs.lookup k = Option.none)
      (next : ∀ s, db.services.lookup (k.1, k.2.1) = some s → k.2.2 = s.desiredGeneration + 1) :
      SpecChange db db' k c
  | planned {op : OperationContext} {given plan : Gpu.Snapshot} {spec : Spec}
      (key : k = (op.tenantID, op.serviceID, op.targetGeneration))
      (found : db.specs.lookup k = some spec)
      (free : spec.gpuPlan = Option.none ∨ spec.gpuPlan = some plan)
      (written : db'.specs.lookup k = some { spec with
        gpuPlan := some plan, gpuPlanDigest := some plan.executionDigest }) :
      SpecChange db db' k (.write (.gpuSnapshot op given))

theorem Effect.spec (h : Effect now token db c db') (k : Uuid × Uuid × Generation) :
    SpecChange db db' k c := by
  have added : ∀ k' row, db.specs.lookup k' = none → db'.specs = db.specs.insert k' row →
      (∀ s, db.services.lookup (k'.1, k'.2.1) = some s → k'.2.2 = s.desiredGeneration + 1) →
      SpecChange db db' k c := by
    intro k' row hnone hspecs hnext
    by_cases hk : k = k'
    · subst hk
      exact .added c hnone hnext
    · exact .none c (by rw [hspecs, Table.lookup_insert_ite, if_neg hk])
  cases h with
  | same => exact .none _ rfl
  | aside ha | closed ha | queued ha | reported ha | committed ha | requeued ha | advanced ha
  | retried ha => exact .none _ (by rw [ha.specs])
  | accepted ha =>
    rcases ha.specs with ⟨_, hspecs⟩ | ⟨_, hnone, row, hspecs⟩
    · exact .none _ (by rw [hspecs])
    · refine added _ row hnone hspecs fun s hs => ?_
      rw [ha.found] at hs
      rw [Option.some.inj hs]
  | created hc =>
    obtain ⟨hnone, row, hspecs⟩ := hc.specs
    refine added _ row hnone hspecs fun s hs => ?_
    rw [hc.absent] at hs
    cases hs
  | claimed hc =>
    obtain ⟨_, _, rfl⟩ := hc.work
    exact .none _ rfl
  | runtimeObserved ho | observed ho =>
    obtain ⟨_, _, hrest⟩ := ho.rest
    exact .none _ (by rw [hrest])
  | @planned op given _ hp =>
    obtain ⟨spec, plan, hspec, hplan, rfl⟩ := hp.specs
    by_cases hk : k = (op.tenantID, op.serviceID, op.targetGeneration)
    · exact .planned hk (hk ▸ hspec) hplan (by rw [hk, AList.lookup_insert])
    · exact .none _ (by rw [Table.lookup_insert_ite, if_neg hk])
  | quota | publication | modelObserved | materializing | scopeSaved => exact .none _ rfl

end AniInference
