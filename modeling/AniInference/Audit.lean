import AniInference.Turns
import Mathlib.Data.List.TakeWhile

namespace AniInference
open Lib Txn Prog

/-- The step transition a call asks for, with its event and the delay of a retry. -/
def Call.transition : Call → Option (StepTransition × AuditEvent × Option Nat)
  | .write (.advance t event) => some (t, event, none)
  | .write (.retry t after event) => some (t, event, some after)
  | _ => none

/-- A claim, an advance or a retry of a step that was committed. -/
def Entry.Commits (e : Entry) (t : StepTransition) (event : AuditEvent) : Prop :=
  ∃ retry, e.call.transition = some (t, event, retry) ∧
    Runs (Store.stepWithAudit e.time t event retry) e.before () e.after

/-- The key of an event in the audit log. -/
def AuditEvent.key (event : AuditEvent) : Uuid × EventID := (event.tenantID, event.eventID)

/-- The event of the operation says less than its row `o` does by now. -/
def OperationRow.Past (o : OperationRow) (phase : Phase) (step : Step) (attempt : Nat) : Prop :=
  match phase with
  | .pending => attempt < o.attempt
  | .running => attempt < o.attempt ∨ (attempt = o.attempt ∧ o.phase ≠ .pending ∧
      (step = o.step ∨ step ∈ Operation.before o.kind o.step))
  | .succeeded | .failed => o.phase = phase

/-- Every event of a step is behind the row of its operation. -/
def Db.Logs (db : Db) : Prop :=
  ∀ tenant operation phase step attempt row,
    db.audit.lookup (tenant, .step operation phase step attempt) = some row →
    ∃ o, db.operations.lookup (tenant, operation) = some o ∧ o.Past phase step attempt

/-- What a call can do to the audit log. -/
inductive AuditChange (now : Time) (db db' : Db) : Call → Prop
  | kept (c : Call) (same : db'.audit = db.audit) : AuditChange now db db' c
  | accepted {q : Request} {tenant event : Uuid} {row : AuditRow}
      (unused : db.audit.lookup (tenant, .fresh event) = none)
      (written : db'.audit = db.audit.insert (tenant, .fresh event) row) :
      AuditChange now db db' (.request q)
  | stepped {c : Call} {t : StepTransition} {event : AuditEvent} {retry : Option Nat}
      {o : OperationRow} (call : c.transition = some (t, event, retry))
      (stepped : Store.Stepped now t retry o db db')
      (logged : Store.Logged now t event retry o db db') : AuditChange now db db' c

section
variable {now : Time} {token : Uuid} {db db' : Db} {c : Call}

theorem Effect.audit (h : Effect now token db c db') : AuditChange now db db' c := by
  have booked : ∀ {q : Request} {key : Option (Uuid × String × String)}
    {hash : String} {kind : Kind}
      {reserve : Prop} {tenant service operation : Uuid} {target : Generation} {db' : Db},
      Booked now key hash kind reserve tenant service operation target db db' →
      AuditChange now db db' (.request q) := by
    intro q key hash kind reserve tenant service operation target db' hb
    obtain ⟨event, actor, requestID, haudit⟩ := hb.audit
    by_cases hused : (db.audit.lookup (tenant, .fresh event)).isSome
    · rw [if_pos hused] at haudit
      exact .kept _ haudit
    · rw [if_neg hused] at haudit
      exact .accepted (by simpa using hused) haudit
  have moved : ∀ {k : Work} {db' : Db}, Work.Moves now token db k db' →
      AuditChange now db db' (.work k) := by
    intro k db' hm
    cases hm <;> exact .kept _ rfl
  have observed : ∀ {item : Item} {c : Call} {db' : Db}, Store.Observed now item db db' →
      AuditChange now db db' c := by
    intro item c db' ho
    obtain ⟨_, _, hrest⟩ := ho.rest
    exact .kept _ (by rw [hrest])
  cases h with
  | same => exact .kept _ rfl
  | aside _ l | closed _ l => exact .kept _ l.audit
  | accepted _ l | created _ l => exact booked l
  | claimed _ l | queued _ l | committed _ l | requeued _ l => exact moved l
  | advanced h l | retried h l => exact .stepped rfl h l
  | runtimeObserved h | observed h => exact observed h
  | planned h =>
    obtain ⟨_, _, _, _, rfl⟩ := h.specs
    exact .kept _ rfl
  | reported _ l =>
    obtain ⟨_, rfl⟩ := l
    exact .kept _ rfl
  | quota | publication | modelObserved | materializing | scopeSaved => exact .kept _ rfl

/-- Audit rows are never removed nor rewritten. -/
theorem AuditChange.lookup (h : AuditChange now db db' c) (hk : db.audit.lookup k = some row) :
    db'.audit.lookup k = some row := by
  have inserted : ∀ {k' : Uuid × EventID} {row' : AuditRow}, db.audit.lookup k' = none →
      db'.audit = db.audit.insert k' row' → db'.audit.lookup k = some row := by
    intro k' row' hnone heq
    have hne : k ≠ k' := by
      intro he
      rw [he, hnone] at hk
      cases hk
    rw [heq, Table.lookup_insert_ite, if_neg hne]
    exact hk
  cases h with
  | kept _ same =>
    rw [same]
    exact hk
  | accepted unused written => exact inserted unused written
  | @stepped _ t event retry o _ _ logged =>
    have haudit := logged.audit
    by_cases hused : (db.audit.lookup (event.tenantID, event.eventID)).isSome
    · rw [if_pos hused] at haudit
      rw [haudit]
      exact hk
    · rw [if_neg hused] at haudit
      exact inserted (by simpa using hused) haudit

/-- What a change of the row leaves behind. -/
theorem OperationRow.Past.stay {o o' : OperationRow} {phase : Phase} {step : Step} {attempt : Nat}
    (h : o.Past phase step attempt) (hattempt : o.attempt ≤ o'.attempt)
    (hterminal : o.phase.active = true)
    (hrunning : o'.attempt = o.attempt → o.phase ≠ .pending → o'.phase ≠ .pending ∧
      ∀ s, s = o.step ∨ s ∈ Operation.before o.kind o.step →
        s = o'.step ∨ s ∈ Operation.before o'.kind o'.step) :
    o'.Past phase step attempt := by
  cases phase with
  | pending => exact lt_of_lt_of_le h hattempt
  | running =>
    rcases h with hlt | ⟨heq, hphase, hstep⟩
    · exact .inl (lt_of_lt_of_le hlt hattempt)
    · rcases Nat.lt_or_eq_of_le hattempt with hlt | hsame
      · exact .inl (heq ▸ hlt)
      · obtain ⟨hphase', hsteps⟩ := hrunning hsame.symm hphase
        exact .inr ⟨heq.trans hsame, hphase', hsteps step hstep⟩
  | succeeded =>
    rw [show o.phase = .succeeded from h] at hterminal
    cases hterminal
  | failed =>
    rw [show o.phase = .failed from h] at hterminal
    cases hterminal

end

/-- A step has not been left when it is reached. -/
theorem Operation.notMem_before (kind : Kind) (step : Step) :
    step ∉ Operation.before kind step := by
  intro hmem
  have hne := List.mem_takeWhile_imp hmem
  simp at hne

namespace Operation.Leads
variable {kind : Kind} {step step' : Step} {phase : Phase}
variable (h : Leads kind step phase step')
include h

/-- Where a step leads is not behind it. -/
theorem ahead : step' ≠ step ∧ step' ∉ Operation.before kind step := by
  refine ⟨h.ne, fun hmem => Operation.notMem_before kind step' ?_⟩
  cases h with
  | advance _ next | skip _ _ next | succeed next =>
    rw [next]
    simp [hmem]

theorem phase_ne : phase ≠ .pending := by
  cases h <;> simp

theorem phase_ne_failed : phase ≠ .failed := by
  cases h <;> simp

/-- Only the step itself is newly behind where it leads, short of the one that may be skipped. -/
theorem left (hs : s ∈ Operation.before kind step') (hne : s ≠ .resolveGPU) :
    s ∈ Operation.before kind step ∨ step = s := by
  cases h with
  | advance _ next | succeed next =>
    rw [next] at hs
    simpa [eq_comm] using hs
  | skip _ _ next =>
    rw [next] at hs
    simpa [eq_comm, hne] using hs

/-- What is behind a step is behind where it leads. -/
theorem behind (hs : s = step ∨ s ∈ Operation.before kind step) :
    s ∈ Operation.before kind step' := by
  cases h with
  | advance _ next | succeed next =>
    rw [next]
    simpa [or_comm] using hs
  | skip _ _ next =>
    rw [next]
    rcases hs with rfl | hs
    · simp
    · simp [hs]

end Operation.Leads

/-- The phase and the step a transition is to leave the operation at. -/
def StepTransition.outcome (t : StepTransition) : Option Nat → Phase × Step
  | some _ => (.pending, t.expectedStep)
  | none => (t.nextPhase, t.nextStep)

/-- How a transition moves the row it matches. -/
inductive Transits (t : StepTransition) (o : OperationRow) : Option Nat → Prop
  | retried (after : Nat) (active : o.phase.active = true) (step : t.expectedStep = o.step) :
      Transits t o (some after)
  | claimed (pending : o.phase = .pending) (running : t.nextPhase = .running)
      (step : t.nextStep = o.step) : Transits t o none
  | advanced (running : o.phase = .running)
      (leads : Operation.Leads o.kind o.step t.nextPhase t.nextStep) : Transits t o none

section
variable {opts : WorkOptions} {r : Runner} {w : World} {t : StepTransition} {o : OperationRow}

theorem transits_retry (hp : Call.Proper opts r (.write (.retry t after event)) w)
    (hm : Sql.stepMatches w.now (Store.stepCAS t) w.db o = true) : Transits t o (some after) := by
  obtain ⟨op, cause, _, hactive, rfl⟩ := hp
  obtain ⟨_, hphase, hstep, _⟩ := Store.stepMatches_iff.mp hm
  refine .retried after ?_ hstep.symm
  rw [hphase]
  exact hactive

theorem transits_advance (hp : Call.Proper opts r (.write (.advance t event)) w)
    (ho : w.db.operations.lookup (t.tenantID, t.operationID) = some o)
    (hchecked : Store.checkTransition t none = .ok ())
    (hm : Sql.stepMatches w.now (Store.stepCAS t) w.db o = true) : Transits t o none := by
  obtain ⟨op, hknown, hasks⟩ := hp
  obtain ⟨_, hphase, hstep, _⟩ := Store.stepMatches_iff.mp hm
  obtain ⟨row, hrow, haim⟩ := hknown.row
  rcases hasks with ⟨hpending, rfl⟩ | ⟨hrunning, result, es, hplayed, _, rfl, _⟩
  · exact .claimed (hphase.trans hpending) rfl hstep.symm
  · obtain rfl : o = row := Option.some.inj (ho.symm.trans hrow)
    simp only [OperationRow.aim, Prod.mk.injEq] at haim
    have hleads := OperationContext.Asks.leads ⟨result, es, hplayed, rfl⟩ hrunning hchecked
    refine .advanced (hphase.trans hrunning) ?_
    rw [haim.2.1, hstep]
    exact hleads

theorem Transits.of_stepped {c : Call} (hp : c.Proper opts r w)
    (hc : c.transition = some (t, event, retry)) (h : Store.Stepped w.now t retry o w.db db') :
    Transits t o retry := by
  cases c with
  | write x =>
    cases x with
    | advance t' event' =>
      obtain ⟨rfl, rfl, rfl⟩ : t' = t ∧ event' = event ∧ none = retry := by
        simpa [Call.transition] using hc
      exact transits_advance hp h.found h.checked h.matched
    | retry t' after event' =>
      obtain ⟨rfl, rfl, rfl⟩ : t' = t ∧ event' = event ∧ some after = retry := by
        simpa [Call.transition] using hc
      exact transits_retry hp h.matched
    | _ => cases hc
  | _ => cases hc

/-- Events that are behind a row are behind what becomes of it. -/
theorem OperationRow.Past.change {k : Uuid × Uuid} {o' : OperationRow} {c : Call} {db' : Db}
    {phase : Phase} {step : Step} {attempt : Nat} (h : o.Past phase step attempt)
    (hp : c.Proper opts r w) (ho : w.db.operations.lookup k = some o)
    (hc : RowChange w.now w.db db' k o c o') : o'.Past phase step attempt := by
  have stepped : ∀ {t : StepTransition}, Transits t o none →
      (Store.steppedRow w.now t none o).Past phase step attempt := by
    intro t htransits
    cases htransits with
    | claimed pending =>
      refine h.stay le_rfl (by rw [pending]; rfl) fun _ hne => ?_
      exact absurd pending hne
    | advanced running leads =>
      exact h.stay le_rfl (by rw [running]; rfl) fun _ _ =>
        ⟨leads.phase_ne, fun s hs => .inr (leads.behind hs)⟩
  cases hc with
  | none => exact h
  | cancelled _ _ active =>
    refine h.stay le_rfl active fun _ _ => ⟨?_, fun s hs => hs⟩
    simp [Sql.cancelled]
  | advanced key checked matched =>
    subst key
    exact stepped (transits_advance hp ho checked matched)
  | @retried t after event key matched =>
    cases transits_retry hp matched with
    | retried _ active _ =>
      refine h.stay (Nat.le_succ _) active fun heq => ?_
      exact absurd heq (Nat.succ_ne_self o.attempt)

/-- Where a running step leads is news about its operation. -/
theorem Operation.Leads.past {o' : OperationRow} (h : Operation.Leads o.kind o.step phase step)
    (hrunning : o.phase = .running) (hattempt : o'.attempt = o.attempt) (hphase : o'.phase = phase)
    (hstep : o'.step = step) : ¬o.Past phase step o.attempt ∧ o'.Past phase step o.attempt := by
  obtain ⟨hne, hahead⟩ := h.ahead
  have running : ¬o.Past .running step o.attempt := by
    intro hpast
    rcases hpast with hlt | ⟨_, _, heq | hmem⟩
    · exact Nat.lt_irrefl _ hlt
    · exact hne heq
    · exact hahead hmem
  cases h with
  | advance mem next => exact ⟨running, .inr ⟨hattempt.symm, by simp [hphase], .inl hstep.symm⟩⟩
  | skip leaves mem next =>
    exact ⟨running, .inr ⟨hattempt.symm, by simp [hphase], .inl hstep.symm⟩⟩
  | succeed next =>
    refine ⟨fun hpast => ?_, hphase⟩
    rw [show o.phase = .succeeded from hpast] at hrunning
    cases hrunning

/-- The event of a transition is not behind the row it is made from, but behind its result. -/
theorem Transits.past (h : Transits t o retry) (now : Time) :
    ¬o.Past (t.outcome retry).1 (t.outcome retry).2 o.attempt ∧
      (Store.steppedRow now t retry o).Past (t.outcome retry).1 (t.outcome retry).2 o.attempt := by
  cases h with
  | retried after active step => exact ⟨Nat.lt_irrefl _, Nat.lt_succ_self _⟩
  | claimed pending running step =>
    simp only [StepTransition.outcome, running, step]
    refine ⟨fun hpast => ?_, .inr ⟨rfl, ?_, .inl ?_⟩⟩
    · rcases hpast with hlt | ⟨_, hne, _⟩
      · exact Nat.lt_irrefl _ hlt
      · exact hne pending
    · simp [Store.steppedRow, Sql.advancedRow, running]
    · simp [Store.steppedRow, Sql.advancedRow, step]
  | advanced running leads => exact leads.past running rfl rfl rfl

end

namespace Runner
section
variable {opts : WorkOptions} {r : Runner} {c : Call} {w : World} {mine : List Entry}
variable {item : Item} {op : OperationContext} {o : OperationRow} {load es : List Exchange}

/-- Only a retry counts as an attempt. -/
theorem attempt_kept (choice : c.Choice) (hc : ∀ t after event, c ≠ .write (.retry t after event))
    (ho : w.db.operations.lookup k = some o) :
    ∃ o', (exec opts c choice w).2.db.operations.lookup k = some o' ∧ o'.attempt = o.attempt := by
  obtain ⟨o', ho', hchange⟩ := (exec_effect opts c choice w).operation ho
  refine ⟨o', ho', ?_⟩
  cases hchange with
  | none | cancelled | advanced => rfl
  | retried => exact absurd rfl (hc _ _ _)

theorem Own.noRetry (h : Own op c) : ∀ t after event, c ≠ .write (.retry t after event) := by
  intro t after event hc
  subst hc
  rcases h with h | ⟨_, _, h⟩
  · exact h
  · cases h

/-- The attempt a worker has loaded is its operation's as long as its fence holds. -/
theorem Acting.attempt (ha : Acting r mine c item load es op o) (h : Made opts r c w mine)
    (hall : Explained opts r w.history)
    (hf : w.db.fenced op.tenantID op.id op.leaseToken w.now = true) :
    ∃ o', w.db.operations.lookup (op.tenantID, op.id) = some o' ∧ o'.attempt = op.attempt := by
  obtain ⟨rest, hfirst⟩ := ha.loads.first
  have hx : load ++ es = [] ++
      ⟨.read (.leasedOperation item.tenantID item.leaseToken), .ok (some (op.id, o))⟩ ::
        (rest ++ es) := by
    rw [hfirst]
    rfl
  refine ha.since h hall hf hx (Q := fun db => ∃ o', db.operations.lookup (op.tenantID, op.id) =
    some o' ∧ o'.attempt = op.attempt) (takes_read ?_) ?_ ?_
  · intro w' _ _ hrun
    refine ⟨o, ?_, ha.loads.attempt.symm⟩
    rw [ha.loads.tenantID]
    exact (runs_leasedOperation hrun).1
  · intro c' choice w' hseen _ _ _ ⟨o', ho', hattempt⟩
    have hown : Own op c' := ha.own (by rw [hx]; exact List.mem_cons_of_mem _ hseen)
    obtain ⟨o'', ho'', heq⟩ := @attempt_kept opts c' w' o'
      (op.tenantID, op.id) choice hown.noRetry ho'
    exact ⟨o'', ho'', heq.trans hattempt⟩
  · intro c' choice w' mine' hmade hpresents _ hfenced _ _ ⟨o', ho', hattempt⟩
    obtain ⟨o'', ho'', rfl | ⟨rfl, _⟩⟩ :=
      @others_leave_row opts w' op.tenantID op.id op.leaseToken o' c' choice hpresents hfenced ho'
    · exact ⟨_, ho'', hattempt⟩
    · exact ⟨_, ho'', hattempt⟩

/-- The transitions of a worker are about the operation it has loaded, and are logged as such. -/
theorem Acts.transition (h : Acts r op es c) {t : StepTransition} {event : AuditEvent}
    {retry : Option Nat} (hc : c.transition = some (t, event, retry)) :
    t.tenantID = op.tenantID ∧ t.operationID = op.id ∧ t.leaseToken = op.leaseToken ∧
      event.eventID = .step op.id (t.outcome retry).1 (t.outcome retry).2 op.attempt := by
  have advance : ∀ {op' : OperationContext} {es₀ : List Exchange} {result : StepResult},
      Entered op es₀ op' → (finishCall op' result).transition = some (t, event, retry) →
      t.tenantID = op.tenantID ∧ t.operationID = op.id ∧ t.leaseToken = op.leaseToken ∧
        event.eventID = .step op.id (t.outcome retry).1 (t.outcome retry).2 op.attempt := by
    intro op' es₀ result hentered hfinish
    simp only [finishCall, Call.transition, Option.some.injEq, Prod.mk.injEq] at hfinish
    obtain ⟨rfl, rfl, rfl⟩ := hfinish
    cases hentered <;> exact ⟨rfl, rfl, rfl, rfl⟩
  have retries : ∀ {op' : OperationContext} {es₀ : List Exchange} {cause : Err},
      Entered op es₀ op' → (retryCall r op' cause).transition = some (t, event, retry) →
      t.tenantID = op.tenantID ∧ t.operationID = op.id ∧ t.leaseToken = op.leaseToken ∧
        event.eventID = .step op.id (t.outcome retry).1 (t.outcome retry).2 op.attempt := by
    intro op' es₀ cause hentered hretry
    simp only [retryCall, Call.transition, Option.some.injEq, Prod.mk.injEq] at hretry
    obtain ⟨rfl, rfl, rfl⟩ := hretry
    cases hentered <;> exact ⟨rfl, rfl, rfl, rfl⟩
  cases h with
  | claim pending =>
    simp only [claimCall, Call.transition, Option.some.injEq, Prod.mk.injEq] at hc
    obtain ⟨rfl, rfl, rfl⟩ := hc
    exact ⟨rfl, rfl, rfl, rfl⟩
  | unclaimed pending cause =>
    simp only [retryCall, Call.transition, Option.some.injEq, Prod.mk.injEq] at hc
    obtain ⟨rfl, rfl, rfl⟩ := hc
    exact ⟨rfl, rfl, rfl, rfl⟩
  | step entered asks =>
    have hstep := only_runStep.asks asks
    cases c with
    | write x => cases x <;> first | exact absurd hstep id | cases hc
    | _ => cases hc
  | failed entered ran | unfinished entered ran cause => exact retries entered hc
  | finish entered ran => exact advance entered hc

end
end Runner

section
variable {opts : WorkOptions} {r : Runner} {c : Call} {w : World} {mine : List Entry}
variable {t : StepTransition} {event : AuditEvent} {retry : Option Nat} {o : OperationRow}

/-- Whoever asks for a transition that leads on has brought its step to its end. -/
theorem Made.finishing {event : AuditEvent} (h : Made opts r (.write (.advance t event)) w mine)
    (hall : Explained opts r w.history)
    (ho : w.db.operations.lookup (t.tenantID, t.operationID) = some o)
    (hm : Sql.stepMatches w.now (Store.stepCAS t) w.db o = true)
    (hleads : Operation.Leads o.kind o.step t.nextPhase t.nextStep) :
    ∃ item load es₀ es op phase o₀ result,
      Runner.Acting r mine (.write (.advance t event)) item load (es₀ ++ es) op o₀ ∧
      Runner.Entered op es₀ { op with phase := phase } ∧
      Played (Runner.runStep r { op with phase := phase }).run es (.ok result) ∧
      o.step = op.step ∧ o.aim = (op.serviceID, op.kind, op.targetGeneration) ∧
      t.tenantID = op.tenantID ∧ t.operationID = op.id ∧
      w.db.fenced op.tenantID op.id op.leaseToken w.now = true := by
  obtain ⟨item, load, es, op, o₀, ha⟩ := Runner.acting_of_made h trivial
  obtain ⟨_, _, hat, hf⟩ := Store.stepMatches_iff.mp hm
  obtain ⟨htenant, hid, htoken, _⟩ := ha.acts.transition rfl
  obtain ⟨o₁, ho₁, haim⟩ := ha.loaded h hall
  rw [htenant, hid] at ho hf
  rw [htoken] at hf
  obtain rfl := Option.some.inj (ho.symm.trans ho₁)
  have hfinish : ∃ es₀ es' phase result, es = es₀ ++ es' ∧
      Runner.Entered op es₀ { op with phase := phase } ∧
      Played (Runner.runStep r { op with phase := phase }).run es' (.ok result) ∧
      o.step = op.step := by
    have hacts := ha.acts
    generalize hc : Call.write (.advance t event) = c' at hacts
    cases hacts with
    | claim =>
      -- A claim leads nowhere.
      injection hc with hc
      injection hc with ht
      subst ht
      exact absurd hat.symm hleads.ne
    | step entered asks =>
      subst hc
      exact absurd (Runner.only_runStep.asks asks) id
    | unclaimed | failed | unfinished => cases hc
    | finish entered ran =>
      obtain ⟨phase, rfl⟩ := entered.eq
      injection hc with hc
      injection hc with ht
      subst ht
      exact ⟨_, _, phase, _, rfl, entered, ran, hat⟩
  obtain ⟨es₀, es', phase, result, rfl, entered, ran, hstep⟩ := hfinish
  exact ⟨item, load, es₀, es', op, phase, o₀, result, ha, entered, ran, hstep, haim,
    htenant, hid, hf⟩

/-- The event of a transition that matched its row carries the attempt of that row. -/
theorem Made.eventID_eq (h : Made opts r c w mine) (hall : Explained opts r w.history)
    (hc : c.transition = some (t, event, retry)) {db' : Db}
    (hst : Store.Stepped w.now t retry o w.db db') :
    event.eventID =
      .step t.operationID (t.outcome retry).1 (t.outcome retry).2 o.attempt := by
  have hturn : c.OfTurn := by
    cases c with
    | write x => cases x <;> first | exact trivial | cases hc
    | _ => cases hc
  obtain ⟨item, load, es, op, o₀, ha⟩ := Runner.acting_of_made h hturn
  obtain ⟨htenant, hid, htoken, hevent⟩ := ha.acts.transition hc
  obtain ⟨_, _, _, hf⟩ := Store.stepMatches_iff.mp hst.matched
  rw [htenant, hid, htoken] at hf
  obtain ⟨o', ho', hattempt⟩ := ha.attempt h hall hf
  have hfound := hst.found
  rw [htenant, hid, ho'] at hfound
  obtain rfl := Option.some.inj hfound
  rw [hevent, hid, hattempt]

/-- One call keeps the events behind the rows, and a transition finds its event unused. -/
theorem Db.Logs.call (hlogs : w.db.Logs) (h : Made opts r c w mine)
    (hall : Explained opts r w.history) (choice : c.Choice) :
    (exec opts c choice w).2.db.Logs := by
  have heffect := exec_effect opts c choice w
  -- Events that were there stay behind.
  have kept : ∀ tenant operation phase step attempt row,
      w.db.audit.lookup (tenant, .step operation phase step attempt) = some row →
      ∃ o, (exec opts c choice w).2.db.operations.lookup (tenant, operation) = some o ∧
        o.Past phase step attempt := by
    intro tenant operation phase step attempt row hrow
    obtain ⟨o, ho, hpast⟩ := hlogs tenant operation phase step attempt row hrow
    obtain ⟨o', ho', hchange⟩ := heffect.operation ho
    exact ⟨o', ho', hpast.change h.proper ho hchange⟩
  intro tenant operation phase step attempt row hrow
  cases heffect.audit with
  | kept _ same =>
    rw [same] at hrow
    exact kept tenant operation phase step attempt row hrow
  | accepted unused written =>
    rw [written, Table.lookup_insert_ite, if_neg (by simp)] at hrow
    exact kept tenant operation phase step attempt row hrow
  | @stepped _ t event retry o call hst logged =>
    have haudit := logged.audit
    by_cases hused : (w.db.audit.lookup (event.tenantID, event.eventID)).isSome
    · rw [if_pos hused] at haudit
      rw [haudit] at hrow
      exact kept tenant operation phase step attempt row hrow
    · rw [if_neg hused] at haudit
      rw [haudit, Table.lookup_insert_ite] at hrow
      split at hrow
      · next hkey =>
        have hevent := h.eventID_eq hall call hst
        rw [hevent, logged.tenant] at hkey
        simp only [Prod.mk.injEq, EventID.step.injEq] at hkey
        obtain ⟨rfl, rfl, rfl, rfl, rfl⟩ := hkey
        refine ⟨Store.steppedRow w.now t retry o, ?_, ?_⟩
        · rw [hst.operations, AList.lookup_insert]
        · exact ((Transits.of_stepped h.proper call hst).past w.now).2
      · exact kept tenant operation phase step attempt row hrow

theorem Db.Logs.unused (hlogs : w.db.Logs) (h : Made opts r c w mine)
    (hall : Explained opts r w.history) (hc : c.transition = some (t, event, retry))
    (hst : Store.Stepped w.now t retry o w.db db')
    (hlogged : Store.Logged w.now t event retry o w.db db') :
    w.db.audit.lookup event.key = none := by
  cases hrow : w.db.audit.lookup event.key with
  | none => rfl
  | some row =>
    rw [AuditEvent.key, h.eventID_eq hall hc hst, hlogged.tenant] at hrow
    obtain ⟨o', ho', hpast⟩ := hlogs _ _ _ _ _ row hrow
    rw [hst.found] at ho'
    obtain rfl := Option.some.inj ho'
    exact absurd hpast ((Transits.of_stepped h.proper hc hst).past w.now).1

end

section
variable {opts : WorkOptions} {r : Runner} {history : List Entry} {db : Db}

/-- In every database of a run, the events are behind the rows. -/
theorem Explained.logs (hall : Explained opts r history) (h : Linked history db) : db.Logs := by
  refine h.induction (P := fun _ db => db.Logs) ?_ fun e past hsuf hlogs => ?_
  · intro tenant operation phase step attempt row hrow
    simp [Db.empty] at hrow
  · obtain ⟨c, choice, w, mine, hmade, rfl, rfl⟩ := hall e past hsuf
    have hpast := hall.suffix ((List.suffix_cons _ _).trans hsuf)
    exact Db.Logs.call hlogs hmade hpast choice

/-- A call whose transition was committed finds its event unused, and leaves it. -/
theorem Explained.commits (hall : Explained opts r history) (h : Linked history db) {e : Entry}
    (hsuf : e :: past <:+ history) {t : StepTransition} {event : AuditEvent}
    (hcommits : e.Commits t event) :
    e.before.audit.lookup event.key = none ∧ e.after.audit.lookup event.key = some event.row ∧
      ∃ o o', e.before.operations.lookup (t.tenantID, t.operationID) = some o ∧
        e.after.operations.lookup (t.tenantID, t.operationID) = some o' ∧
        event.key = (t.tenantID, .step t.operationID o'.phase o'.step o.attempt) := by
  obtain ⟨retry, hcall, hrun⟩ := hcommits
  obtain ⟨o, hst, hlogged⟩ := Store.runs_stepWithAudit hrun
  have hlinked := h.suffix hsuf
  have hpast := hall.suffix ((List.suffix_cons _ _).trans hsuf)
  obtain ⟨c, choice, w, mine, hmade, rfl, rfl⟩ := hall e past hsuf
  have hlogs : w.db.Logs := hpast.logs hlinked
  have hunused := hlogs.unused hmade hpast hcall hst hlogged
  refine ⟨hunused, ?_, o, _, hst.found, by rw [hst.operations, AList.lookup_insert], ?_⟩
  · have haudit := hlogged.audit
    have hfree : ¬((c.entry opts choice w).before.audit.lookup
        (event.tenantID, event.eventID)).isSome = true := by
      rw [show (c.entry opts choice w).before.audit.lookup
        (event.tenantID, event.eventID) = none from hunused]
      simp
    rw [haudit, if_neg hfree]
    exact AList.lookup_insert _
  · rw [AuditEvent.key, hmade.eventID_eq hpast hcall hst, hlogged.tenant]
    cases Transits.of_stepped hmade.proper hcall hst with
    | retried after _ step => simp [StepTransition.outcome, Store.steppedRow, Sql.retriedRow, step]
    | claimed | advanced => rfl

theorem commits_of_changed (choice : c.Choice) (hc : c.transition = some (t, event, retry))
    (hchanged : (exec opts c choice w).2.db.audit ≠ w.db.audit) :
    (c.entry opts choice w).Commits t event := by
  cases c with
  | write x =>
    have hrun : Runs (x.tx w.now) w.db () (exec opts (.write x) choice w).2.db := by
      rcases settle_state (x.tx w.now) .connection choice w.db with hs | ⟨_, ha⟩
      · exact absurd (congrArg Db.audit hs) hchanged
      · exact ha
    cases x with
    | advance t' event' =>
      obtain ⟨rfl, rfl, rfl⟩ : t' = t ∧ event' = event ∧ none = retry := by
        simpa [Call.transition] using hc
      exact ⟨none, rfl, hrun⟩
    | retry t' after event' =>
      obtain ⟨rfl, rfl, rfl⟩ : t' = t ∧ event' = event ∧ some after = retry := by
        simpa [Call.transition] using hc
      exact ⟨some after, rfl, hrun⟩
    | _ => cases hc
  | _ => cases hc

theorem Explained.audit_kept (hall : Explained opts r history) (he : e ∈ history)
    (hrow : e.before.audit.lookup k = some row) : e.after.audit.lookup k = some row := by
  obtain ⟨newer, past, rfl⟩ := List.append_of_mem he
  obtain ⟨c, choice, w, mine, _, _, rfl⟩ := hall e past (List.suffix_append _ _)
  exact (exec_effect opts c choice w).audit.lookup hrow

/-- Every event of a step was left by a transition that was committed. -/
theorem Explained.committed (hall : Explained opts r history) (h : Linked history db)
    (hrow : db.audit.lookup (tenant, .step operation phase step attempt) = some row) :
    ∃ e past t event, e :: past <:+ history ∧ e.Commits t event ∧
      event.key = (tenant, .step operation phase step attempt) ∧ event.row = row := by
  revert hrow
  refine h.induction (P := fun history db =>
    db.audit.lookup (tenant, .step operation phase step attempt) = some row →
      ∃ e past t event, e :: past <:+ history ∧ e.Commits t event ∧
        event.key = (tenant, .step operation phase step attempt) ∧ event.row = row) ?_ ?_
  · intro hrow
    simp [Db.empty] at hrow
  · intro e past hsuf ih hrow
    cases hbefore : e.before.audit.lookup (tenant, .step operation phase step attempt) with
    | some row' =>
      have hafter := hall.audit_kept (hsuf.subset List.mem_cons_self) hbefore
      rw [hrow] at hafter
      obtain rfl := Option.some.inj hafter
      obtain ⟨e', past', t, event, hsuf', hrest⟩ := ih hbefore
      exact ⟨e', past', t, event, hsuf'.trans (List.suffix_cons _ _), hrest⟩
    | none =>
      obtain ⟨c, choice, w, mine, _, rfl, rfl⟩ := hall e past hsuf
      have hchanged : (exec opts c choice w).2.db.audit ≠ w.db.audit := by
        intro heq
        have hafter : (exec opts c choice w).2.db.audit.lookup
          (tenant, .step operation phase step attempt) = some row := hrow
        rw [heq] at hafter
        exact absurd (hbefore.symm.trans hafter) (by simp)
      cases (exec_effect opts c choice w).audit with
      | kept _ same => exact absurd same hchanged
      | accepted unused written =>
        have hafter : (exec opts _ choice w).2.db.audit.lookup
          (tenant, .step operation phase step attempt) = some row := hrow
        rw [written, Table.lookup_insert_ite, if_neg (by simp)] at hafter
        exact absurd (hbefore.symm.trans hafter) (by simp)
      | @stepped _ t event retry o call hst logged =>
        refine ⟨_, _, t, event, List.suffix_refl _, commits_of_changed choice call hchanged, ?_⟩
        have haudit := logged.audit
        by_cases hused : (w.db.audit.lookup (event.tenantID, event.eventID)).isSome
        · rw [if_pos hused] at haudit
          exact absurd haudit hchanged
        · rw [if_neg hused] at haudit
          have hafter : (exec opts c choice w).2.db.audit.lookup
            (tenant, .step operation phase step attempt) = some row := hrow
          rw [haudit, Table.lookup_insert_ite] at hafter
          split at hafter
          · next hkey => exact ⟨hkey.symm, Option.some.inj hafter⟩
          · exact absurd (hbefore.symm.trans hafter) (by simp)

end

/-- Every committed claim, advance and retry of a step has an event of its own. -/
structure Audited (w : World) : Prop where
  -- The event is made of the operation, what became of it, and its attempt.
  named : ∀ e past, e :: past <:+ w.history → ∀ t event, e.Commits t event →
    ∃ o o', e.before.operations.lookup (t.tenantID, t.operationID) = some o ∧
      e.after.operations.lookup (t.tenantID, t.operationID) = some o' ∧
      event.key = (t.tenantID, .step t.operationID o'.phase o'.step o.attempt)
  -- The insert is never dropped, and what it wrote is there for good.
  inserted : ∀ e past, e :: past <:+ w.history → ∀ t event, e.Commits t event →
    e.before.audit.lookup event.key = none ∧ e.after.audit.lookup event.key = some event.row ∧
      w.db.audit.lookup event.key = some event.row
  distinct : ∀ new e mid e' old, w.history = new ++ e :: (mid ++ e' :: old) →
    ∀ t event t' event', e.Commits t event → e'.Commits t' event' → event.key ≠ event'.key
  committed : ∀ tenant operation phase step attempt row,
    w.db.audit.lookup (tenant, .step operation phase step attempt) = some row →
    ∃ e past t event, e :: past <:+ w.history ∧ e.Commits t event ∧
      event.key = (tenant, .step operation phase step attempt) ∧ event.row = row

/-- In every run, the audit log has exactly the events of the transitions that were committed. -/
theorem every_transition_audited {opts : WorkOptions} {r : Runner}
    {s : Pool World Call Call.Answer} (h : Running opts r s) : Audited s.world := by
  have hall := h.explained
  have hlinked := h.linked
  refine ⟨fun e past hsuf t event hc => (hall.commits hlinked hsuf hc).2.2,
    fun e past hsuf t event hc => ?_, fun new e mid e' old hhistory t event t' event' hc hc' => ?_,
    fun tenant operation phase step attempt row hrow => hall.committed hlinked hrow⟩
  · obtain ⟨hnone, hsome, _⟩ := hall.commits hlinked hsuf hc
    refine ⟨hnone, hsome, ?_⟩
    exact hlinked.later (Q := fun db => db.audit.lookup event.key = some event.row)
      (fun z hz => hall.audit_kept hz) hsuf hsome
  · intro hkey
    have hsuf : e :: (mid ++ e' :: old) <:+ s.world.history := ⟨new, hhistory.symm⟩
    have hpast := (List.suffix_cons _ _).trans hsuf
    have hsuf' : e' :: old <:+ mid ++ e' :: old := List.suffix_append _ _
    obtain ⟨hnone, _⟩ := hall.commits hlinked hsuf hc
    obtain ⟨_, hsome, _⟩ := hall.commits hlinked (hsuf'.trans hpast) hc'
    -- What the earlier one left is still there when the later one comes.
    have hthere := (hlinked.suffix hsuf).later
      (Q := fun db => db.audit.lookup event'.key = some event'.row)
      (fun z hz => (hall.suffix hpast).audit_kept hz) hsuf' hsome
    rw [← hkey, hnone] at hthere
    cases hthere

/-- The first attempt at admission fails, and the second one gets through. -/
def retriedRun : List Event :=
  oneByOne 0 (Sample.created Sample.create [19] { Sample.outside with
      answers := fun
        | .admission _ => some (.error .connection)
        | _ => none } ++
    Sample.turns [19] Sample.outside)

theorem every_transition_audited_retriedRun :
    ([(1, .step 8 .running .admission 0), (1, .step 8 .pending .admission 0),
      (1, .step 8 .running .admission 1), (1, .step 8 .running .reserveQuota 1)].map fun k =>
        ((played .default .configured retriedRun).world.db.audit.lookup k).isSome) =
      [true, true, true, true] ∧
    Audited (played .default .configured retriedRun).world :=
  ⟨by decide +kernel, every_transition_audited (running_played .default .configured retriedRun)⟩

end AniInference
