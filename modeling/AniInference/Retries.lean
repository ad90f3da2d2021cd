import AniInference.Audit

namespace AniInference
open Lib Txn Prog

/-- The writes that stand between an execution and its port, with the operation and the lease they
are made under. -/
def Write.opening : Write → Option (Uuid × Uuid × Uuid)
  | .advance t _ => some (t.tenantID, t.operationID, t.leaseToken)
  | .modelMaterializing op => some (op.tenantID, op.id, op.leaseToken)
  | .publication p =>
    if p.state = .withdrawing ∨ p.state = .publishing then
      some (p.tenantID, p.fenceOperationID.getD p.operationID, p.leaseToken)
    else none
  | .quota x =>
    if x.state = .released then
      some (x.tenantID, x.fenceOperationID.getD x.operationID, x.leaseToken)
    else none
  | _ => none

/-- The port of the step is configured, and the loaded operation passes the checks its step makes
before it calls it. -/
def Runner.Prepared (r : Runner) (op : OperationContext) : Prop :=
  match op.step with
  | .admission => r.admission = true
  | .reserveQuota =>
    (op.managed = true ∨ op.managedGPU = true) ∨ r.quota = false ∨
      ∃ x, op.reservation = some x ∧ x.tenantID = op.tenantID ∧ x.serviceID = op.serviceID ∧
        x.operationID = op.id ∧ x.generation = op.targetGeneration ∧ x.reservationID ≠ none
  | .resolveGPU =>
    (op.gpuRequest = none ∧ op.managedGPU = false) ∨
      (op.gpuRequest ≠ none ∧
        Gpu.validateTopology op.gpuRequest op.replicas op.runtimeMode op.workerReplicas = .ok () ∧
        if op.gpuSnapshot.isSome then
          ∃ plan, Gpu.validateSnapshot op.gpuSnapshot op.gpuRequest = .ok plan
        else op.managedGPU = false ∧ r.gpu = true)
  | .releasePreviousQuota => True
  | .applyCR | .applyRuntime | .observeRuntime | .deleteRuntime | .observeAbsence =>
    r.runtime = true
  | .materializeModel => r.model = true
  | .withdrawPublication | .publish => r.publication = true
  | .deleteCR => r.runtime = true ∧ r.model = true
  | .releaseQuota => op.managedGPU = true → op.kind = .delete → r.managedGPURelease = true
  | .verifyInvocation | .complete => False

namespace Runner
open M
section
variable {α β : Type}

/-- However the program ends, it has called a port. -/
def Ports (x : M α) : Prop := ∀ es a, Played x.run es a → ∃ y ∈ es, ∃ p, y.1 = .provider p

/-- If the program fails, it has called a port. -/
def Reaches (x : M α) : Prop :=
  ∀ es cause, Played x.run es (.error cause) → ∃ y ∈ es, ∃ p, y.1 = .provider p

/-- The release scopes that were asked for are there and pass their check. -/
def Scoped (es : List Exchange) : Prop :=
  ∀ tenant service operation answer,
    ⟨.read (.releaseScope tenant service operation), answer⟩ ∈ es →
    ∃ scope, answer = .ok (some scope) ∧ validateReleasePods scope.pods [] = .ok ()

/-- If the program fails, it has called a port or was refused the write that comes before. A
release reads the Pods it reports first. -/
def Opens (op : OperationContext) (x : M α) : Prop :=
  ∀ es cause, Played x.run es (.error cause) → (op.step = .releaseQuota → Scoped es) →
    (∃ y ∈ es, ∃ p, y.1 = .provider p) ∨
    ∃ w e, es = [⟨.write w, .error e⟩] ∧ w.opening = some (op.tenantID, op.id, op.leaseToken)

variable {op : OperationContext} {x : M α} {f : α → M β}

theorem Reaches.opens (h : Reaches x) : Opens op x := fun _ _ hplayed _ => .inl (h _ _ hplayed)

theorem Ports.bind (h : Ports x) : Ports (x >>= f) := by
  intro es b hplayed
  rcases played_run_bind.mp hplayed with ⟨err, _, h₁⟩ | ⟨a, es₁, es₂, rfl, h₁, _⟩
  · exact h es _ h₁
  · obtain ⟨y, hy, hp⟩ := h es₁ _ h₁
    exact ⟨y, List.mem_append_left _ hy, hp⟩

end

section
variable {r : Runner} {op : OperationContext}

end
end Runner

/-- A worker of the run executes `op`, and has made the calls `es` for it. -/
def Executes (opts : WorkOptions) (r : Runner) (history : List Entry) (op : OperationContext)
    (es : List Exchange) : Prop :=
  ∃ c choice w mine item load o, c.entry opts choice w :: w.history <:+ history ∧
    Made opts r c w mine ∧ Runner.Acting r mine c item load es op o

/-- No execution of the run is kept from its port. -/
structure Undisturbed (opts : WorkOptions) (r : Runner) (history : List Entry) : Prop where
  -- No transition is asked for before the time the operation is to be tried again.
  onTime : ∀ e ∈ history, ∀ t event, e.call = .write (.advance t event) → ∀ o due,
    e.before.operations.lookup (t.tenantID, t.operationID) = some o → o.retryAt = some due →
    due ≤ e.time
  -- Short of that, the holder of a lease is refused none of the writes before its port.
  accepted : ∀ e ∈ history, ∀ x cause tenant id token, e.seen = ⟨.write x, .error cause⟩ →
    x.opening = some (tenant, id, token) → e.before.fenced tenant id token e.time = true →
    ∃ t event o due, x = .advance t event ∧
      e.before.operations.lookup (t.tenantID, t.operationID) = some o ∧ o.retryAt = some due ∧
      e.time < due
  prepared : ∀ op es, Executes opts r history op es → r.Prepared op
  scopes : ∀ op es, Executes opts r history op es → op.step = .releaseQuota → Runner.Scoped es

section
variable {opts : WorkOptions} {r : Runner} {history : List Entry}

theorem Undisturbed.granted (h : Undisturbed opts r history) {e : Entry} (he : e ∈ history)
    {x : Write} {cause : Err} {tenant id token : Uuid} (hseen : e.seen = ⟨.write x, .error cause⟩)
    (hopening : x.opening = some (tenant, id, token)) :
    e.before.fenced tenant id token e.time ≠ true := by
  intro hf
  obtain ⟨t, event, o, due, rfl, ho, hdue, hearly⟩ := h.accepted e he x cause tenant id token hseen
    hopening hf
  have hcall : e.call = .write (.advance t event) := congrArg Sigma.fst hseen
  exact absurd (h.onTime e he t event hcall o due ho hdue) (Nat.not_le.mpr hearly)

namespace Runner
variable {c : Call} {w : World} {mine : List Entry} {item : Item} {op : OperationContext}
variable {o : OperationRow} {load es : List Exchange}

/-- A transition from pending is the claim. -/
theorem Acts.claims (h : Acts r op es c) (hc : c = .write (.advance t event))
    (hphase : t.expectedPhase = .pending) : c = claimCall op := by
  cases h with
  | claim => rfl
  | step entered asks =>
    subst hc
    exact absurd (only_runStep.asks asks) id
  | finish entered ran =>
    injection hc with hc
    injection hc with ht
    subst ht
    cases entered with
    | claimed => cases hphase
    | running claimed => exact absurd hphase claimed
  | unclaimed | failed | unfinished => cases hc

theorem Entered.prepared (h : Entered op es₀ op') (hprepared : r.Prepared op) : r.Prepared op' := by
  cases h with
  | claimed | running => exact hprepared

end Runner

/-- An operation that is not waiting has no time to be tried again at. -/
def Db.Scheduled (db : Db) : Prop :=
  ∀ k o, db.operations.lookup k = some o → o.phase ≠ .pending → o.retryAt = none

theorem Explained.scheduled (hall : Explained opts r history) (h : Linked history db) :
    db.Scheduled := by
  refine h.induction (P := fun _ db => db.Scheduled) ?_ fun e past hsuf hscheduled => ?_
  · intro k o ho
    simp [Db.empty] at ho
  · obtain ⟨c, choice, w, mine, hmade, rfl, rfl⟩ := hall e past hsuf
    intro k o' ho' hphase
    cases ho : w.db.operations.lookup k with
    | none =>
      obtain ⟨_, _, _, _, _, rfl, _⟩ := (exec_effect opts c choice w).operation_new ho ho'
      exact absurd rfl hphase
    | some o =>
      obtain ⟨o'', ho'', hchange⟩ := (exec_effect opts c choice w).operation ho
      obtain rfl := Option.some.inj (ho'.symm.trans ho'')
      cases hchange with
      | none => exact hscheduled _ _ ho hphase
      | cancelled | advanced => rfl
      | retried => exact absurd rfl hphase

end

/-- Whether a call is a write that was answered with an error. -/
def Entry.refused : Entry → Bool
  | ⟨.write _, .error _, _, _, _⟩ => true
  | _ => false

/-- Whether a call asks for a transition of an operation that is to be tried again later. -/
def Entry.premature (e : Entry) : Bool :=
  match e.call with
  | .write (.advance t _) => (e.before.operations.lookup (t.tenantID, t.operationID)).any fun o =>
      o.retryAt.any (e.time < ·)
  | _ => false

/-- The step of the operation a call has found. -/
def Entry.found : Entry → Option Step
  | ⟨.read (.leasedOperation _ _), .ok (some (_, o)), _, _, _⟩ => some o.step
  | _ => none

/-- A run whose workers find operations in admission only, in time, and are refused nothing. -/
theorem Undisturbed.of_checks (hadmission : r.admission = true)
    (h : history.all (fun e => !e.refused && !e.premature && e.found.all (· = .admission)) = true) :
    Undisturbed opts r history := by
  simp only [List.all_eq_true, Bool.and_eq_true, Bool.not_eq_true'] at h
  have admitted : ∀ op es, Executes opts r history op es → op.step = .admission := by
    rintro op es ⟨c, choice, w, mine, item, load, o, hsuf, hmade, ha⟩
    obtain ⟨rest, hfirst⟩ := ha.loads.first
    obtain ⟨tenant, before, hturn⟩ := ha.turn
    obtain ⟨y, hym, hy⟩ := Runner.mem_of_seen hturn (x := ⟨.read (.leasedOperation item.tenantID
      item.leaseToken), .ok (some (op.id, o))⟩) (by simp [hfirst])
    have hmem : y ∈ history := hsuf.subset (List.mem_cons_of_mem _ (hmade.owns.sublist.mem hym))
    have hstep := (h y hmem).2
    obtain ⟨call, answer, before, after, time⟩ := y
    cases hy
    rw [ha.loads.step]
    simpa [Entry.found] using hstep
  refine ⟨fun e he t event hcall o due ho hdue => ?_,
    fun e he x cause tenant id token hseen _ _ => ?_, fun op es hexec => ?_,
    fun op es hexec hrelease => ?_⟩
  · have htime := (h e he).1.2
    simp only [Entry.premature, hcall, ho, Option.any_some, hdue, decide_eq_false_iff_not] at htime
    exact Nat.not_lt.mp htime
  · have hrefused := (h e he).1.1
    obtain ⟨call, answer, before, after, time⟩ := e
    cases hseen
    cases hrefused
  · rw [Runner.Prepared, admitted op es hexec]
    exact hadmission
  · cases hrelease.symm.trans (admitted op es hexec)

end AniInference
