import AniInference.Workers
import AniInference.Schedule

namespace AniInference
open Lib

/-- Every database of the history is the one the call before it left. -/
def Linked : List Entry → Db → Prop
  | [], db => db = .empty
  | e :: past, db => e.after = db ∧ Linked past e.before

theorem Running.linked (h : Running opts r s) : Linked s.world.history s.world.db := by
  refine reachable_invariant (I := fun w => Linked w.history w.db) (fun w hw => ?_)
    (fun c choice w hw => ?_) h
  · subst hw
    rfl
  · exact ⟨rfl, hw⟩

/-- How one call moves the row of the operation `k`. -/
inductive Move (r : Runner) (k : Uuid × Uuid) (past : List Entry) (e : Entry)
    (o o' : OperationRow) :
    Prop
  | stays (same : o' = o)
  | claimed {t : StepTransition} {event : AuditEvent} (call : e.call = .write (.advance t event))
      (pending : o.phase = .pending) (running : o'.phase = .running) (step : o'.step = o.step)
  | retried {t : StepTransition} {after : Nat} {event : AuditEvent}
      (call : e.call = .write (.retry t after event)) (active : o.phase.active = true)
      (pending : o'.phase = .pending) (step : o'.step = o.step)
  -- A step was run to its end on this operation, and the validator took what it asked for.
  | advanced {t : StepTransition} {event : AuditEvent} {op : OperationContext}
      {result : StepResult} (call : e.call = .write (.advance t event))
      (same : (op.tenantID, op.id) = k) (kind : op.kind = o.kind) (current : op.step = o.step)
      (ran : Runner.Ran r op result past) (running : o.phase = .running)
      (phase : o'.phase = result.phase) (step : o'.step = result.step)
      (valid : Operation.validateStepTransition o.kind o.phase o.step o'.phase o'.step = .ok ())
  | cancelled {q : Request} (call : e.call = .request q) (delete : q.kind = .delete)
      (accepted : DeleteAccepted e.before e.after k.1 o.serviceID) (active : o.phase.active = true)
      (failed : o'.phase = .failed) (step : o'.step = o.step)

/-- The persisted history of the operations in `w` follows the paths of their kinds. -/
structure FollowsPaths (r : Runner) (w : World) : Prop where
  linked : Linked w.history w.db
  created : ∀ e ∈ w.history, ∀ k o, e.before.operations.lookup k = none →
    e.after.operations.lookup k = some o →
    o.phase = .pending ∧ (Operation.paths o.kind).head? = some o.step
  moved : ∀ e past, e :: past <:+ w.history → ∀ k o, e.before.operations.lookup k = some o →
    ∃ o', e.after.operations.lookup k = some o' ∧ o'.kind = o.kind ∧ Move r k past e o o'
  placed : ∀ k o, w.db.operations.lookup k = some o → o.step ∈ Operation.paths o.kind
  -- Whatever the ports answer, what a step that ends asks for is never refused.
  ran : ∀ op es result, op.step ∈ (Operation.paths op.kind).dropLast →
    Prog.Played (Runner.runStep r op).run es (.ok result) →
    Operation.validateStepTransition op.kind .running op.step result.phase result.step = .ok ()
  asked : ∀ e past, e :: past <:+ w.history → ∀ t event, e.call = .write (.advance t event) →
    Operation.validateStepTransition t.kind t.expectedPhase t.expectedStep t.nextPhase t.nextStep =
      .ok ()
  terminal : ∀ e past, e :: past <:+ w.history → ∀ k o, e.before.operations.lookup k = some o →
    o.phase.active = false → e.after.operations.lookup k = some o
  succeeded : ∀ k o, w.db.operations.lookup k = some o → o.phase = .succeeded →
    completed k w.history = (Operation.paths o.kind).dropLast ∨
      completed k w.history = (Operation.paths o.kind).dropLast.erase .resolveGPU

section
variable {opts : WorkOptions} {r : Runner} {w : World}

/-- What a step that ends asks for passes the validator. -/
theorem Operation.valid_of_played (hstep : op.step ∈ (Operation.paths op.kind).dropLast)
    (hplayed : Prog.Played (Runner.runStep r op).run es (.ok result)) :
    Operation.validateStepTransition op.kind .running op.step result.phase result.step =
      .ok () := by
  have hasks := Runner.ends_runStep r op es result hplayed
  simp only [Prod.ext_iff] at hasks
  rw [hasks.1, hasks.2]
  exact Runner.asks_valid hstep

/-- The transition of a worker passes the validator. -/
theorem Operation.valid_of_asks {op : OperationContext} {t : StepTransition}
    (hknown : op.Known opts w) (h : op.Asks r t w.history) :
    Operation.validateStepTransition t.kind t.expectedPhase t.expectedStep t.nextPhase t.nextStep =
      .ok () := by
  rcases h with ⟨hpending, rfl⟩ | ⟨hrunning, result, es, hplayed, _, rfl, _⟩
  · simp only [Runner.transitionOf, hpending]
    have hstep := hknown.step
    revert hstep
    cases op.kind <;> cases op.step <;> first | (intro _; rfl) | exact fun h => absurd h (by decide)
  · simp only [Runner.transitionOf, hrunning]
    exact Operation.valid_of_played hknown.step hplayed

/-- What a proper call does to a row is one of the moves. -/
theorem Move.of_change (hp : c.Proper opts r w) (ho : w.db.operations.lookup k = some o)
    (hc : RowChange w.now w.db (exec opts c choice w).2.db k o c o') :
    Move r k w.history (c.entry opts choice w) o o' := by
  cases hc with
  | none => exact .stays rfl
  | cancelled delete accepted active => exact .cancelled rfl delete accepted active rfl rfl
  | @retried t after event key matched =>
    obtain ⟨op, cause, hknown, hactive, rfl⟩ : Write.Proper opts r (.retry t after event) w := hp
    obtain ⟨_, hphase, _, _⟩ := Store.stepMatches_iff.mp matched
    refine .retried rfl ?_ rfl rfl
    rw [hphase]
    exact hactive
  | @advanced t event key checked matched =>
    obtain ⟨op, hknown, hasks⟩ : Write.Proper opts r (.advance t event) w := hp
    have hvalid := Operation.valid_of_asks hknown hasks
    obtain ⟨_, hphase, hstep, _⟩ := Store.stepMatches_iff.mp matched
    obtain ⟨row, hrow, haim⟩ := hknown.row
    rcases hasks with ⟨hpending, rfl⟩ | ⟨hrunning, result, es, hplayed, hsub, rfl, _⟩
    · exact .claimed rfl (hphase.trans hpending) rfl hstep.symm
    · obtain rfl : (op.tenantID, op.id) = k := key
      rw [ho] at hrow
      obtain rfl := Option.some.inj hrow
      simp only [OperationRow.aim, Prod.mk.injEq] at haim
      refine .advanced rfl rfl haim.2.1.symm hstep.symm ⟨es, hplayed, hsub⟩
        (hphase.trans hrunning) rfl rfl ?_
      rw [hphase, hstep, haim.2.1]
      exact hvalid

/-- No move leaves a terminal phase. -/
theorem Move.terminal (h : Move r k past e o o') (hterminal : o.phase.active = false) : o' = o := by
  cases h with
  | stays same => exact same
  | claimed _ pending | retried _ pending | advanced _ _ _ _ _ pending | cancelled _ _ _ pending =>
    rw [pending] at hterminal
    cases hterminal

/-- What was recorded of a call tells how it moved the operations. -/
theorem moved_of_recorded
    (hrec : ∃ c choice w₀, (World.Kept w₀ ∧ Call.Proper opts r c w₀) ∧ w₀.history = past ∧
      e = c.entry opts choice w₀) (ho : e.before.operations.lookup k = some o) :
    ∃ o', e.after.operations.lookup k = some o' ∧ o'.kind = o.kind ∧ Move r k past e o o' := by
  obtain ⟨c, choice, w₀, ⟨_, hproper⟩, rfl, rfl⟩ := hrec
  obtain ⟨o', ho', hc⟩ := (exec_effect opts c choice w₀).operation ho
  have haim := hc.aim
  simp only [OperationRow.aim, Prod.mk.injEq] at haim
  exact ⟨o', ho', haim.2.1, .of_change hproper ho hc⟩

end

/-- In every run, the history of every operation follows the path of its kind. -/
theorem operation_follows_path {opts : WorkOptions} {r : Runner} {s : Pool World Call Call.Answer}
    (h : Running opts r s) : FollowsPaths r s.world := by
  obtain ⟨hkept, hrec⟩ := h.kept
  refine ⟨h.linked, fun e he k o hn ho => ?_, fun e past hsuf k o ho => ?_,
    fun k o ho => (hkept.followed.rows k o ho).path, fun op es result => Operation.valid_of_played,
    fun e past hsuf t event hcall => ?_, fun e past hsuf k o ho hterminal => ?_,
    fun k o ho hsucceeded => ?_⟩
  · obtain ⟨newer, past, hsplit⟩ := List.append_of_mem he
    obtain ⟨c, choice, w₀, _, _, rfl⟩ := hrec e past ⟨newer, hsplit.symm⟩
    obtain ⟨service, kind, step, target, hash, rfl, hhead⟩ :=
      (exec_effect opts c choice w₀).operation_new hn ho
    exact ⟨rfl, hhead⟩
  · exact moved_of_recorded (hrec e past hsuf) ho
  · obtain ⟨c, choice, w₀, ⟨_, hproper⟩, _, rfl⟩ := hrec e past hsuf
    obtain rfl : c = .write (.advance t event) := hcall
    obtain ⟨op, hknown, hasks⟩ : Write.Proper opts r (.advance t event) w₀ := hproper
    exact Operation.valid_of_asks hknown hasks
  · obtain ⟨o', ho', _, hmove⟩ := moved_of_recorded (hrec e past hsuf) ho
    rw [ho', hmove.terminal hterminal]
  · have hfollowed := hkept.followed.rows k o ho
    have htrail := hfollowed.trail
    rw [hfollowed.succeeded hsucceeded, Operation.Trail, Operation.before_complete] at htrail
    exact htrail

/-- A service is created, and its worker is run until the operation has ended. -/
def createRun : List Event := oneByOne 0 Sample.running

theorem operation_follows_path_createRun :
    ((played .default .configured createRun).world.db.operations.lookup (1, 8)).map
      (fun o => (o.kind, o.phase, o.step)) = some (.create, .succeeded, .complete) ∧
    FollowsPaths .configured (played .default .configured createRun).world :=
  ⟨by decide +kernel, operation_follows_path (running_played .default .configured createRun)⟩

end AniInference
