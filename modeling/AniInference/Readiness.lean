import AniInference.Turns

namespace AniInference
open Lib Prog Txn

/-- `ObserveRuntime` of the executors: what they have seen in the cluster, with the model facts of
the database they have read. -/
def observeRuntime (facts : Bool × Bool) (seen : RuntimeObservation) : RuntimeObservation :=
  { seen with
    ready := seen.runtimePhase = "ready", modelReadyKnown := facts.1, modelReady := facts.2 }

/-- If the call observed a runtime, the executor was what answered it. -/
def Entry.observes (e : Entry) : Bool :=
  match e.seen with
  | ⟨.provider (.observeRuntime op), .ok fact⟩ =>
    fact = AniInference.observeRuntime (e.before.modelFacts op.tenantID op.serviceID) fact
  | _ => true

/-- In the operation `k`, for the generation `g`: the model facts were cleared, then the model was
found ready, and then this was recorded. -/
structure ModelVerified (k : Uuid × Uuid) (service : Uuid) (g : Generation) (op : OperationContext)
    (fact : ModelObservation) (clear ensure record : Entry) (history : List Entry) : Prop where
  order : [record, ensure, clear].Sublist history
  operation : (op.tenantID, op.id) = k
  aim : op.serviceID = service ∧ op.targetGeneration = g
  clears : clear.seen = ⟨.write (.modelMaterializing op), .ok ()⟩
  cleared : clear.after.modelFacts k.1 service = (false, false)
  ensures : ensure.seen = ⟨.provider (.ensureModel op), .ok fact⟩
  ready : fact.known = true ∧ fact.ready = true
  records : record.seen = ⟨.write (.modelObservation op fact), .ok ()⟩
  recorded : record.after.modelFacts k.1 service = (true, true)

def Verified (k : Uuid × Uuid) (service : Uuid) (g : Generation) (history : List Entry) : Prop :=
  ∃ op fact clear ensure record, ModelVerified k service g op fact clear ensure record history

/-- Whatever was recorded about the model of the service after its facts had been cleared for the
generation `g` was recorded for `g`. -/
def RecordedFor (tenant service : Uuid) (g : Generation) (history : List Entry) : Prop :=
  ∀ e past, e :: past <:+ history → e.after ≠ e.before → ∀ op fact,
    e.call = .write (.modelObservation op fact) → (op.tenantID, op.serviceID) = (tenant, service) →
    ∀ clear ∈ past, ∀ op', clear.seen = ⟨.write (.modelMaterializing op'), .ok ()⟩ →
      (op'.tenantID, op'.serviceID, op'.targetGeneration) = (tenant, service, g) →
      op.targetGeneration = g

/-- After its model was verified, in the same operation and for the same generation, the runtime was
found ready while the model facts were known and ready, and these were no older generation's. -/
def ReadyToPublish (k : Uuid × Uuid) (service : Uuid) (g : Generation)
    (history : List Entry) : Prop :=
  ∃ op fact e past, e :: past <:+ history ∧ (op.tenantID, op.id) = k ∧ op.serviceID = service ∧
    op.targetGeneration = g ∧ e.seen = ⟨.provider (.observeRuntime op), .ok fact⟩ ∧
    fact.ready = true ∧ e.before.modelFacts k.1 service = (true, true) ∧ Verified k service g past ∧
    RecordedFor k.1 service g past

section
variable {k : Uuid × Uuid} {service : Uuid} {g : Generation} {history : List Entry} {e : Entry}

theorem Verified.cons (h : Verified k service g history) : Verified k service g (e :: history) := by
  obtain ⟨op, fact, clear, ensure, record, hv⟩ := h
  exact ⟨op, fact, clear, ensure, record, { hv with order := hv.order.cons e }⟩

theorem ReadyToPublish.cons (h : ReadyToPublish k service g history) :
    ReadyToPublish k service g (e :: history) := by
  obtain ⟨op, fact, e', past, hsuf, hrest⟩ := h
  exact ⟨op, fact, e', past, hsuf.trans (List.suffix_cons _ _), hrest⟩

end

namespace Store
variable {now : Time} {db db' : Db}

theorem facts_of_update
    (h : Runs (Sql.updateRuntimeForWork now tenant service generation token change) db 1 db') :
    ∃ row, db'.runtimes.lookup (tenant, service) = some (change row) := by
  obtain ⟨row, _, _, rfl⟩ := runs_updateRow_one.mp h
  exact ⟨row, AList.lookup_insert _⟩

theorem cleared_of_runs (h : Runs (markModelMaterializing now op) db u db') :
    db'.modelFacts op.tenantID op.serviceID = (false, false) := by
  simp only [markModelMaterializing, runs_bind, runs_exactlyOne] at h
  obtain ⟨_, _, h, rfl, rfl⟩ := h
  obtain ⟨row, hrow⟩ := facts_of_update h
  simp [Db.modelFacts, hrow]

theorem recorded_of_runs (h : Runs (saveModelObservation now op fact) db u db') :
    db'.modelFacts op.tenantID op.serviceID = (true, fact.ready) := by
  simp only [saveModelObservation, runs_bind, runs_reject, runs_exactlyOne] at h
  obtain ⟨_, _, ⟨_, rfl⟩, _, _, h, rfl, rfl⟩ := h
  obtain ⟨row, hrow⟩ := facts_of_update h
  simp [Db.modelFacts, hrow]

end Store

section
variable {opts : WorkOptions} {r : Runner} {history : List Entry} {e : Entry}

/-- A write of the history that was answered took place. -/
theorem Explained.write_runs (hall : Explained opts r history) (he : e ∈ history)
    (hseen : e.seen = ⟨.write x, .ok ()⟩) : ∃ now, Runs (x.tx now) e.before () e.after := by
  obtain ⟨new, past, rfl⟩ := List.append_of_mem he
  obtain ⟨c, choice, w, mine, _, rfl, rfl⟩ := hall e past (List.suffix_append _ _)
  obtain ⟨rfl, hanswer⟩ : c = .write x ∧ _ := by
    injection hseen with h₁ h₂
    exact ⟨h₁, h₂⟩
  exact ⟨w.now, AniInference.write_runs (eq_of_heq hanswer)⟩

end

namespace Runner
open M
variable {opts : WorkOptions} {r : Runner} {op : OperationContext} {result : StepResult}
variable {es : List Exchange}

theorem played_runMaterializeModel (h : Played (runMaterializeModel r op).run es (.ok result)) :
    ∃ fact : ModelObservation, fact.known = true ∧ fact.ready = true ∧
      es = [⟨.write (.modelMaterializing op), .ok ()⟩, ⟨.provider (.ensureModel op), .ok fact⟩,
        ⟨.write (.modelObservation op fact), .ok ()⟩] := by
  obtain ⟨_, h₁⟩ := played_failIf_bind_ok.mp h
  obtain ⟨es₁, rfl, h₂⟩ := played_write_bind_ok.mp h₁
  obtain ⟨fact, es₂, rfl, h₃⟩ := played_provider_bind_ok.mp h₂
  obtain ⟨hready, h₄⟩ := played_failIf_bind_ok.mp h₃
  obtain ⟨es₃, rfl, h₅⟩ := played_write_bind_ok.mp h₄
  obtain ⟨rfl, _⟩ := played_pure.mp h₅
  simp only [Bool.or_eq_true, Bool.not_eq_true', not_or, Bool.not_eq_false] at hready
  exact ⟨fact, hready.1, hready.2, rfl⟩

theorem played_runObserveRuntime (h : Played (runObserveRuntime r op).run es (.ok result)) :
    ∃ fact : RuntimeObservation, fact.ready = true ∧ fact.modelReadyKnown = true ∧
      fact.modelReady = true ∧ ⟨.provider (.observeRuntime op), .ok fact⟩ ∈ es := by
  obtain ⟨_, h₁⟩ := played_failIf_bind_ok.mp h
  obtain ⟨fact, es₁, rfl, h₂⟩ := played_provider_bind_ok.mp h₁
  obtain ⟨es₂, rfl, h₃⟩ := played_write_bind_ok.mp h₂
  obtain ⟨_, es₃, es₄, rfl, _, h₄⟩ := played_run_bind_ok.mp h₃
  obtain ⟨hready, _⟩ := played_failIf_bind_ok.mp h₄
  simp only [Bool.or_eq_true, Bool.not_eq_true', not_or, Bool.not_eq_false] at hready
  exact ⟨fact, hready.1.1, hready.1.2, hready.2, List.mem_cons_self⟩

/-- A step observes the runtime of the operation it is run on. -/
theorem asks_observeRuntime (h : Asks (runStep r op).run es (.provider (.observeRuntime op'))) :
    op' = op := by
  have hstep : op.step = .observeRuntime := only_runStep.asks h
  simp only [runStep, hstep] at h
  obtain ⟨_, h₁⟩ := asks_failIf_bind.mp h
  rcases asks_provider_bind.mp h₁ with ⟨_, hc⟩ | ⟨fact, es', _, h₂⟩
  · injection hc with hc
    injection hc
  · rcases asks_write_bind.mp h₂ with ⟨_, hc⟩ | ⟨es'', _, h₃⟩
    · cases hc
    -- what follows the record is what any step may call, so it observes no runtime
    have hcall : Call.OfStep { op with step := .publish } (.provider (.observeRuntime op')) :=
      Only.asks (only_run_bind (only_onlyIf fun _ => only_saveManagedGPUReleasePods) fun _ =>
        only_run_bind only_failIf fun _ => only_pure) h₃
    cases hcall

end Runner

/-- The row `o` of the operation `k` was taken on to `o'` by a step that was run on `op`. -/
structure Advanced (opts : WorkOptions) (r : Runner) (k : Uuid × Uuid) (o o' : OperationRow)
    (op : OperationContext) (result : StepResult) (es : List Exchange) (w : World) : Prop where
  known : op.Known opts w
  operation : (op.tenantID, op.id) = k
  aim : o.aim = (op.serviceID, op.kind, op.targetGeneration)
  current : o.step = op.step
  next : o'.step = result.step
  ran : Played (Runner.runStep r op).run es (.ok result)
  made : es.reverse.Sublist (w.history.map Entry.seen)
  fenced : op.Fenced w

section
variable {opts : WorkOptions} {r : Runner} {c : Call} {w : World} {mine : List Entry}
variable {k : Uuid × Uuid} {o o' : OperationRow}

/-- Nothing else takes an operation to another step. -/
theorem Made.advanced (h : Made opts r c w mine) (ho : w.db.operations.lookup k = some o)
    (ho' : (exec opts c choice w).2.db.operations.lookup k = some o') (hstep : o'.step ≠ o.step) :
    ∃ op result es, Advanced opts r k o o' op result es w := by
  obtain ⟨o₁, ho₁, hchange⟩ := (exec_effect opts c choice w).operation ho
  obtain rfl := Option.some.inj (ho₁.symm.trans ho')
  cases hchange with
  | none | cancelled | retried => exact absurd rfl hstep
  | @advanced t event key checked matched =>
    obtain ⟨op, hknown, hasks⟩ : Write.Proper opts r (.advance t event) w := h.proper
    obtain ⟨_, _, hcurrent, hfenced⟩ := Store.stepMatches_iff.mp matched
    rcases hasks with ⟨_, rfl⟩ | ⟨_, result, es, hran, hmade, rfl, _⟩
    · exact absurd hcurrent.symm hstep
    · obtain ⟨row, hrow, haim⟩ := hknown.row
      obtain rfl : (op.tenantID, op.id) = k := key
      obtain rfl := Option.some.inj (hrow.symm.trans ho)
      exact ⟨op, result, es, hknown, rfl, haim, hcurrent, rfl, hran, hmade, hfenced⟩

/-- The step it is taken to is the one after it. -/
theorem Advanced.asks (h : Advanced opts r k o o' op result es w) :
    o'.step = (Runner.asks o.kind o.step).2 := by
  have haim := h.aim
  simp only [OperationRow.aim, Prod.mk.injEq] at haim
  have hasks := Runner.ends_runStep r op es result h.ran
  rw [h.next, h.current, haim.2.1, ← hasks]

/-- A model step that has ended verified the model. -/
theorem Advanced.verified (h : Advanced opts r k o o' op result es w)
    (hall : Explained opts r w.history) (hstep : o.step = .materializeModel) :
    Verified k o.serviceID o.targetGeneration w.history := by
  have haim := h.aim
  simp only [OperationRow.aim, Prod.mk.injEq] at haim
  obtain rfl := h.operation
  have hran := h.ran
  simp only [Runner.runStep, ← h.current, hstep] at hran
  obtain ⟨fact, hknown, hready, rfl⟩ := Runner.played_runMaterializeModel hran
  obtain ⟨made, hmade, hseen⟩ := List.sublist_map_iff.mp h.made
  obtain ⟨record, _, rfl, hrecord, hseen⟩ := List.map_eq_cons_iff.mp hseen.symm
  obtain ⟨ensure, _, rfl, hensure, hseen⟩ := List.map_eq_cons_iff.mp hseen
  obtain ⟨clear, _, rfl, hclear, hseen⟩ := List.map_eq_cons_iff.mp hseen
  obtain rfl := List.map_eq_nil_iff.mp hseen
  obtain ⟨_, hcleared⟩ := hall.write_runs (hmade.mem (by simp)) hclear
  obtain ⟨_, hrecorded⟩ := hall.write_runs (hmade.mem (by simp)) hrecord
  refine ⟨op, fact, clear, ensure, record, hmade, rfl, ⟨haim.1.symm, haim.2.2.symm⟩, hclear, ?_,
    hensure, ⟨hknown, hready⟩, hrecord, ?_⟩
  · rw [haim.1]
    exact Store.cleared_of_runs hcleared
  · rw [haim.1]
    exact (Store.recorded_of_runs hrecorded).trans (by rw [hready])

end

/-- The steps that come after the model step. -/
def Step.afterModel : Step → Bool
  | .applyRuntime | .observeRuntime | .publish => true
  | _ => false

section
variable {opts : WorkOptions} {r : Runner} {history : List Entry} {db : Db}

theorem Runner.afterModel_asks (h : (Runner.asks kind step).2.afterModel = true) :
    step = .materializeModel ∨ step.afterModel = true := by
  revert h
  cases kind <;> cases step <;> decide

/-- No operation is at one of these steps unless the step that took it there left its mark. -/
theorem Explained.marked {Q : Uuid × Uuid → Uuid → Generation → List Entry → Prop}
    {A : Step → Prop} (hall : Explained opts r history) (hlinked : Linked history db)
    (hcons : ∀ {k service g e past}, Q k service g past → Q k service g (e :: past))
    (hfirst : ∀ {kind step}, (Operation.paths kind).head? = some step → ¬A step)
    (hnext : ∀ {k o o' op result es c w mine}, w.history <:+ history → Made opts r c w mine →
      Advanced opts r k o o' op result es w → A o'.step →
      A o.step ∨ Q k o.serviceID o.targetGeneration w.history) :
    ∀ k o, db.operations.lookup k = some o → A o.step →
      Q k o.serviceID o.targetGeneration history := by
  refine hlinked.induction (P := fun history db => ∀ k o, db.operations.lookup k = some o →
    A o.step → Q k o.serviceID o.targetGeneration history) (by simp [Db.empty])
    fun e past hsuf ih k o' ho' hthere => ?_
  obtain ⟨c, choice, w, mine, hmade, rfl, rfl⟩ := hall e past hsuf
  have heffect := exec_effect opts c choice w
  cases ho : w.db.operations.lookup k with
  | none =>
    obtain ⟨service, kind, step, target, hash, rfl, hhead⟩ := heffect.operation_new ho ho'
    exact absurd hthere (hfirst hhead)
  | some o =>
    obtain ⟨o₁, ho₁, haim⟩ := heffect.aim ho
    obtain rfl := Option.some.inj (ho₁.symm.trans ho')
    simp only [OperationRow.aim, Prod.mk.injEq] at haim
    rw [haim.1, haim.2.2]
    refine hcons ?_
    by_cases hstep : o₁.step = o.step
    · exact ih k o ho (hstep ▸ hthere)
    · obtain ⟨op, result, es, hadv⟩ := hmade.advanced ho ho' hstep
      rcases hnext ((List.suffix_cons _ _).trans hsuf) hmade hadv hthere with hearlier | hmark
      · exact ih k o ho hearlier
      · exact hmark

/-- No operation is past the model step unless its model was verified. -/
theorem Explained.verified (hall : Explained opts r history) (hlinked : Linked history db) :
    ∀ k o, db.operations.lookup k = some o → o.step.afterModel = true →
      Verified k o.serviceID o.targetGeneration history := by
  refine hall.marked (Q := Verified) (A := (·.afterModel = true)) hlinked Verified.cons ?_
    fun hpast _ hadv hafter => ?_
  · intro kind step
    cases kind <;> cases step <;> decide
  · rw [hadv.asks] at hafter
    exact (Runner.afterModel_asks hafter).symm.imp_right (hadv.verified (hall.suffix hpast))

/-- The desired generation of a service never goes back. -/
def GenerationFrom (tenant service : Uuid) (g : Generation) (db : Db) : Prop :=
  ∃ s, db.services.lookup (tenant, service) = some s ∧ g ≤ s.desiredGeneration

theorem Explained.generationFrom (hall : Explained opts r history) (hlinked : Linked history db)
    (hsuf : e :: past <:+ history) (h : GenerationFrom tenant service g e.before) :
    GenerationFrom tenant service g db := by
  have hstep : ∀ e ∈ history, GenerationFrom tenant service g e.before →
      GenerationFrom tenant service g e.after := by
    intro e he ⟨s, hs, hg⟩
    obtain ⟨newer, past, hsplit⟩ := List.append_of_mem he
    obtain ⟨c, choice, w, _, _, _, rfl⟩ := hall e past ⟨newer, hsplit.symm⟩
    obtain ⟨s', hs', hkept⟩ := (exec_effect opts c choice w).service_kept hs
    refine ⟨s', hs', ?_⟩
    rcases hkept with hkept | hkept
    · simp only [Service.aim, Prod.mk.injEq] at hkept
      rw [hkept.2.1]
      exact hg
    · rw [hkept]
      exact Nat.le_succ_of_le hg
  exact hlinked.later hstep hsuf (hstep e (hsuf.mem List.mem_cons_self) h)

/-- A write that changed anything took place. -/
theorem Explained.changed_runs (hall : Explained opts r history) (hsuf : e :: past <:+ history)
    (hcall : e.call = .write x) (hchanged : e.after ≠ e.before) :
    ∃ now, Runs (x.tx now) e.before () e.after := by
  obtain ⟨c, choice, w, _, _, _, rfl⟩ := hall e past hsuf
  obtain rfl : c = .write x := hcall
  rcases settle_state (x.tx w.now) .connection choice w.db with hsame | ⟨_, hruns⟩
  · exact absurd hsame hchanged
  · exact ⟨w.now, hruns⟩

theorem Explained.recordedFor (hall : Explained opts r history) (hlinked : Linked history db)
    (hs : db.services.lookup (tenant, service) = some s) :
    RecordedFor tenant service s.desiredGeneration history := by
  intro e past hsuf hchanged op fact hcall hkey clear hclear op' hseen hkey'
  simp only [Prod.mk.injEq] at hkey hkey'
  obtain ⟨rfl, rfl⟩ := hkey
  obtain ⟨htenant, hservice, hgeneration⟩ := hkey'
  have hpast : past <:+ history := (List.suffix_cons _ _).trans hsuf
  obtain ⟨_, hruns⟩ := hall.changed_runs hsuf hcall hchanged
  obtain ⟨⟨⟨s₁, hs₁, hdesired₁⟩, _⟩, _⟩ := Store.runs_saveModelObservation hruns
  obtain ⟨newer, older, hsplit⟩ := List.append_of_mem hclear
  obtain ⟨_, hclears⟩ := (hall.suffix hpast).write_runs hclear hseen
  obtain ⟨⟨⟨s₂, hs₂, hdesired₂⟩, _⟩, _⟩ := Store.runs_markModelMaterializing hclears
  rw [htenant, hservice] at hs₂
  -- from the clearing to the record, and from the record to now
  obtain ⟨s₃, hs₃, hle₁⟩ := (hall.suffix hpast).generationFrom (hlinked.suffix hsuf)
    ⟨newer, hsplit.symm⟩ ⟨s₂, hs₂, le_rfl⟩
  obtain rfl := Option.some.inj (hs₁.symm.trans hs₃)
  obtain ⟨s₄, hs₄, hle₂⟩ := hall.generationFrom hlinked hsuf ⟨s₁, hs₁, le_rfl⟩
  obtain rfl := Option.some.inj (hs.symm.trans hs₄)
  rw [hdesired₁] at hle₁ hle₂
  rw [hdesired₂, hgeneration] at hle₁
  exact le_antisymm hle₂ hle₁

end

namespace Runner
section
variable {opts : WorkOptions} {r : Runner} {c : Call} {w : World} {mine : List Entry}
variable {item : Item} {op op' : OperationContext} {o : OperationRow} {load es : List Exchange}

theorem Acts.observeRuntime (h : Acts r op es (.provider (.observeRuntime op'))) :
    (∃ phase, op' = { op with phase := phase }) ∧
      Call.OfStep op (.provider (.observeRuntime op')) := by
  generalize hc : Call.provider (.observeRuntime op') = c at h
  cases h with
  | step entered asks =>
    subst hc
    obtain rfl := asks_observeRuntime asks
    refine ⟨entered.eq, ?_⟩
    rw [← entered.ofStep]
    exact only_runStep.asks asks
  | _ => cases hc

/-- The lease of a turn was out when it began. -/
theorem Acting.issued (ha : Acting r mine c item load es op o) (h : Made opts r c w mine)
    (hall : Explained opts r w.history) : op.leaseToken ≤ w.history.length := by
  obtain ⟨tenant, before, hturn⟩ := ha.turn
  obtain ⟨g, hgm, hg⟩ := mem_of_seen hturn List.mem_cons_self
  have hgrants := grants_of_seen hg
  rw [← ha.loads.leaseToken] at hgrants
  exact hall.granted (h.owns.sublist.mem hgm) hgrants

end
end Runner

section
variable {opts : WorkOptions} {r : Runner} {history : List Entry}

/-- An observation of the runtime under a fence that still held later was made at the step that
observes. -/
theorem Made.observed (h : Made opts r c w mine) (hall : Explained opts r w.history)
    (hf : op.Fenced w) (hsuf : e :: past <:+ w.history)
    (hcall : e.call = .provider (.observeRuntime op)) :
    e.before.fenced op.tenantID op.id op.leaseToken e.time = true ∧
      ∃ o, e.before.operations.lookup (op.tenantID, op.id) = some o ∧ o.step = .observeRuntime ∧
        o.aim = (op.serviceID, op.kind, op.targetGeneration) := by
  obtain ⟨c', choice, w', mine', hmade, rfl, rfl⟩ := hall e past hsuf
  obtain rfl : c' = .provider (.observeRuntime op) := hcall
  have hpast := hall.suffix ((List.suffix_cons _ _).trans hsuf)
  obtain ⟨item, load, es, op₀, o, ha⟩ := Runner.acting_of_made hmade trivial
  obtain ⟨⟨phase, rfl⟩, hstep⟩ := ha.acts.observeRuntime
  obtain ⟨o₁, ho₁, _⟩ := ha.loaded hmade hpast
  have hfenced := h.kept.chronicle.fences _ _ hsuf op₀.tenantID op₀.id op₀.leaseToken o₁ ho₁
    (ha.issued hmade hpast) hf
  obtain ⟨o₂, ho₂, hat, haim⟩ := ha.rowAt hmade hpast hfenced hstep
  exact ⟨hfenced, o₂, ho₂, hat.trans hstep, haim⟩

/-- What the executor has answered is ready only if the stored facts are. -/
theorem Entry.facts_of_observes {e : Entry} (h : e.observes = true) {op : OperationContext}
    {fact : RuntimeObservation} (hseen : e.seen = ⟨.provider (.observeRuntime op), .ok fact⟩) :
    e.before.modelFacts op.tenantID op.serviceID = (fact.modelReadyKnown, fact.modelReady) := by
  unfold Entry.observes at h
  rw [hseen] at h
  have hfact : fact = AniInference.observeRuntime _ fact := of_decide_eq_true h
  rw [hfact]
  rfl

/-- A runtime step that has ended found everything ready. -/
theorem Advanced.ready {w : World} {o : OperationRow} (h : Advanced opts r k o o' op result es w)
    (hmade : Made opts r c w mine) (hall : Explained opts r w.history)
    (hobserves : ∀ e ∈ w.history, e.observes = true) (hstep : o.step = .observeRuntime) :
    ReadyToPublish k o.serviceID o.targetGeneration w.history := by
  have haim := h.aim
  simp only [OperationRow.aim, Prod.mk.injEq] at haim
  obtain rfl := h.operation
  have hran := h.ran
  simp only [Runner.runStep, ← h.current, hstep] at hran
  obtain ⟨fact, hready, hknown, hmodel, hmem⟩ := Runner.played_runObserveRuntime hran
  obtain ⟨e, he, hseen⟩ := List.mem_map.mp (h.made.mem (List.mem_reverse.mpr hmem))
  obtain ⟨newer, past, hsplit⟩ := List.append_of_mem he
  have hsuf : e :: past <:+ w.history := ⟨newer, hsplit.symm⟩
  have hpast := hall.suffix ((List.suffix_cons _ _).trans hsuf)
  have hlinked := hmade.linked.suffix hsuf
  obtain ⟨hfenced, o₁, ho₁, hat, haim₁⟩ :=
    hmade.observed hall h.fenced hsuf (congrArg Sigma.fst hseen)
  have hverified := hpast.verified hlinked _ o₁ ho₁ (by rw [hat]; rfl)
  simp only [OperationRow.aim, Prod.mk.injEq] at haim₁
  have hfacts := Entry.facts_of_observes (hobserves e he) hseen
  obtain ⟨o₂, ho₂, ⟨s, hs, _, hdesired⟩, _⟩ := Db.fenced_iff.mp hfenced
  obtain rfl := Option.some.inj (ho₁.symm.trans ho₂)
  have hrecorded := hpast.recordedFor hlinked hs
  rw [hdesired] at hrecorded
  rw [haim.1, haim.2.2, ← haim₁.1, ← haim₁.2.2]
  refine ⟨op, fact, e, past, hsuf, rfl, haim₁.1.symm, haim₁.2.2.symm, hseen, hready, ?_, hverified,
    hrecorded⟩
  rw [haim₁.1]
  exact hfacts.trans (by rw [hknown, hmodel])

theorem Runner.asks_publish (h : (Runner.asks kind step).2 = .publish) :
    step = .observeRuntime := by
  revert h
  cases kind <;> cases step <;> decide

/-- In every run in which the executor answers the observations of the runtime, no operation is at
the publish step unless, in that operation and for its own generation, the model facts were cleared,
the model was then found ready, and the runtime was found ready after that while the facts recorded
for this generation were known and ready. -/
theorem publish_needs_fresh_readiness {s : Pool World Call Call.Answer} (h : Running opts r s)
    (hobserves : ∀ e ∈ s.world.history, e.observes = true) :
    ∀ k o, s.world.db.operations.lookup k = some o → o.step = .publish →
      ReadyToPublish k o.serviceID o.targetGeneration s.world.history := by
  have hall := h.explained
  refine hall.marked (Q := ReadyToPublish) (A := (· = .publish)) h.linked ReadyToPublish.cons ?_
    fun hpast hmade hadv hpublish => ?_
  · intro kind step
    cases kind <;> cases step <;> decide
  · rw [hadv.asks] at hpublish
    exact .inr (hadv.ready hmade (hall.suffix hpast) (fun e he => hobserves e (hpast.mem he))
      (Runner.asks_publish hpublish))

end

/-- The executor finds the runtime ready. -/
def Sample.readyOutside : Outside :=
  { Sample.outside with
    answers := fun
      | .observeRuntime _ => some (.ok { Sample.outside.runtime with runtimePhase := "ready" })
      | _ => none }

/-- A service is created, and its worker is run until there is only the publication left. -/
def readyRun : List Event :=
  oneByOne 0 (Sample.created Sample.create (Sample.createTurns.take 7) Sample.readyOutside)

set_option maxRecDepth 100000 in
theorem publish_needs_fresh_readiness_create :
    ∃ o, (played .default .configured readyRun).world.db.operations.lookup (1, 8) = some o ∧
      o.step = .publish ∧ ReadyToPublish (1, 8) o.serviceID o.targetGeneration
        (played .default .configured readyRun).world.history := by
  have hrun : ((played .default .configured readyRun).world.db.operations.lookup (1, 8)).map
        OperationRow.step = some .publish ∧
      (played .default .configured readyRun).world.history.all Entry.observes = true := by
    decide +kernel
  obtain ⟨o, ho, hstep⟩ := Option.map_eq_some_iff.mp hrun.1
  exact ⟨o, ho, hstep, publish_needs_fresh_readiness (running_played .default .configured readyRun)
    (List.all_eq_true.mp hrun.2) _ o ho hstep⟩

end AniInference
