import AniInference.Stepping

namespace AniInference
open Lib

namespace Runner
section
variable {opts : WorkOptions} {r : Runner} {op : OperationContext} {item : Item} {α : Type}
variable {F : World → Prop} {G : α → World → Prop}

theorem lasting_ready : Lasting opts r op.leaseToken (op.Ready opts) := by
  intro c choice w hI hp ht h
  refine ⟨lasting_known c choice w hI hp ht h.known, fun hs => ?_, fun hgpu => ?_⟩
  · exact lasting_selected c choice w hI hp ht (h.selected hs)
  · obtain ⟨scope, hat, hsealed⟩ := h.scope hgpu
    exact ⟨scope, lasting_scopeAt c choice w hI hp ht hat, hsealed⟩

/-- Being claimed changes nothing the worker has loaded but the phase. -/
theorem ready_claimed (fault : Fault) (hw : w.Kept) (h : op.Ready opts w) :
    ({ op with phase := .running } : OperationContext).Ready opts
      (exec opts (.write (.advance t event)) fault w).2 := by
  have hknown := h.known.call hw (.write (.advance t event)) fault (fun hs => nomatch hs)
  refine ⟨?_, fun hs => (h.selected hs).write fault (fun _ hx => nomatch hx), fun hgpu => ?_⟩
  · exact
      { row := hknown.row, issued := hknown.issued, loaded := hknown.loaded, holds := hknown.holds
        step := hknown.step, withdrew := hknown.withdrew, absent := hknown.absent
        sealing := hknown.sealing, reservations := hknown.reservations
        publication := hknown.publication, plan := hknown.plan }
  · obtain ⟨scope, hat, hsealed⟩ := h.scope hgpu
    exact ⟨scope, hat.write fault (fun _ _ hx => nomatch hx), hsealed⟩

/-- A step that is retried stays where it is. -/
theorem obeys_retry (hactive : op.phase.active = true) :
    Obeys opts r op.leaseToken (op.Known opts) (retry r op cause : M α) G
      (fun _ => op.Known opts) :=
  obeys_joinWith lasting_known (keeps_own (fun _ _ h => ⟨op, cause, h, hactive, rfl⟩) rfl)

theorem obeys_orRetry (hactive : op.phase.active = true)
    (hG : ∀ a, Lasting opts r op.leaseToken (G a))
    (hx : Obeys opts r op.leaseToken F x G (fun _ => op.Known opts)) :
    Obeys opts r op.leaseToken F (orRetry r op x) G (fun _ => op.Known opts) := by
  refine triple_bind (triple_lift_run hx) fun a => ?_
  cases a with
  | ok a => exact triple_pure (hG a) fun _ _ h => h
  | error e => exact obeys_retry hactive

/-- A transition is written where it is asked for. -/
theorem obeys_transition {G : World → Prop} (hF : Lasting opts r op.leaseToken F)
    (hG : Lasting opts r op.leaseToken G) (hknown : ∀ w, F w → op.Known opts w)
    (hasks : ∀ w, F w → op.Asks r (transitionOf op phase step "" none) w.history)
    (hok : ∀ fault w, w.Kept → F w → G (exec opts
      (.write (.advance (transitionOf op phase step "" none)
        (auditOf op phase step (.step event)))) fault w).2) :
    Obeys opts r op.leaseToken F (transition op phase step event) (fun _ => G)
      (fun _ => op.Known opts) :=
  obeys_write hF (fun _ => hG) (fun _ => lasting_known) (fun w _ h => ⟨op, hknown w h, hasks w h⟩)
    rfl (fun fault w hw h _ => hok fault w hw h)
    (fun fault w _ hw h => (hknown w h).call hw (.write _) fault (fun hs => nomatch hs))

/-- A worker that goes on has its operation running. -/
theorem obeys_claimed (hactive : op.phase.active = true) :
    Obeys opts r op.leaseToken (op.Ready opts) (claimed r op)
      (fun op' w => op'.Ready opts w ∧ op'.leaseToken = op.leaseToken ∧ op'.phase = .running)
      (fun _ => op.Known opts) := by
  refine triple_ite (fun hpending => ?_) fun hnot => ?_
  · have hlast := @lasting_ready opts r { op with phase := .running }
    refine triple_bind (obeys_orRetry hactive (fun _ => hlast) (obeys_transition lasting_ready hlast
      (fun _ h => h.known) (fun _ _ => .inl ⟨hpending, rfl⟩)
      fun fault _ hw h => ready_claimed fault hw h)) fun _ => ?_
    exact triple_pure hlast fun _ _ h => ⟨h, rfl, rfl⟩
  · refine triple_pure lasting_ready fun _ _ h => ⟨h, rfl, ?_⟩
    cases hphase : op.phase with
    | pending => exact absurd hphase hnot
    | running => rfl
    | succeeded | failed =>
      rw [hphase] at hactive
      cases hactive

/-- The step was run to its end with `result`, as the history shows. -/
def Ran (r : Runner) (op : OperationContext) (result : StepResult) (history : List Entry) : Prop :=
  ∃ es, Prog.Played (runStep r op).run es (.ok result) ∧
    es.reverse.Sublist (history.map Entry.seen)

theorem lasting_done :
    Lasting opts r op.leaseToken fun w => Done opts op w ∧ Ran r op result w.history := by
  intro c choice w hI hp ht h
  obtain ⟨es, hplayed, hsub⟩ := h.2
  refine ⟨⟨lasting_known c choice w hI hp ht h.1.known, fun hs => (h.1.withdrew hs).cons,
    fun hs => (h.1.absent hs).cons⟩, es, hplayed, ?_⟩
  rw [exec_history]
  exact hsub.trans (List.sublist_cons_self _ _)

/-- One step of a running operation, and the transition it asks for. -/
theorem obeys_step (hrunning : op.phase = .running) :
    Obeys opts r op.leaseToken (op.Ready opts)
      (do
        let result ← orRetry r op (runStep r op)
        orRetry r op (transition op result.phase result.step result.event))
      (fun _ _ => True) (fun _ => op.Known opts) := by
  have hstep : Obeys opts r op.leaseToken (op.Ready opts) (runStep r op)
      (fun result w => Done opts op w ∧ Ran r op result w.history) (fun _ => op.Known opts) :=
    obeys_runStep.played exec_history seen_entry
  have hactive : op.phase.active = true := by
    rw [hrunning]
    rfl
  refine triple_bind (obeys_orRetry hactive (fun _ => lasting_done) hstep) fun result => ?_
  refine obeys_orRetry hactive (fun _ => steady_const) (obeys_transition lasting_done steady_const
    (fun _ h => h.1.known) (fun w h => .inr ⟨hrunning, ?_⟩) fun _ _ _ _ => trivial)
  obtain ⟨hdone, es, hplayed, hsub⟩ := h
  exact ⟨result, es, hplayed, hsub, rfl, hdone.withdrew, hdone.absent⟩

/-- The rest of a worker's turn needs nothing to be known. -/
theorem Obeys.forget (h : Obeys opts r token F x G H) :
    Obeys opts r token F x (fun _ _ => True) (fun _ _ => True) :=
  h.weaken (fun _ h => h) (fun _ _ _ => trivial) (fun _ _ _ => trivial)

theorem obeys_execute :
    Obeys opts r item.leaseToken (Turn opts item) (execute r item) (fun _ _ => True)
      (fun _ _ => True) := by
  refine triple_bind ((keeps_failIf lasting_turn).weaken (fun _ h => h) (fun _ _ h => h)
    (fun _ _ _ => trivial)) fun _ => ?_
  refine triple_bind (obeys_currentOperation.weaken (fun _ h => h) (fun _ _ h => h)
    (fun _ _ _ => trivial)) fun op => ?_
  refine triple_have (fun _ h => h.token) fun htoken => ?_
  have hlast : Lasting opts r item.leaseToken (op.LoadedBy opts item) := by
    intro c choice w hI hp ht h
    refine ⟨lasting_turn c choice w hI hp ht h.turn, h.token, fun hactive hservice => ?_⟩
    rw [← htoken] at ht
    exact lasting_ready c choice w hI hp ht (h.ready hactive hservice)
  refine triple_bind (G := fun _ w => op.LoadedBy opts item w ∧ op.serviceID = item.serviceID)
    (triple_ite (fun _ => triple_throw hlast fun _ _ _ => trivial) fun hc =>
      triple_pure hlast fun _ _ h => ⟨h, ?_⟩) fun _ => triple_fact fun hservice => ?_
  · simp only [ne_eq, not_or, not_not] at hc
    exact hc.1
  refine triple_ite (fun hactive => ?_) fun _ => triple_pure hlast fun _ _ _ => trivial
  rw [← htoken]
  refine triple_bind ((obeys_claimed hactive).weaken (fun _ h => h.ready hactive hservice)
    (fun _ _ h => h) (fun _ _ _ => trivial)) fun op' => triple_fact fun hop' => ?_
  rw [← hop'.1]
  exact Obeys.forget (obeys_step hop'.2)

theorem obeys_observe :
    Obeys opts r item.leaseToken (Turn opts item) (observe item) (fun _ _ => True)
      (fun _ _ => True) := by
  have hturn : Lasting opts r item.leaseToken (Turn opts item) := lasting_turn
  refine Obeys.forget (G := fun _ => Turn opts item) (H := fun _ => Turn opts item) ?_
  refine triple_bind (keeps_failIf hturn) fun _ => ?_
  refine triple_bind (keeps_read hturn) fun desired => ?_
  refine triple_bind (keeps_failIf hturn) fun _ => ?_
  refine triple_bind (keeps_provider hturn fun _ _ _ => trivial) fun observation => ?_
  refine triple_bind (keeps_failIf hturn) fun _ => ?_
  exact keeps_write hturn (fun _ _ _ => trivial) rfl
    fun fault _ _ h => h.call _ fault (fun hs => nomatch hs)

theorem obeys_durableExecute :
    Obeys opts r item.leaseToken (Turn opts item) (durableExecute r item) (fun _ _ => True)
      (fun _ _ => True) := by
  refine triple_bind (obeys_currentOperation.weaken (fun _ h => h) (fun _ _ h => h.turn)
    (fun _ _ _ => trivial)) fun op => ?_
  exact triple_ite (fun _ => obeys_execute) fun _ => obeys_observe

/-- A worker gives back the lease it holds. -/
theorem obeys_settle (hk : (Call.work k).presents = some token) :
    Obeys opts r token (fun _ => True) (M.work k) (fun _ _ => True) (fun _ _ => True) := by
  intro mine w ho hw
  refine (safe_perform (e := .work k) (T := leaseTokens) (Q := fun _ _ => True) steady_const
    (fun _ _ _ => trivial) (fun o h => ?_) (fun _ _ _ _ => trivial) (fun _ => steady_const) ho
    hw).mono fun a m w' h => ⟨h.1, ?_⟩
  · exact Option.some.inj (h.symm.trans hk)
  · cases a with
    | ok _ | error _ => trivial

theorem obeys_runItem :
    Obeys opts r item.leaseToken (Turn opts item) (runItem r item) (fun _ _ => True)
      (fun _ _ => True) := by
  refine triple_bind ((triple_lift_run obeys_durableExecute).weaken (fun _ h => h)
    (fun _ _ _ => trivial) (fun _ _ h => h)) fun a => ?_
  cases a with
  | ok _ => exact obeys_settle rfl
  | error e =>
    refine triple_bind (obeys_settle rfl) fun _ => ?_
    exact triple_throw steady_const fun _ _ _ => trivial

/-- A worker that starts with no lease makes proper calls only. -/
theorem safe_runOnce :
    Safe (exec opts) leaseTokens World.Kept (Call.Proper opts r) (fun _ _ _ => True)
      (fun _ => False) (runOnce r tenant).run w := by
  unfold runOnce
  rw [ExceptT.run_bind]
  refine safe_bind ?_
  intro w' _ hI
  refine ⟨trivial, fun _ h => (nomatch h), fun choice => ?_⟩
  cases ha : (exec opts (.work (.claim tenant)) choice w').1 with
  | error e => exact fun _ _ _ _ _ _ => trivial
  | ok found =>
    cases found with
    | none => exact fun _ _ _ _ _ _ => trivial
    | some item =>
      intro w'' hl _
      have htoken := (claim_answer ha).2.1
      have hmine : gained (fun _ => False) (some item.leaseToken) item.leaseToken := .inr rfl
      have hturn : Turn opts item (exec opts (.work (.claim tenant)) choice w').2 :=
        ⟨htoken ▸ Nat.lt_succ_self _, holds_of_claim hI.chronicle ha⟩
      refine (obeys_runItem _ w'' hmine (lasting_turn.later hmine hl hturn)).mono ?_
      exact fun _ _ _ _ => trivial

/-- What the close scanner does under the lease it has claimed. -/
theorem obeys_closeItem :
    Obeys opts r close.leaseToken (fun _ => True) (closeItem r close) (fun _ _ => True)
      (fun _ _ => True) := by
  have hF : Lasting opts r close.leaseToken fun _ => True := steady_const
  refine triple_bind (keeps_loadRefundContext hF) fun original => ?_
  refine triple_bind (keeps_failIf hF) fun _ => ?_
  refine triple_bind (keeps_failIf hF) fun _ => ?_
  refine triple_bind (keeps_read hF) fun found => ?_
  cases found with
  | none => exact keeps_throw hF
  | some scope =>
    refine triple_bind (keeps_checked hF) fun _ => ?_
    cases scope.sealedAt with
    | none => exact keeps_throw hF
    | some sealedAt =>
      exact @keeps_reportRelease opts r (closeContext close scope sealedAt) _ hF
        fun _ _ _ _ _ _ _ => trivial

/-- What `closeTenant` does with a close it has claimed. -/
def closeClaimed (r : Runner) (item : CloseItem) : M Unit := do
  match ← M.attempt (closeItem r item) with
  | .ok _ => M.work (.completeClose item)
  | .error _ => M.work (.retryClose item)

theorem safe_closeTenant :
    Safe (exec opts) leaseTokens World.Kept (Call.Proper opts r) (fun _ _ _ => True) mine
      (closeTenant r tenant).run w := by
  unfold closeTenant
  rw [ExceptT.run_bind]
  refine safe_bind ?_
  intro w' _ hI
  refine ⟨trivial, fun _ h => absurd h (Option.some_ne_none _).symm, fun choice => ?_⟩
  cases ha : (exec opts (.work (.claimClose tenant)) choice w').1 with
  | error e => exact fun _ _ _ _ _ _ => trivial
  | ok found =>
    cases found with
    | none => exact fun _ _ _ _ _ _ => trivial
    | some close =>
      intro w'' hl _
      have hmine : gained mine (some close.leaseToken) close.leaseToken := .inr rfl
      have hturn : Obeys opts r close.leaseToken (fun _ => True) (closeClaimed r close)
          (fun _ _ => True) (fun _ _ => True) := by
        refine triple_bind (keeps_attempt obeys_closeItem) fun a => ?_
        cases a with
        | ok _ | error _ => exact obeys_settle rfl
      exact (hturn _ w'' hmine trivial).mono fun _ _ _ _ => trivial

/-- A pass over tenant after tenant, whatever leases it has taken already. -/
theorem safe_closeTenants :
    Safe (exec opts) leaseTokens World.Kept (Call.Proper opts r) (fun _ _ _ => True) mine
      (closeTenants r tenants).run w := by
  induction tenants generalizing mine w with
  | nil => exact fun _ _ _ => trivial
  | cons tenant rest ih =>
    unfold closeTenants
    rw [ExceptT.run_bind]
    refine safe_bind (safe_bind (safe_closeTenant.mono fun a m w' _ => ?_))
    intro w'' _ _
    exact ih

theorem safe_runManagedCloses :
    Safe (exec opts) leaseTokens World.Kept (Call.Proper opts r) (fun _ _ _ => True)
      (fun _ => False) (runManagedCloses r).run w := by
  unfold runManagedCloses
  rw [ExceptT.run_bind]
  refine safe_bind ?_
  intro w' _ _
  refine ⟨trivial, fun _ h => absurd h (Option.some_ne_none _).symm, fun choice => ?_⟩
  cases (exec opts (.read .closeTenants) choice w').1 with
  | error e => exact fun _ _ _ _ _ _ => trivial
  | ok tenants => exact fun _ _ _ => safe_closeTenants

end

end Runner

/-- Every process of the service keeps to the discipline. -/
theorem Client.safe (h : Client r p) :
    Safe (exec opts) leaseTokens World.Kept (Call.Proper opts r) (fun _ _ _ => True)
      (fun _ => False) p w := by
  have one : ∀ (c : Call), (∀ w, c.Proper opts r w) → c.presents = none →
      Safe (exec opts) leaseTokens World.Kept (Call.Proper opts r) (fun _ _ _ => True)
        (fun _ => False) (.call c fun _ => .ret ()) w := by
    intro c hp hc w' _ _
    refine ⟨hp w', fun o ho => ?_, fun _ _ _ _ => trivial⟩
    have hnone : c.presents = some o := ho
    rw [hc] at hnone
    cases hnone
  cases h with
  | worker tenant => exact safe_bind (Runner.safe_runOnce.mono fun _ _ _ _ => safe_done)
  | request q | notify tenant service dirty
  | repair tenant service dirty => exact one _ (fun _ => trivial) rfl
  | closer => exact safe_bind (Runner.safe_runManagedCloses.mono fun _ _ _ _ => safe_done)
  | time => exact one _ (fun _ => trivial) rfl

/-- In every run the invariants hold, and every call was made where it is proper. -/
theorem Running.kept (h : Running opts r s) :
    s.world.Kept ∧ Recorded World.history (Call.entry opts)
      (fun c w => w.Kept ∧ c.Proper opts r w) s.world := by
  refine reachable_recorded exec_history (leaseTokens_lawful opts) (fun w hw => ?_)
    (fun c choice w hI hp => hI.call c choice hp) (fun p w hp _ => hp.safe) h
  subst hw
  exact ⟨World.kept_start, rfl⟩

end AniInference
