import AniInference.Evidence
import AniInference.Lib.Triple

namespace AniInference
open Lib

/-- A plan in the specification of this generation, if there is one, stands beside its digest. -/
def Agreed (tenant service : Uuid) (generation : Generation) (w : World) : Prop :=
  ∀ spec, w.db.specs.lookup (tenant, service, generation) = some spec →
    ∀ plan, spec.gpuPlan = some plan → spec.gpuPlanDigest = some plan.executionDigest

/-- What a worker knows about the operation it has loaded, whatever happens since. -/
structure OperationContext.Known (opts : WorkOptions) (op : OperationContext) (w : World) :
    Prop where
  row : ∃ o, w.db.operations.lookup (op.tenantID, op.id) = some o ∧
    o.aim = (op.serviceID, op.kind, op.targetGeneration)
  issued : op.leaseToken < w.nextToken
  loaded : Loaded op w.history
  holds : ∃ desired, Holds opts op.tenantID op.serviceID op.leaseToken
    (desired, op.targetGeneration, some op.id) w
  step : op.step ∈ (Operation.paths op.kind).dropLast
  withdrew : Step.withdrawPublication ∈ Operation.before op.kind op.step →
    Withdrew (op.tenantID, op.id) op.serviceID op.targetGeneration w.history
  absent : Step.observeAbsence ∈ Operation.before op.kind op.step →
    Absent (op.tenantID, op.id) w.history
  sealing : ∀ t, op.managedGPUReleaseSealedAt = some t →
    Sealed op.tenantID op.serviceID t w.history
  reservations : ∀ reservation,
    op.reservation = some reservation ∨ op.previousReservation = some reservation →
    reservation.tenantID = op.tenantID ∧ reservation.leaseToken = op.leaseToken ∧
      reservation.fenceOperationID = some op.id
  publication : op.publication.tenantID = op.tenantID ∧ op.publication.serviceID = op.serviceID
  plan : op.gpuSnapshot = none → Agreed op.tenantID op.serviceID op.targetGeneration w

def OperationContext.Fenced (op : OperationContext) (w : World) : Prop :=
  w.db.fenced op.tenantID op.id op.leaseToken w.now = true

/-- Every write to a release scope was made by a worker that passed the fence then. -/
def ScopesFenced (history : List Entry) : Prop :=
  ∀ e ∈ history, ∀ op scope, e.call = .write (.releaseScope op scope) →
    e.before.fenced op.tenantID op.id op.leaseToken e.time = true

/-- Where the seal of a scope comes from. -/
def ReleaseScope.Dated (scope : ReleaseScope) (tenant service operation : Uuid)
    (w : World) : Prop :=
  ∀ t, scope.sealedAt = some t →
    Sealed tenant service t w.history ∨ w.db.OtherScope tenant service operation

/-- What a worker writes to a release scope: a merge into the scope it read, which is the one
that is stored if no other worker wrote out of turn. -/
def OperationContext.Merges (op : OperationContext) (scope : ReleaseScope) (w : World) : Prop :=
  scope.Dated op.tenantID op.serviceID op.scopeOperation w ∧
  ∃ existing pods, Runner.mergedScope op.managedGPUReleaseSealedAt pods existing = .ok scope ∧
    (ScopesFenced w.history → op.Fenced w →
      w.db.releaseScopes.lookup (op.tenantID, op.serviceID, op.scopeOperation) = existing ∧
      ∀ t, existing.bind (·.sealedAt) = some t → op.managedGPUReleaseSealedAt = some t)

/-- The transition is the claim of a pending step, or what a step that was run asks for. -/
def OperationContext.Asks (r : Runner) (op : OperationContext) (t : StepTransition)
    (history : List Entry) : Prop :=
  (op.phase = .pending ∧ t = Runner.transitionOf op .running op.step "" none) ∨
  (op.phase = .running ∧ ∃ result es, Prog.Played (Runner.runStep r op).run es (.ok result) ∧
    es.reverse.Sublist (history.map Entry.seen) ∧
    t = Runner.transitionOf op result.phase result.step "" none ∧
    (op.step = .withdrawPublication →
      Withdrew (op.tenantID, op.id) op.serviceID op.targetGeneration history) ∧
    (op.step = .observeAbsence → Absent (op.tenantID, op.id) history))

/-- What holds where a worker writes. -/
def Write.Proper (opts : WorkOptions) (r : Runner) : Write → World → Prop
  | .advance t _, w => ∃ op : OperationContext, op.Known opts w ∧ op.Asks r t w.history
  | .retry t _ _, w => ∃ (op : OperationContext) (cause : Err), op.Known opts w ∧
      op.phase.active = true ∧ t = Runner.transitionOf op .pending op.step
        "provider_retry" (some cause)
  | .quota reservation, w => ∃ op : OperationContext, op.Known opts w ∧
      reservation.tenantID = op.tenantID ∧ reservation.leaseToken = op.leaseToken ∧
      reservation.fenceOperationID = some op.id ∧
      (reservation.state = .released → Step.observeAbsence ∈ Operation.before op.kind op.step)
  | .publication p, w => ∃ op : OperationContext, op.Known opts w ∧
      p.tenantID = op.tenantID ∧ p.serviceID = op.serviceID ∧ p.leaseToken = op.leaseToken ∧
      p.fenceOperationID = some op.id
  | .runtimeObservation op _, w | .modelObservation op _, w | .modelMaterializing op, w =>
      op.Known opts w
  | .gpuSnapshot op _, w => op.Known opts w ∧ op.gpuSnapshot = none
  | .observation _ _, _ | .releaseReport .., _ => True
  | .releaseScope op scope, w => op.Known opts w ∧ op.Merges scope w

/-- What holds where a worker calls a port. -/
def Provider.Proper (opts : WorkOptions) : Provider → World → Prop
  | .applyRuntime op, w => op.Known opts w ∧ op.step = .applyRuntime
  | .deleteRuntime op, w => op.Known opts w ∧ op.step = .deleteRuntime
  | .observeAbsence op, w => op.Known opts w ∧ op.step = .observeAbsence
  | .quotaRelease reservation, w => ∃ op : OperationContext, op.Known opts w ∧
      reservation.tenantID = op.tenantID ∧ reservation.fenceOperationID = some op.id ∧
      Step.observeAbsence ∈ Operation.before op.kind op.step
  | .releaseManagedGPU op, w => op.Known opts w ∧ op.kind = .delete ∧
      Step.observeAbsence ∈ Operation.before op.kind op.step
  | _, _ => True

/-- The discipline of the calls. -/
def Call.Proper (opts : WorkOptions) (r : Runner) : Call → World → Prop
  | .write x, w => x.Proper opts r w
  | .provider p, w => p.Proper opts w
  | _, _ => True

/-- The operation `k` is where the calls in the history took it. -/
structure OperationRow.Followed (k : Uuid × Uuid) (o : OperationRow) (history : List Entry) :
    Prop where
  path : o.step ∈ Operation.paths o.kind
  active : o.phase.active = true → o.step ≠ .complete
  succeeded : o.phase = .succeeded → o.step = .complete
  trail : Operation.Trail o.kind o.step (completed k history)
  withdrew : Step.withdrawPublication ∈ Operation.before o.kind o.step →
    Withdrew k o.serviceID o.targetGeneration history
  absent : Step.observeAbsence ∈ Operation.before o.kind o.step → Absent k history

structure World.Followed (w : World) : Prop where
  rows : ∀ k o, w.db.operations.lookup k = some o → o.Followed k w.history
  fresh : ∀ k, w.db.operations.lookup k = none → completed k w.history = []

/-- Every seal was taken after an observed absence, or is not kept under a create. -/
structure World.Dated (w : World) : Prop where
  named : ∀ k m, w.db.managedResources.lookup k = some m →
    m.originalContext.originalCreateOperationID = m.createOperationID
  seals : ∀ tenant service operation scope,
    w.db.releaseScopes.lookup (tenant, service, operation) = some scope →
    scope.Dated tenant service operation w

/-- Everything `old` has, `new` has too. -/
structure ReleaseScope.Within (old new : ReleaseScope) : Prop where
  pods : ∀ p ∈ old.pods, p ∈ new.pods
  sealing : ∀ t, old.sealedAt = some t → new.sealedAt = some t

/-- What was once written to a release scope is still there, if every writer passed the fence. -/
def World.ScopesKept (w : World) : Prop :=
  ScopesFenced w.history → ∀ e ∈ w.history, ∀ op scope, e.call = .write (.releaseScope op scope) →
    e.after.releaseScopes.lookup (op.tenantID, op.serviceID, op.scopeOperation) = some scope →
    (∃ s, w.db.services.lookup (op.tenantID, op.serviceID) = some s) ∧
    ∃ scope', w.db.releaseScopes.lookup (op.tenantID, op.serviceID, op.scopeOperation) =
      some scope' ∧ scope.Within scope'

structure World.Kept (w : World) : Prop where
  chronicle : w.Chronicle
  followed : w.Followed
  dated : w.Dated
  scopes : w.ScopesKept

/-- No specification is added for a generation that an operation is for already. -/
theorem Agreed.call (h : Agreed tenant service generation w) (hw : w.Kept)
    (hrow : ∃ o, w.db.operations.lookup (tenant, id') = some o ∧
      o.aim = (service, kind, generation)) (c : Call) (choice : c.Choice) :
    Agreed tenant service generation (exec opts c choice w).2 := by
  intro spec hspec
  cases (exec_effect opts c choice w).spec (tenant, service, generation) with
  | none _ same => exact h spec (same.symm.trans hspec)
  | added _ _ next =>
    obtain ⟨o, ho, haim⟩ := hrow
    cases haim
    obtain ⟨s, hs, hle, _⟩ := hw.chronicle.sound.aggregate.target _ o ho
    have hnext : o.targetGeneration = s.desiredGeneration + 1 := next s hs
    rw [hnext] at hle
    exact absurd hle (Nat.not_succ_le_self _)
  | planned _ _ _ written =>
    rw [written] at hspec
    obtain rfl := Option.some.inj hspec
    rintro plan ⟨⟩
    rfl

/-- Only the end of the worker's own turn makes its knowledge old. -/
theorem OperationContext.Known.call {op : OperationContext} (h : op.Known opts w) (hw : w.Kept)
    (c : Call) (choice : c.Choice) (hs : c.settles ≠ some op.leaseToken) :
    op.Known opts (exec opts c choice w).2 where
  row := by
    obtain ⟨o, ho, haim⟩ := h.row
    obtain ⟨o', ho', haim'⟩ := (exec_effect opts c choice w).aim ho
    exact ⟨o', ho', haim'.trans haim⟩
  issued := Nat.lt_succ_of_lt h.issued
  loaded := h.loaded.cons
  holds := by
    obtain ⟨desired, hh⟩ := h.holds
    exact ⟨desired, hh.call h.issued c choice hs⟩
  step := h.step
  withdrew hb := (h.withdrew hb).cons
  absent hb := (h.absent hb).cons
  sealing t ht := (h.sealing t ht).cons
  reservations := h.reservations
  publication := h.publication
  plan hnone := (h.plan hnone).call hw h.row c choice

theorem World.followed_start : World.start.Followed where
  rows := by simp [World.start, Db.empty]
  fresh := by simp [World.start, completed]

theorem World.dated_start : World.start.Dated where
  named := by simp [World.start, Db.empty]
  seals := by simp [World.start, Db.empty]

theorem World.scopesKept_start : World.start.ScopesKept := by
  intro _ e he
  cases he

theorem World.kept_start : World.start.Kept :=
  ⟨World.chronicle_start, World.followed_start, World.dated_start, World.scopesKept_start⟩

namespace ReleaseScope

theorem Within.refl (scope : ReleaseScope) : scope.Within scope := ⟨fun _ h => h, fun _ h => h⟩

theorem Within.trans {a b : ReleaseScope} (h : a.Within b) (h' : b.Within c) : a.Within c :=
  ⟨fun p hp => h'.pods p (h.pods p hp), fun t ht => h'.sealing t (h.sealing t ht)⟩

/-- A merge keeps what is known. -/
theorem mem_mergeReleasePods {known pods merged : List Gpu.PodRef}
    (h : Runner.mergeReleasePods known pods = .ok merged) : ∀ p ∈ known, p ∈ merged := by
  induction pods generalizing known with
  | nil =>
    simp only [Runner.mergeReleasePods, Except.ok.injEq] at h
    subst h
    exact fun p hp => hp
  | cons p rest ih =>
    unfold Runner.mergeReleasePods at h
    split at h
    · split at h
      · exact ih h
      · cases h
    · intro q hq
      exact ih h q (by simp [hq])

/-- A merge by a worker that knows the seal keeps the scope. -/
theorem within_mergedScope {sealedAt : Option Time} {pods : List Gpu.PodRef}
    {old new : ReleaseScope} (h : Runner.mergedScope sealedAt pods (some old) = .ok new)
    (hseal : ∀ t, old.sealedAt = some t → sealedAt = some t) : old.Within new := by
  simp only [Runner.mergedScope] at h
  cases hm : Runner.mergeReleasePods old.pods pods with
  | error e =>
    rw [hm] at h
    cases h
  | ok merged =>
    rw [hm] at h
    injection h with h
    subst h
    refine ⟨mem_mergeReleasePods hm, fun t ht => ?_⟩
    change (sealedAt.orElse fun _ => old.sealedAt) = some t
    rw [hseal t ht]
    rfl

end ReleaseScope

section
variable {opts : WorkOptions} {r : Runner} {w : World}

theorem ReleaseScope.Dated.call {scope : ReleaseScope} (h : scope.Dated tenant service operation w)
    (c : Call) (choice : c.Choice) :
    scope.Dated tenant service operation (exec opts c choice w).2 := by
  intro t ht
  rcases h t ht with hs | ⟨m, hm, hne⟩
  · exact .inl hs.cons
  · obtain ⟨m', hm', hkeeps⟩ := (exec_effect opts c choice w).managed.kept _ m hm
    exact .inr ⟨m', hm', hkeeps.createOperationID ▸ hne⟩

/-- Seals stay dated. -/
theorem World.Dated.call (h : w.Dated) (c : Call) (choice : c.Choice) (hp : c.Proper opts r w) :
    (exec opts c choice w).2.Dated where
  named k m' hm' := by
    have hkept := (exec_effect opts c choice w).managed
    cases hm : w.db.managedResources.lookup k with
    | none => exact hkept.fresh k m' hm hm'
    | some m =>
      obtain ⟨m₁, hm₁, hkeeps⟩ := hkept.kept k m hm
      rw [hm'] at hm₁
      obtain rfl := Option.some.inj hm₁
      rw [hkeeps.originalContext, hkeeps.createOperationID]
      exact h.named k m hm
  seals tenant service operation scope hs := by
    cases (exec_effect opts c choice w).scope (tenant, service, operation) with
    | none _ same =>
      rw [same] at hs
      exact (h.seals tenant service operation scope hs).call c choice
    | @saved op scope' key written =>
      rw [written] at hs
      obtain rfl := Option.some.inj hs
      obtain ⟨rfl, rfl, rfl⟩ : tenant = op.tenantID ∧ service = op.serviceID ∧
          operation = op.scopeOperation := by simpa using key
      have hproper : op.Known opts w ∧ op.Merges scope' w := hp
      exact hproper.2.1.call _ choice
    | closed _ other _ => exact fun t _ => .inr other

/-- A worker that passes the fence keeps the scope it writes to, and there is no other writer
while the service is there. -/
theorem ReleaseScope.kept (c : Call) (choice : c.Choice) (hp : c.Proper opts r w)
    (hall : ScopesFenced (c.entry opts choice w :: w.history))
    (hs : w.db.services.lookup (tenant, service) = some s)
    (hscope : w.db.releaseScopes.lookup (tenant, service, operation) = some scope) :
    ∃ scope', (exec opts c choice w).2.db.releaseScopes.lookup (tenant, service, operation) =
      some scope' ∧ scope.Within scope' := by
  cases (exec_effect opts c choice w).scope (tenant, service, operation) with
  | none _ same => exact ⟨scope, same.trans hscope, .refl scope⟩
  | @saved op scope' key written =>
    obtain ⟨rfl, rfl, rfl⟩ : tenant = op.tenantID ∧ service = op.serviceID ∧
        operation = op.scopeOperation := by simpa using key
    obtain ⟨_, _, existing, pods, hm, hread⟩ : op.Known opts w ∧ op.Merges scope' w := hp
    have hfenced := hall _ List.mem_cons_self op scope' rfl
    obtain ⟨hstored, hseal⟩ := hread (fun e he => hall e (List.mem_cons_of_mem _ he)) hfenced
    obtain rfl : some scope = existing := hscope.symm.trans hstored
    exact ⟨scope', written, within_mergedScope hm fun t ht => hseal t (by simpa using ht)⟩
  | closed absent _ _ =>
    rw [hs] at absent
    cases absent

theorem World.ScopesKept.call (h : w.ScopesKept) (hw : w.Chronicle) (c : Call) (choice : c.Choice)
    (hp : c.Proper opts r w) : (exec opts c choice w).2.ScopesKept := by
  intro hall e he op scope hcall hafter
  rw [exec_history] at hall he
  rcases List.mem_cons.mp he with rfl | he
  · obtain rfl : c = .write (.releaseScope op scope) := hcall
    obtain ⟨hknown, _⟩ : op.Known opts w ∧ op.Merges scope w := hp
    obtain ⟨o, ho, haim⟩ := hknown.row
    obtain ⟨s, hs, _⟩ := hw.sound.aggregate.target _ o ho
    rw [show o.serviceID = op.serviceID from congrArg Prod.fst haim] at hs
    obtain ⟨s', hs', _⟩ := (exec_effect opts _ choice w).service_kept hs
    exact ⟨⟨s', hs'⟩, scope, hafter, .refl scope⟩
  · have htail : ScopesFenced w.history := fun e he => hall e (List.mem_cons_of_mem _ he)
    obtain ⟨⟨s, hs⟩, scope₁, hscope₁, hwithin⟩ := h htail e he op scope hcall hafter
    obtain ⟨s', hs', _⟩ := (exec_effect opts c choice w).service_kept hs
    obtain ⟨scope₂, hscope₂, hwithin'⟩ := ReleaseScope.kept c choice hp hall hs hscope₁
    exact ⟨⟨s', hs'⟩, scope₂, hscope₂, hwithin.trans hwithin'⟩

/-- A call that leaves the step of an operation where it is. -/
theorem OperationRow.Followed.stay {o o' : OperationRow} {e : Entry} (h : o.Followed k history)
    (haim : o'.aim = o.aim) (hstep : o'.step = o.step) (hleft : e.left k = none)
    (hactive : o'.phase.active = true → o.step ≠ .complete)
    (hsucceeded : o'.phase = .succeeded → o.step = .complete) : o'.Followed k (e :: history) := by
  simp only [OperationRow.aim, Prod.mk.injEq] at haim
  obtain ⟨hsv, hkind, hgen⟩ := haim
  refine ⟨?_, ?_, ?_, ?_, ?_, ?_⟩
  · rw [hstep, hkind]
    exact h.path
  · rw [hstep]
    exact hactive
  · rw [hstep]
    exact hsucceeded
  · rw [hstep, hkind, completed, hleft, Option.toList_none, List.append_nil]
    exact h.trail
  · rw [hstep, hkind, hsv, hgen]
    exact fun hb => (h.withdrew hb).cons
  · rw [hstep, hkind]
    exact fun hb => (h.absent hb).cons

/-- A call that takes an operation on from a step it has completed. -/
theorem OperationRow.Followed.advance {o o' : OperationRow} {e : Entry} (h : o.Followed k history)
    (haim : o'.aim = o.aim) (hleads : Operation.Leads o.kind o.step o'.phase o'.step)
    (hleft : o'.step ≠ o.step → e.left k = some o.step)
    (hwithdrew : o.step = .withdrawPublication → Withdrew k o.serviceID o.targetGeneration history)
    (habsent : o.step = .observeAbsence → Absent k history) : o'.Followed k (e :: history) := by
  simp only [OperationRow.aim, Prod.mk.injEq] at haim
  obtain ⟨hsv, hkind, hgen⟩ := haim
  have hne : o'.step ≠ o.step := hleads.ne
  refine ⟨?_, ?_, ?_, ?_, ?_, ?_⟩
  · rw [hkind]
    exact hleads.mem
  · exact hleads.complete.1
  · exact hleads.complete.2
  · rw [hkind, completed, hleft hne]
    exact hleads.trail h.trail
  · rw [hkind, hsv, hgen]
    intro hb
    rcases hleads.before hb with hb | hb | hb
    · exact (h.withdrew hb).cons
    · exact (hwithdrew hb.symm).cons
    · cases hb
  · rw [hkind]
    intro hb
    rcases hleads.before hb with hb | hb | hb
    · exact (h.absent hb).cons
    · exact (habsent hb.symm).cons
    · cases hb

theorem left_entry (ho : w.db.operations.lookup k = some o)
    (ho' : (exec opts c choice w).2.db.operations.lookup k = some o') :
    (c.entry opts choice w).left k = if o'.step = o.step then none else some o.step := by
  have hbefore : (c.entry opts choice w).before.operations.lookup k = some o := ho
  have hafter : (c.entry opts choice w).after.operations.lookup k = some o' := ho'
  simp only [Entry.left, hbefore, hafter]

/-- What was asked for leads on along the path. -/
theorem OperationContext.Asks.leads
    (hresult : ∃ result es, Prog.Played (Runner.runStep r op).run es (.ok result) ∧
      t = Runner.transitionOf op result.phase result.step "" none) (hrunning : op.phase = .running)
    (hchecked : Store.checkTransition t none = .ok ()) :
    Operation.Leads op.kind op.step t.nextPhase t.nextStep := by
  obtain ⟨result, es, hplayed, rfl⟩ := hresult
  have hasks := Runner.ends_runStep r op es result hplayed
  have hvalid : Operation.validateStepTransition op.kind .running op.step result.phase result.step =
      .ok () := by
    simp only [Store.checkTransition, Runner.transitionOf, hrunning] at hchecked
    cases hv : Operation.validateStepTransition op.kind .running op.step result.phase
      result.step with
    | error e =>
      rw [hv] at hchecked
      cases hchecked
    | ok u => rfl
  refine Operation.leads_of_valid hvalid fun hfailed => ?_
  have hphase := congrArg Prod.fst hasks
  change result.phase = _ at hphase
  rw [show result.phase = .failed from hfailed] at hphase
  revert hphase
  cases op.step <;> simp [Runner.asks]

/-- What a proper call does to the row of an operation keeps the row on its path. -/
theorem OperationRow.Followed.change {k : Uuid × Uuid} {o o' : OperationRow} {c : Call}
    {choice : c.Choice} (h : o.Followed k w.history) (hp : c.Proper opts r w)
    (ho : w.db.operations.lookup k = some o)
    (ho' : (exec opts c choice w).2.db.operations.lookup k = some o')
    (hc : RowChange w.now w.db (exec opts c choice w).2.db k o c o') :
    o'.Followed k (c.entry opts choice w :: w.history) := by
  have hleft := left_entry ho ho'
  have haim := hc.aim
  cases hc with
  | none => exact h.stay haim rfl (hleft.trans (if_pos rfl)) h.active h.succeeded
  | cancelled =>
    exact h.stay haim rfl (hleft.trans (if_pos rfl)) (fun ha => nomatch ha) (fun hs => nomatch hs)
  | @retried t after event key matched =>
    obtain ⟨op, cause, hknown, _, rfl⟩ : Write.Proper opts r (.retry t after event) w := hp
    obtain ⟨_, _, hstep, _⟩ := Store.stepMatches_iff.mp matched
    refine h.stay haim rfl (hleft.trans (if_pos rfl)) (fun _ hcomplete => ?_) (fun hs => nomatch hs)
    have hmem := hknown.step
    rw [show op.step = o.step from hstep.symm, hcomplete] at hmem
    exact Operation.complete_notMem_dropLast _ hmem
  | @advanced t event key checked matched =>
    obtain ⟨op, hknown, hasks⟩ : Write.Proper opts r (.advance t event) w := hp
    obtain ⟨_, _, hmatched, _⟩ := Store.stepMatches_iff.mp matched
    obtain ⟨row, hrow, hrowaim⟩ := hknown.row
    rcases hasks with ⟨hpending, rfl⟩ | ⟨hrunning, result, es, hplayed, _, rfl, hwithdrew, habsent⟩
    · -- The claim of a pending step.
      have hstep : op.step = o.step := hmatched.symm
      refine h.stay haim hstep (hleft.trans (if_pos hstep)) (fun _ hcomplete => ?_)
        (fun hs => nomatch hs)
      have hmem := hknown.step
      rw [hstep, hcomplete] at hmem
      exact Operation.complete_notMem_dropLast _ hmem
    · obtain rfl : (op.tenantID, op.id) = k := key
      rw [ho] at hrow
      obtain rfl := Option.some.inj hrow
      simp only [OperationRow.aim, Prod.mk.injEq] at hrowaim
      obtain ⟨hsv, hkind, hgen⟩ := hrowaim
      have hstep : o.step = op.step := hmatched
      have hleads := OperationContext.Asks.leads ⟨result, es, hplayed, rfl⟩ hrunning checked
      rw [← hkind, ← hstep] at hleads
      refine h.advance haim hleads (fun hne => ?_) (fun hs => ?_) (fun hs => ?_)
      · rw [hleft, if_neg hne]
      · rw [hsv, hgen]
        exact hwithdrew (hstep ▸ hs)
      · exact habsent (hstep ▸ hs)

theorem World.Followed.call (h : w.Followed) (c : Call) (choice : c.Choice)
    (hp : c.Proper opts r w) : (exec opts c choice w).2.Followed where
  rows k o' ho' := by
    rw [exec_history]
    cases ho : w.db.operations.lookup k with
    | some o =>
      obtain ⟨o₁, ho₁, hc⟩ := (exec_effect opts c choice w).operation ho
      rw [ho'] at ho₁
      obtain rfl := Option.some.inj ho₁
      exact (h.rows k o ho).change hp ho ho' hc
    | none =>
      obtain ⟨service, kind, step, target, hash, rfl, hhead⟩ :=
        (exec_effect opts c choice w).operation_new ho ho'
      have hbefore := Operation.before_of_head hhead
      have hleft : (c.entry opts choice w).left k = none := by
        have hnone : (c.entry opts choice w).before.operations.lookup k = none := ho
        simp only [Entry.left, hnone]
      have hdone : completed k (c.entry opts choice w :: w.history) = [] := by
        rw [completed, hleft, h.fresh k ho]
        rfl
      have hmem : step ∈ Operation.paths kind := List.mem_of_head? hhead
      refine ⟨hmem, fun _ hcomplete => ?_, (nomatch ·), ?_, fun hb => ?_, fun hb => ?_⟩
      · obtain rfl : step = .complete := hcomplete
        cases kind <;> simp [Operation.paths] at hhead
      · exact .inl (hdone.trans hbefore.symm)
      · change _ ∈ Operation.before kind step at hb
        rw [hbefore] at hb
        cases hb
      · change _ ∈ Operation.before kind step at hb
        rw [hbefore] at hb
        cases hb
  fresh k hn := by
    have hnone : w.db.operations.lookup k = none := by
      cases ho : w.db.operations.lookup k with
      | none => rfl
      | some o =>
        obtain ⟨o', ho', _⟩ := (exec_effect opts c choice w).operation ho
        rw [hn] at ho'
        cases ho'
    have hleft : (c.entry opts choice w).left k = none := by
      have hbefore : (c.entry opts choice w).before.operations.lookup k = none := hnone
      simp only [Entry.left, hbefore]
    rw [exec_history, completed, hleft, h.fresh k hnone]
    rfl

/-- Proper calls keep the invariant. -/
theorem World.Kept.call (h : w.Kept) (c : Call) (choice : c.Choice) (hp : c.Proper opts r w) :
    (exec opts c choice w).2.Kept :=
  ⟨h.chronicle.exec c choice, h.followed.call c choice hp, h.dated.call c choice hp,
    h.scopes.call h.chronicle c choice hp⟩

end

end AniInference
