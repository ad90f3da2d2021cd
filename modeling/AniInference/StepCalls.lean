import AniInference.Authorship

namespace AniInference
open Lib Prog

/-- What the step of an operation writes. -/
def Write.OfStep (op : OperationContext) : Write → Prop
  | .quota x =>
    (op.step = .reserveQuota ∧ (x.state = .confirmed ∨ x.state = .reserved)) ∨
      ((op.step = .releaseQuota ∨ op.step = .releasePreviousQuota) ∧
        (x.state = .released ∨ x.state = .releasePending))
  | .publication p =>
    (op.step = .withdrawPublication ∧
      (p = Runner.withPublication op .withdrawing ∨ p = Runner.withPublication op .withdrawn)) ∨
    (op.step = .publish ∧ (p = Runner.withPublication op .publishing ∨
      ∃ url, p = { Runner.withPublication op .published with url := url }))
  | .runtimeObservation x _ =>
    (op.step = .observeRuntime ∨ op.step = .observeAbsence) ∧ x.tenantID = op.tenantID ∧
      x.serviceID = op.serviceID ∧ x.targetGeneration = op.targetGeneration ∧ x.step = op.step
  | .advance .. | .retry .. | .observation .. => False
  | _ => True

/-- What the step of an operation asks of the ports. -/
def Provider.OfStep (op : OperationContext) : Provider → Prop
  | .admission _ => op.step = .admission
  | .quotaGet .. | .quotaReserve _ | .quotaConfirm _ => op.step = .reserveQuota
  | .resolveGPU _ => op.step = .resolveGPU
  | .applyCR _ => op.step = .applyCR
  | .ensureModel _ => op.step = .materializeModel
  | .applyRuntime _ => op.step = .applyRuntime
  | .observeRuntime _ => op.step = .observeRuntime
  | .withdraw _ | .confirmWithdrawn _ => op.step = .withdrawPublication
  | .deleteRuntime _ => op.step = .deleteRuntime
  | .observeAbsence _ => op.step = .observeAbsence
  | .deleteCR _ | .cleanupModel _ => op.step = .deleteCR
  | .publish _ | .confirmPublished _ | .endpoint _ => op.step = .publish
  | .quotaRelease _ => op.step = .releaseQuota ∨ op.step = .releasePreviousQuota
  | .releaseManagedGPU _ | .reportReleased _ => op.step = .releaseQuota
  | .ensureRuntime _ => False

/-- The calls of the step of an operation. -/
def Call.OfStep (op : OperationContext) : Call → Prop
  | .read _ | .clock => True
  | .write x => x.OfStep op
  | .provider p => p.OfStep op
  | .request _ | .work _ | .tick => False

/-- The calls of the close scanner. -/
def Call.OfCloser : Call → Prop
  | .read _ | .provider (.reportReleased _) | .write (.releaseReport ..) => True
  | .work k => k.closes = true
  | _ => False

namespace Runner
open M
section
variable {r : Runner} {op : OperationContext} {P : Call → Prop}

theorem only_validateReservation : (validateReservation op reservation).run.Only P := only_failIf

theorem only_confirm (hstep : op.step = .reserveQuota) (hstate : state = .reserved) :
    (confirm op reservation state).run.Only (Call.OfStep op) := by
  refine only_run_bind (only_attempt (only_provider hstep)) fun a => ?_
  cases a with
  | ok u => exact only_pure
  | error e => exact only_joinWith (only_write (.inl ⟨hstep, .inr hstate⟩))

theorem only_reserveQuota (hstep : op.step = .reserveQuota) :
    (reserveQuota op reservation).run.Only (Call.OfStep op) := by
  refine only_run_bind ?_ fun recovered => only_ite (fun _ => ?_) fun _ => ?_
  · refine only_ite (fun _ => only_pure) fun _ => ?_
    refine only_run_bind (only_attempt (only_provider hstep)) fun a => ?_
    split
    · exact only_ite (fun _ => only_pure) fun _ =>
        only_run_bind only_validateReservation fun _ => only_pure
    · exact only_pure
    · exact only_throw
  · exact only_run_bind (only_onlyIf fun _ => only_write (.inl ⟨hstep, .inl rfl⟩))
      fun _ => only_pure
  · refine only_run_bind (only_ite (fun hreserved => only_confirm hstep hreserved) fun _ => ?_)
      fun reserved => only_run_bind (only_write (.inl ⟨hstep, .inl rfl⟩)) fun _ => only_pure
    refine only_run_bind (only_provider hstep) fun reserved => ?_
    exact only_run_bind only_validateReservation fun _ => only_confirm hstep rfl

theorem only_runReserveQuota (hstep : op.step = .reserveQuota) :
    (runReserveQuota r op).run.Only (Call.OfStep op) := by
  refine only_ite (fun _ => only_pure) fun _ => only_ite (fun _ => only_pure) fun _ => ?_
  cases op.reservation with
  | none => exact only_throw
  | some reservation =>
    refine only_run_bind only_validateReservation fun _ => only_ite (fun _ => only_pure) fun _ => ?_
    exact only_reserveQuota hstep

theorem only_runResolveGPU (hstep : op.step = .resolveGPU) :
    (runResolveGPU r op).run.Only (Call.OfStep op) := by
  refine only_run_bind only_failIf fun _ => only_ite (fun _ => only_pure) fun _ =>
    only_run_bind only_checked fun _ => only_ite (fun _ => ?_) fun _ => ?_
  · exact only_run_bind (only_discard only_checked) fun _ => only_pure
  · exact only_run_bind only_failIf fun _ => only_run_bind only_failIf fun _ =>
      only_run_bind (only_provider hstep) fun _ => only_run_bind only_checked fun _ =>
      only_run_bind only_checked fun _ => only_run_bind (only_write trivial) fun _ => only_pure

theorem only_releaseReservation
    (hstep : op.step = .releaseQuota ∨ op.step = .releasePreviousQuota) :
    (releaseReservation op reservation).run.Only (Call.OfStep op) := by
  refine only_run_bind (only_attempt (only_provider hstep)) fun a => ?_
  cases a with
  | ok u => exact only_write (.inr ⟨hstep, .inl rfl⟩)
  | error e => exact only_joinWith (only_write (.inr ⟨hstep, .inr rfl⟩))

theorem only_runReleasePreviousQuota (hstep : op.step = .releasePreviousQuota) :
    (runReleasePreviousQuota r op).run.Only (Call.OfStep op) := by
  refine only_ite (fun _ => only_pure) fun _ => only_ite (fun _ => only_pure) fun _ => ?_
  cases op.previousReservation with
  | none => exact only_pure
  | some reservation =>
    exact only_run_bind (only_releaseReservation (.inr hstep)) fun _ => only_pure

theorem only_saveManagedGPUReleasePods :
    (saveManagedGPUReleasePods op' pods).run.Only (Call.OfStep op) :=
  only_run_bind only_settled fun _ => only_run_bind (only_read trivial) fun _ =>
    only_run_bind only_settled fun _ => only_write trivial

theorem only_loadManagedGPUReleasePods (hread : ∀ q, P (.read q)) :
    (loadManagedGPUReleasePods op').run.Only P := by
  refine only_run_bind (only_read (hread _)) fun scope => ?_
  cases scope with
  | none => exact only_throw
  | some scope => exact only_run_bind only_checked fun _ => only_pure

theorem only_runObserveRuntime (hstep : op.step = .observeRuntime) :
    (runObserveRuntime r op).run.Only (Call.OfStep op) :=
  only_run_bind only_failIf fun _ => only_run_bind (only_provider hstep) fun _ =>
    only_run_bind (only_write ⟨.inl hstep, rfl, rfl, rfl, rfl⟩) fun _ =>
    only_run_bind (only_onlyIf fun _ => only_saveManagedGPUReleasePods) fun _ =>
    only_run_bind only_failIf fun _ => only_pure

theorem only_runObserveAbsence (hstep : op.step = .observeAbsence) :
    (runObserveAbsence r op).run.Only (Call.OfStep op) := by
  refine only_run_bind only_failIf fun _ => only_run_bind (only_provider hstep) fun observation =>
    only_run_bind (only_write ⟨.inr hstep, rfl, rfl, rfl, rfl⟩) fun _ =>
    only_run_bind (only_onlyIf fun _ => ?_) fun _ =>
    only_run_bind (only_onlyIf fun _ =>
      only_discard (only_loadManagedGPUReleasePods fun _ => trivial)) fun _ =>
    only_run_bind only_failIf fun _ => only_pure
  refine only_run_bind (only_ite (fun _ => ?_) fun _ => only_pure) fun _ =>
    only_saveManagedGPUReleasePods
  exact only_run_bind (only_clock trivial) fun _ => only_pure

theorem only_runWithdrawPublication (hstep : op.step = .withdrawPublication) :
    (runWithdrawPublication r op).run.Only (Call.OfStep op) :=
  only_run_bind only_failIf fun _ =>
    only_run_bind (only_write (.inl ⟨hstep, .inl rfl⟩)) fun _ =>
    only_run_bind (only_provider hstep) fun _ => only_run_bind (only_provider hstep) fun _ =>
    only_run_bind only_failIf fun _ =>
    only_run_bind (only_write (.inl ⟨hstep, .inr rfl⟩)) fun _ => only_pure

theorem only_runPublish (hstep : op.step = .publish) :
    (runPublish r op).run.Only (Call.OfStep op) := by
  refine only_run_bind only_failIf fun _ =>
    only_run_bind (only_write (.inr ⟨hstep, .inl rfl⟩)) fun _ =>
    only_run_bind (only_provider hstep) fun _ => only_run_bind (only_provider hstep) fun _ =>
    only_run_bind only_failIf fun _ => only_run_bind ?_ fun url =>
    only_run_bind (only_write (.inr ⟨hstep, .inr ⟨url, rfl⟩⟩)) fun _ => only_pure
  refine only_ite (fun _ => ?_) fun _ => only_pure
  exact only_run_bind (only_provider hstep) fun _ => only_run_bind only_failIf fun _ => only_pure

/-- The evidence is made of the seal and the Pods of an operation. -/
def Evidences (op : OperationContext) (create : Uuid) (proof : ReleaseProof) : Prop :=
  ∃ sealedAt, op.managedGPUReleaseSealedAt = some sealedAt ∧ newReleaseProof
    ⟨op.tenantID, op.serviceID, create, op.id, sealedAt, op.managedGPUReleasePods⟩ = .ok proof

/-- The report of a release reads, stores a report with its evidence and sends it. -/
theorem only_reportRelease (hread : ∀ q, P (.read q))
    (hwrite : ∀ original create proof, Evidences op' create proof → P (.write
      (.releaseReport original proof (releaseNotification op' create) op'.leaseToken)))
    (hsend : ∀ n, P (.provider (.reportReleased n))) : (reportRelease op').run.Only P := by
  have hcontext : ∀ tenant resource create,
      (loadRefundContext tenant resource create).run.Only P := by
    intro tenant resource create
    refine only_run_bind (only_read (hread _)) fun original => ?_
    cases original with
    | none => exact only_throw
    | some original => exact only_pure
  have hreport : ∀ original, (loadReleaseReport original).run.Only P := by
    intro original
    unfold loadReleaseReport
    cases original.deleteOperationID with
    | none => exact only_throw
    | some operation =>
      refine only_run_bind (only_read (hread _)) fun row => ?_
      cases row with
      | none => exact only_throw
      | some row =>
        dsimp only
        split
        · exact only_pure
        · exact only_run_bind only_failIf fun _ => only_run_bind only_settled fun _ => only_pure
  have hfresh : ∀ original create, (reportFresh op' original create).run.Only P := by
    intro original create
    unfold reportFresh
    cases hsealed : op'.managedGPUReleaseSealedAt with
    | none => exact only_throw
    | some sealedAt =>
      exact only_checked_bind fun proof hproof =>
        only_run_bind (only_wrapping (only_write (hwrite _ _ _ ⟨sealedAt, hsealed, hproof⟩)))
          fun _ => only_wrapping (only_provider (hsend _))
  refine only_run_bind only_failIf fun _ => ?_
  cases op'.managedGPUCreateOperationID with
  | none => exact only_throw
  | some create =>
    refine only_run_bind (only_wrapping (hcontext _ _ _)) fun original =>
      only_run_bind only_failIf fun _ => only_run_bind (hreport original) fun saved => ?_
    cases saved with
    | none => exact hfresh original create
    | some n => exact only_provider (hsend n)

/-- Where the step that releases a device writes, it has called the port and reports that. -/
theorem asks_runReleaseManagedGPU {x : Write}
    (h : Asks (runReleaseManagedGPU r op).run es (.write x)) :
    ∃ op' es₁ es₂, es = es₁ ++ ⟨.provider (.releaseManagedGPU op'), .ok ()⟩ :: es₂ ∧
      Asks (reportRelease op').run es₂ (.write x) := by
  obtain ⟨_, h₁⟩ := asks_failIf_bind.mp h
  rcases asks_run_bind.mp h₁ with h₁ | ⟨op', es₁, es₂, rfl, _, h₂⟩
  · have hreads : (releaseContext op).run.Only fun c => ∃ q, c = .read q :=
      only_ite (fun _ => only_run_bind (only_loadManagedGPUReleasePods fun q => ⟨q, rfl⟩)
        fun _ => only_pure) fun _ => only_pure
    obtain ⟨_, hc⟩ := hreads.asks h₁
    cases hc
  · rcases asks_provider_bind.mp h₂ with ⟨_, hc⟩ | ⟨_, es₃, rfl, h₃⟩
    · cases hc
    · rcases asks_run_bind.mp h₃ with h₃ | ⟨_, _, _, _, _, h₄⟩
      · exact ⟨op', es₁, es₃, rfl, h₃⟩
      · exact absurd h₄ asks_pure

theorem only_runReleaseQuota (hstep : op.step = .releaseQuota) :
    (runReleaseQuota r op).run.Only (Call.OfStep op) := by
  refine only_ite (fun _ => ?_) fun _ => only_ite (fun _ => only_pure) fun _ => ?_
  · refine only_run_bind only_failIf fun _ =>
      only_run_bind (only_ite (fun _ => ?_) fun _ => only_pure)
      fun op' => only_run_bind (only_provider hstep) fun _ => only_run_bind ?_ fun _ => only_pure
    · exact only_run_bind (only_loadManagedGPUReleasePods fun _ => trivial) fun _ => only_pure
    · exact only_reportRelease (fun _ => trivial) (fun _ _ _ _ => trivial) fun _ => hstep
  · cases op.reservation with
    | none => exact only_pure
    | some reservation =>
      refine only_ite (fun _ => ?_) fun _ => only_ite (fun _ => only_pure) fun _ => ?_
      · exact only_run_bind (only_write (.inr ⟨.inl hstep, .inl rfl⟩)) fun _ => only_pure
      · exact only_run_bind (only_releaseReservation (.inl hstep)) fun _ => only_pure

/-- The calls a step makes are its own. -/
theorem only_runStep : (runStep r op).run.Only (Call.OfStep op) := by
  unfold runStep
  cases hstep : op.step with
  | admission | applyCR | applyRuntime | deleteRuntime =>
    exact only_run_bind only_failIf fun _ => only_run_bind (only_provider hstep) fun _ => only_pure
  | reserveQuota => exact only_runReserveQuota hstep
  | resolveGPU => exact only_runResolveGPU hstep
  | releasePreviousQuota => exact only_runReleasePreviousQuota hstep
  | materializeModel =>
    exact only_run_bind only_failIf fun _ => only_run_bind (only_write trivial) fun _ =>
      only_run_bind (only_provider hstep) fun _ => only_run_bind only_failIf fun _ =>
      only_run_bind (only_write trivial) fun _ => only_pure
  | observeRuntime => exact only_runObserveRuntime hstep
  | withdrawPublication => exact only_runWithdrawPublication hstep
  | observeAbsence => exact only_runObserveAbsence hstep
  | deleteCR =>
    exact only_run_bind only_failIf fun _ => only_run_bind only_failIf fun _ =>
      only_run_bind (only_provider hstep) fun _ => only_run_bind (only_provider hstep) fun _ =>
      only_pure
  | publish => exact only_runPublish hstep
  | releaseQuota => exact only_runReleaseQuota hstep
  | verifyInvocation | complete => exact only_throw

theorem only_closeItem : (closeItem r item).run.Only Call.OfCloser := by
  refine only_run_bind ?_ fun original => only_run_bind only_failIf fun _ =>
    only_run_bind only_failIf fun _ => only_run_bind (only_read trivial) fun scope => ?_
  · refine only_run_bind (only_read trivial) fun original => ?_
    cases original with
    | none => exact only_throw
    | some original => exact only_pure
  · cases scope with
    | none => exact only_throw
    | some scope =>
      refine only_run_bind only_checked fun _ => ?_
      cases scope.sealedAt with
      | none => exact only_throw
      | some sealedAt =>
        exact only_reportRelease (fun _ => trivial) (fun _ _ _ _ => trivial) fun _ => trivial

theorem only_work (h : P (.work k)) : (work k).run.Only P := ⟨h, fun _ => trivial⟩

theorem only_closeTenants : (closeTenants r tenants).run.Only Call.OfCloser := by
  induction tenants with
  | nil => exact only_pure
  | cons tenant rest ih =>
    refine only_run_bind (only_attempt ?_) fun _ => ih
    refine only_run_bind (only_work rfl) fun found => ?_
    cases found with
    | none => exact only_pure
    | some item =>
      refine only_run_bind (only_attempt only_closeItem) fun a => ?_
      cases a with
      | ok u | error e => exact only_work rfl

theorem only_closer : (discard (runManagedCloses r).run).Only Call.OfCloser := by
  refine only_bind (only_run_bind (only_read trivial) fun _ => only_closeTenants) fun _ => ?_
  trivial

end

/-- The reservation `x` is what a worker makes of the row of the operation `id`. -/
structure FromRow (item : Item) (operation id : Uuid) (row : ReservationRow) (x : Reservation) :
    Prop where
  tenantID : x.tenantID = item.tenantID
  serviceID : x.serviceID = row.serviceID
  operationID : x.operationID = id
  generation : x.generation = row.generation
  reservationID : x.reservationID = some row.reservationID
  leaseToken : x.leaseToken = item.leaseToken
  fenceOperationID : x.fenceOperationID = some operation
  state : x.state = row.state

/-- What a reservation is loaded from. -/
def LoadedFrom (item : Item) (operation : Uuid) :
    Option (Uuid × ReservationRow) → Option Reservation → Prop
  | none, x => x = none
  | some (id, row), x => ∃ y, x = some y ∧ FromRow item operation id row y

/-- Where a loaded operation comes from: the calls and answers that make it up. -/
structure Loads (item : Item) (load : List Exchange) (op : OperationContext)
    (o : OperationRow) : Prop where
  tenantID : op.tenantID = item.tenantID
  leaseToken : op.leaseToken = item.leaseToken
  serviceID : op.serviceID = o.serviceID
  kind : op.kind = o.kind
  phase : op.phase = o.phase
  step : op.step = o.step
  attempt : op.attempt = o.attempt
  targetGeneration : op.targetGeneration = o.targetGeneration
  reads : ∀ x ∈ load, ∃ q, x.1 = .read q
  first : ∃ rest,
    load = ⟨.read (.leasedOperation item.tenantID item.leaseToken), .ok (some (op.id, o))⟩ :: rest
  managed : ∃ row es₁ es₂,
    load = es₁ ++ ⟨.read (.managedResource item.tenantID o.serviceID), .ok row⟩ :: es₂ ∧
    op.managed = row.isSome ∧ (op.managedGPU = true → row.isSome = true) ∧
    op.managedGPUCreateOperationID = row.map (·.originalContext.originalCreateOperationID)
  reservation : ∃ row es₁ es₂,
    load = es₁ ++
      ⟨.read (.activeReservation item.tenantID o.serviceID o.targetGeneration), .ok row⟩ :: es₂ ∧
    es₁ ≠ [] ∧ LoadedFrom item op.id row op.reservation
  previous : o.kind = .update ∨ o.kind = .restart → ∃ row es₁ es₂,
    load = es₁ ++
      ⟨.read (.previousReservation item.tenantID o.serviceID o.targetGeneration), .ok row⟩ :: es₂ ∧
    es₁ ≠ [] ∧ LoadedFrom item op.id row op.previousReservation
  unreplaced : ¬(o.kind = .update ∨ o.kind = .restart) → op.previousReservation = none
  publication : ∃ row es₁,
    (if o.step = .publish then
      load = es₁ ++
        [⟨.read (.publication item.tenantID o.serviceID o.targetGeneration), .ok row⟩]
    else
      load = es₁ ++
        [⟨.read (.latestPublication item.tenantID o.serviceID o.targetGeneration), .ok row⟩]) ∧
    es₁ ≠ [] ∧ op.publication.generation = row.elim o.targetGeneration Prod.fst
  published : op.publication.tenantID = item.tenantID ∧
    (op.publication.serviceID = o.serviceID ∨ op.publication.serviceID = item.serviceID)

section
variable {r : Runner} {op : OperationContext} {item : Item} {tenant service operation : Uuid}
variable {es load : List Exchange}

theorem played_loadManaged (h : Played (loadManaged tenant service).run es (.ok facts)) :
    ∃ row es', es = ⟨.read (.managedResource tenant service), .ok row⟩ :: es' ∧
      facts.managed = row.isSome ∧ (facts.managedGPU = true → row.isSome = true) ∧
      facts.createOperationID = row.map (·.originalContext.originalCreateOperationID) := by
  obtain ⟨row, es', rfl, hrest⟩ := played_read_bind_ok.mp h
  refine ⟨row, es', rfl, ?_⟩
  cases row with
  | none =>
    obtain ⟨_, hfacts⟩ := played_pure.mp hrest
    obtain rfl := Except.ok.inj hfacts
    exact ⟨rfl, id, rfl⟩
  | some resource =>
    obtain ⟨_, _, _, _, _, hend⟩ := played_run_bind_ok.mp hrest
    obtain ⟨_, hfacts⟩ := played_pure.mp hend
    obtain rfl := Except.ok.inj hfacts
    exact ⟨rfl, fun _ => rfl, rfl⟩

theorem played_loadReservation (h : Played (loadReservation item operation row).run es (.ok x)) :
    LoadedFrom item operation row x := by
  cases row with
  | none =>
    obtain ⟨_, hx⟩ := played_pure.mp h
    exact Except.ok.inj hx
  | some row =>
    obtain ⟨resources, _, hrest⟩ := played_checked_bind_ok.mp h
    obtain ⟨_, _, _, _, _, hend⟩ := played_run_bind_ok.mp hrest
    obtain ⟨_, hx⟩ := played_pure.mp hend
    obtain rfl := Except.ok.inj hx
    exact ⟨_, rfl, rfl, rfl, rfl, rfl, rfl, rfl, rfl, rfl⟩

theorem played_loadPublication (h : Played (loadPublication item operation o).run es (.ok p)) :
    ∃ row, (if o.step = .publish then
        es = [⟨.read (.publication item.tenantID o.serviceID o.targetGeneration), .ok row⟩]
      else es = [⟨.read (.latestPublication item.tenantID o.serviceID
        o.targetGeneration), .ok row⟩]) ∧
      p.generation = row.elim o.targetGeneration Prod.fst ∧ p.tenantID = item.tenantID ∧
      (p.serviceID = o.serviceID ∨ p.serviceID = item.serviceID) := by
  obtain ⟨row, es₁, es₂, rfl, hread, h⟩ := played_run_bind_ok.mp h
  have hend : es₂ = [] ∧ p.generation = row.elim o.targetGeneration Prod.fst ∧
      p.tenantID = item.tenantID ∧ (p.serviceID = o.serviceID ∨ p.serviceID = item.serviceID) := by
    cases row with
    | none =>
      obtain ⟨hes, hp⟩ := played_pure.mp h
      obtain rfl := Except.ok.inj hp
      exact ⟨hes, rfl, rfl, .inr rfl⟩
    | some row =>
      obtain ⟨hes, hp⟩ := played_pure.mp h
      obtain rfl := Except.ok.inj hp
      exact ⟨hes, rfl, rfl, .inl rfl⟩
  obtain ⟨rfl, hp⟩ := hend
  refine ⟨row, ?_, hp⟩
  rw [List.append_nil]
  unfold publicationRow at hread
  split
  · next hstep =>
    rw [if_pos hstep] at hread
    exact played_read.mp hread
  · next hstep =>
    rw [if_neg hstep] at hread
    exact played_read.mp hread

theorem played_loadPrevious (h : Played (loadPrevious item o).run es (.ok row))
    (hkind : o.kind = .update ∨ o.kind = .restart) :
    es = [⟨.read (.previousReservation item.tenantID o.serviceID o.targetGeneration),
      .ok row⟩] := by
  unfold loadPrevious at h
  rw [if_pos hkind] at h
  exact played_read.mp h

/-- A loaded operation is made up of the answers of its reads. -/
theorem loads_of_played (h : Played (currentOperation item).run load (.ok op)) :
    ∃ o, Loads item load op o := by
  have hreads := reads_currentOperation.played h
  obtain ⟨found, es₀, rfl, h₀⟩ := played_read_bind_ok.mp h
  cases found with
  | none =>
    obtain ⟨_, herr⟩ := played_throw.mp h₀
    cases herr
  | some found =>
    obtain ⟨id, o⟩ := found
    obtain ⟨managed, em, es₁, rfl, hmanaged, h₁⟩ := played_run_bind_ok.mp h₀
    obtain ⟨spec, et, es₂, rfl, _, h₂⟩ := played_run_bind_ok.mp h₁
    obtain ⟨facts, ef, es₃, rfl, _, h₃⟩ := played_run_bind_ok.mp h₂
    obtain ⟨caller, es₄, rfl, h₄⟩ := played_read_bind_ok.mp h₃
    obtain ⟨active, es₅, rfl, h₅⟩ := played_read_bind_ok.mp h₄
    obtain ⟨reservation, ea, es₆, rfl, hactive, h₆⟩ := played_run_bind_ok.mp h₅
    obtain ⟨previous, ep, es₇, rfl, hprevious, h₇⟩ := played_run_bind_ok.mp h₆
    obtain ⟨former, eb, es₈, rfl, hformer, h₈⟩ := played_run_bind_ok.mp h₇
    obtain ⟨publication, eq, es₉, rfl, hpublication, h₉⟩ := played_run_bind_ok.mp h₈
    obtain ⟨rfl, hop⟩ := played_pure.mp h₉
    obtain rfl := Except.ok.inj hop
    obtain ⟨resource, em', rfl, hfacts⟩ := played_loadManaged hmanaged
    obtain ⟨row, hrow, hgeneration, hpublished⟩ := played_loadPublication hpublication
    refine ⟨o, rfl, rfl, rfl, rfl, rfl, rfl, rfl, rfl, hreads, ⟨_, rfl⟩, ?_, ?_, fun hkind => ?_,
      fun hkind => ?_, ?_, hpublished⟩
    · exact ⟨resource, [_], _, rfl, hfacts⟩
    · refine ⟨active, (⟨.read (.leasedOperation item.tenantID item.leaseToken),
        .ok (some (id, o))⟩ :: ⟨.read (.managedResource item.tenantID o.serviceID), .ok resource⟩ ::
        (em' ++ et ++ ef ++ [⟨.read (.auditContext item.tenantID id), .ok caller⟩])),
        ea ++ (ep ++ (eb ++ eq)), ?_, List.cons_ne_nil _ _, played_loadReservation hactive⟩
      simp only [List.cons_append, List.append_assoc, List.nil_append, List.append_nil]
    · obtain rfl := played_loadPrevious hprevious hkind
      refine ⟨previous, (⟨.read (.leasedOperation item.tenantID item.leaseToken),
        .ok (some (id, o))⟩ :: ⟨.read (.managedResource item.tenantID o.serviceID), .ok resource⟩ ::
        (em' ++ et ++ ef ++ [⟨.read (.auditContext item.tenantID id), .ok caller⟩,
          ⟨.read (.activeReservation item.tenantID o.serviceID o.targetGeneration), .ok active⟩] ++
          ea)), eb ++ eq, ?_, List.cons_ne_nil _ _, played_loadReservation hformer⟩
      simp only [List.cons_append, List.append_assoc, List.nil_append, List.append_nil]
    · unfold loadPrevious at hprevious
      rw [if_neg hkind] at hprevious
      obtain ⟨_, hnone⟩ := played_pure.mp hprevious
      obtain rfl := Except.ok.inj hnone
      exact played_loadReservation hformer
    · refine ⟨row, (⟨.read (.leasedOperation item.tenantID item.leaseToken),
        .ok (some (id, o))⟩ :: ⟨.read (.managedResource item.tenantID o.serviceID), .ok resource⟩ ::
        (em' ++ et ++ ef ++ [⟨.read (.auditContext item.tenantID id), .ok caller⟩,
          ⟨.read (.activeReservation item.tenantID o.serviceID o.targetGeneration), .ok active⟩] ++
          ea ++ ep ++ eb)), ?_, List.cons_ne_nil _ _, hgeneration⟩
      by_cases hstep : o.step = .publish
      · rw [if_pos hstep] at hrow ⊢
        subst hrow
        simp only [List.cons_append, List.append_assoc, List.nil_append, List.append_nil]
      · rw [if_neg hstep] at hrow ⊢
        subst hrow
        simp only [List.cons_append, List.append_assoc, List.nil_append, List.append_nil]

end
end Runner
end AniInference
