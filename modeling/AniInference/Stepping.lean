import AniInference.Loading

namespace AniInference
open Lib Txn

namespace Operation

theorem absent_before_releaseQuota (h : Step.releaseQuota ∈ (paths kind).dropLast) :
    Step.observeAbsence ∈ before kind .releaseQuota := by
  cases kind <;> first | decide | exact absurd h (by decide)

theorem absent_before_releasePreviousQuota (h : Step.releasePreviousQuota ∈ (paths kind).dropLast) :
    Step.observeAbsence ∈ before kind .releasePreviousQuota := by
  cases kind <;> first | decide | exact absurd h (by decide)

theorem withdrawn_before_deleteRuntime (h : Step.deleteRuntime ∈ (paths kind).dropLast) :
    Step.withdrawPublication ∈ before kind .deleteRuntime := by
  cases kind <;> first | decide | exact absurd h (by decide)

end Operation

/-- The scope a worker has read is still the one that is stored, as long as it passes the fence,
and a seal that is there is the one it knows. -/
def OperationContext.Stored (op : OperationContext) (w : World) : Prop :=
  ∃ scope, ScopeAt op.tenantID op.serviceID op.id op.leaseToken op.scopeOperation scope w ∧
    ∀ t, scope.bind (·.sealedAt) = some t → op.managedGPUReleaseSealedAt = some t

theorem OperationContext.Stored.write {op : OperationContext} (fault : Fault)
    (hx : ∀ op scope, x ≠ .releaseScope op scope) (h : op.Stored w) :
    op.Stored (exec opts (.write x) fault w).2 := by
  obtain ⟨scope, hat, hseal⟩ := h
  exact ⟨scope, hat.write fault hx, hseal⟩

/-- The worker was told `fact` when it looked for the runtime's absence. -/
def OperationContext.Observed (op : OperationContext) (fact : RuntimeObservation) (w : World) :
    Prop :=
  ∃ e past, e.seen = ⟨.provider (.observeAbsence op), .ok fact⟩ ∧ e :: past <:+ w.history

theorem OperationContext.Observed.call {op : OperationContext} (c : Call) (choice : c.Choice)
    (w : World) (h : op.Observed fact w) : op.Observed fact (exec opts c choice w).2 := by
  obtain ⟨e, past, hseen, hsuf⟩ := h
  exact ⟨e, past, hseen, hsuf.trans (List.suffix_cons _ _)⟩

namespace Runner
section
variable {opts : WorkOptions} {r : Runner} {op : OperationContext} {α : Type} {F : World → Prop}

theorem lasting_known : Lasting opts r op.leaseToken (op.Known opts) :=
  fun c choice _ hw _ ht h => h.call hw c choice (Call.settles_ne ht)

/-- The writes of a worker keep what it knows. -/
theorem keeps_own (hp : ∀ w, w.Kept → op.Known opts w → x.Proper opts r w)
    (ht : x.token = op.leaseToken) : Keeps opts r op.leaseToken (op.Known opts) (M.write x) :=
  keeps_write lasting_known hp ht fun fault _ hw h =>
    h.call hw (.write x) fault (fun hs => nomatch hs)

theorem keeps_needs {configured : Bool} {what : String} (hF : Lasting opts r op.leaseToken F) :
    Keeps opts r op.leaseToken F (needs configured what) :=
  keeps_failIf hF

theorem keeps_admission : Keeps opts r op.leaseToken (op.Known opts) (runAdmission r op) := by
  refine triple_bind (keeps_needs lasting_known) fun _ => ?_
  refine triple_bind (keeps_provider lasting_known fun _ _ _ => trivial) fun _ => ?_
  exact keeps_pure lasting_known

/-- A reservation that passed is the operation's. -/
theorem obeys_validateReservation :
    Obeys opts r op.leaseToken (op.Known opts) (validateReservation op reservation)
      (fun _ w => op.Known opts w ∧ reservation.tenantID = op.tenantID)
      (fun _ => op.Known opts) := by
  refine triple_ite (fun _ => triple_throw lasting_known fun _ _ h => h) fun hc => ?_
  refine triple_pure lasting_known fun _ _ h => ⟨h, ?_⟩
  simp only [ne_eq, not_or, not_not] at hc
  exact hc.1

/-- A reservation is saved under the fence of the operation. -/
theorem keeps_quota (ht : reservation.tenantID = op.tenantID)
    (hs : ∀ w, op.Known opts w → state = .released →
      Step.observeAbsence ∈ Operation.before op.kind op.step) :
    Keeps opts r op.leaseToken (op.Known opts)
      (M.write (.quota (withReservation op reservation state code))) :=
  keeps_own (fun w _ h => ⟨op, h, ht, rfl, rfl, hs w h⟩) rfl

theorem obeys_recoverReservation :
    Obeys opts r op.leaseToken (op.Known opts) (recoverReservation op reservation)
      (fun found w => op.Known opts w ∧
        ∀ remote, found = some remote → remote.tenantID = op.tenantID)
      (fun _ => op.Known opts) := by
  refine triple_bind (keeps_attempt (keeps_provider lasting_known fun _ _ _ => trivial)) fun a => ?_
  cases a with
  | ok remote =>
    refine triple_ite (fun _ => ?_) fun _ => ?_
    · exact triple_pure lasting_known fun _ _ h => ⟨h, fun _ hn => nomatch hn⟩
    · refine triple_bind obeys_validateReservation fun _ => ?_
      refine triple_pure (lasting_known.and steady_const) fun _ _ h => ⟨h.1, fun remote' he => ?_⟩
      rw [← Option.some.inj he]
      exact h.2
  | error e =>
    split
    · contradiction
    · exact triple_pure lasting_known fun _ _ h => ⟨h, fun _ hn => nomatch hn⟩
    · exact triple_throw lasting_known fun _ _ h => h

theorem obeys_recovered :
    Obeys opts r op.leaseToken (op.Known opts) (recovered op reservation)
      (fun found w => op.Known opts w ∧
        ∀ remote, found = some remote → remote.tenantID = op.tenantID)
      (fun _ => op.Known opts) := by
  refine triple_ite (fun _ => ?_) fun _ => obeys_recoverReservation
  exact triple_pure lasting_known fun _ _ h => ⟨h, fun _ hn => nomatch hn⟩

theorem obeys_confirm (ht : reservation.tenantID = op.tenantID) (hs : state ≠ .released) :
    Obeys opts r op.leaseToken (op.Known opts) (confirm op reservation state)
      (fun confirmed w => op.Known opts w ∧ confirmed.tenantID = op.tenantID)
      (fun _ => op.Known opts) := by
  refine triple_bind (keeps_attempt (keeps_provider lasting_known fun _ _ _ => trivial)) fun a => ?_
  cases a with
  | ok _ => exact triple_pure lasting_known fun _ _ h => ⟨h, ht⟩
  | error e => exact obeys_joinWith lasting_known (keeps_quota ht fun _ _ hr => absurd hr hs)

theorem obeys_confirmReservation (ht : reservation.tenantID = op.tenantID) :
    Obeys opts r op.leaseToken (op.Known opts) (confirmReservation op reservation)
      (fun confirmed w => op.Known opts w ∧ confirmed.tenantID = op.tenantID)
      (fun _ => op.Known opts) := by
  refine triple_ite (fun hstate => ?_) fun _ => ?_
  · exact obeys_confirm ht (by rw [hstate]; decide)
  · refine triple_bind (keeps_provider lasting_known fun _ _ _ => trivial) fun reserved => ?_
    refine triple_bind obeys_validateReservation fun _ => triple_fact fun hreserved => ?_
    exact obeys_confirm hreserved (by decide)

theorem keeps_reserveQuota (ht : reservation.tenantID = op.tenantID) :
    Keeps opts r op.leaseToken (op.Known opts) (reserveQuota op reservation) := by
  refine triple_bind obeys_recovered fun found => triple_fact fun hfound => ?_
  have htenant : (found.getD reservation).tenantID = op.tenantID := by
    cases found with
    | none => exact ht
    | some remote => exact hfound remote rfl
  refine triple_ite (fun _ => ?_) fun _ => ?_
  · refine triple_bind (keeps_onlyIf lasting_known fun _ => ?_) fun _ => keeps_pure lasting_known
    exact keeps_quota htenant fun _ _ hr => nomatch hr
  · refine triple_bind (obeys_confirmReservation htenant) fun _ => triple_fact fun hconfirmed => ?_
    refine triple_bind (keeps_quota hconfirmed fun _ _ hr => nomatch hr) fun _ => ?_
    exact keeps_pure lasting_known

theorem keeps_runReserveQuota : Keeps opts r op.leaseToken (op.Known opts)
    (runReserveQuota r op) := by
  refine triple_ite (fun _ => keeps_pure lasting_known) fun _ => ?_
  refine triple_ite (fun _ => keeps_pure lasting_known) fun _ => ?_
  cases op.reservation with
  | none => exact keeps_throw lasting_known
  | some reservation =>
    refine triple_bind obeys_validateReservation fun _ => triple_fact fun htenant => ?_
    exact triple_ite (fun _ => keeps_pure lasting_known) fun _ => keeps_reserveQuota htenant

/-- A release follows an observed absence. -/
theorem keeps_releaseReservation
    (hres : op.reservation = some reservation ∨ op.previousReservation = some reservation)
    (hs : ∀ w, op.Known opts w → Step.observeAbsence ∈ Operation.before op.kind op.step) :
    Keeps opts r op.leaseToken (op.Known opts) (releaseReservation op reservation) := by
  refine triple_have (fun _ h => h.reservations reservation hres) fun hown => ?_
  obtain ⟨htenant, _, hfence⟩ := hown
  refine triple_bind (keeps_attempt (keeps_provider lasting_known fun w _ h =>
    ⟨op, h, htenant, hfence, hs w h⟩)) fun a => ?_
  cases a with
  | ok _ => exact keeps_quota htenant fun w h _ => hs w h
  | error e => exact obeys_joinWith lasting_known (keeps_quota htenant fun _ _ hr => nomatch hr)

theorem keeps_runReleasePreviousQuota (hstep : op.step = .releasePreviousQuota) :
    Keeps opts r op.leaseToken (op.Known opts) (runReleasePreviousQuota r op) := by
  have hs : ∀ w, op.Known opts w → Step.observeAbsence ∈ Operation.before op.kind op.step := by
    intro w h
    have hmem := h.step
    rw [hstep] at hmem ⊢
    exact Operation.absent_before_releasePreviousQuota hmem
  refine triple_ite (fun _ => keeps_pure lasting_known) fun _ => ?_
  refine triple_ite (fun _ => keeps_pure lasting_known) fun _ => ?_
  cases hres : op.previousReservation with
  | none => exact keeps_pure lasting_known
  | some reservation =>
    refine triple_bind (keeps_releaseReservation (.inr hres) hs) fun _ => ?_
    exact keeps_pure lasting_known

theorem keeps_resolveFresh (hnone : op.gpuSnapshot = none) :
    Keeps opts r op.leaseToken (op.Known opts) (resolveFresh r op) := by
  refine triple_bind (keeps_failIf lasting_known) fun _ => ?_
  refine triple_bind (keeps_needs lasting_known) fun _ => ?_
  refine triple_bind (keeps_provider lasting_known fun _ _ _ => trivial) fun _ => ?_
  refine triple_bind (keeps_checked lasting_known) fun _ => ?_
  refine triple_bind (keeps_checked lasting_known) fun plan => ?_
  refine triple_bind (keeps_own (fun _ _ h => ⟨h, hnone⟩) rfl) fun _ => ?_
  exact keeps_pure lasting_known

theorem keeps_discard (hF : Lasting opts r op.leaseToken F) (hx : Keeps opts r op.leaseToken F x) :
    Keeps opts r op.leaseToken F (discard x) :=
  triple_bind hx fun _ => keeps_pure hF

theorem keeps_runResolveGPU : Keeps opts r op.leaseToken (op.Known opts) (runResolveGPU r op) := by
  refine triple_bind (keeps_failIf lasting_known) fun _ => ?_
  refine triple_ite (fun _ => keeps_pure lasting_known) fun _ => ?_
  refine triple_bind (keeps_checked lasting_known) fun _ => ?_
  refine triple_ite (fun _ => ?_) fun hnone => keeps_resolveFresh (by simpa using hnone)
  refine triple_bind (keeps_discard lasting_known (keeps_checked lasting_known)) fun _ => ?_
  exact keeps_pure lasting_known

theorem keeps_runApplyCR : Keeps opts r op.leaseToken (op.Known opts) (runApplyCR r op) := by
  refine triple_bind (keeps_needs lasting_known) fun _ => ?_
  refine triple_bind (keeps_provider lasting_known fun _ _ _ => trivial) fun _ => ?_
  exact keeps_pure lasting_known

theorem keeps_runMaterializeModel :
    Keeps opts r op.leaseToken (op.Known opts) (runMaterializeModel r op) := by
  refine triple_bind (keeps_needs lasting_known) fun _ => ?_
  refine triple_bind (keeps_own (fun _ _ h => h) rfl) fun _ => ?_
  refine triple_bind (keeps_provider lasting_known fun _ _ _ => trivial) fun observation => ?_
  refine triple_bind (keeps_failIf lasting_known) fun _ => ?_
  refine triple_bind (keeps_own (fun _ _ h => h) rfl) fun _ => ?_
  exact keeps_pure lasting_known

theorem keeps_runApplyRuntime (hstep : op.step = .applyRuntime) :
    Keeps opts r op.leaseToken (op.Known opts) (runApplyRuntime r op) := by
  refine triple_bind (keeps_needs lasting_known) fun _ => ?_
  refine triple_bind (keeps_provider lasting_known fun _ _ h => ⟨h, hstep⟩) fun _ => ?_
  exact keeps_pure lasting_known

theorem keeps_runDeleteRuntime (hstep : op.step = .deleteRuntime) :
    Keeps opts r op.leaseToken (op.Known opts) (runDeleteRuntime r op) := by
  refine triple_bind (keeps_needs lasting_known) fun _ => ?_
  refine triple_bind (keeps_provider lasting_known fun _ _ h => ⟨h, hstep⟩) fun _ => ?_
  exact keeps_pure lasting_known

theorem keeps_runDeleteCR : Keeps opts r op.leaseToken (op.Known opts) (runDeleteCR r op) := by
  refine triple_bind (keeps_needs lasting_known) fun _ => ?_
  refine triple_bind (keeps_needs lasting_known) fun _ => ?_
  refine triple_bind (keeps_provider lasting_known fun _ _ _ => trivial) fun _ => ?_
  refine triple_bind (keeps_provider lasting_known fun _ _ _ => trivial) fun _ => ?_
  exact keeps_pure lasting_known

/-- What a worker says about a publication is about the one it loaded. -/
theorem proper_publication (h : op.Known opts w) (htenant : p.tenantID = op.publication.tenantID)
    (hservice : p.serviceID = op.publication.serviceID) (htoken : p.leaseToken = op.leaseToken)
    (hfence : p.fenceOperationID = some op.id) : Write.Proper opts r (.publication p) w :=
  ⟨op, h, htenant.trans h.publication.1, hservice.trans h.publication.2, htoken, hfence⟩

theorem keeps_runPublish : Keeps opts r op.leaseToken (op.Known opts) (runPublish r op) := by
  refine triple_bind (keeps_needs lasting_known) fun _ => ?_
  refine triple_bind (keeps_own (fun _ _ h => proper_publication h rfl rfl rfl rfl) rfl) fun _ => ?_
  refine triple_bind (keeps_provider lasting_known fun _ _ _ => trivial) fun _ => ?_
  refine triple_bind (keeps_provider lasting_known fun _ _ _ => trivial) fun _ => ?_
  refine triple_bind (keeps_failIf lasting_known) fun _ => ?_
  refine triple_bind (triple_ite (fun _ => ?_) fun _ => keeps_pure lasting_known) fun url => ?_
  · refine triple_bind (keeps_provider lasting_known fun _ _ _ => trivial) fun endpoint => ?_
    exact triple_bind (keeps_failIf lasting_known) fun _ => keeps_pure lasting_known
  · refine triple_bind (keeps_own (fun _ _ h =>
      proper_publication h rfl rfl rfl rfl) rfl) fun _ => ?_
    exact keeps_pure lasting_known

theorem keeps_loadManagedGPUReleasePods (hF : Lasting opts r op.leaseToken F) :
    Keeps opts r op.leaseToken F (loadManagedGPUReleasePods op) := by
  refine triple_bind (keeps_read hF) fun scope => ?_
  cases scope with
  | none => exact keeps_throw hF
  | some scope => exact triple_bind (keeps_checked hF) fun _ => keeps_pure hF

/-- The Pods that are reported do not change what is known. -/
theorem known_withPods (h : op.Known opts w) :
    ({ op with managedGPUReleasePods := pods } : OperationContext).Known opts w :=
  ⟨h.row, h.issued, h.loaded, h.holds, h.step, h.withdrew, h.absent, h.sealing, h.reservations,
    h.publication, h.plan⟩

theorem keeps_loadRefundContext (hF : Lasting opts r token F) :
    Keeps opts r token F (loadRefundContext tenant resource create) := by
  refine triple_bind (keeps_read hF) fun found => ?_
  cases found with
  | none => exact keeps_throw hF
  | some original => exact keeps_pure hF

theorem keeps_loadReleaseReport (hF : Lasting opts r token F) :
    Keeps opts r token F (loadReleaseReport original) := by
  unfold loadReleaseReport
  cases original.deleteOperationID with
  | none => exact keeps_throw hF
  | some operation =>
    refine triple_bind (keeps_read hF) fun found => ?_
    cases found with
    | none => exact keeps_throw hF
    | some row =>
      dsimp only
      cases row.releaseReport with
      | none => exact keeps_pure hF
      | some n =>
        refine triple_bind (keeps_failIf hF) fun _ => ?_
        have hvalid : Keeps opts r token F
            (ExceptT.mk (.ret (Store.validateRefund n original)) : M Unit) :=
          (triple_ret hF).weaken (fun _ h => h) (fun _ _ h => h.1) (fun _ _ h => h)
        exact triple_bind hvalid fun _ => keeps_pure hF

/-- A release is reported with nothing but the lease it is made under. -/
theorem keeps_reportRelease (hF : Lasting opts r op.leaseToken F)
    (hwrite : ∀ original proof n fault w, w.Kept → F w →
      F (exec opts (.write (.releaseReport original proof n op.leaseToken)) fault w).2) :
    Keeps opts r op.leaseToken F (reportRelease op) := by
  have hfresh : ∀ original create,
      Keeps opts r op.leaseToken F (reportFresh op original create) := by
    intro original create
    unfold reportFresh
    cases op.managedGPUReleaseSealedAt with
    | none => exact keeps_throw hF
    | some sealedAt =>
      refine triple_bind (keeps_checked hF) fun proof => ?_
      refine triple_bind (keeps_wrapping hF (keeps_write hF (fun _ _ _ => trivial) rfl
        fun fault w hw h => hwrite _ _ _ fault w hw h)) fun _ => ?_
      exact keeps_wrapping hF (keeps_provider hF fun _ _ _ => trivial)
  refine triple_bind (keeps_failIf hF) fun _ => ?_
  cases op.managedGPUCreateOperationID with
  | none => exact keeps_throw hF
  | some create =>
    refine triple_bind (keeps_wrapping hF (keeps_loadRefundContext hF)) fun original => ?_
    refine triple_bind (keeps_failIf hF) fun _ => ?_
    refine triple_bind (keeps_loadReleaseReport hF) fun saved => ?_
    cases saved with
    | some saved => exact keeps_provider hF fun _ _ _ => trivial
    | none => exact hfresh original create

theorem keeps_runReleaseManagedGPU (hkind : op.kind = .delete)
    (hs : ∀ w, op.Known opts w → Step.observeAbsence ∈ Operation.before op.kind op.step) :
    Keeps opts r op.leaseToken (op.Known opts) (runReleaseManagedGPU r op) := by
  have report : ∀ pods, Keeps opts r op.leaseToken (op.Known opts) (do
      M.provider (.releaseManagedGPU { op with managedGPUReleasePods := pods })
      reportRelease { op with managedGPUReleasePods := pods }
      return finish "quota.governance_released") := by
    intro pods
    refine triple_bind (keeps_provider lasting_known fun w _ h => ?_) fun _ => ?_
    · exact ⟨known_withPods h, hkind, hs w h⟩
    have hlast : Lasting opts r op.leaseToken (op.Known opts) := lasting_known
    refine triple_bind (@keeps_reportRelease opts r { op with managedGPUReleasePods := pods } _
      hlast fun original proof n fault w hw h => ?_) fun _ => keeps_pure lasting_known
    exact h.call hw (.write (.releaseReport original proof n _)) fault (fun hs => nomatch hs)
  refine triple_bind (keeps_needs lasting_known) fun _ => ?_
  refine triple_bind (G := fun op' w => op.Known opts w ∧
    ∃ pods, op' = { op with managedGPUReleasePods := pods }) (triple_ite (fun _ => ?_) fun _ => ?_)
    fun op' => triple_fact fun hop => ?_
  · refine triple_bind (keeps_loadManagedGPUReleasePods lasting_known) fun pods => ?_
    exact triple_pure lasting_known fun _ _ h => ⟨h, pods, rfl⟩
  · exact triple_pure lasting_known fun _ _ h => ⟨h, op.managedGPUReleasePods, rfl⟩
  · obtain ⟨pods, rfl⟩ := hop
    exact report pods

theorem keeps_runReleaseQuota (hstep : op.step = .releaseQuota) :
    Keeps opts r op.leaseToken (op.Known opts) (runReleaseQuota r op) := by
  have hs : ∀ w, op.Known opts w → Step.observeAbsence ∈ Operation.before op.kind op.step := by
    intro w h
    have hmem := h.step
    rw [hstep] at hmem ⊢
    exact Operation.absent_before_releaseQuota hmem
  refine triple_ite (fun hc => keeps_runReleaseManagedGPU hc.2 hs) fun _ => ?_
  refine triple_ite (fun _ => keeps_pure lasting_known) fun _ => ?_
  cases hres : op.reservation with
  | none => exact keeps_pure lasting_known
  | some reservation =>
    refine triple_have (fun _ h => (h.reservations reservation (.inl hres)).1) fun htenant => ?_
    refine triple_ite (fun _ => ?_) fun _ => triple_ite
      (fun _ => keeps_pure lasting_known) fun _ => ?_
    · refine triple_bind (keeps_quota htenant fun w h _ => hs w h) fun _ => ?_
      exact keeps_pure lasting_known
    · refine triple_bind (keeps_releaseReservation (.inl hres) hs) fun _ => ?_
      exact keeps_pure lasting_known

theorem lasting_stored : Lasting opts r op.leaseToken op.Stored :=
  Steady.exists fun _ => lasting_scopeAt.and steady_const

/-- The seal of a merge is the worker's own or the one that was there. -/
theorem sealedAt_mergedScope (h : mergedScope sealedAt pods existing = .ok scope) :
    scope.sealedAt = sealedAt.or (existing.bind (·.sealedAt)) := by
  cases existing with
  | none =>
    simp only [mergedScope, Except.ok.injEq] at h
    rw [← h]
    cases sealedAt <;> rfl
  | some old =>
    simp only [mergedScope] at h
    cases hm : mergeReleasePods old.pods pods with
    | error e =>
      rw [hm] at h
      cases h
    | ok merged =>
      rw [hm] at h
      injection h with h
      rw [← h]
      cases sealedAt <;> rfl

theorem merges_of_read (hknown : op.Known opts w) (hstored : op.Stored w)
    (hat : ScopeAt op.tenantID op.serviceID op.id op.leaseToken op.scopeOperation existing w)
    (hdated : ∀ old, existing = some old → old.Dated op.tenantID op.serviceID op.scopeOperation w)
    (hm : mergedScope op.managedGPUReleaseSealedAt pods existing = .ok scope) :
    op.Merges scope w := by
  refine ⟨fun t ht => ?_, existing, pods, hm, fun hall hf => ⟨hat.stored hall hf, fun t ht => ?_⟩⟩
  · rw [sealedAt_mergedScope hm] at ht
    cases hs : op.managedGPUReleaseSealedAt with
    | some t' =>
      rw [hs] at ht
      obtain rfl : t' = t := Option.some.inj ht
      exact .inl (hknown.sealing t' hs)
    | none =>
      rw [hs, Option.none_or] at ht
      obtain ⟨old, hold, hsealed⟩ := Option.bind_eq_some_iff.mp ht
      exact hdated old hold t hsealed
  · obtain ⟨known, hatKnown, hseal⟩ := hstored
    have hsame : existing = known := (hat.stored hall hf).symm.trans (hatKnown.stored hall hf)
    exact hseal t (hsame ▸ ht)

/-- `SaveManagedGPUReleasePods` writes a merge into what it has read. -/
theorem obeys_saveManagedGPUReleasePods (htoken : op'.leaseToken = op.leaseToken) :
    Obeys opts r op.leaseToken
      (fun w => op.Known opts w ∧ op'.Known opts w ∧ op'.Stored w)
      (saveManagedGPUReleasePods op' pods) (fun _ => op.Known opts) (fun _ => op.Known opts) := by
  have hF : Lasting opts r op.leaseToken fun w =>
      op.Known opts w ∧ op'.Known opts w ∧ op'.Stored w := by
    refine lasting_known.and ?_
    rw [← htoken]
    exact lasting_known.and lasting_stored
  have hG : ∀ existing : Option ReleaseScope, Lasting opts r op.leaseToken fun w =>
      (op.Known opts w ∧ op'.Known opts w ∧ op'.Stored w) ∧
      ScopeAt op'.tenantID op'.serviceID op'.id op'.leaseToken op'.scopeOperation existing w ∧
      ∀ old, existing = some old → old.Dated op'.tenantID op'.serviceID op'.scopeOperation w := by
    intro existing
    refine hF.and ?_
    rw [← htoken]
    exact lasting_scopeAt.and fun c choice w _ _ _ h old hold => (h old hold).call c choice
  have hfail : ∀ (_ : Err) (w : World), (op.Known opts w ∧ op'.Known opts w ∧ op'.Stored w) →
      op.Known opts w := fun _ _ h => h.1
  unfold saveManagedGPUReleasePods
  refine triple_bind ((triple_ret hF).weaken (fun _ h => h) (fun _ _ h => h.1) hfail) fun _ => ?_
  refine triple_bind (obeys_read hF hG (fun _ => lasting_known)
    (fun fault w existing hw hFw hread => ?_) hfail) fun existing => ?_
  · have hrun := read_runs hread
    simp only [Read.tx, Sql.getReleaseScope, runs_get_bind, runs_pure] at hrun
    refine ⟨hF _ fault w hw trivial (Option.some_ne_none _).symm hFw,
      ⟨hFw.2.1.seat.call _ fault, fun _ _ => ?_⟩, fun old hold => ?_⟩
    · rw [read_db]
      exact hrun.1.symm
    · rw [hold] at hrun
      exact (hw.dated.seals _ _ _ old hrun.1.symm).call _ fault
  · refine triple_bind ((triple_ret (hG existing)).weaken (fun _ h => h) (fun _ _ h => h)
      (fun _ _ h => h.1.1)) fun scope => triple_fact fun hm => ?_
    refine obeys_write (hG existing) (fun _ => lasting_known) (fun _ => lasting_known)
      (fun w _ h => ?_) htoken (fun fault w hw h _ => ?_) (fun fault w _ hw h => ?_)
    · exact ⟨h.1.2.1, merges_of_read h.1.2.1 h.1.2.2 h.2.1 h.2.2 hm⟩
    · exact h.1.1.call hw _ fault (Option.some_ne_none _).symm
    · exact h.1.1.call hw _ fault (Option.some_ne_none _).symm

/-- A worker with a managed GPU knows the scope it may have to write to. -/
theorem lasting_work : Lasting opts r op.leaseToken fun w =>
    op.Known opts w ∧ (op.managedGPU = true → op.Stored w) :=
  lasting_known.and lasting_stored.imp

theorem keeps_runtimeObservation :
    Keeps opts r op.leaseToken (fun w => op.Known opts w ∧ (op.managedGPU = true → op.Stored w))
      (M.write (.runtimeObservation op fact)) := by
  refine keeps_write lasting_work (fun _ _ h => h.1) rfl fun fault w hw h => ⟨?_, fun hgpu => ?_⟩
  · exact h.1.call hw _ fault (fun hs => nomatch hs)
  · exact (h.2 hgpu).write fault (fun _ _ hx => nomatch hx)

theorem obeys_runObserveRuntime :
    Obeys opts r op.leaseToken (fun w => op.Known opts w ∧ (op.managedGPU = true → op.Stored w))
      (runObserveRuntime r op) (fun _ => op.Known opts) (fun _ => op.Known opts) := by
  have hfail : ∀ (_ : Err) (w : World),
      (op.Known opts w ∧ (op.managedGPU = true → op.Stored w)) → op.Known opts w :=
    fun _ _ h => h.1
  refine triple_bind ((keeps_needs lasting_work).weaken (fun _ h => h) (fun _ _ h => h) hfail)
    fun _ => ?_
  have hprovider : Keeps opts r op.leaseToken
      (fun w => op.Known opts w ∧ (op.managedGPU = true → op.Stored w))
      (M.provider (.observeRuntime op)) := keeps_provider lasting_work fun _ _ _ => trivial
  refine triple_bind (hprovider.weaken (fun _ h => h) (fun _ _ h => h) hfail) fun fact => ?_
  refine triple_bind (keeps_runtimeObservation.weaken (fun _ h => h) (fun _ _ h => h) hfail)
    fun _ => ?_
  refine triple_bind (G := fun _ => op.Known opts) (triple_ite (fun hc => ?_) fun _ => ?_)
    fun _ => triple_bind (keeps_failIf lasting_known) fun _ => keeps_pure lasting_known
  · exact (obeys_saveManagedGPUReleasePods rfl).weaken (fun _ h => ⟨h.1, h.1, h.2 hc.1⟩)
      (fun _ _ h => h) (fun _ _ h => h)
  · exact triple_pure lasting_work fun _ _ h => h.1

/-- A seal that is taken is dated after the observation. -/
theorem known_sealed (hw : w.Kept) (h : op.Known opts w) (hobserved : op.Observed fact w)
    (habsent : fact.absent = true) :
    ({ op with managedGPUReleaseSealedAt := some w.now } : OperationContext).Known opts
      (exec opts .clock () w).2 := by
  have h' := h.call hw .clock () (fun hs => nomatch hs)
  refine
    { row := h'.row, issued := h'.issued, loaded := h'.loaded, holds := h'.holds, step := h'.step
      withdrew := h'.withdrew, absent := h'.absent, sealing := fun t ht => ?_
      reservations := h'.reservations, publication := h'.publication, plan := h'.plan }
  obtain rfl : w.now = t := Option.some.inj ht
  obtain ⟨e, past, hseen, hsuf⟩ := hobserved
  exact ⟨op, fact, e, _, past, w.history, hseen, habsent, rfl, rfl, rfl, List.suffix_refl _, hsuf⟩

theorem obeys_sealedContext :
    Obeys opts r op.leaseToken
      (fun w => (op.Known opts w ∧ op.Stored w) ∧ op.Observed fact w) (sealedContext op fact)
      (fun op' w => (op.Known opts w ∧ op'.Known opts w ∧ op'.Stored w) ∧
        op'.leaseToken = op.leaseToken) (fun _ => op.Known opts) := by
  have hF : Lasting opts r op.leaseToken fun w =>
      (op.Known opts w ∧ op.Stored w) ∧ op.Observed fact w :=
    (lasting_known.and lasting_stored).and fun c choice w _ _ _ h => h.call c choice w
  refine triple_ite (fun hc => ?_) fun _ =>
    triple_pure hF fun _ _ h => ⟨⟨h.1.1, h.1.1, h.1.2⟩, rfl⟩
  have hG : ∀ t : Time, Lasting opts r op.leaseToken fun w => op.Known opts w ∧
      ({ op with managedGPUReleaseSealedAt := some t } : OperationContext).Known opts w ∧
      ({ op with managedGPUReleaseSealedAt := some t } : OperationContext).Stored w := fun t =>
    lasting_known.and ((@lasting_known opts r { op with managedGPUReleaseSealedAt := some t }).and
      (@lasting_stored opts r { op with managedGPUReleaseSealedAt := some t }))
  refine triple_bind (obeys_clock hF hG fun w hw h => ⟨?_, ?_, ?_⟩) fun t =>
    triple_pure (hG t) fun _ _ h => ⟨h, rfl⟩
  · exact h.1.1.call hw _ () (fun hs => nomatch hs)
  · exact known_sealed hw h.1.1 h.2 hc.1
  · obtain ⟨scope, hat, hseal⟩ := h.1.2
    refine ⟨scope, hat.call .clock () fun _ _ => rfl, fun t ht => ?_⟩
    have hsome := hseal t ht
    rw [hc.2] at hsome
    cases hsome

theorem obeys_sealScope :
    Obeys opts r op.leaseToken
      (fun w => (op.Known opts w ∧ op.Stored w) ∧ op.Observed fact w) (sealScope op fact)
      (fun _ => op.Known opts) (fun _ => op.Known opts) :=
  triple_bind obeys_sealedContext fun _ => triple_fact fun htoken =>
    obeys_saveManagedGPUReleasePods htoken

/-- A step that ends with the runtime's absence has observed it. -/
theorem obeys_runObserveAbsence (hstep : op.step = .observeAbsence) :
    Obeys opts r op.leaseToken (fun w => op.Known opts w ∧ (op.managedGPU = true → op.Stored w))
      (runObserveAbsence r op)
      (fun _ w => op.Known opts w ∧ Absent (op.tenantID, op.id) w.history)
      (fun _ => op.Known opts) := by
  have hobserved : ∀ fact, Lasting opts r op.leaseToken (op.Observed fact) :=
    fun fact c choice w _ _ _ h => h.call c choice w
  have hG : ∀ fact : RuntimeObservation, Lasting opts r op.leaseToken fun w =>
      op.Known opts w ∧ op.Observed fact w := fun fact => lasting_known.and (hobserved fact)
  refine triple_bind ((keeps_needs lasting_work).weaken (fun _ h => h) (fun _ _ h => h)
    (fun _ _ h => h.1)) fun _ => ?_
  refine triple_bind (obeys_provider lasting_work (G := fun fact w =>
    (op.Known opts w ∧ (op.managedGPU = true → op.Stored w)) ∧ op.Observed fact w)
    (fun fact => lasting_work.and (hobserved fact)) (fun _ => lasting_known)
    (fun w _ h => ⟨h.1, hstep⟩) (fun choice w fact hw h ha => ⟨?_, ?_⟩) (fun _ _ h => h.1))
    fun fact => ?_
  · exact lasting_work (r := r) _ choice w hw ⟨h.1, hstep⟩ (fun ht => nomatch ht) h
  · exact ⟨_, w.history, entry_seen ha, List.suffix_refl _⟩
  refine triple_bind ((keeps_runtimeObservation.frame fun c choice w h => h.call c choice w).weaken
    (fun _ h => h) (fun _ _ h => h) (fun _ _ h => h.1.1)) fun _ => ?_
  refine triple_bind (G := fun _ w => op.Known opts w ∧ op.Observed fact w)
    (triple_ite (fun hc => ?_) fun _ => ?_) fun _ => ?_
  · refine (obeys_sealScope.frame (P := op.Observed fact) fun c choice w h =>
      h.call c choice w).weaken (fun _ h => ?_) (fun _ _ h => h) (fun _ _ h => h.1)
    exact ⟨⟨⟨h.1.1, h.1.2 hc.1⟩, h.2⟩, h.2⟩
  · exact triple_pure (lasting_work.and (hobserved fact)) fun _ _ h => ⟨h.1.1, h.2⟩
  refine triple_bind ((keeps_onlyIf (hG fact) fun _ => keeps_discard (hG fact)
    (keeps_loadManagedGPUReleasePods (hG fact))).weaken (fun _ h => h) (fun _ _ h => h)
    (fun _ _ h => h.1)) fun _ => ?_
  refine triple_bind (G := fun _ w => (op.Known opts w ∧ op.Observed fact w) ∧ fact.absent = true)
    (triple_ite (fun _ => triple_throw (hG fact) fun _ _ h => h.1)
      fun hc => triple_pure (hG fact) fun _ _ h => ⟨h, by simpa using hc⟩) fun _ => ?_
  refine triple_pure ((hG fact).and steady_const) fun w _ h => ⟨h.1.1, ?_⟩
  obtain ⟨⟨_, e, past, hseen, hsuf⟩, habsent⟩ := h
  exact ⟨op, fact, e, past, hseen, habsent, rfl, rfl, hsuf⟩

/-- What a worker has while it withdraws. -/
structure Withdrawing (opts : WorkOptions) (op : OperationContext) (w : World) : Prop where
  known : op.Known opts w
  selected : Selected op.tenantID op.serviceID op.id op.leaseToken op.targetGeneration
    op.publication.generation w

/-- The authority was asked about a publication that was, for all the worker can tell, the
latest. -/
def Answered (op : OperationContext) (confirmed : Bool) (w : World) : Prop :=
  ∃ e past o, e.seen = ⟨.provider (.confirmWithdrawn (withPublication op .withdrawing)),
      .ok confirmed⟩ ∧ e :: past <:+ w.history ∧
    e.before.operations.lookup (op.tenantID, op.id) = some o ∧ op.leaseToken ≤ past.length ∧
    (e.before.fenced op.tenantID op.id op.leaseToken e.time = true →
      Latest e.before op.tenantID op.serviceID op.targetGeneration op.publication.generation)

theorem Answered.call (c : Call) (choice : c.Choice) (w : World) (h : Answered op confirmed w) :
    Answered op confirmed (exec opts c choice w).2 := by
  obtain ⟨e, past, o, hseen, hsuf, hrest⟩ := h
  exact ⟨e, past, o, hseen, hsuf.trans (List.suffix_cons _ _), hrest⟩

theorem lasting_withdrawing : Lasting opts r op.leaseToken (Withdrawing opts op) :=
  fun c choice w hI hp ht h =>
    ⟨lasting_known c choice w hI hp ht h.known, lasting_selected c choice w hI hp ht h.selected⟩

def Published (op : OperationContext) (w : World) : Prop :=
  (w.db.publications.lookup (op.tenantID, op.serviceID, op.publication.generation)).isSome = true

theorem Published.call (c : Call) (choice : c.Choice) (w : World) (h : Published op w) :
    Published op (exec opts c choice w).2 :=
  ((exec_effect opts c choice w).publications _).isSome h

theorem keeps_withdrawing :
    Obeys opts r op.leaseToken (Withdrawing opts op)
      (M.write (.publication (withPublication op state)))
      (fun _ w => Withdrawing opts op w ∧ Published op w) (fun _ => op.Known opts) := by
  have hkeep : ∀ (fault : Fault) (w : World), w.Kept → Withdrawing opts op w → Withdrawing opts op
      (exec opts (.write (.publication (withPublication op state))) fault w).2 :=
        fun fault w hw h =>
    ⟨h.known.call hw (.write (.publication (withPublication op state))) fault
      (fun hs => nomatch hs), h.selected.publication fault rfl⟩
  refine obeys_write lasting_withdrawing
    (fun _ => lasting_withdrawing.and fun c choice w _ _ _ h => h.call c choice w)
    (fun _ => lasting_known) (fun w _ h => proper_publication h.known rfl rfl rfl rfl) rfl
    (fun fault w hw h hok => ⟨hkeep fault w hw h, ?_⟩)
    (fun fault w _ hw h => (hkeep fault w hw h).known)
  obtain ⟨_, hdb⟩ := Store.runs_savePublication (write_runs hok)
  obtain ⟨htenant, hservice⟩ := h.known.publication
  unfold Published
  rw [hdb]
  simp [withPublication, htenant, hservice]

/-- What the authority answers is about the latest publication. -/
theorem answered_of_confirm (hw : w.Kept) (h : Withdrawing opts op w) (hp : Published op w)
    (ha : (exec opts (.provider (.confirmWithdrawn (withPublication op .withdrawing))) choice w).1 =
      .ok confirmed) :
    Answered op confirmed
      (exec opts (.provider (.confirmWithdrawn (withPublication op .withdrawing))) choice w).2 := by
  obtain ⟨o, ho, _⟩ := h.known.row
  have hissued := h.known.issued
  rw [hw.chronicle.numbered] at hissued
  exact ⟨_, w.history, o, entry_seen ha, List.suffix_refl _, ho, Nat.le_of_lt_succ hissued,
    fun hf => ⟨hp, h.selected.le, h.selected.highest hf⟩⟩

theorem observedPhase_withdrawn :
    (Sql.publicationRow .withdrawn (Store.observedState .withdrawn) url old).observedPhase =
      .withdrawn := by
  cases old <;> rfl

/-- A withdrawal that is saved was confirmed for the latest publication. -/
theorem withdrew_of_saved (hw : w.Kept) (h : op.Known opts w) (hanswered : Answered op true w)
    (hok : (exec opts (.write (.publication (withPublication op .withdrawn))) fault w).1 = .ok ()) :
    Withdrew (op.tenantID, op.id) op.serviceID op.targetGeneration
      (exec opts (.write (.publication (withPublication op .withdrawn))) fault w).2.history := by
  obtain ⟨e, past, o, hseen, hsuf, ho, hle, hlatest⟩ := hanswered
  obtain ⟨hfence, hdb⟩ := Store.runs_savePublication (write_runs hok)
  obtain ⟨htenant, hservice⟩ := h.publication
  have hfenced := hw.chronicle.sound.aggregate.fenced hfence
  have hfenced' : w.db.fenced op.tenantID op.id op.leaseToken w.now = true := by
    simpa [withPublication, htenant] using hfenced
  have hbefore := hw.chronicle.fences e past hsuf _ _ _ o ho hle hfenced'
  refine ⟨withPublication op .withdrawing, e, _, past, w.history, ?_, List.suffix_refl _, hsuf⟩
  refine
    { answer := hseen, tenantID := htenant, serviceID := hservice, fence := rfl
      latest := hlatest hbefore, written := entry_seen hok, durable := ?_ }
  change ∃ row, (exec opts (.write (.publication (withPublication op .withdrawn))) fault
    w).2.db.publications.lookup (op.tenantID, op.serviceID,
      op.publication.generation) = some row ∧ _
  rw [hdb]
  simp only [withPublication, htenant, hservice]
  exact ⟨_, AList.lookup_insert _, observedPhase_withdrawn⟩

/-- A withdrawal that ends was confirmed and saved. -/
theorem obeys_runWithdrawPublication :
    Obeys opts r op.leaseToken (Withdrawing opts op) (runWithdrawPublication r op)
      (fun _ w => op.Known opts w ∧
        Withdrew (op.tenantID, op.id) op.serviceID op.targetGeneration w.history)
      (fun _ => op.Known opts) := by
  have hF : Lasting opts r op.leaseToken fun w => Withdrawing opts op w ∧ Published op w :=
    lasting_withdrawing.and fun c choice w _ _ _ h => h.call c choice w
  have hA : ∀ confirmed, Lasting opts r op.leaseToken fun w =>
      op.Known opts w ∧ Answered op confirmed w :=
    fun confirmed => lasting_known.and fun c choice w _ _ _ h => h.call c choice w
  refine triple_bind ((keeps_needs lasting_withdrawing).weaken (fun _ h => h) (fun _ _ h => h)
    (fun _ _ h => h.known)) fun _ => triple_bind keeps_withdrawing fun _ => ?_
  have hwithdraw : Keeps opts r op.leaseToken (fun w => Withdrawing opts op w ∧ Published op w)
      (M.provider (.withdraw (withPublication op .withdrawing))) :=
    keeps_provider hF fun _ _ _ => trivial
  refine triple_bind (hwithdraw.weaken (fun _ h => h) (fun _ _ h => h) (fun _ _ h => h.1.known))
    fun _ => ?_
  refine triple_bind (G := fun confirmed w => op.Known opts w ∧ Answered op confirmed w)
    (obeys_provider hF hA (fun _ => lasting_known) (fun _ _ _ => trivial)
      (fun choice w confirmed hw h ha => ⟨?_, answered_of_confirm hw h.1 h.2 ha⟩)
      (fun _ _ h => h.1.known)) fun confirmed => ?_
  · exact h.1.known.call hw _ choice (fun hs => nomatch hs)
  refine triple_bind (G := fun _ w => (op.Known opts w ∧ Answered op confirmed w) ∧
    confirmed = true)
    (triple_ite (fun _ => triple_throw (hA confirmed) fun _ _ h => h.1)
      fun hc => triple_pure (hA confirmed) fun _ _ h => ⟨h, by simpa using hc⟩)
    fun _ => triple_fact fun hc => ?_
  subst hc
  refine triple_bind (G := fun _ w => op.Known opts w ∧
    Withdrew (op.tenantID, op.id) op.serviceID op.targetGeneration w.history)
    (obeys_write (hA true) (fun _ => lasting_known.and fun c choice w _ _ _ h => h.cons)
      (fun _ => lasting_known) (fun _ _ h => proper_publication h.1 rfl rfl rfl rfl) rfl
      (fun fault w hw h hok => ⟨?_, withdrew_of_saved hw h.1 h.2 hok⟩)
      (fun fault w _ hw h => h.1.call hw _ fault (fun hs => nomatch hs)))
    fun _ => triple_pure (lasting_known.and fun c choice w _ _ _ h => h.cons) fun _ _ h => h
  exact h.1.call hw _ fault (fun hs => nomatch hs)

/-- What a step that ends leaves to the steps after it. -/
structure Done (opts : WorkOptions) (op : OperationContext) (w : World) : Prop where
  known : op.Known opts w
  withdrew : op.step = .withdrawPublication →
    Withdrew (op.tenantID, op.id) op.serviceID op.targetGeneration w.history
  absent : op.step = .observeAbsence → Absent (op.tenantID, op.id) w.history

/-- A step that has only to keep what is known. -/
theorem obeys_of_keeps (hx : Keeps opts r op.leaseToken (op.Known opts) x)
    (hwithdraw : op.step ≠ .withdrawPublication) (habsence : op.step ≠ .observeAbsence) :
    Obeys opts r op.leaseToken (op.Ready opts) x (fun _ => Done opts op) (fun _ => op.Known opts) :=
  hx.weaken (fun _ h => h.known)
    (fun _ _ h => ⟨h, fun hs => absurd hs hwithdraw, fun hs => absurd hs habsence⟩) (fun _ _ h => h)

theorem stored_of_ready (h : op.Ready opts w) :
    op.Known opts w ∧ (op.managedGPU = true → op.Stored w) := by
  refine ⟨h.known, fun hgpu => ?_⟩
  obtain ⟨scope, hat, hsealed⟩ := h.scope hgpu
  exact ⟨scope, hat, fun t ht => hsealed.trans ht⟩

/-- `RunStep` makes proper calls only. -/
theorem obeys_runStep :
    Obeys opts r op.leaseToken (op.Ready opts) (runStep r op) (fun _ => Done opts op)
      (fun _ => op.Known opts) := by
  have plain : ∀ {x : M StepResult}, Keeps opts r op.leaseToken (op.Known opts) x →
      op.step ≠ .withdrawPublication → op.step ≠ .observeAbsence →
      Obeys opts r op.leaseToken (op.Ready opts) x (fun _ => Done opts op)
        (fun _ => op.Known opts) := obeys_of_keeps
  unfold runStep
  split
  case h_1 hs => exact plain keeps_admission (by simp [hs]) (by simp [hs])
  case h_2 hs => exact plain keeps_runReserveQuota (by simp [hs]) (by simp [hs])
  case h_3 hs => exact plain keeps_runResolveGPU (by simp [hs]) (by simp [hs])
  case h_4 hs => exact plain (keeps_runReleasePreviousQuota hs) (by simp [hs]) (by simp [hs])
  case h_5 hs => exact plain keeps_runApplyCR (by simp [hs]) (by simp [hs])
  case h_6 hs => exact plain keeps_runMaterializeModel (by simp [hs]) (by simp [hs])
  case h_7 hs => exact plain (keeps_runApplyRuntime hs) (by simp [hs]) (by simp [hs])
  case h_8 hs =>
    refine obeys_runObserveRuntime.weaken (fun _ h => stored_of_ready h) (fun _ _ h => ?_)
      (fun _ _ h => h)
    exact ⟨h, by simp [hs], by simp [hs]⟩
  case h_9 hs =>
    refine obeys_runWithdrawPublication.weaken (fun _ h => ⟨h.known, h.selected hs⟩)
      (fun _ _ h => ?_) (fun _ _ h => h)
    exact ⟨h.1, fun _ => h.2, by simp [hs]⟩
  case h_10 hs => exact plain (keeps_runDeleteRuntime hs) (by simp [hs]) (by simp [hs])
  case h_11 hs =>
    refine (obeys_runObserveAbsence hs).weaken (fun _ h => stored_of_ready h) (fun _ _ h => ?_)
      (fun _ _ h => h)
    exact ⟨h.1, by simp [hs], fun _ => h.2⟩
  case h_12 hs => exact plain keeps_runDeleteCR (by simp [hs]) (by simp [hs])
  case h_13 hs => exact plain keeps_runPublish (by simp [hs]) (by simp [hs])
  case h_14 hs => exact plain (keeps_runReleaseQuota hs) (by simp [hs]) (by simp [hs])
  case h_15 hs => exact plain (keeps_throw lasting_known) (by simp [hs]) (by simp [hs])
  case h_16 hs => exact plain (keeps_throw lasting_known) (by simp [hs]) (by simp [hs])

end
end Runner
end AniInference
