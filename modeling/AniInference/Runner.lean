import AniInference.System

namespace AniInference
open Lib

/-- A Go function that may return an error and calls the outside on its way. -/
abbrev M := ExceptT Err (Prog Call Call.Answer)

namespace M

def read (r : Read) : M r.Result := ExceptT.mk (Prog.perform (Call.read r))
def write (w : Write) : M Unit := ExceptT.mk (Prog.perform (Call.write w))
def work (k : Work) : M k.Result := ExceptT.mk (Prog.perform (Call.work k))
def provider (p : Provider) : M p.Result := ExceptT.mk (Prog.perform (Call.provider p))
def clock : M Time := ExceptT.lift (Prog.perform Call.clock)

/-- The call's result or its error, as a value. -/
def attempt {α : Type} (x : M α) : M (Except Err α) := ExceptT.lift x.run

def failIf (c : Prop) [Decidable c] (e : Err) : M Unit := if c then throw e else pure ()
def onlyIf (c : Prop) [Decidable c] (x : M Unit) : M Unit := if c then x else pure ()

def checked {α : Type} (context : String) : Except Err α → M α
  | .ok a => pure a
  | .error e => throw (.wrapped context e)

/-- `fmt.Errorf("context: %w", err)` around what `x` fails with. -/
def wrapping {α : Type} (context : String) (x : M α) : M α := do
  checked context (← attempt x)

/-- `errors.Join(err, x)` where `x` may succeed. -/
def joinWith {α : Type} (e : Err) (x : M Unit) : M α := do
  match ← attempt x with
  | .ok _ => throw e
  | .error e' => throw (.join e e')

end M

/-- `Runner`: which ports are configured. The store is PostgreSQL's, which implements every
optional store interface. -/
structure Runner where
  admission : Bool
  model : Bool
  gpu : Bool
  quota : Bool
  publication : Bool
  endpointResolver : Bool
  runtime : Bool
  managedGPURelease : Bool
  retryAfter : Nat

structure StepResult where
  phase : Phase
  step : Step
  event : String
deriving DecidableEq

namespace Runner
open M
variable (r : Runner)

def needs (configured : Bool) (what : String) : M Unit :=
  failIf (!configured) (.providerMissing what)

def next (step : Step) (event : String) : StepResult := ⟨.running, step, event⟩
def finish (event : String) : StepResult := ⟨.succeeded, .complete, event⟩

def nextAfterQuota : Step := .resolveGPU

def scopeError (name : String) : Err := .text s!"{name} is required"

/-- `validateManagedGPUReleasePods`. -/
def validateReleasePods : List Gpu.PodRef → List String → Except Err Unit
  | [], _ => .ok ()
  | p :: rest, seen =>
    if Lib.Text.blank p.clusterID then .error (scopeError "pod.cluster_id")
    else if Lib.Text.blank p.namespaceName then .error (scopeError "pod.namespace")
    else if Lib.Text.blank p.name then .error (scopeError "pod.name")
    else if Lib.Text.blank p.uid then .error (scopeError "pod.uid")
    else if Lib.Text.blank p.containerName then .error (scopeError "pod.container_name")
    else if p.uid ∈ seen then .error (.text s!"duplicate pod UID {quoted p.uid}")
    else validateReleasePods rest (p.uid :: seen)

/-- `mergeManagedGPUReleasePods`: what is known stays, what is new is appended. -/
def mergeReleasePods (known : List Gpu.PodRef) : List Gpu.PodRef → Except Err (List Gpu.PodRef)
  | [] => .ok known
  | p :: rest =>
    match known.find? (·.uid = p.uid) with
    | some old =>
      if old = p then mergeReleasePods known rest
      else .error (.text s!"managed GPU release Pod UID {quoted p.uid} changed identity")
    | none => mergeReleasePods (known ++ [p]) rest

/-- What `SaveManagedGPUReleasePods` makes of the row it read. -/
def mergedScope (sealedAt : Option Time) (pods : List Gpu.PodRef) :
    Option ReleaseScope → Except Err ReleaseScope
  | none => .ok ⟨sealedAt, pods⟩
  | some old => do
    let merged ← mergeReleasePods old.pods pods
    return ⟨sealedAt.orElse fun _ => old.sealedAt, merged⟩

/-- `SaveManagedGPUReleasePods`: a read and an unconditional write, outside any transaction. -/
def saveManagedGPUReleasePods (op : OperationContext) (pods : List Gpu.PodRef) : M Unit := do
  ExceptT.mk (.ret (validateReleasePods pods []))
  let existing ← read (.releaseScope op.tenantID op.serviceID op.scopeOperation)
  let scope ← ExceptT.mk (.ret (mergedScope op.managedGPUReleaseSealedAt pods existing))
  write (.releaseScope op scope)

def loadManagedGPUReleasePods (op : OperationContext) : M (List Gpu.PodRef) := do
  match ← read (.releaseScope op.tenantID op.serviceID op.scopeOperation) with
  | none => throw .noRows
  | some scope =>
    checked "invalid persisted managed GPU release scope" (validateReleasePods scope.pods [])
    return scope.pods

def withReservation (op : OperationContext) (reservation : Reservation) (state : QuotaState)
    (errorCode : String) : Reservation :=
  { reservation with
    state := state, leaseToken := op.leaseToken, fenceOperationID := some op.id,
    lastErrorCode := errorCode }

def withPublication (op : OperationContext) (state : PublicationPhase) : Publication :=
  { op.publication with
    state := state, leaseToken := op.leaseToken, fenceOperationID := some op.id }

/-- `validateReservation`. -/
def validateReservation (op : OperationContext) (reservation : Reservation) : M Unit :=
  failIf (reservation.tenantID ≠ op.tenantID ∨ reservation.serviceID ≠ op.serviceID ∨
    reservation.operationID ≠ op.id ∨ reservation.generation ≠ op.targetGeneration ∨
    reservation.reservationID = none)
    (.text "quota reservation identity does not match operation")

def runAdmission (op : OperationContext) : M StepResult := do
  needs r.admission "admission"
  provider (.admission op)
  return next .reserveQuota "admission.accepted"

/-- What the quota authority already knows of a reservation that is not yet reserved here. -/
def recoverReservation (op : OperationContext) (reservation : Reservation) :
    M (Option Reservation) := do
  match ← attempt (provider (.quotaGet reservation.tenantID reservation.reservationID)) with
  | .ok remote =>
    if remote.reservationID = none then return none
    else
      validateReservation op remote
      return some remote
  | .error .reservationNotFound => return none
  | .error e => throw e

/-- A confirm that fails is recorded beside its cause. -/
def confirm (op : OperationContext) (reservation : Reservation) (state : QuotaState) :
    M Reservation := do
  match ← attempt (provider (.quotaConfirm reservation)) with
  | .ok _ => return reservation
  | .error e => joinWith e (write (.quota
      (withReservation op reservation state "quota_confirm_failed")))

/-- Confirming what is reserved, or reserving it first. -/
def confirmReservation (op : OperationContext) (reservation : Reservation) : M Reservation := do
  if reservation.state = .reserved then confirm op reservation reservation.state
  else
    let reserved ← provider (.quotaReserve reservation)
    validateReservation op reserved
    confirm op reserved .reserved

/-- A reservation that is known to be reserved is not asked for. -/
def recovered (op : OperationContext) (reservation : Reservation) : M (Option Reservation) :=
  if reservation.state = .reserved then return none else recoverReservation op reservation

/-- The reservation after recovery: already settled, or the one to confirm. -/
def reserveQuota (op : OperationContext) (reservation : Reservation) : M StepResult := do
  let recovered ← recovered op reservation
  let reservation := recovered.getD reservation
  if reservation.state = .confirmed then
    onlyIf recovered.isSome (write (.quota (withReservation op reservation .confirmed "")))
    return next nextAfterQuota "quota.recovered_confirmed"
  else
    let reservation ← confirmReservation op reservation
    write (.quota (withReservation op reservation .confirmed ""))
    return next nextAfterQuota "quota.confirmed"

def runReserveQuota (op : OperationContext) : M StepResult := do
  if op.managed ∨ op.managedGPU then return next nextAfterQuota "quota.governance_owned"
  else if !r.quota then return next nextAfterQuota "quota.skipped"
  else match op.reservation with
  | none => throw (.text "quota reservation is missing")
  | some reservation =>
    validateReservation op reservation
    if reservation.state = .confirmed then return next nextAfterQuota "quota.already_confirmed"
    else reserveQuota op reservation

def resolveFresh (op : OperationContext) : M StepResult := do
  failIf op.managedGPU (.text "managed GPU operation has no frozen Governance plan")
  needs r.gpu "GPU resolver"
  let plan ← provider (.resolveGPU op)
  checked "validate GPU request"
    (Gpu.validateTopology op.gpuRequest op.replicas op.runtimeMode op.workerReplicas)
  let plan ← checked "validate resolved GPU plan" (Gpu.validateSnapshot plan op.gpuRequest)
  write (.gpuSnapshot op plan)
  return next .applyCR "gpu.resolved"

def runResolveGPU (op : OperationContext) : M StepResult := do
  failIf (op.managedGPU ∧ op.gpuRequest = none)
    (.text "managed GPU operation has no frozen GPU request")
  if op.gpuRequest = none then return next .applyCR "gpu.skipped"
  else
    checked "validate GPU request"
      (Gpu.validateTopology op.gpuRequest op.replicas op.runtimeMode op.workerReplicas)
    if op.gpuSnapshot.isSome then
      discard (checked "validate persisted GPU plan"
        (Gpu.validateSnapshot op.gpuSnapshot op.gpuRequest))
      return next .applyCR "gpu.reused"
    else resolveFresh r op

/-- A release that fails is recorded as pending, one that succeeds as done. -/
def releaseReservation (op : OperationContext) (reservation : Reservation) : M Unit := do
  match ← attempt (provider (.quotaRelease reservation)) with
  | .ok _ => write (.quota (withReservation op reservation .released ""))
  | .error e => joinWith e (write (.quota
      (withReservation op reservation .releasePending "quota_release_failed")))

def runReleasePreviousQuota (op : OperationContext) : M StepResult := do
  if op.managed ∨ op.managedGPU then
    return next .reserveQuota "previous_quota.governance_owned"
  else if !r.quota then return next .reserveQuota "previous_quota.skipped"
  else match op.previousReservation with
  | none => return next .reserveQuota "previous_quota.none"
  | some reservation =>
    releaseReservation op reservation
    return next .reserveQuota "previous_quota.released"

def runApplyCR (op : OperationContext) : M StepResult := do
  needs r.runtime "runtime"
  provider (.applyCR op)
  return next .materializeModel "cr.applied"

def runMaterializeModel (op : OperationContext) : M StepResult := do
  needs r.model "model"
  write (.modelMaterializing op)
  let observation ← provider (.ensureModel op)
  failIf (!observation.known || !observation.ready)
    (.notReady ("model materialization: " ++ observation.reason))
  write (.modelObservation op observation)
  return next .applyRuntime "model.materialized"

def runApplyRuntime (op : OperationContext) : M StepResult := do
  needs r.runtime "runtime"
  provider (.applyRuntime op)
  return next .observeRuntime "runtime.apply_requested"

def runObserveRuntime (op : OperationContext) : M StepResult := do
  needs r.runtime "runtime"
  let observation ← provider (.observeRuntime op)
  write (.runtimeObservation op observation)
  onlyIf (op.managedGPU ∧ observation.releasePods ≠ [])
    (saveManagedGPUReleasePods op observation.releasePods)
  failIf (!observation.ready || !observation.modelReadyKnown || !observation.modelReady)
    (.notReady ("runtime/model: " ++ observation.reason))
  return next .publish "runtime.ready"

/-- The intent is saved before the remote call, the outcome only once it is confirmed. -/
def runWithdrawPublication (op : OperationContext) : M StepResult := do
  needs r.publication "publication"
  write (.publication (withPublication op .withdrawing))
  provider (.withdraw (withPublication op .withdrawing))
  let confirmed ← provider (.confirmWithdrawn (withPublication op .withdrawing))
  failIf (!confirmed) (.notReady "publication withdrawal")
  write (.publication (withPublication op .withdrawn))
  return next .deleteRuntime "publication.withdrawn"

def runDeleteRuntime (op : OperationContext) : M StepResult := do
  needs r.runtime "runtime"
  provider (.deleteRuntime op)
  return next .observeAbsence "runtime.delete_requested"

/-- The context a seal is taken with: a seal that is there is kept, whoever took it. -/
def sealedContext (op : OperationContext) (observation : RuntimeObservation) :
    M OperationContext := do
  if observation.absent ∧ op.managedGPUReleaseSealedAt = none then
    let now ← clock
    return { op with managedGPUReleaseSealedAt := some now }
  else return op

def sealScope (op : OperationContext) (observation : RuntimeObservation) : M Unit := do
  let op ← sealedContext op observation
  saveManagedGPUReleasePods op observation.releasePods

def afterAbsence : Kind → Step
  | .update | .restart => .releasePreviousQuota
  | .stop => .releaseQuota
  | .delete => .deleteCR
  | _ => .reserveQuota

def runObserveAbsence (op : OperationContext) : M StepResult := do
  needs r.runtime "runtime"
  let observation ← provider (.observeAbsence op)
  write (.runtimeObservation op observation)
  onlyIf (op.managedGPU ∧ (observation.releasePods ≠ [] ∨ observation.absent))
    (sealScope op observation)
  onlyIf (op.managedGPU ∧ op.managedGPUReleasePods = [])
    (discard (loadManagedGPUReleasePods op))
  failIf (!observation.absent) (.notReady ("runtime deletion: " ++ observation.reason))
  return next (afterAbsence op.kind) "runtime.absent"

def runDeleteCR (op : OperationContext) : M StepResult := do
  needs r.runtime "runtime"
  needs r.model "model"
  provider (.deleteCR op)
  provider (.cleanupModel op)
  return next .releaseQuota "cr.deleted"

/-- The address the publication authority allocated, where it can tell. -/
def publishedURL (p : Publication) : M String := do
  if r.endpointResolver then
    let endpoint ← provider (.endpoint p)
    failIf (endpoint = "") (.text "published endpoint is empty")
    return endpoint
  else return p.url

def runPublish (op : OperationContext) : M StepResult := do
  needs r.publication "publication"
  let p := withPublication op .publishing
  write (.publication p)
  provider (.publish p)
  let confirmed ← provider (.confirmPublished p)
  failIf (!confirmed) (.notReady "publication")
  let url ← publishedURL r p
  write (.publication { withPublication op .published with url := url })
  return finish "publication.published"

/-- The Pods a release is reported with. -/
def releaseContext (op : OperationContext) : M OperationContext := do
  if op.managedGPUReleasePods = [] then
    let pods ← loadManagedGPUReleasePods op
    return { op with managedGPUReleasePods := pods }
  else return op

/-- `LoadRefundContext`. -/
def loadRefundContext (tenant resource create : Uuid) : M RefundContext := do
  match ← read (.refundContext tenant resource create) with
  | none => throw .noRows
  | some original => return original

/-- `LoadManagedReleaseReport`: the report that was stored for the delete of a resource. -/
def loadReleaseReport (original : RefundContext) : M (Option ReleaseNotification) := do
  match original.deleteOperationID with
  | none => throw .noRows
  | some operation =>
    match ← read (.managedCommand original.tenantID operation) with
    | none => throw .noRows
    | some row =>
      match row.releaseReport with
      | none => return none
      | some n =>
        failIf (row.releaseEvidence = none) (.text "release report has no durable evidence")
        ExceptT.mk (.ret (Store.validateRefund n original))
        return some n

def notProven (why : String) : Err := .text s!"managed GPU release was not proven: {why}"

/-- `NewReleaseProof`: the digest is taken over the Pods in the order of their UIDs. -/
def newReleaseProof (input : ReleaseProofInput) : Except Err ReleaseProof := do
  validateReleasePods input.pods []
  return ⟨input.deleteOperationID,
    { input with pods := input.pods.insertionSort fun p q => p.uid ≤ q.uid }⟩

def releaseNotification (op : OperationContext) (create : Uuid) : ReleaseNotification :=
  ⟨op.id, create, op.serviceID, .resourceReleased⟩

/-- The report of a release that has none yet: the evidence is stored before it is sent. -/
def reportFresh (op : OperationContext) (original : RefundContext) (create : Uuid) : M Unit := do
  match op.managedGPUReleaseSealedAt with
  | none => throw (notProven "runtime absence was not sealed")
  | some sealedAt =>
    let proof ← checked "managed GPU release was not proven" (newReleaseProof
      ⟨op.tenantID, op.serviceID, create, op.id, sealedAt, op.managedGPUReleasePods⟩)
    let notification := releaseNotification op create
    wrapping "persist managed GPU release report"
      (write (.releaseReport original proof notification op.leaseToken))
    wrapping "report managed GPU release" (provider (.reportReleased notification))

/-- `ReleaseManagedGPU` once it is found to be configured. -/
def reportRelease (op : OperationContext) : M Unit := do
  failIf (!op.managedGPU ∨ op.kind ≠ .delete) (notProven "operation is not a managed GPU delete")
  match op.managedGPUCreateOperationID with
  | none => throw (notProven "original create operation is missing")
  | some create =>
    let original ← wrapping "load managed GPU release context"
      (loadRefundContext op.tenantID op.serviceID create)
    failIf (original.deleteOperationID ≠ some op.id)
      (notProven "persisted delete operation does not match")
    match ← loadReleaseReport original with
    | some saved => provider (.reportReleased saved)
    | none => reportFresh op original create

def runReleaseManagedGPU (op : OperationContext) : M StepResult := do
  needs r.managedGPURelease "managed GPU release"
  let op ← releaseContext op
  provider (.releaseManagedGPU op)
  reportRelease op
  return finish "quota.governance_released"

/-- A reservation no authority has heard of yet is cancelled here. -/
def localPlaceholder (reservation : Reservation) : Bool :=
  reservation.state = .pending &&
    match reservation.reservationID with
    | some (.placeholder _) => true
    | some (.issued id) => "pending-".toList.isPrefixOf id.toList
    | none => false

def runReleaseQuota (op : OperationContext) : M StepResult := do
  if op.managedGPU ∧ op.kind = .delete then runReleaseManagedGPU r op
  else if op.managed ∨ op.managedGPU then return finish "quota.governance_owned"
  else match op.reservation with
  | none => return finish "quota.none"
  | some reservation =>
    if op.kind = .delete ∧ localPlaceholder reservation then
      write (.quota (withReservation op reservation .released ""))
      return finish "quota.pending_cancelled"
    else if !r.quota then return finish "quota.skipped"
    else
      releaseReservation op reservation
      return finish "quota.released"

def runStep (op : OperationContext) : M StepResult :=
  match op.step with
  | .admission => runAdmission r op
  | .reserveQuota => runReserveQuota r op
  | .resolveGPU => runResolveGPU r op
  | .releasePreviousQuota => runReleasePreviousQuota r op
  | .applyCR => runApplyCR r op
  | .materializeModel => runMaterializeModel r op
  | .applyRuntime => runApplyRuntime r op
  | .observeRuntime => runObserveRuntime r op
  | .withdrawPublication => runWithdrawPublication r op
  | .deleteRuntime => runDeleteRuntime r op
  | .observeAbsence => runObserveAbsence r op
  | .deleteCR => runDeleteCR r op
  | .publish => runPublish r op
  | .releaseQuota => runReleaseQuota r op
  | .verifyInvocation | .complete =>
    throw (.text s!"unsupported operation step {quoted op.step.text}")

end Runner
end AniInference
