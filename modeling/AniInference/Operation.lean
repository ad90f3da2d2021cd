namespace AniInference

/-- The kinds the `inference_operations` constraint admits. -/
inductive Kind
  | create | update | start | stop | restart | delete
deriving DecidableEq, Repr

inductive Phase
  | pending | running | succeeded | failed
deriving DecidableEq, Repr

/-- The persisted steps. `verifyInvocation` is only found in rows written before it was
dropped from every path. -/
inductive Step
  | admission | reserveQuota | resolveGPU | applyCR | materializeModel | applyRuntime
  | observeRuntime | withdrawPublication | deleteRuntime | observeAbsence | deleteCR | publish
  | verifyInvocation | releaseQuota | releasePreviousQuota | complete
deriving DecidableEq, Repr

inductive DesiredState
  | running | stopped | deleted
deriving DecidableEq, Repr

def Kind.text : Kind → String
  | .create => "create"
  | .update => "update"
  | .start => "start"
  | .stop => "stop"
  | .restart => "restart"
  | .delete => "delete"

def Phase.text : Phase → String
  | .pending => "pending"
  | .running => "running"
  | .succeeded => "succeeded"
  | .failed => "failed"

def Step.text : Step → String
  | .admission => "admission"
  | .reserveQuota => "reserve_quota"
  | .resolveGPU => "resolve_gpu"
  | .applyCR => "apply_cr"
  | .materializeModel => "materialize_model"
  | .applyRuntime => "apply_runtime"
  | .observeRuntime => "observe_runtime"
  | .withdrawPublication => "withdraw_publication"
  | .deleteRuntime => "delete_runtime"
  | .observeAbsence => "observe_absence"
  | .deleteCR => "delete_cr"
  | .publish => "publish"
  | .verifyInvocation => "verify_invocation"
  | .releaseQuota => "release_quota"
  | .releasePreviousQuota => "release_previous_quota"
  | .complete => "complete"

def Phase.active : Phase → Bool
  | .pending | .running => true
  | .succeeded | .failed => false

/-- `fmt`'s `%q` on the plain words used here. -/
def quoted (s : String) : String := "\"" ++ s ++ "\""

namespace Operation

def paths : Kind → List Step
  | .create => [.admission, .reserveQuota, .resolveGPU, .applyCR, .materializeModel,
      .applyRuntime, .observeRuntime, .publish, .complete]
  | .start => [.reserveQuota, .resolveGPU, .applyCR, .materializeModel, .applyRuntime,
      .observeRuntime, .publish, .complete]
  | .update | .restart => [.withdrawPublication, .deleteRuntime, .observeAbsence,
      .releasePreviousQuota, .reserveQuota, .resolveGPU, .applyCR, .materializeModel,
      .applyRuntime, .observeRuntime, .publish, .complete]
  | .stop => [.withdrawPublication, .deleteRuntime, .observeAbsence, .releaseQuota, .complete]
  | .delete => [.withdrawPublication, .deleteRuntime, .observeAbsence, .deleteCR,
      .releaseQuota, .complete]

/-- `operationStepIndex`, with `none` for the source's -1. -/
def stepIndex (path : List Step) (step : Step) : Option Nat := path.findIdx? (· = step)

/-- `ValidateOperationStepTransition`. -/
def validateStepTransition (kind : Kind) (fromPhase : Phase) (fromStep : Step)
    (toPhase : Phase) (toStep : Step) : Except String Unit :=
  let path := paths kind
  if !fromPhase.active then
    .error s!"operation phase {quoted fromPhase.text} is not active"
  else match stepIndex path fromStep with
  | none => .error s!"step {quoted fromStep.text} is not an active step for {kind.text}"
  | some i =>
    if path.length - 1 ≤ i then
      .error s!"step {quoted fromStep.text} is not an active step for {kind.text}"
    else match toPhase with
    | .failed =>
      if toStep ≠ .complete then
        .error s!"failed operation must use {quoted Step.complete.text} step"
      else .ok ()
    | .succeeded =>
      if fromPhase ≠ .running ∨ toStep ≠ .complete ∨ i ≠ path.length - 2 then
        .error s!"cannot succeed {kind.text} from {fromPhase.text}/{fromStep.text}"
      else .ok ()
    | .pending => .error "running operation cannot return to pending; use retry"
    | .running =>
      match stepIndex path toStep with
      | none => .error s!"step {quoted toStep.text} is not an active step for {kind.text}"
      | some j =>
        if path.length - 1 ≤ j then
          .error s!"step {quoted toStep.text} is not an active step for {kind.text}"
        else if fromPhase = .pending then
          if i ≠ j then
            .error
              s!"pending operation must be claimed at step {quoted fromStep.text} before advancing"
          else .ok ()
        -- Workers that loaded the operation before `resolve_gpu` existed.
        else if fromStep = .reserveQuota ∧ toStep = .applyCR ∧ path[i + 1]? = some .resolveGPU then
          .ok ()
        else if j ≠ i + 1 then
          let next := (path[i + 1]?).elim "" Step.text
          .error s!"operation {kind.text} must advance from {quoted fromStep.text} to {quoted next}"
        else .ok ()

end Operation
end AniInference
