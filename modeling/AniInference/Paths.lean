import AniInference.Runner
import Mathlib.Data.List.Infix

namespace AniInference
open Lib

namespace Operation

/-- The steps a path has before `step`. -/
def before (kind : Kind) (step : Step) : List Step := (paths kind).takeWhile (· ≠ step)

theorem stepIndex_eq_some (h : stepIndex path step = some i) :
    path.takeWhile (· ≠ step) = path.take i ∧ path[i]? = some step := by
  unfold stepIndex at h
  induction path generalizing i with
  | nil => simp at h
  | cons s rest ih =>
    rw [List.findIdx?_cons] at h
    by_cases hs : s = step
    · simp [hs] at h
      subst h
      simp [hs]
    · simp [hs] at h
      obtain ⟨j, hj, rfl⟩ := h
      obtain ⟨htake, hget⟩ := ih hj
      simp [hs, hget]
      simpa using htake

/-- What comes right after `step`, with every step before it. -/
theorem take_succ_of_stepIndex (h : stepIndex path step = some i) :
    path.take (i + 1) = path.takeWhile (· ≠ step) ++ [step] := by
  obtain ⟨htake, hget⟩ := stepIndex_eq_some h
  rw [htake, List.take_add_one, hget]
  rfl

theorem before_complete (kind : Kind) : before kind .complete = (paths kind).dropLast := by
  cases kind <;> rfl

theorem before_applyCR (h : Step.applyCR ∈ paths kind) :
    before kind .applyCR = before kind .reserveQuota ++ [.reserveQuota, .resolveGPU] := by
  cases kind <;> first | rfl | exact absurd h (by decide)

theorem resolveGPU_notMem_before (kind : Kind) :
    Step.resolveGPU ∉ before kind .reserveQuota ∨ Step.reserveQuota ∉ paths kind := by
  cases kind <;> decide

theorem complete_notMem_dropLast (kind : Kind) : Step.complete ∉ (paths kind).dropLast := by
  cases kind <;> decide

theorem complete_mem (kind : Kind) : Step.complete ∈ paths kind := by
  cases kind <;> decide

/-- A step of the path that is not its end is one an operation can be active at. -/
theorem mem_dropLast (h : step ∈ paths kind) (hne : step ≠ .complete) :
    step ∈ (paths kind).dropLast := by
  have hlast : paths kind = (paths kind).dropLast ++ [.complete] := by cases kind <;> rfl
  rw [hlast, List.mem_append, List.mem_singleton] at h
  exact h.resolve_right hne

/-- Where an operation can be taken from `(running, step)`, short of a failure. -/
inductive Leads (kind : Kind) (step : Step) : Phase → Step → Prop
  | advance {step' : Step} (mem : step' ∈ (paths kind).dropLast)
      (next : before kind step' = before kind step ++ [step]) : Leads kind step .running step'
  | skip (leaves : step = .reserveQuota) (mem : Step.applyCR ∈ (paths kind).dropLast)
      (next : before kind .applyCR = before kind step ++ [step, .resolveGPU]) :
      Leads kind step .running .applyCR
  | succeed (next : before kind .complete = before kind step ++ [step]) :
      Leads kind step .succeeded .complete

theorem ok_of_ite_error {c : Prop} [Decidable c] {e : String} {x : Except String Unit}
    (h : (if c then .error e else x) = .ok ()) : ¬c ∧ x = .ok () := by
  by_cases hc : c
  · simp [hc] at h
  · simp only [hc, if_false] at h
    exact ⟨hc, h⟩

/-- What the validator lets through from a running step follows the path. -/
theorem leads_of_valid (h : validateStepTransition kind .running step phase step' = .ok ())
    (hp : phase ≠ .failed) : Leads kind step phase step' := by
  unfold validateStepTransition at h
  obtain ⟨_, h⟩ := ok_of_ite_error h
  cases hi : stepIndex (paths kind) step with
  | none => simp [hi] at h
  | some i =>
    simp only [hi] at h
    obtain ⟨hlast, h⟩ := ok_of_ite_error h
    have hnext := take_succ_of_stepIndex hi
    cases phase with
    | failed => exact absurd rfl hp
    | pending => simp at h
    | succeeded =>
      obtain ⟨hc, _⟩ := ok_of_ite_error h
      simp only [ne_eq, not_true_eq_false, false_or, not_or, not_not] at hc
      obtain ⟨rfl, rfl⟩ := hc
      refine .succeed ?_
      rw [before_complete, List.dropLast_eq_take]
      have hlen : (paths kind).length - 2 + 1 = (paths kind).length - 1 := by omega
      rw [hlen] at hnext
      exact hnext
    | running =>
      cases hj : stepIndex (paths kind) step' with
      | none => simp [hj] at h
      | some j =>
        simp only [hj] at h
        obtain ⟨hj', h⟩ := ok_of_ite_error h
        obtain ⟨htake, hget⟩ := stepIndex_eq_some hj
        have hmem : step' ∈ (paths kind).dropLast := by
          rw [List.dropLast_eq_take]
          exact List.mem_of_getElem? (i := j) (by rw [List.getElem?_take_of_lt (by omega), hget])
        rw [if_neg (by decide)] at h
        split at h
        · next hskip =>
          obtain ⟨hfrom, hto, _⟩ := hskip
          subst hfrom hto
          exact .skip rfl hmem (before_applyCR (List.mem_of_mem_dropLast hmem))
        · obtain ⟨hsucc, _⟩ := ok_of_ite_error h
          have hji : j = i + 1 := not_not.mp hsucc
          refine .advance hmem ?_
          rw [before, htake, hji]
          exact hnext

/-- The steps an operation at `step` has completed: all that come before it, or all but
`resolve_gpu`. -/
def Trail (kind : Kind) (step : Step) (completed : List Step) : Prop :=
  completed = before kind step ∨ completed = (before kind step).erase .resolveGPU

theorem Leads.trail (h : Leads kind step phase step') (ht : Trail kind step completed) :
    Trail kind step' (completed ++ [step]) := by
  have next : before kind step' = before kind step ++ [step] →
      Trail kind step' (completed ++ [step]) := by
    intro hnext
    rcases ht with rfl | rfl
    · exact .inl hnext.symm
    · by_cases hmem : Step.resolveGPU ∈ before kind step
      · refine .inr ?_
        rw [hnext, List.erase_append_left _ hmem]
      · refine .inl ?_
        rw [hnext, List.erase_of_not_mem hmem]
  cases h with
  | advance _ hnext | succeed hnext => exact next hnext
  | skip hfrom hmem hnext =>
    subst hfrom
    have hno : Step.resolveGPU ∉ before kind .reserveQuota := by
      refine (resolveGPU_notMem_before kind).resolve_right fun hrq => hrq ?_
      have hcr := List.mem_of_mem_dropLast hmem
      cases kind <;> first | decide | exact absurd hcr (by decide)
    have hdone : completed = before kind .reserveQuota := by
      rcases ht with h | h
      · exact h
      · rw [h, List.erase_of_not_mem hno]
    refine .inr ?_
    rw [hdone, hnext, List.erase_append_right _ hno]
    rfl

theorem Leads.ne (h : Leads kind step phase step') : step' ≠ step := by
  intro he
  subst he
  cases h with
  | advance _ hnext | skip _ _ hnext | succeed hnext => simp at hnext

/-- Only a success ends at the last step. -/
theorem Leads.complete (h : Leads kind step phase step') :
    (phase.active = true → step' ≠ .complete) ∧ (phase = .succeeded → step' = .complete) := by
  have running : step' ∈ (paths kind).dropLast → step' ≠ .complete := by
    intro hmem he
    rw [he] at hmem
    exact complete_notMem_dropLast kind hmem
  cases h with
  | advance hmem | skip _ hmem => exact ⟨fun _ => running hmem, fun hp => nomatch hp⟩
  | succeed =>
    constructor
    · intro ha
      cases ha
    · intro _
      rfl

/-- The first step has none before it. -/
theorem before_of_head (h : (paths kind).head? = some step) : before kind step = [] := by
  cases kind <;> simp [paths] at h <;> subst h <;> rfl

theorem Leads.mem (h : Leads kind step phase step') : step' ∈ paths kind := by
  cases h with
  | advance hmem | skip _ hmem => exact List.mem_of_mem_dropLast hmem
  | succeed => exact complete_mem kind

/-- What was before the step, the step itself, and nothing else but `resolve_gpu`. -/
theorem Leads.before (h : Leads kind step phase step') (hs : s ∈ before kind step') :
    s ∈ before kind step ∨ s = step ∨ s = .resolveGPU := by
  cases h with
  | advance _ hnext | succeed hnext =>
    rw [hnext] at hs
    simp at hs
    rcases hs with hs | hs
    · exact .inl hs
    · exact .inr (.inl hs)
  | skip _ _ hnext =>
    rw [hnext] at hs
    simp at hs
    exact hs

end Operation

namespace Runner
variable (r : Runner) (op : OperationContext)

/-- Where a step that succeeds asks to go. -/
def asks (kind : Kind) : Step → Phase × Step
  | .admission | .releasePreviousQuota => (.running, .reserveQuota)
  | .reserveQuota => (.running, .resolveGPU)
  | .resolveGPU => (.running, .applyCR)
  | .applyCR => (.running, .materializeModel)
  | .materializeModel => (.running, .applyRuntime)
  | .applyRuntime => (.running, .observeRuntime)
  | .observeRuntime => (.running, .publish)
  | .withdrawPublication => (.running, .deleteRuntime)
  | .deleteRuntime => (.running, .observeAbsence)
  | .observeAbsence => (.running, afterAbsence kind)
  | .deleteCR => (.running, .releaseQuota)
  | _ => (.succeeded, .complete)

/-- The validator takes what a successful step asks for. -/
theorem asks_valid (h : step ∈ (Operation.paths kind).dropLast) :
    Operation.validateStepTransition kind .running step (asks kind step).1 (asks kind step).2 =
      .ok () := by
  cases kind <;> cases step <;> first | rfl | exact absurd h (by decide)

theorem ends_runReserveQuota : Ends (runReserveQuota r op) fun result =>
    (result.phase, result.step) = (.running, .resolveGPU) := by
  refine ends_ite (fun _ => ends_pure rfl) fun _ => ends_ite (fun _ => ends_pure rfl) fun _ => ?_
  cases op.reservation with
  | none => exact ends_throw
  | some reservation =>
    refine ends_bind fun _ => ends_ite (fun _ => ends_pure rfl) fun _ => ends_bind fun _ => ?_
    exact ends_ite (fun _ => ends_bind fun _ => ends_pure rfl) fun _ =>
      ends_bind fun _ => ends_bind fun _ => ends_pure rfl

theorem ends_runResolveGPU : Ends (runResolveGPU r op) fun result =>
    (result.phase, result.step) = (.running, .applyCR) := by
  refine ends_bind fun _ => ends_ite (fun _ => ends_pure rfl) fun _ => ends_bind fun _ => ?_
  refine ends_ite (fun _ => ends_bind fun _ => ends_pure rfl) fun _ => ?_
  exact ends_bind fun _ => ends_bind fun _ => ends_bind fun _ => ends_bind fun _ =>
    ends_bind fun _ => ends_bind fun _ => ends_pure rfl

theorem ends_runReleasePreviousQuota : Ends (runReleasePreviousQuota r op) fun result =>
    (result.phase, result.step) = (.running, .reserveQuota) := by
  refine ends_ite (fun _ => ends_pure rfl) fun _ => ends_ite (fun _ => ends_pure rfl) fun _ => ?_
  cases op.previousReservation with
  | none => exact ends_pure rfl
  | some reservation => exact ends_bind fun _ => ends_pure rfl

theorem ends_runReleaseQuota : Ends (runReleaseQuota r op) fun result =>
    (result.phase, result.step) = (.succeeded, .complete) := by
  refine ends_ite (fun _ => ?_) fun _ => ends_ite (fun _ => ends_pure rfl) fun _ => ?_
  · exact ends_bind fun _ => ends_bind fun _ => ends_bind fun _ => ends_bind fun _ => ends_pure rfl
  · cases op.reservation with
    | none => exact ends_pure rfl
    | some reservation =>
      refine ends_ite (fun _ => ends_bind fun _ => ends_pure rfl) fun _ => ?_
      exact ends_ite (fun _ => ends_pure rfl) fun _ => ends_bind fun _ => ends_pure rfl

/-- Every successful end asks for the same transition. -/
theorem ends_runStep :
    Ends (runStep r op) fun result => (result.phase, result.step) = asks op.kind op.step := by
  unfold runStep
  cases hstep : op.step with
  | admission | applyCR | applyRuntime
  | deleteRuntime => exact ends_bind fun _ => ends_bind fun _ => ends_pure rfl
  | deleteCR =>
    exact ends_bind fun _ => ends_bind fun _ => ends_bind fun _ => ends_bind fun _ => ends_pure rfl
  | materializeModel | observeRuntime =>
    exact ends_bind fun _ => ends_bind fun _ => ends_bind fun _ => ends_bind fun _ =>
      ends_bind fun _ => ends_pure rfl
  | withdrawPublication | observeAbsence =>
    exact ends_bind fun _ => ends_bind fun _ => ends_bind fun _ => ends_bind fun _ =>
      ends_bind fun _ => ends_bind fun _ => ends_pure rfl
  | publish =>
    exact ends_bind fun _ => ends_bind fun _ => ends_bind fun _ => ends_bind fun _ =>
      ends_bind fun _ => ends_bind fun _ => ends_bind fun _ => ends_pure rfl
  | reserveQuota => exact ends_runReserveQuota r op
  | resolveGPU => exact ends_runResolveGPU r op
  | releasePreviousQuota => exact ends_runReleasePreviousQuota r op
  | releaseQuota => exact ends_runReleaseQuota r op
  | verifyInvocation | complete => exact ends_throw

end Runner

end AniInference
