import AniInference.OperationHistory
import AniInference.Lib.Trace

namespace AniInference
open Lib Prog

namespace M
section
variable {α β : Type} {es : List Exchange} {c : Call}

@[simp] theorem asks_write : Asks (write x).run es c ↔ es = [] ∧ c = .write x :=
  asks_perform

@[simp] theorem asks_work : Asks (work k).run es c ↔ es = [] ∧ c = .work k :=
  asks_perform

@[simp] theorem asks_provider : Asks (provider p).run es c ↔ es = [] ∧ c = .provider p :=
  asks_perform

@[simp] theorem played_read : Played (read q).run es a ↔ es = [⟨.read q, a⟩] :=
  @played_perform Call Call.Answer (.read q) es a

@[simp] theorem played_write : Played (write x).run es a ↔ es = [⟨.write x, a⟩] :=
  @played_perform Call Call.Answer (.write x) es a

@[simp] theorem played_work : Played (work k).run es a ↔ es = [⟨.work k, a⟩] :=
  @played_perform Call Call.Answer (.work k) es a

@[simp] theorem played_provider : Played (provider p).run es a ↔ es = [⟨.provider p, a⟩] :=
  @played_perform Call Call.Answer (.provider p) es a

@[simp] theorem asks_pure : ¬Asks (pure a : M α).run es c := not_asks_ret

@[simp] theorem asks_throw : ¬Asks (throw e : M α).run es c := not_asks_ret

@[simp] theorem played_pure : Played (pure a : M α).run es b ↔ es = [] ∧ b = .ok a := played_ret

@[simp] theorem played_throw : Played (throw e : M α).run es b ↔ es = [] ∧ b = .error e :=
  played_ret

theorem attempt_run {x : M α} :
    (attempt x).run = (x.run >>= fun a => (.ret (.ok a) : Prog Call Call.Answer _)) := rfl

@[simp] theorem asks_attempt {x : M α} : Asks (attempt x).run es c ↔ Asks x.run es c := by
  rw [attempt_run, asks_bind]
  simp

@[simp] theorem played_attempt {x : M α} :
    Played (attempt x).run es b ↔ ∃ a, b = .ok a ∧ Played x.run es a := by
  rw [attempt_run, played_bind]
  constructor
  · rintro ⟨a, es₁, es₂, rfl, ha, hb⟩
    obtain ⟨rfl, rfl⟩ := played_ret.mp hb
    exact ⟨a, rfl, by simpa using ha⟩
  · rintro ⟨a, rfl, ha⟩
    exact ⟨a, es, [], by simp, ha, .ret _⟩

section
variable {f : Unit → M α}

theorem asks_failIf_bind [Decidable p] :
    Asks (failIf p e >>= f).run es c ↔ ¬p ∧ Asks (f ()).run es c := by
  by_cases hp : p
  · rw [failIf, if_pos hp]
    exact ⟨fun h => absurd h not_asks_ret, fun h => absurd hp h.1⟩
  · rw [failIf, if_neg hp]
    exact ⟨fun h => ⟨hp, h⟩, fun h => h.2⟩

theorem played_failIf_bind [Decidable p] :
    Played (failIf p e >>= f).run es b ↔
      (p ∧ es = [] ∧ b = .error e) ∨ (¬p ∧ Played (f ()).run es b) := by
  by_cases hp : p
  · simp only [failIf, hp, if_true, true_and, not_true, false_and, or_false]
    exact played_ret
  · simp only [failIf, hp, if_false, false_and, not_false_iff, true_and, false_or]
    exact Iff.rfl

theorem asks_write_bind :
    Asks (write x >>= f).run es c ↔
      (es = [] ∧ c = .write x) ∨
        ∃ es', es = ⟨.write x, .ok ()⟩ :: es' ∧ Asks (f ()).run es' c := by
  rw [asks_run_bind, asks_write]
  refine or_congr_right ⟨?_, ?_⟩
  · rintro ⟨_, es₁, es₂, rfl, h₁, h₂⟩
    obtain rfl := played_write.mp h₁
    exact ⟨es₂, rfl, h₂⟩
  · rintro ⟨es', rfl, h⟩
    exact ⟨(), [_], es', rfl, played_write.mpr rfl, h⟩

theorem played_write_bind :
    Played (write x >>= f).run es b ↔
      (∃ e, es = [⟨.write x, .error e⟩] ∧ b = .error e) ∨
        ∃ es', es = ⟨.write x, .ok ()⟩ :: es' ∧ Played (f ()).run es' b := by
  rw [played_run_bind]
  refine or_congr ⟨?_, ?_⟩ ⟨?_, ?_⟩
  · rintro ⟨e, rfl, h⟩
    exact ⟨e, played_write.mp h, rfl⟩
  · rintro ⟨e, h, rfl⟩
    exact ⟨e, rfl, played_write.mpr h⟩
  · rintro ⟨_, es₁, es₂, rfl, h₁, h₂⟩
    obtain rfl := played_write.mp h₁
    exact ⟨es₂, rfl, h₂⟩
  · rintro ⟨es', rfl, h⟩
    exact ⟨(), [_], es', rfl, played_write.mpr rfl, h⟩

end

theorem played_failIf_bind_ok [Decidable p] :
    Played (failIf p e >>= f).run es (.ok b) ↔ ¬p ∧ Played (f ()).run es (.ok b) := by
  rw [played_failIf_bind]
  simp

theorem played_write_bind_ok :
    Played (write x >>= f).run es (.ok b) ↔
      ∃ es', es = ⟨.write x, .ok ()⟩ :: es' ∧ Played (f ()).run es' (.ok b) := by
  rw [played_write_bind]
  simp

theorem played_checked_bind_ok :
    Played (checked context x >>= f).run es (.ok b) ↔
      ∃ a, x = .ok a ∧ Played (f a).run es (.ok b) := by
  cases x with
  | ok a =>
    simp only [Except.ok.injEq, exists_eq_left']
    exact Iff.rfl
  | error e =>
    constructor
    · intro h
      obtain ⟨_, he⟩ := played_ret.mp h
      cases he
    · rintro ⟨_, h, _⟩
      cases h

theorem played_read_bind_ok :
    Played (read q >>= f).run es (.ok b) ↔
      ∃ a es', es = ⟨.read q, .ok a⟩ :: es' ∧ Played (f a).run es' (.ok b) := by
  rw [played_run_bind]
  constructor
  · rintro (⟨e, he, _⟩ | ⟨a, es₁, es₂, rfl, h₁, h₂⟩)
    · cases he
    · obtain rfl := played_read.mp h₁
      exact ⟨a, es₂, rfl, h₂⟩
  · rintro ⟨a, es', rfl, h⟩
    exact .inr ⟨a, [_], es', rfl, played_read.mpr rfl, h⟩

theorem asks_provider_bind :
    Asks (provider p >>= f).run es c ↔
      (es = [] ∧ c = .provider p) ∨
        ∃ a es', es = ⟨.provider p, .ok a⟩ :: es' ∧ Asks (f a).run es' c := by
  rw [asks_run_bind, asks_provider]
  refine or_congr_right ⟨?_, ?_⟩
  · rintro ⟨a, es₁, es₂, rfl, h₁, h₂⟩
    obtain rfl := played_provider.mp h₁
    exact ⟨a, es₂, rfl, h₂⟩
  · rintro ⟨a, es', rfl, h⟩
    exact ⟨a, [_], es', rfl, played_provider.mpr rfl, h⟩

theorem played_provider_bind :
    Played (provider p >>= f).run es b ↔
      (∃ e, es = [⟨.provider p, .error e⟩] ∧ b = .error e) ∨
        ∃ a es', es = ⟨.provider p, .ok a⟩ :: es' ∧ Played (f a).run es' b := by
  rw [played_run_bind]
  refine or_congr ⟨?_, ?_⟩ ⟨?_, ?_⟩
  · rintro ⟨e, rfl, h⟩
    exact ⟨e, played_provider.mp h, rfl⟩
  · rintro ⟨e, h, rfl⟩
    exact ⟨e, rfl, played_provider.mpr h⟩
  · rintro ⟨a, es₁, es₂, rfl, h₁, h₂⟩
    obtain rfl := played_provider.mp h₁
    exact ⟨a, es₂, rfl, h₂⟩
  · rintro ⟨a, es', rfl, h⟩
    exact ⟨a, [_], es', rfl, played_provider.mpr rfl, h⟩

theorem played_provider_bind_ok :
    Played (provider p >>= f).run es (.ok b) ↔
      ∃ a es', es = ⟨.provider p, .ok a⟩ :: es' ∧ Played (f a).run es' (.ok b) := by
  rw [played_provider_bind]
  simp

/-- What follows an attempt sees its result or its error. -/
theorem asks_attempt_bind :
    Asks (attempt x >>= f).run es c ↔
      Asks x.run es c ∨
        ∃ a es₁ es₂, es = es₁ ++ es₂ ∧ Played x.run es₁ a ∧ Asks (f a).run es₂ c := by
  rw [asks_run_bind, asks_attempt]
  refine or_congr_right ⟨?_, ?_⟩
  · rintro ⟨a, es₁, es₂, rfl, h₁, h₂⟩
    obtain ⟨a', ha, h₁⟩ := played_attempt.mp h₁
    obtain rfl := Except.ok.inj ha
    exact ⟨a, es₁, es₂, rfl, h₁, h₂⟩
  · rintro ⟨a, es₁, es₂, rfl, h₁, h₂⟩
    exact ⟨a, es₁, es₂, rfl, played_attempt.mpr ⟨a, rfl, h₁⟩, h₂⟩

theorem played_attempt_bind :
    Played (attempt x >>= f).run es b ↔
      ∃ a es₁ es₂, es = es₁ ++ es₂ ∧ Played x.run es₁ a ∧ Played (f a).run es₂ b := by
  rw [played_run_bind]
  constructor
  · rintro (⟨e, _, h⟩ | ⟨a, es₁, es₂, rfl, h₁, h₂⟩)
    · obtain ⟨a, ha, _⟩ := played_attempt.mp h
      cases ha
    · obtain ⟨a', ha, h₁⟩ := played_attempt.mp h₁
      obtain rfl := Except.ok.inj ha
      exact ⟨a, es₁, es₂, rfl, h₁, h₂⟩
  · rintro ⟨a, es₁, es₂, rfl, h₁, h₂⟩
    exact .inr ⟨a, es₁, es₂, rfl, played_attempt.mpr ⟨a, rfl, h₁⟩, h₂⟩

theorem asks_onlyIf [Decidable p] : Asks (onlyIf p x).run es c ↔ p ∧ Asks x.run es c := by
  by_cases hp : p
  · simp [onlyIf, hp]
  · simp [onlyIf, hp]

/-- What is joined to an error is an error, whatever became of it. -/
theorem asks_joinWith : Asks (joinWith e x : M α).run es c ↔ Asks x.run es c := by
  unfold joinWith
  rw [asks_attempt_bind]
  refine or_iff_left ?_
  rintro ⟨a, es₁, es₂, _, _, h⟩
  cases a with
  | ok u | error e' => exact asks_throw h

theorem played_joinWith (h : Played (joinWith e x : M α).run es b) :
    ∃ a err, Played x.run es a ∧ b = .error err := by
  obtain ⟨a, es₁, es₂, rfl, h₁, h₂⟩ := played_attempt_bind.mp h
  cases a with
  | ok u | error e' =>
    obtain ⟨rfl, rfl⟩ := played_throw.mp h₂
    exact ⟨_, _, by simpa using h₁, rfl⟩

end

section
variable {α β : Type} {P : Call → Prop}

theorem only_pure : (pure a : M α).run.Only P := trivial

theorem only_throw : (throw e : M α).run.Only P := trivial

theorem only_settled : (ExceptT.mk (.ret x) : M α).run.Only P := trivial

theorem only_read (h : P (.read q)) : (read q).run.Only P := ⟨h, fun _ => trivial⟩

theorem only_write (h : P (.write x)) : (write x).run.Only P := ⟨h, fun _ => trivial⟩

theorem only_provider (h : P (.provider p)) : (provider p).run.Only P :=
  ⟨h, fun _ => trivial⟩

theorem only_clock (h : P .clock) : clock.run.Only P := ⟨h, fun _ => trivial⟩

theorem only_attempt (h : x.run.Only P) : (attempt x).run.Only P :=
  only_bind h fun _ => trivial

theorem only_failIf [Decidable p] : (failIf p e).run.Only P := by
  unfold failIf
  split
  · exact only_throw
  · exact only_pure

theorem only_checked : (checked context x).run.Only P := by
  cases x with
  | ok a => exact only_pure
  | error e => exact only_throw

theorem only_checked_bind {f : α → M β} (h : ∀ a, x = .ok a → (f a).run.Only P) :
    (checked context x >>= f).run.Only P := by
  cases x with
  | ok a => exact h a rfl
  | error e => exact only_throw

theorem only_ite [Decidable p] {x y : M α} (hx : p → x.run.Only P) (hy : ¬p → y.run.Only P) :
    (if p then x else y).run.Only P := by
  by_cases hp : p
  · rw [if_pos hp]
    exact hx hp
  · rw [if_neg hp]
    exact hy hp

theorem only_onlyIf [Decidable p] (hx : p → x.run.Only P) : (onlyIf p x).run.Only P :=
  only_ite hx fun _ => only_pure

theorem only_joinWith (h : x.run.Only P) : (joinWith e x : M α).run.Only P := by
  refine only_run_bind (only_attempt h) fun a => ?_
  cases a with
  | ok u | error e' => exact only_throw

theorem only_wrapping (h : x.run.Only P) : (wrapping context x).run.Only P :=
  only_run_bind (only_attempt h) fun _ => only_checked

theorem only_discard {x : M α} (h : x.run.Only P) : (discard x).run.Only P :=
  only_run_bind h fun _ => only_pure

end
end M

namespace Runner
open M

/-- The claim of a pending step. -/
def claimCall (op : OperationContext) : Call :=
  .write (.advance (transitionOf op .running op.step "" none)
    (auditOf op .running op.step (.step "claimed")))

/-- A step that goes back to be tried again. -/
def retryCall (r : Runner) (op : OperationContext) (cause : Err) : Call :=
  .write (.retry (transitionOf op .pending op.step "provider_retry" (some cause)) (retryDelay r)
    (auditOf op .pending op.step .retry))

/-- A step that was run to its end. -/
def finishCall (op : OperationContext) (result : StepResult) : Call :=
  .write (.advance (transitionOf op result.phase result.step "" none)
    (auditOf op result.phase result.step (.step result.event)))

/-- How a worker comes to run the step of the operation it has loaded. -/
inductive Entered (op : OperationContext) :
    List Exchange → OperationContext → Prop
  | claimed (pending : op.phase = .pending) :
      Entered op [⟨claimCall op, .ok ()⟩] { op with phase := .running }
  | running (claimed : op.phase ≠ .pending) : Entered op [] op

/-- What a worker does once it has loaded an operation. -/
inductive Acts (r : Runner) (op : OperationContext) : List Exchange → Call → Prop
  | claim (pending : op.phase = .pending) : Acts r op [] (claimCall op)
  | unclaimed (pending : op.phase = .pending) (cause : Err) :
      Acts r op [⟨claimCall op, .error cause⟩] (retryCall r op cause)
  | step {op' : OperationContext} {es₀ es : List Exchange} {c : Call}
      (entered : Entered op es₀ op') (asks : Asks (runStep r op').run es c) :
      Acts r op (es₀ ++ es) c
  | failed {op' : OperationContext} {es₀ es : List Exchange} {cause : Err}
      (entered : Entered op es₀ op') (ran : Played (runStep r op').run es (.error cause)) :
      Acts r op (es₀ ++ es) (retryCall r op' cause)
  | finish {op' : OperationContext} {es₀ es : List Exchange} {result : StepResult}
      (entered : Entered op es₀ op') (ran : Played (runStep r op').run es (.ok result)) :
      Acts r op (es₀ ++ es) (finishCall op' result)
  | unfinished {op' : OperationContext} {es₀ es : List Exchange} {result : StepResult}
      (entered : Entered op es₀ op') (ran : Played (runStep r op').run es (.ok result))
      (cause : Err) :
      Acts r op (es₀ ++ (es ++ [⟨finishCall op' result, .error cause⟩])) (retryCall r op' cause)

/-- What a worker does in its turn. -/
inductive Works (r : Runner) (tenant : Uuid) : List Exchange → Call → Prop
  | claims : Works r tenant [] (.work (.claim tenant))
  | loads (item : Item) (es : List Exchange) (q : Read) :
      Works r tenant (⟨.work (.claim tenant), .ok (some item)⟩ :: es) (.read q)
  | observes {item : Item} {load es : List Exchange} {op : OperationContext} {c : Call}
      (loaded : Played (currentOperation item).run load (.ok op)) (ended : op.phase.active = false)
      (asks : Asks (observe item).run es c) :
      Works r tenant (⟨.work (.claim tenant), .ok (some item)⟩ :: (load ++ es)) c
  -- The operation is loaded twice, and the second load is what is acted on.
  | acts {item : Item} {load₁ load₂ es : List Exchange} {op₁ op : OperationContext}
      {c : Call} (first : Played (currentOperation item).run load₁ (.ok op₁))
      (loaded : Played (currentOperation item).run load₂ (.ok op))
      (service : op.serviceID = item.serviceID) (target : op.targetGeneration = item.generation)
      (active : op.phase.active = true) (acts : Acts r op es c) :
      Works r tenant (⟨.work (.claim tenant), .ok (some item)⟩ :: (load₁ ++ (load₂ ++ es))) c
  | commits {item : Item} {es : List Exchange}
      (ran : Played (durableExecute r item).run es (.ok ())) :
      Works r tenant (⟨.work (.claim tenant), .ok (some item)⟩ :: es) (.work (.commit item))
  | retries {item : Item} {es : List Exchange} {cause : Err}
      (ran : Played (durableExecute r item).run es (.error cause)) :
      Works r tenant (⟨.work (.claim tenant), .ok (some item)⟩ :: es) (.work (.retry item cause))

section
variable {r : Runner} {op op' : OperationContext} {item : Item} {tenant : Uuid} {α : Type}
variable {es : List Exchange} {c : Call}

theorem asks_retry :
    Asks (retry r op cause : M α).run es c ↔ es = [] ∧ c = retryCall r op cause := by
  unfold retry
  rw [asks_joinWith, asks_write]
  rfl

theorem played_retry (h : Played (retry r op cause).run es b) :
    ∃ a err, es = [⟨retryCall r op cause, a⟩] ∧ b = .error err := by
  obtain ⟨a, err, ha, rfl⟩ := played_joinWith h
  exact ⟨a, err, played_write.mp ha, rfl⟩

theorem asks_orRetry :
    Asks (orRetry r op x).run es c ↔
      Asks x.run es c ∨ ∃ cause, Played x.run es (.error cause) ∧ c = retryCall r op cause := by
  unfold orRetry
  rw [asks_attempt_bind]
  refine or_congr_right ⟨?_, ?_⟩
  · rintro ⟨a, es₁, es₂, rfl, h₁, h₂⟩
    cases a with
    | ok a => exact absurd h₂ asks_pure
    | error cause =>
      obtain ⟨rfl, rfl⟩ := asks_retry.mp h₂
      exact ⟨cause, by simpa using h₁, rfl⟩
  · rintro ⟨cause, h, rfl⟩
    exact ⟨.error cause, es, [], by simp, h, asks_retry.mpr ⟨rfl, rfl⟩⟩

theorem played_orRetry (h : Played (orRetry r op x).run es b) :
    (∃ a, b = .ok a ∧ Played x.run es (.ok a)) ∨
      ∃ err cause es' a, b = .error err ∧ Played x.run es' (.error cause) ∧
        es = es' ++ [⟨retryCall r op cause, a⟩] := by
  obtain ⟨a, es₁, es₂, rfl, h₁, h₂⟩ := played_attempt_bind.mp h
  cases a with
  | ok a =>
    obtain ⟨rfl, rfl⟩ := played_pure.mp h₂
    exact .inl ⟨a, rfl, by simpa using h₁⟩
  | error cause =>
    obtain ⟨a, err, rfl, rfl⟩ := played_retry h₂
    exact .inr ⟨err, cause, es₁, a, rfl, h₁, rfl⟩

theorem asks_claimed :
    Asks (claimed r op).run es c ↔ op.phase = .pending ∧
      ((es = [] ∧ c = claimCall op) ∨
        ∃ cause, es = [⟨claimCall op, .error cause⟩] ∧ c = retryCall r op cause) := by
  unfold claimed
  by_cases hp : op.phase = .pending
  · rw [if_pos hp, asks_run_bind, asks_orRetry]
    have hpure : ¬∃ a es₁ es₂, es = es₁ ++ es₂ ∧
        Played (orRetry r op (transition op .running op.step "claimed")).run es₁ (.ok a) ∧
        Asks (pure { op with phase := .running } : M OperationContext).run es₂ c := by
      rintro ⟨_, _, _, _, _, h⟩
      exact asks_pure h
    rw [or_iff_left hpure]
    simp only [transition, asks_write, played_write, hp, true_and]
    rfl
  · rw [if_neg hp]
    simp [hp]

theorem played_claimed (h : Played (claimed r op).run es (.ok op')) : Entered op es op' := by
  unfold claimed at h
  by_cases hp : op.phase = .pending
  · rw [if_pos hp] at h
    obtain ⟨u, es₁, es₂, rfl, h₁, h₂⟩ := played_run_bind_ok.mp h
    obtain ⟨rfl, hop⟩ := played_pure.mp h₂
    obtain rfl := Except.ok.inj hop
    rcases played_orRetry h₁ with ⟨a, _, h₁⟩ | ⟨_, _, _, _, herr, _⟩
    · rw [transition, played_write] at h₁
      subst h₁
      exact .claimed hp
    · cases herr
  · rw [if_neg hp] at h
    obtain ⟨rfl, hop⟩ := played_pure.mp h
    obtain rfl := Except.ok.inj hop
    exact .running hp

/-- What a worker does with the operation it has loaded. -/
theorem acts_of_asks
    (h : Asks (do
      let op ← claimed r op
      let result ← orRetry r op (runStep r op)
      orRetry r op (transition op result.phase result.step result.event) : M Unit).run es c) :
    Acts r op es c := by
  rcases asks_run_bind.mp h with h | ⟨op', es₀, es₁, rfl, hentered, h⟩
  · obtain ⟨hp, ⟨rfl, rfl⟩ | ⟨cause, rfl, rfl⟩⟩ := asks_claimed.mp h
    · exact .claim hp
    · exact .unclaimed hp cause
  · have hentered := played_claimed hentered
    rcases asks_run_bind.mp h with h | ⟨result, es₂, es₃, rfl, hran, h⟩
    · rcases asks_orRetry.mp h with h | ⟨cause, hran, rfl⟩
      · exact .step hentered h
      · exact .failed hentered hran
    · rcases played_orRetry hran with ⟨_, hresult, hran⟩ | ⟨_, _, _, _, herr, _⟩
      · obtain rfl := Except.ok.inj hresult
        rcases asks_orRetry.mp h with h | ⟨cause, hlast, rfl⟩
        · rw [transition, asks_write] at h
          obtain ⟨rfl, rfl⟩ := h
          rw [List.append_nil]
          exact .finish hentered hran
        · rw [transition, played_write] at hlast
          subst hlast
          exact .unfinished hentered hran cause
      · cases herr

theorem asks_execute (h : Asks (execute r item).run es c) :
    Asks (currentOperation item).run es c ∨
      ∃ op load es', es = load ++ es' ∧ Played (currentOperation item).run load (.ok op) ∧
        op.serviceID = item.serviceID ∧ op.targetGeneration = item.generation ∧
        op.phase.active = true ∧ Acts r op es' c := by
  obtain ⟨_, h⟩ := asks_failIf_bind.mp h
  rcases asks_run_bind.mp h with hload | ⟨op, load, es', rfl, hload, h⟩
  · exact .inl hload
  · obtain ⟨hsame, h⟩ := asks_failIf_bind.mp h
    simp only [ne_eq, not_or, not_not] at hsame
    by_cases hactive : op.phase.active = true
    · rw [if_pos hactive] at h
      exact .inr ⟨op, load, es', rfl, hload, hsame.1, hsame.2, hactive, acts_of_asks h⟩
    · rw [if_neg hactive] at h
      exact absurd h asks_pure

theorem reads_loadScope : (loadScope tenant service create).run.Only fun c => ∃ q, c = .read q := by
  refine only_run_bind (only_read ⟨_, rfl⟩) fun scope => ?_
  cases scope with
  | none => exact only_pure
  | some scope => exact only_run_bind only_checked fun _ => only_pure

theorem reads_loadManaged : (loadManaged tenant service).run.Only fun c => ∃ q, c = .read q := by
  refine only_run_bind (only_read ⟨_, rfl⟩) fun resource => ?_
  cases resource with
  | none => exact only_pure
  | some resource => exact only_run_bind reads_loadScope fun _ => only_pure

theorem reads_findSpec :
    (findSpec tenant service generation).run.Only fun c => ∃ q, c = .read q := by
  refine only_run_bind (only_read ⟨_, rfl⟩) fun spec => ?_
  cases spec with
  | none => exact only_read ⟨_, rfl⟩
  | some spec => exact only_pure

theorem reads_loadReservation :
    (loadReservation item operation row).run.Only fun c => ∃ q, c = .read q := by
  cases row with
  | none => exact only_pure
  | some row =>
    refine only_run_bind only_checked fun _ => only_run_bind ?_ fun _ => only_pure
    refine only_run_bind only_failIf fun _ => only_run_bind ?_ fun spec => ?_
    · refine only_run_bind reads_findSpec fun spec => ?_
      cases spec with
      | none => exact only_throw
      | some spec => exact only_pure
    · exact only_run_bind only_checked fun _ => only_checked

/-- Loading an operation only reads. -/
theorem reads_currentOperation :
    (currentOperation item).run.Only fun c => ∃ q, c = .read q := by
  refine only_run_bind (only_read ⟨_, rfl⟩) fun found => ?_
  cases found with
  | none => exact only_throw
  | some found =>
    refine only_run_bind reads_loadManaged fun managed => only_run_bind ?_ fun spec =>
      only_run_bind ?_ fun facts => only_run_bind (only_read ⟨_, rfl⟩) fun caller =>
      only_run_bind (only_read ⟨_, rfl⟩) fun active => only_run_bind reads_loadReservation fun _ =>
      only_run_bind ?_ fun previous => only_run_bind reads_loadReservation fun _ =>
      only_run_bind ?_ fun publication => only_pure
    · refine only_run_bind (only_read ⟨_, rfl⟩) fun spec => ?_
      cases spec with
      | some spec => exact only_pure
      | none => exact only_ite (fun _ => only_read ⟨_, rfl⟩) fun _ => only_pure
    · cases spec with
      | none => exact only_pure
      | some spec => exact only_run_bind only_failIf fun _ => only_pure
    · exact only_ite (fun _ => only_read ⟨_, rfl⟩) fun _ => only_pure
    · refine only_run_bind ?_ fun row => ?_
      · exact only_ite (fun _ => only_read ⟨_, rfl⟩) fun _ => only_read ⟨_, rfl⟩
      · cases row with
        | none | some row => exact only_pure

theorem asks_discard : Asks (discard p) es c ↔ Asks p es c := by
  change Asks (p >>= fun _ => .ret ()) es c ↔ _
  simp [asks_bind]

/-- Everything a worker does. -/
theorem works_of_asks (h : Asks (discard (runOnce r tenant).run) es c) : Works r tenant es c := by
  rw [asks_discard] at h
  rcases asks_run_bind.mp h with hclaim | ⟨found, es₁, es₂, rfl, hclaim, hitem⟩
  · obtain ⟨rfl, rfl⟩ := asks_work.mp hclaim
    exact .claims
  obtain rfl := played_work.mp hclaim
  cases found with
  | none => exact absurd hitem asks_pure
  | some item =>
    rw [List.singleton_append]
    rcases asks_attempt_bind.mp hitem with hrun | ⟨a, es₁, es₂', rfl, hran, hend⟩
    · rcases asks_run_bind.mp hrun with hload | ⟨op₁, load₁, es₃, rfl, hload₁, hrun⟩
      · obtain ⟨q, rfl⟩ := reads_currentOperation.asks hload
        exact .loads item es₂ q
      · by_cases hactive : op₁.phase.active = true
        · rw [if_pos hactive] at hrun
          rcases asks_execute hrun with hload | ⟨op, load₂, es₄, rfl, hload₂, hs, hg, hact, hacts⟩
          · obtain ⟨q, rfl⟩ := reads_currentOperation.asks hload
            exact .loads item _ q
          · exact .acts hload₁ hload₂ hs hg hact hacts
        · rw [if_neg hactive] at hrun
          exact .observes hload₁ (by simpa using hactive) hrun
    · cases a with
      | ok u =>
        obtain ⟨rfl, rfl⟩ := asks_work.mp hend
        rw [List.append_nil]
        exact .commits hran
      | error cause =>
        rcases asks_run_bind.mp hend with hretry | ⟨_, _, _, _, _, hthrow⟩
        · obtain ⟨rfl, rfl⟩ := asks_work.mp hretry
          rw [List.append_nil]
          exact .retries hran
        · exact absurd hthrow asks_throw

end
end Runner
end AniInference
