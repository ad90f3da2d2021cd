import AniInference.OperationHistory

namespace AniInference
open Lib Txn

/-- What a call does to the generation a service desires. -/
def Db.Raises (db db' : Db) (k : Uuid × Uuid) (s s' : Service) : Prop :=
  (db.Adds db' k ∧ s'.desiredGeneration = s.desiredGeneration + 1) ∨
    (¬db.Adds db' k ∧ s'.desiredGeneration = s.desiredGeneration)

/-- What may happen to a specification that is stored: a plan is set together with its digest,
where there was none. -/
def Spec.Keeps (spec spec' : Spec) : Prop :=
  spec' = spec ∨ ∃ plan, spec.gpuPlan = none ∧
    spec' = { spec with gpuPlan := some plan, gpuPlanDigest := some plan.executionDigest }

section
variable {now : Time} {token : Uuid} {db db' : Db} {c : Call}

/-- Generations are raised by one with every operation that is added, and else not at all. -/
theorem Effect.raises (h : Effect now token db c db') (hs : db.services.lookup k = some s) :
    ∃ s', db'.services.lookup k = some s' ∧ db.Raises db' k s s' := by
  cases h.serviceChange k with
  | none _ same quiet => exact ⟨s, same.trans hs, .inr ⟨quiet, rfl⟩⟩
  | written _ found set quiet aim =>
    cases found.symm.trans hs
    exact ⟨_, set, .inr ⟨quiet, congrArg (·.2.1) aim⟩⟩
  | @moved _ operation _ _ ha =>
    cases ha.found.symm.trans hs
    have hadded := ha.operations (k.1, operation)
    rw [if_pos rfl] at hadded
    refine ⟨_, by rw [ha.services, AList.lookup_insert], .inl ⟨?_, rfl⟩⟩
    exact ⟨operation, _, ha.unused, hadded, rfl⟩
  | created hc => cases hc.absent.symm.trans hs

/-- Specifications stay as they are, but for the plan a worker resolves. -/
theorem Call.Proper.spec_kept {opts : WorkOptions} {r : Runner} (hp : c.Proper opts r w)
    (choice : c.Choice) (hs : w.db.specs.lookup k = some spec) :
    ∃ spec', (exec opts c choice w).2.db.specs.lookup k = some spec' ∧ spec.Keeps spec' := by
  cases (exec_effect opts c choice w).spec k with
  | none _ same => exact ⟨spec, same.trans hs, .inl rfl⟩
  | added _ absent _ =>
    rw [absent] at hs
    cases hs
  | @planned op given plan spec₀ key found free written =>
    rw [found] at hs
    obtain rfl := Option.some.inj hs
    obtain ⟨hknown, hnone⟩ : op.Known opts w ∧ op.gpuSnapshot = none := hp
    refine ⟨_, written, ?_⟩
    rcases free with hfree | hplan
    · exact .inr ⟨plan, hfree, rfl⟩
    · -- The plan was set since the worker loaded the operation, with its digest.
      have hdigest := hknown.plan hnone spec₀ (key ▸ found) plan hplan
      exact .inl (by rw [← hplan, ← hdigest])

end

/-- A request that is answered with an error of its own changes nothing. -/
theorem Call.entry_rejected {opts : WorkOptions} {c : Call} {choice : c.Choice} {w : World}
    {q : Request} {err : Err} (h : (c.entry opts choice w).seen = ⟨.request q, .error err⟩)
    (hconn : err ≠ .connection) :
    (c.entry opts choice w).after = (c.entry opts choice w).before := by
  obtain ⟨rfl, ha⟩ := Sigma.mk.inj h
  obtain ⟨fault, fresh⟩ := choice
  have hanswer : (Txn.settle (q.tx w.now fresh) .connection fault w.db).1 =
    .error err := eq_of_heq ha
  change (Txn.settle (q.tx w.now fresh) .connection fault w.db).2 = w.db
  unfold Txn.settle at hanswer ⊢
  split at hanswer
  · cases hanswer
  · rfl
  · rfl
  · exact absurd (Except.error.inj hanswer).symm hconn
  · rfl

/-- The invariant of services, operations and specifications, over a whole run. -/
structure AggregateHolds (w : World) : Prop where
  linked : Linked w.history w.db
  raised : ∀ e ∈ w.history, ∀ k s, e.before.services.lookup k = some s →
    ∃ s', e.after.services.lookup k = some s' ∧ e.before.Raises e.after k s s'
  -- Where the connection is lost the caller does not know whether its request was accepted.
  rejected : ∀ e ∈ w.history, ∀ q err, e.seen = ⟨.request q, .error err⟩ → err ≠ .connection →
    e.after = e.before
  single : ∀ tenant id id' o o', w.db.operations.lookup (tenant, id) = some o →
    w.db.operations.lookup (tenant, id') = some o' → o.serviceID = o'.serviceID →
    o.phase.active = true → o'.phase.active = true → id = id'
  current : ∀ k o, w.db.operations.lookup k = some o → o.phase.active = true →
    w.db.IsCurrent k o
  spec : ∀ k s, w.db.services.lookup k = some s → s.desiredState ≠ .deleted →
    (w.db.specs.lookup (k.1, k.2, s.desiredGeneration)).isSome = true
  specs : ∀ e ∈ w.history, ∀ k spec, e.before.specs.lookup k = some spec →
    ∃ spec', e.after.specs.lookup k = some spec' ∧ spec.Keeps spec'

/-- The invariant holds in every run. -/
theorem aggregate_holds {opts : WorkOptions} {r : Runner} {s : Pool World Call Call.Answer}
    (h : Running opts r s) : AggregateHolds s.world := by
  obtain ⟨hkept, hrec⟩ := h.kept
  have hagg := hkept.chronicle.sound.aggregate
  have made : ∀ e ∈ s.world.history, ∃ c choice w, c.Proper opts r w ∧
      e = Call.entry opts c choice w := by
    intro e he
    obtain ⟨newer, past, hsplit⟩ := List.append_of_mem he
    obtain ⟨c, choice, w, hproper, _, rfl⟩ := hrec e past ⟨newer, hsplit.symm⟩
    exact ⟨c, choice, w, hproper.2, rfl⟩
  refine ⟨h.linked, fun e he k sv hs => ?_, fun e he q err hseen hconn => ?_,
    fun tenant id id' o o' ho ho' hservice ha ha' => ?_, hagg.active, hagg.spec,
    fun e he k spec hspec => ?_⟩
  · obtain ⟨c, choice, w, _, rfl⟩ := made e he
    exact (exec_effect opts c choice w).raises hs
  · obtain ⟨c, choice, w, _, rfl⟩ := made e he
    exact Call.entry_rejected hseen hconn
  · obtain ⟨sv, hs, hcur, _⟩ := hagg.active _ o ho ha
    obtain ⟨sv', hs', hcur', _⟩ := hagg.active _ o' ho' ha'
    rw [← hservice, hs] at hs'
    obtain rfl := Option.some.inj hs'
    rw [hcur] at hcur'
    exact Option.some.inj hcur'
  · obtain ⟨c, choice, w, hproper, rfl⟩ := made e he
    exact hproper.spec_kept choice hspec

/-- A service that runs is restarted, and a stop of its first generation is refused. -/
def commandRun : List Event :=
  oneByOne 0 (Sample.running ++ Sample.commanded .restart 1 20 [26] ++
    Sample.commanded .stop 1 30 [])

theorem aggregate_holds_commandRun :
    ((played .default .configured commandRun).world.db.services.lookup (1, 7)).map
      (fun s => (s.desiredGeneration, s.currentOperation)) = some (2, some 20) ∧
    ([8, 20, 30].map fun id =>
      ((played .default .configured commandRun).world.db.operations.lookup (1, id)).map
        fun o => (o.kind, o.targetGeneration, o.phase)) =
      [some (.create, 1, .succeeded), some (.restart, 2, .running), none] ∧
    AggregateHolds (played .default .configured commandRun).world :=
  ⟨by decide +kernel, by decide +kernel,
    aggregate_holds (running_played .default .configured commandRun)⟩

/-- Every stored specification is immutable, but for a plan set once where there was none. -/
def OnlyPlanSet (w : World) : Prop :=
  ∀ e ∈ w.history, ∀ k spec, e.before.specs.lookup k = some spec →
    ∃ spec', e.after.specs.lookup k = some spec' ∧
      (spec' = spec ∨ ∃ plan, spec.gpuPlan = none ∧ spec' = { spec with gpuPlan := some plan })

/-- A service with a device is created directly, and its plan is resolved by a worker. -/
def planRun : List Event :=
  oneByOne 0 (Sample.created
    { Sample.create with
      content := { Sample.content with gpuRequest := some Sample.gpuRequest } }
    [19, 21, 19]
    { Sample.outside with
      answers := fun
        | .resolveGPU _ => some (.ok (some Sample.plan))
        | _ => none })

/-- The digest of the specification `k` was changed. -/
def Entry.digests (k : Uuid × Uuid × Generation) (e : Entry) : Bool :=
  match e.before.specs.lookup k, e.after.specs.lookup k with
  | some spec, some spec' => spec'.gpuPlanDigest ≠ spec.gpuPlanDigest
  | _, _ => false

/-- The digest of the plan is set with the plan. -/
theorem plan_digest_set :
    Running .default .configured (played .default .configured planRun) ∧
    ¬OnlyPlanSet (played .default .configured planRun).world := by
  refine ⟨running_played .default .configured planRun, fun honly => ?_⟩
  have hany : (played .default .configured planRun).world.history.any (Entry.digests (1, 7, 1)) =
      true := by decide +kernel
  obtain ⟨e, he, hd⟩ := List.any_eq_true.mp hany
  unfold Entry.digests at hd
  split at hd
  · next spec spec' hspec hspec' =>
    obtain ⟨spec₁, hspec₁, hchange⟩ := honly e he _ spec hspec
    rw [hspec'] at hspec₁
    obtain rfl := Option.some.inj hspec₁
    rcases hchange with rfl | ⟨plan, _, rfl⟩
    · simp at hd
    · simp at hd
  · cases hd

end AniInference
