import AniInference.Workers
import AniInference.Schedule

namespace AniInference
open Lib

/-- What a committed `SaveManagedGPUReleasePods` has recorded is never lost or replaced. -/
def ScopesMonotone (w : World) : Prop :=
  ∀ e ∈ w.history, ∀ op scope, e.call = .write (.releaseScope op scope) →
    e.after.releaseScopes.lookup (op.tenantID, op.serviceID, op.scopeOperation) = some scope →
    ∃ scope', w.db.releaseScopes.lookup (op.tenantID, op.serviceID, op.scopeOperation) =
      some scope' ∧ scope.Within scope'

/-- Only the holder of the live lease for the service's current operation changes a scope. -/
def ScopesOwned (w : World) : Prop :=
  ∀ e ∈ w.history, ∀ op scope, e.call = .write (.releaseScope op scope) →
    e.after.releaseScopes ≠ e.before.releaseScopes →
    e.before.fenced op.tenantID op.id op.leaseToken e.time = true

/-- The calls `of` picks out are made before the lease their worker claimed has run out by the
clock, with no command accepted on the service since the claim. -/
def MadeInTime (opts : WorkOptions) (of : Call → Option OperationContext) (history : List Entry) :
    Prop :=
  ∀ e past, e :: past <:+ history → ∀ op, of e.call = some op →
    InTime opts op.tenantID op.serviceID op.leaseToken past e.time

def Call.savesScope : Call → Option OperationContext
  | .write (.releaseScope op _) => some op
  | _ => none

/-- A worker that is in time passes the fence. -/
theorem OperationContext.Known.fenced {op : OperationContext} {w : World} (h : op.Known opts w)
    (ht : InTime opts op.tenantID op.serviceID op.leaseToken w.history w.now) : op.Fenced w := by
  obtain ⟨o, ho, haim⟩ := h.row
  obtain ⟨desired, hholds⟩ := h.holds
  simp only [OperationRow.aim, Prod.mk.injEq] at haim
  exact hholds.fenced ho haim.1 haim.2.2 ht

/-- In every run whose scope writes are all made in time, the scopes are monotone and owned in
every state that is reached. -/
theorem scopes_held_in_time {opts : WorkOptions} {r : Runner} {s : Pool World Call Call.Answer}
    (h : Running opts r s) (ht : MadeInTime opts Call.savesScope s.world.history) :
    ScopesMonotone s.world ∧ ScopesOwned s.world := by
  obtain ⟨hkept, hrec⟩ := h.kept
  have hfenced : ScopesFenced s.world.history := by
    intro e he op scope hcall
    obtain ⟨newer, past, hsplit⟩ := List.append_of_mem he
    have hsuf : e :: past <:+ s.world.history := ⟨newer, hsplit.symm⟩
    have hin := ht e past hsuf op (by rw [hcall]; rfl)
    obtain ⟨c, choice, w, ⟨_, hproper⟩, rfl, rfl⟩ := hrec e past hsuf
    obtain rfl : c = .write (.releaseScope op scope) := hcall
    obtain ⟨hknown, _⟩ : op.Known opts w ∧ op.Merges scope w := hproper
    exact hknown.fenced hin
  constructor
  · intro e he op scope hcall hafter
    exact (hkept.scopes hfenced e he op scope hcall hafter).2
  · intro e he op scope hcall _
    exact hfenced e he op scope hcall

section
variable {opts : WorkOptions} {tenant service token : Uuid} {now : Time}

def Entry.claims (tenant token : Uuid) : Entry → Bool
  | ⟨.work (.claim tenant'), .ok (some item), _, _, _⟩ =>
    tenant' = tenant && item.leaseToken = token
  | _ => false

instance (k : Uuid × Uuid) (e : Entry) : Decidable (e.accepts k) :=
  inferInstanceAs (Decidable (_ ≠ _))

/-- `InTime`, looked up in the history. -/
def inTime (opts : WorkOptions) (tenant service token : Uuid) (now : Time) : List Entry → Bool
  | [] => false
  | e :: rest =>
    if e.claims tenant token then now < e.time + opts.leaseSeconds
    else !decide (e.accepts (tenant, service)) && inTime opts tenant service token now rest

theorem inTime_sound (h : inTime opts tenant service token now history = true) :
    InTime opts tenant service token history now := by
  induction history with
  | nil => cases h
  | cons e rest ih =>
    unfold inTime at h
    split at h
    · next hc =>
      unfold Entry.claims at hc
      split at hc
      · simp only [Bool.and_eq_true, decide_eq_true_eq] at hc h
        obtain ⟨rfl, rfl⟩ := hc
        exact ⟨[], _, rest, _, rfl, rfl, rfl, h, by simp⟩
      · cases hc
    · simp only [Bool.and_eq_true, Bool.not_eq_true', decide_eq_false_iff_not] at h
      obtain ⟨since, e', rest', item, hsplit, hseen, htoken, hnow, hacc⟩ := ih h.2
      refine ⟨e :: since, e', rest', item, by rw [hsplit]; rfl, hseen, htoken, hnow, ?_⟩
      intro e₀ he₀
      rcases List.mem_cons.mp he₀ with rfl | he₀
      · exact h.1
      · exact hacc e₀ he₀

/-- `MadeInTime`, looked up in the history. -/
def madeInTime (opts : WorkOptions) (of : Call → Option OperationContext) : List Entry → Bool
  | [] => true
  | e :: past =>
    (of e.call).all (fun op => inTime opts op.tenantID op.serviceID op.leaseToken e.time past) &&
      madeInTime opts of past

theorem madeInTime_sound (h : madeInTime opts of history = true) : MadeInTime opts of history := by
  induction history with
  | nil =>
    intro e past hsuf
    simp at hsuf
  | cons e₀ rest ih =>
    simp only [madeInTime, Bool.and_eq_true] at h
    intro e past hsuf op hop
    rcases List.suffix_cons_iff.mp hsuf with heq | hsuf
    · obtain ⟨rfl, rfl⟩ := List.cons.inj heq
      have hall := h.1
      rw [hop] at hall
      exact inTime_sound hall
    · exact ih h.2 e past hsuf op hop

end

namespace Sample

def pod (uid : String) : Gpu.PodRef :=
  ⟨gpuRequest.clusterID, "tenant", uid, uid, "kserve-container"⟩

/-- The delete is operation 40, and the port finds `pods`. -/
def deleting (pods : List Gpu.PodRef) : Outside :=
  { outside with fresh := ⟨7, 40, 41⟩, pods := pods }

/-- A managed service is created and deleted, up to the step that observes the absence. -/
def untilAbsence : List (Process × Nat × Outside) :=
  [(.request (.create managedCreate), 1, outside),
    (.request (.managedDelete (managedDelete 40)), 1, deleting [])] ++ turns [24, 20] (deleting [])

end Sample

def observedRun : List Event :=
  oneByOne 0 (Sample.untilAbsence ++ [(.worker 1, 25, Sample.deleting [Sample.pod "a"])])

theorem scopes_held_in_time_observedRun :
    ((played .default .configured observedRun).world.db.releaseScopes.lookup (1, 7, 8)).map
      (·.pods) = some [Sample.pod "a"] ∧
    ScopesMonotone (played .default .configured observedRun).world ∧
    ScopesOwned (played .default .configured observedRun).world :=
  ⟨by decide +kernel, scopes_held_in_time (running_played .default .configured observedRun)
    (madeInTime_sound (by decide +kernel))⟩

/-- A worker has read the scope when its lease runs out. The next worker seals the scope with a
Pod of its own, and then the first one writes what it had merged. -/
def overtakenRun : List Event :=
  oneByOne 0 Sample.untilAbsence ++
    [.start (.worker 1), .calls 6 21 (Sample.deleting [Sample.pod "a"]),
      .start .time, .calls 7 1 Sample.outside,
      .start (.worker 1), .calls 8 25 (Sample.deleting [Sample.pod "b"]),
      .calls 6 1 (Sample.deleting [Sample.pod "a"])]

/-- The scope `k` was saved, with the Pod `uid` in it. -/
def Entry.savesPod (k : Uuid × Uuid × Uuid) (uid : String) : Entry → Bool
  | ⟨.write (.releaseScope op scope), _, _, after, _⟩ =>
    (op.tenantID, op.serviceID, op.scopeOperation) = k &&
      after.releaseScopes.lookup k = some scope &&
      scope.pods.any (·.uid = uid)
  | _ => false

theorem not_monotone_of_lost (hsaved : w.history.any (Entry.savesPod k uid) = true)
    (hlost : (w.db.releaseScopes.lookup k).any (fun scope =>
      scope.pods.any (·.uid = uid)) = false) :
    ¬ScopesMonotone w := by
  intro h
  obtain ⟨e, he, hs⟩ := List.any_eq_true.mp hsaved
  unfold Entry.savesPod at hs
  split at hs
  · simp only [Bool.and_eq_true, decide_eq_true_eq] at hs
    obtain ⟨⟨rfl, hafter⟩, hpod⟩ := hs
    obtain ⟨scope', hscope', hwithin⟩ := h _ he _ _ rfl hafter
    obtain ⟨p, hp, hu⟩ := List.any_eq_true.mp hpod
    rw [hscope', Option.any_some] at hlost
    have hany : scope'.pods.any (·.uid = uid) = true :=
      List.any_eq_true.mpr ⟨p, hwithin.pods p hp, hu⟩
    rw [hany] at hlost
    cases hlost
  · cases hs

/-- A worker that does not pass the fence changed a scope. -/
def Entry.intrudes : Entry → Bool
  | ⟨.write (.releaseScope op _), _, before, after, time⟩ =>
    let k := (op.tenantID, op.serviceID, op.scopeOperation)
    after.releaseScopes.lookup k ≠ before.releaseScopes.lookup k &&
      !before.fenced op.tenantID op.id op.leaseToken time
  | _ => false

theorem not_owned_of_intrudes (h : w.history.any Entry.intrudes = true) : ¬ScopesOwned w := by
  intro howned
  obtain ⟨e, he, hi⟩ := List.any_eq_true.mp h
  unfold Entry.intrudes at hi
  split at hi
  · simp only [Bool.and_eq_true, decide_eq_true_eq, Bool.not_eq_true'] at hi
    have hfenced := howned _ he _ _ rfl fun hsame => hi.1 (congrArg _ hsame)
    rw [hi.2] at hfenced
    cases hfenced
  · cases hi

/-- The Pod and the seal of the second worker are gone. -/
theorem scope_overwritten_by_stale_worker :
    Running .default .configured (played .default .configured overtakenRun) ∧
    ¬ScopesMonotone (played .default .configured overtakenRun).world ∧
    ¬ScopesOwned (played .default .configured overtakenRun).world :=
  ⟨running_played .default .configured overtakenRun,
    @not_monotone_of_lost _ (1, 7, 8) "b" (by decide +kernel) (by decide +kernel),
    not_owned_of_intrudes (by decide +kernel)⟩

end AniInference
