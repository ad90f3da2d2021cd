import AniInference.ReleaseScopes
import AniInference.StepCalls

namespace AniInference
open Lib

def Call.appliesRuntime (tenant service : Uuid) : Call → Option OperationContext
  | .provider (.applyRuntime op) =>
    if op.tenantID = tenant ∧ op.serviceID = service then some op else none
  | _ => none

/-- The seal `t` was taken in the operation `op` after it had observed the runtime's absence, and
no runtime of the service was applied since. -/
def SealFresh (op : OperationContext) (t : Time) (past : List Entry) : Prop :=
  ∃ op' fact observed read newer older older',
    past = newer ++ read :: older' ∧ observed :: older <:+ older' ∧ read.seen = ⟨.clock, t⟩ ∧
    observed.seen = ⟨.provider (.observeAbsence op'), .ok fact⟩ ∧ fact.absent = true ∧
    op'.tenantID = op.tenantID ∧ op'.id = op.id ∧
    ∀ e ∈ newer, e.call.appliesRuntime op.tenantID op.serviceID = none

/-- Every release of the service is reported with a fresh seal. -/
def SealsFresh (tenant service : Uuid) (w : World) : Prop :=
  ∀ e past, e :: past <:+ w.history → ∀ op t, e.call = .provider (.releaseManagedGPU op) →
    op.tenantID = tenant → op.serviceID = service → op.managedGPUReleaseSealedAt = some t →
    SealFresh op t past

/-- Of what was accepted on the service, only its delete takes a runtime down. -/
def OnlyDeleteTakesDown (tenant service : Uuid) (db : Db) : Prop :=
  ∀ id o, db.operations.lookup (tenant, id) = some o → o.serviceID = service →
    o.kind ≠ .stop ∧ o.kind ≠ .update ∧ o.kind ≠ .restart

theorem Operation.delete_of_observeAbsence (h : Step.observeAbsence ∈ (paths kind).dropLast)
    (hkind : kind ≠ .stop ∧ kind ≠ .update ∧ kind ≠ .restart) : kind = .delete := by
  revert h hkind
  cases kind <;> decide

theorem Operation.applyRuntime_notMem_delete : Step.applyRuntime ∉ (paths .delete).dropLast := by
  decide

section
variable {opts : WorkOptions} {r : Runner} {w : World}

/-- Two deletes of one service are one. -/
theorem Db.Aggregate.delete_unique {db : Db} (h : db.Aggregate) {tenant service id id' : Uuid}
    {o o' : OperationRow} (ho : db.operations.lookup (tenant, id) = some o)
    (ho' : db.operations.lookup (tenant, id') = some o') (hk : o.kind = .delete)
    (hk' : o'.kind = .delete) (hs : o.serviceID = service) (hs' : o'.serviceID = service) :
    id = id' := by
  obtain ⟨s, hsv, _, hcur⟩ := h.deleted _ o ho hk
  obtain ⟨s', hsv', _, hcur'⟩ := h.deleted _ o' ho' hk'
  rw [hs] at hsv
  rw [hs', hsv] at hsv'
  obtain rfl := Option.some.inj hsv'
  rw [hcur] at hcur'
  exact Option.some.inj hcur'

/-- An operation that looked for the absence is in every later database, with that step on its
path. -/
theorem observer_row (hrec : ∀ e past, e :: past <:+ history → ∃ c choice w₀,
      (World.Kept w₀ ∧ Call.Proper opts r c w₀) ∧ w₀.history = past ∧ e = c.entry opts choice w₀)
    (hseen : observed.seen = ⟨.provider (.observeAbsence op), .ok fact⟩)
    (hsuf : observed :: older <:+ history) :
    Step.observeAbsence ∈ (Operation.paths op.kind).dropLast ∧
    ∀ w : World, w.Kept → observed :: older <:+ w.history →
      ∃ o, w.db.operations.lookup (op.tenantID, op.id) = some o ∧ o.kind = op.kind ∧
        o.serviceID = op.serviceID := by
  obtain ⟨c, choice, w₀, ⟨_, hproper⟩, rfl, rfl⟩ := hrec observed older hsuf
  rw [seen_entry] at hseen
  obtain ⟨rfl, _⟩ := Sigma.mk.inj hseen
  obtain ⟨hknown, hstep⟩ : op.Known opts w₀ ∧ op.step = .observeAbsence := hproper
  refine ⟨hstep ▸ hknown.step, fun w hw hsufw => ?_⟩
  obtain ⟨o, ho, haim⟩ := hknown.row
  obtain ⟨o', ho', haim'⟩ := hw.chronicle.rows _ _ hsufw _ o ho
  simp only [OperationRow.aim, Prod.mk.injEq] at haim haim'
  exact ⟨o', ho', haim'.2.1.trans haim.2.1, haim'.1.trans haim.1⟩

theorem appliesRuntime_eq_some {c : Call} {op : OperationContext}
    (h : c.appliesRuntime tenant service = some op) :
    c = .provider (.applyRuntime op) ∧ op.tenantID = tenant ∧ op.serviceID = service := by
  unfold Call.appliesRuntime at h
  split at h
  · split at h
    · next hsame =>
      obtain rfl := Option.some.inj h
      exact ⟨rfl, hsame⟩
    · cases h
  · cases h

/-- A worker that is in time applies no runtime to a service whose delete was accepted. -/
theorem not_applied_after_delete {op : OperationContext} {id : Uuid} {o : OperationRow}
    (hw : w.Kept) (hknown : op.Known opts w) (hstep : op.step = .applyRuntime)
    (ho : w.db.operations.lookup (op.tenantID, id) = some o) (hkind : o.kind = .delete)
    (hservice : o.serviceID = op.serviceID) :
    ¬InTime opts op.tenantID op.serviceID op.leaseToken w.history w.now := by
  intro hin
  obtain ⟨row, hrow, haim⟩ := hknown.row
  simp only [OperationRow.aim, Prod.mk.injEq] at haim
  obtain ⟨row', hrow', ⟨s, hs, hcur, _⟩, _⟩ := Db.fenced_iff.mp (hknown.fenced hin)
  rw [hrow] at hrow'
  obtain rfl := Option.some.inj hrow'
  obtain ⟨s', hs', _, hcur'⟩ := hw.chronicle.sound.aggregate.deleted _ o ho hkind
  rw [haim.1] at hs
  rw [hservice, hs] at hs'
  obtain rfl := Option.some.inj hs'
  rw [hcur] at hcur'
  obtain rfl : op.id = id := Option.some.inj hcur'
  rw [hrow] at ho
  obtain rfl := Option.some.inj ho
  have hmem := hknown.step
  rw [hstep, ← haim.2.1, hkind] at hmem
  exact Operation.applyRuntime_notMem_delete hmem

end

/-- In every run in which only the delete of the service takes its runtime down and every
runtime of it is applied in time, its release is reported with a fresh seal. -/
theorem seals_fresh_without_stop {opts : WorkOptions} {r : Runner}
    {s : Pool World Call Call.Answer} (h : Running opts r s) {tenant service : Uuid}
    (honly : OnlyDeleteTakesDown tenant service s.world.db)
    (ht : MadeInTime opts (Call.appliesRuntime tenant service) s.world.history) :
    SealsFresh tenant service s.world := by
  obtain ⟨hkept, hrec⟩ := h.kept
  rintro e past hsuf op t hcall rfl rfl hsealed
  obtain ⟨c, choice, w, ⟨hw, hproper⟩, rfl, rfl⟩ := hrec e past hsuf
  obtain rfl : c = .provider (.releaseManagedGPU op) := hcall
  obtain ⟨hknown, hdelete, _⟩ : op.Known opts w ∧ op.kind = .delete ∧ _ := hproper
  have hsufw : w.history <:+ s.world.history := (List.suffix_cons _ _).trans hsuf
  obtain ⟨op', fact, observed, read, older, older', hobserved, habsent, htenant, hservice, hread,
    ⟨newer, hnewer⟩, hsufo⟩ := hknown.sealing t hsealed
  have hsufr : read :: older' <:+ w.history := ⟨newer, hnewer⟩
  have hsufow : observed :: older <:+ w.history := hsufo.trans ((List.suffix_cons _ _).trans hsufr)
  obtain ⟨hmem, hrows⟩ := observer_row hrec hobserved (hsufow.trans hsufw)
  -- The operation that took the seal is the delete itself.
  have hkind : op'.kind = .delete := by
    obtain ⟨o, ho, hk, hs⟩ := hrows s.world hkept (hsufow.trans hsufw)
    rw [htenant] at ho
    rw [← hk] at hmem ⊢
    exact Operation.delete_of_observeAbsence hmem (honly op'.id o ho (hs.trans hservice))
  have hid : op'.id = op.id := by
    obtain ⟨o, ho, hk, hs⟩ := hrows w hw hsufow
    obtain ⟨row, hrow, haim⟩ := hknown.row
    simp only [OperationRow.aim, Prod.mk.injEq] at haim
    rw [htenant] at ho
    exact hw.chronicle.sound.aggregate.delete_unique ho hrow (hk.trans hkind)
      (haim.2.1.trans hdelete) (hs.trans hservice) haim.1
  refine ⟨op', fact, observed, read, newer, older, older', hnewer.symm, hsufo, hread, hobserved,
    habsent, htenant, hid, fun e he => ?_⟩
  -- A runtime that was applied since would have been applied after the delete was accepted.
  cases happly : e.call.appliesRuntime op.tenantID op.serviceID with
  | none => rfl
  | some op₁ =>
    obtain ⟨n₁, n₂, rfl⟩ := List.append_of_mem he
    have hsufe : e :: (n₂ ++ read :: older') <:+ w.history := ⟨n₁, by rw [← hnewer]; simp⟩
    have hin := ht e _ (hsufe.trans hsufw) op₁ happly
    obtain ⟨c₁, choice₁, w₁, ⟨hw₁, hproper₁⟩, hhistory, rfl⟩ := hrec e _ (hsufe.trans hsufw)
    obtain ⟨rfl, htenant₁, hservice₁⟩ := appliesRuntime_eq_some happly
    obtain ⟨hknown₁, hstep₁⟩ : op₁.Known opts w₁ ∧ op₁.step = .applyRuntime := hproper₁
    obtain ⟨o, ho, hk, hs⟩ := hrows w₁ hw₁
      (hhistory ▸ hsufo.trans ((List.suffix_cons _ _).trans (List.suffix_append _ _)))
    rw [htenant, ← htenant₁] at ho
    rw [← hhistory] at hin
    exact absurd hin (not_applied_after_delete hw₁ hknown₁ hstep₁ ho (hk.trans hkind)
      (hs.trans (hservice.trans hservice₁.symm)))

/-- What the step that releases a device stores as evidence is made of the seal and the Pods of the
operation it has called the port with. -/
theorem Runner.evidence_of_release {op : OperationContext} {original : RefundContext}
    {proof : ReleaseProof} {n : ReleaseNotification} {token : Uuid}
    (h : Prog.Asks (runReleaseManagedGPU r op).run es
      (.write (.releaseReport original proof n token))) :
    ∃ op' es₁ es₂ create, es = es₁ ++ ⟨.provider (.releaseManagedGPU op'), .ok ()⟩ :: es₂ ∧
      Evidences op' create proof ∧ n = releaseNotification op' create ∧ token = op'.leaseToken := by
  obtain ⟨op', es₁, es₂, hes, hreport⟩ := asks_runReleaseManagedGPU h
  have honly : (reportRelease op').run.Only fun c =>
      c = .write (.releaseReport original proof n token) → ∃ create, Evidences op' create proof ∧
        n = releaseNotification op' create ∧ token = op'.leaseToken := by
    refine only_reportRelease (fun _ hc => by cases hc) (fun _ create _ hproof hc => ?_)
      fun _ hc => by cases hc
    cases hc
    exact ⟨create, hproof, rfl, rfl⟩
  obtain ⟨create, hrest⟩ := honly.asks hreport rfl
  exact ⟨op', es₁, es₂, create, hes, hrest⟩

/-- `OnlyDeleteTakesDown`, looked up in the table. -/
def onlyDeleteTakesDown (tenant service : Uuid) (db : Db) : Bool :=
  db.operations.entries.all fun row => row.1.1 ≠ tenant || row.2.serviceID ≠ service ||
    (row.2.kind ≠ .stop && row.2.kind ≠ .update && row.2.kind ≠ .restart)

theorem onlyDeleteTakesDown_sound (h : onlyDeleteTakesDown tenant service db = true) :
    OnlyDeleteTakesDown tenant service db := by
  rintro id o ho rfl
  have hrow := List.all_eq_true.mp h _ (Table.mem_entries_iff.mpr ho)
  simp only [Bool.or_eq_true, Bool.and_eq_true, decide_eq_true_eq, ne_eq, not_true_eq_false,
    false_or] at hrow
  exact ⟨hrow.1.1, hrow.1.2, hrow.2⟩

namespace Sample

/-- A managed service is created and started. -/
def started : List (Process × Nat × Outside) :=
  created managedCreate [19, 17, 17, 18, 20, 18, 19, 22] outside

/-- It is stopped, and started again up to the step that applies the runtime. -/
def restarted : List (Process × Nat × Outside) :=
  commanded .stop 1 20 [22, 18, 23, 17] ++ commanded .start 2 30 [18, 17, 18, 20, 18]

/-- It is deleted, and the device is released. -/
def released : List (Process × Nat × Outside) :=
  (.request (.managedDelete (managedDelete 40)), 1, deleting []) ::
    turns [24, 20, 25, 21, 25] (deleting [])

end Sample

/-- The seal a device is released with. -/
def Call.releasesWith : Call → Option Time
  | .provider (.releaseManagedGPU op) => op.managedGPUReleaseSealedAt
  | _ => none

def releaseRun : List Event := oneByOne 0 (Sample.started ++ Sample.released)

theorem seals_fresh_without_stop_releaseRun :
    (played .default .configured releaseRun).world.history.any
      (·.call.releasesWith.isSome) = true ∧
    SealsFresh 1 7 (played .default .configured releaseRun).world := by
  have hall : ((played .default .configured releaseRun).world.history.any
        (·.call.releasesWith.isSome) &&
      onlyDeleteTakesDown 1 7 (played .default .configured releaseRun).world.db &&
      madeInTime .default (Call.appliesRuntime 1 7)
        (played .default .configured releaseRun).world.history) = true := by decide +kernel
  simp only [Bool.and_eq_true] at hall
  exact ⟨hall.1.1, seals_fresh_without_stop (running_played .default .configured releaseRun)
    (onlyDeleteTakesDown_sound hall.1.2) (madeInTime_sound hall.2)⟩

def Entry.seesAbsence (tenant id : Uuid) : Entry → Bool
  | ⟨.provider (.observeAbsence op), .ok fact, _, _, _⟩ =>
    fact.absent && op.tenantID = tenant && op.id = id
  | _ => false

def Entry.readsClock (t : Time) : Entry → Bool
  | ⟨.clock, now, _, _, _⟩ => now = t
  | _ => false

/-- The operation `op` took the seal `t`, looked up in the history. -/
def sealedIn (op : OperationContext) (t : Time) : List Entry → Bool
  | [] => false
  | e :: past =>
    (e.readsClock t && past.any (Entry.seesAbsence op.tenantID op.id)) || sealedIn op t past

theorem sealedIn_of_fresh (h : SealFresh op t past) : sealedIn op t past = true := by
  obtain ⟨op', fact, observed, read, newer, older, older', rfl, hsuf, hread, hobserved, habsent,
    htenant, hid, -⟩ := h
  induction newer with
  | cons e newer ih => simp [sealedIn, ih]
  | nil =>
    have hclock : read.readsClock t = true := by
      obtain ⟨c, answer, before, after, time⟩ := read
      obtain ⟨rfl, ha⟩ := Sigma.mk.inj hread
      simpa [Entry.readsClock] using eq_of_heq ha
    have hsees : observed.seesAbsence op.tenantID op.id = true := by
      obtain ⟨c, answer, before, after, time⟩ := observed
      obtain ⟨rfl, ha⟩ := Sigma.mk.inj hobserved
      obtain rfl := eq_of_heq ha
      simp [Entry.seesAbsence, habsent, htenant, hid]
    have hany := List.any_eq_true.mpr ⟨observed, hsuf.subset List.mem_cons_self, hsees⟩
    simp [sealedIn, hclock, hany]

/-- A device of the service is released with a seal its delete did not take. -/
def releasesStale (tenant service : Uuid) : List Entry → Bool
  | [] => false
  | e :: past =>
    (match e.call with
      | .provider (.releaseManagedGPU op) => op.tenantID = tenant && op.serviceID = service &&
          op.managedGPUReleaseSealedAt.any fun t => !sealedIn op t past
      | _ => false) || releasesStale tenant service past

theorem not_fresh_of_stale (h : releasesStale tenant service w.history = true) :
    ¬SealsFresh tenant service w := by
  intro hfresh
  have key : ∀ history, history <:+ w.history → releasesStale tenant service history = true →
      False := by
    intro history
    induction history with
    | nil => exact fun _ h => by cases h
    | cons e past ih =>
      intro hsuf hstale
      simp only [releasesStale, Bool.or_eq_true] at hstale
      rcases hstale with hstale | hstale
      · split at hstale
        · next op hcall =>
          simp only [Bool.and_eq_true, decide_eq_true_eq, Option.any_eq_true,
            Bool.not_eq_true'] at hstale
          obtain ⟨⟨htenant, hservice⟩, t, hsealed, hnot⟩ := hstale
          have htaken := sealedIn_of_fresh (hfresh e past hsuf op t hcall htenant hservice hsealed)
          rw [htaken] at hnot
          cases hnot
        · cases hstale
      · exact ih ((List.suffix_cons _ _).trans hsuf) hstale
  exact key w.history (List.suffix_refl _) h

/-- A service that was stopped and started again is deleted. -/
def staleRun : List Event := oneByOne 0 (Sample.started ++ Sample.restarted ++ Sample.released)

/-- The seal of the stop is reported, although the runtime was applied after it. -/
theorem stale_seal_released :
    Running .default .configured (played .default .configured staleRun) ∧
    ¬SealsFresh 1 7 (played .default .configured staleRun).world ∧
    (played .default .configured staleRun).world.history.any (fun released =>
      released.call.releasesWith.any fun t =>
        (played .default .configured staleRun).world.history.any fun applied =>
          (applied.call.appliesRuntime 1 7).isSome && t < applied.time) = true := by
  have hall : (releasesStale 1 7 (played .default .configured staleRun).world.history &&
      (played .default .configured staleRun).world.history.any fun released =>
        released.call.releasesWith.any fun t =>
          (played .default .configured staleRun).world.history.any fun applied =>
            (applied.call.appliesRuntime 1 7).isSome && t < applied.time) = true := by
    decide +kernel
  simp only [Bool.and_eq_true] at hall
  exact ⟨running_played .default .configured staleRun, not_fresh_of_stale hall.1, hall.2⟩

end AniInference
