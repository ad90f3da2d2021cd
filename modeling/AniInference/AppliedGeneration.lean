import AniInference.Publications
import AniInference.Readiness

namespace AniInference
open Lib Prog Txn

/-- The call was the runtime's application of the generation `g` of a service, and it succeeded. -/
def Entry.applies (tenant service : Uuid) (g : Generation) (e : Entry) : Prop :=
  ∃ op : OperationContext, e.seen = ⟨.provider (.applyRuntime op), .ok ()⟩ ∧
    (op.tenantID, op.serviceID, op.targetGeneration) = (tenant, service, g)

/-- The call saved, for the generation `g`, the observation of a step that waits for the runtime to
be gone. -/
def Entry.savesAbsence (tenant service : Uuid) (g : Generation) (e : Entry) : Prop :=
  ∃ (op : OperationContext) (fact : RuntimeObservation),
    e.call = .write (.runtimeObservation op fact) ∧ op.step = .observeAbsence ∧
    (op.tenantID, op.serviceID, op.targetGeneration) = (tenant, service, g) ∧
    (e.seen = ⟨.write (.runtimeObservation op fact), .ok ()⟩ ∨ e.after ≠ e.before)

/-- The generation was applied, or its service was waited for to be gone. -/
def Vouched (tenant service : Uuid) (g : Generation) (history : List Entry) : Prop :=
  ∃ e ∈ history, e.applies tenant service g ∨ e.savesAbsence tenant service g

theorem Vouched.cons (h : Vouched tenant service g history) :
    Vouched tenant service g (e :: history) := by
  obtain ⟨e', he', hrest⟩ := h
  exact ⟨e', List.mem_cons_of_mem _ he', hrest⟩

/-- The steps that come after the runtime was applied or found absent, on any path. -/
def Step.vouches : Step → Bool
  | .observeRuntime | .publish | .complete | .deleteCR | .releaseQuota => true
  | _ => false

namespace Runner
open M
variable {r : Runner} {op : OperationContext} {result : StepResult} {es : List Exchange}

theorem vouches_asks (h : (Runner.asks kind step).2.vouches = true)
    (hpath : step ∈ (Operation.paths kind).dropLast) :
    step = .applyRuntime ∨ step = .observeAbsence ∨ step.vouches = true := by
  revert h hpath
  cases kind <;> cases step <;> decide

theorem played_runApplyRuntime (hstep : op.step = .applyRuntime)
    (h : Played (runStep r op).run es (.ok result)) :
    ⟨.provider (.applyRuntime op), .ok ()⟩ ∈ es := by
  simp only [runStep, hstep] at h
  obtain ⟨_, h₁⟩ := played_failIf_bind_ok.mp h
  obtain ⟨u, es₁, rfl, _⟩ := played_provider_bind_ok.mp h₁
  exact List.mem_cons_self

theorem played_runObserveAbsence (hstep : op.step = .observeAbsence)
    (h : Played (runStep r op).run es (.ok result)) :
    ∃ fact, ⟨.write (.runtimeObservation op fact), .ok ()⟩ ∈ es := by
  simp only [runStep, hstep] at h
  obtain ⟨_, h₁⟩ := played_failIf_bind_ok.mp h
  obtain ⟨fact, es₁, rfl, h₂⟩ := played_provider_bind_ok.mp h₁
  obtain ⟨es₂, rfl, _⟩ := played_write_bind_ok.mp h₂
  exact ⟨fact, List.mem_cons_of_mem _ List.mem_cons_self⟩

/-- A runtime observation is saved for the operation of the turn. -/
theorem Acts.runtimeObservation (h : Acts r op es (.write (.runtimeObservation x fact))) :
    Call.OfStep op (.write (.runtimeObservation x fact)) := by
  generalize hc : Call.write (.runtimeObservation x fact) = c at h
  cases h with
  | step entered asks =>
    subst hc
    rw [← entered.ofStep]
    exact only_runStep.asks asks
  | _ => cases hc

end Runner

section
variable {opts : WorkOptions} {r : Runner} {history : List Entry} {db : Db}

/-- A step that takes its operation to a vouching step left the call that vouches. -/
theorem Advanced.vouched (h : Advanced opts r k o o' op result es w)
    (hstep : o.step = .applyRuntime ∨ o.step = .observeAbsence) :
    Vouched k.1 o.serviceID o.targetGeneration w.history := by
  have haim := h.aim
  simp only [OperationRow.aim, Prod.mk.injEq] at haim
  obtain rfl := h.operation
  rw [haim.1, haim.2.2]
  have hmem : ∀ x ∈ es, ∃ e ∈ w.history, e.seen = x := fun x hx =>
    List.mem_map.mp (h.made.mem (List.mem_reverse.mpr hx))
  rw [h.current] at hstep
  rcases hstep with hstep | hstep
  · obtain ⟨e, he, hseen⟩ := hmem _ (Runner.played_runApplyRuntime hstep h.ran)
    exact ⟨e, he, .inl ⟨op, hseen, rfl⟩⟩
  · obtain ⟨fact, hx⟩ := Runner.played_runObserveAbsence hstep h.ran
    obtain ⟨e, he, hseen⟩ := hmem _ hx
    exact ⟨e, he, .inr ⟨op, fact, congrArg Sigma.fst hseen, hstep, rfl, .inl hseen⟩⟩

/-- No operation is at a vouching step unless a call vouches for it. -/
theorem Explained.vouched (hall : Explained opts r history) (hlinked : Linked history db) :
    ∀ k o, db.operations.lookup k = some o → o.step.vouches = true →
      Vouched k.1 o.serviceID o.targetGeneration history := by
  refine hall.marked (Q := fun k => Vouched k.1) (A := (·.vouches = true)) hlinked Vouched.cons ?_
    fun _ _ hadv hvouches => ?_
  · intro kind step
    cases kind <;> cases step <;> decide
  · have hpath := hadv.known.step
    have haim := hadv.aim
    simp only [OperationRow.aim, Prod.mk.injEq] at haim
    rw [← hadv.current, ← haim.2.1] at hpath
    rw [hadv.asks] at hvouches
    rcases Runner.vouches_asks hvouches hpath with happly | habsence | hlater
    · exact .inr (hadv.vouched (.inl happly))
    · exact .inr (hadv.vouched (.inr habsence))
    · exact .inl hlater

end

section
variable {now : Time} {token : Uuid} {db db' : Db} {c : Call} {k : Uuid × Uuid}

/-- The generation a service is said to have applied is the one of an observation saved for it. -/
theorem Effect.applied (h : Effect now token db c db') (hs : db'.services.lookup k = some s') :
    s'.appliedGeneration = 0 ∨
      (∃ s, db.services.lookup k = some s ∧ s.appliedGeneration = s'.appliedGeneration) ∨
      Applies now db db' k s'.appliedGeneration c := by
  cases h.serviceChange k with
  | none _ same => exact .inr (.inl ⟨s', same.symm.trans hs, rfl⟩)
  | written _ found set _ _ _ applied =>
    cases set.symm.trans hs
    exact .inr (applied.imp (fun hsame => ⟨_, found, hsame.symm⟩) id)
  | moved ha =>
    rw [ha.services, AList.lookup_insert] at hs
    cases hs
    exact .inr (.inl ⟨_, ha.found, rfl⟩)
  | created hc =>
    obtain ⟨name, hservices⟩ := hc.services
    rw [hservices, AList.lookup_insert] at hs
    cases hs
    exact .inl rfl

end

section
variable {opts : WorkOptions} {r : Runner} {history : List Entry} {db : Db}

/-- A lease that was out before a call and is there later was there at that call. -/
theorem Explained.lease_since (hall : Explained opts r history) (hlinked : Linked history db)
    (hsuf : e :: past <:+ history) (htoken : token ≤ past.length)
    (hl : db.lease k = some (token, expiry)) : e.before.lease k = some (token, expiry) := by
  induction history generalizing db with
  | nil => simp at hsuf
  | cons e' history ih =>
    obtain ⟨rfl, htail⟩ := hlinked
    obtain ⟨c, choice, w, mine, hmade, rfl, rfl⟩ := hall e' history (List.suffix_refl _)
    have hlater : past.length ≤ w.history.length := by
      have hlength := hsuf.length_le
      simp only [List.length_cons] at hlength
      omega
    have hbefore : w.db.lease k = some (token, expiry) := by
      rcases (exec_effect opts c choice w).lease k with hsame | hnone | ⟨expiry', hnew⟩
      · exact hsame ▸ hl
      · exact absurd (hnone.symm.trans hl) (by simp)
      · have heq := hnew.symm.trans hl
        simp only [Option.some.injEq, Prod.mk.injEq] at heq
        have hnumber := hmade.kept.chronicle.numbered
        rw [heq.1] at hnumber
        have hle := le_trans htoken hlater
        rw [hnumber] at hle
        exact absurd hle (Nat.not_succ_le_self _)
    rcases List.suffix_cons_iff.mp hsuf with heq | hsuf
    · injection heq with heq
      rw [heq]
      exact hbefore
    · exact ih (hall.suffix (List.suffix_cons _ _)) htail hsuf hbefore

/-- No two services are leased to one worker's turn. -/
theorem Explained.lease_unique (hall : Explained opts r history) (hlinked : Linked history db) :
    ∀ k k' token expiry expiry', db.lease k = some (token, expiry) →
      db.lease k' = some (token, expiry') → k = k' := by
  refine hlinked.induction (P := fun _ db => ∀ k k' token expiry expiry',
    db.lease k = some (token, expiry) → db.lease k' = some (token, expiry') → k = k')
    (by simp [Db.empty, Db.lease]) fun e past hsuf ih k k' token expiry expiry' hk hk' => ?_
  obtain ⟨c, choice, w, mine, hmade, rfl, rfl⟩ := hall e past hsuf
  have heffect := exec_effect opts c choice w
  have hissued := hmade.kept.chronicle.sound.issued
  by_contra hne
  -- one of the two was there before, so the token is an old one, and both were there
  have old : ∀ k expiry, (exec opts c choice w).2.db.lease k = some (token, expiry) →
      token < w.nextToken → w.db.lease k = some (token, expiry) := by
    intro k expiry hl hlt
    rcases heffect.lease k with hsame | hnone | ⟨_, hnew⟩
    · exact hsame ▸ hl
    · exact absurd (hnone.symm.trans hl) (by simp)
    · have heq := hnew.symm.trans hl
      simp only [Option.some.injEq, Prod.mk.injEq] at heq
      exact absurd hlt (heq.1 ▸ Nat.lt_irrefl _)
  have there : token < w.nextToken := by
    cases heffect.leaseChange k with
    | kept same => exact hissued k token expiry (same ▸ hk)
    | settled _ _ _ gone | dropped _ gone => exact absurd (gone.symm.trans hk) (by simp)
    | claimed _ hc =>
      -- What is claimed is one service, so the lease of the other was there.
      obtain ⟨row, _, hdb⟩ := hc.work
      change (exec opts c choice w).2.db.lease k' = _ at hk'
      rw [hdb, Db.lease_insert, if_neg (Ne.symm hne)] at hk'
      exact hissued k' token expiry' hk'
  exact hne (ih k k' token expiry expiry' (old k expiry hk there) (old k' expiry' hk' there))

/-- A turn is given the generation its service is at. -/
theorem Explained.claims_generation (hall : Explained opts r history) (hsuf : g :: past <:+ history)
    (hg : g.seen = ⟨.work (.claim tenant), .ok (some item)⟩) :
    GenerationFrom item.tenantID item.serviceID item.generation g.before := by
  obtain ⟨c, choice, w, mine, hmade, rfl, rfl⟩ := hall g past hsuf
  obtain ⟨rfl, ha⟩ := Sigma.mk.inj_iff.mp hg
  have hanswer : (exec opts (.work (.claim tenant)) choice w).1 = .ok (some item) := eq_of_heq ha
  rcases Work.moves_claim (work_runs hanswer) with ⟨hnone, _⟩ | ⟨row, s, _, hs, _, _, hitem, _⟩
  · cases hnone
  · have hid := Option.some.inj hitem
    rw [hid]
    exact ⟨s, hs, le_rfl⟩

namespace Runner
open M

/-- The calls of the observation of the service of `item`. -/
def Observes (item : Item) : Call → Prop
  | .write (.observation item' _) => item' = item
  | .read _ | .provider (.ensureRuntime _) => True
  | _ => False

theorem observes_observe : (observe item).run.Only (Observes item) := by
  refine only_run_bind only_failIf fun _ => only_run_bind (only_read trivial) fun _ => ?_
  refine only_run_bind only_failIf fun _ => only_run_bind (only_provider trivial) fun _ => ?_
  exact only_run_bind only_failIf fun _ => only_write rfl

/-- Whoever saves such an observation has found the current operation to be over. -/
theorem observing_of_made (h : Made opts r (.write (.observation item x)) w mine) :
    ∃ tenant load es op o, (mine.map Entry.seen).reverse =
      ⟨.work (.claim tenant), .ok (some item)⟩ :: (load ++ es) ∧ Loads item load op o ∧
      o.phase.active = false := by
  obtain ⟨p, hp, hasks⟩ := h.asks
  cases hp with
  | worker tenant =>
    have hworks := works_of_asks hasks
    generalize hmade : (mine.map Entry.seen).reverse = made at hworks
    generalize hc : Call.write (.observation item x) = c at hworks
    cases hworks with
    | observes loaded ended asks =>
      subst hc
      obtain rfl : item = _ := observes_observe.asks asks
      obtain ⟨o, hloads⟩ := loads_of_played loaded
      exact ⟨_, _, _, _, o, rfl, hloads, hloads.phase ▸ ended⟩
    | acts first loaded service target active acts =>
      subst hc
      cases acts with
      | step entered asks => exact absurd (only_runStep.asks asks) id
    | _ => cases hc
  | closer => exact absurd (only_closer.asks hasks) id
  | request q | notify tenant service dirty
  | repair tenant service dirty => cases eq_of_asks_call hasks
  | time => cases eq_of_asks_call hasks

end Runner

/-- A service that is observed outside any operation is at a generation that has been vouched
for. -/
theorem Made.observation_vouched (h : Made opts r (.write (.observation item x)) w mine)
    (hall : Explained opts r w.history)
    (hfenced : Store.runtimeFenced w.db item.tenantID item.serviceID item.generation
      item.leaseToken w.now) : Vouched item.tenantID item.serviceID item.generation w.history := by
  obtain ⟨tenant, load, es, op, o, hmine, hloads, hended⟩ := Runner.observing_of_made h
  obtain ⟨rest, hload⟩ := hloads.first
  rw [hload, List.cons_append] at hmine
  change _ = [(_ : Exchange)] ++ _ at hmine
  -- the calls in their order: the claim `g`, the load `y`, and the write
  obtain ⟨y, new, old, m₁, m₂, hy, hhistory, _, hm₁, _, _, howns⟩ := split_of_seen h.owns hmine
  have hysuf : y :: old <:+ w.history := ⟨new, hhistory.symm⟩
  have hold := hall.suffix ((List.suffix_cons _ _).trans hysuf)
  obtain ⟨g, hgm, hg⟩ := Runner.mem_of_seen hm₁ List.mem_cons_self
  have hgold := howns.sublist.mem hgm
  obtain ⟨hrow, _, hyfenced⟩ := read_leasedOperation hall hysuf hy
  obtain ⟨o', ho', hcurrent, hheld⟩ := Db.fenced_iff.mp hyfenced
  obtain rfl := Option.some.inj (hrow.symm.trans ho')
  obtain ⟨s, hs, hid, hdesired⟩ := hcurrent
  -- the load found the service of the turn
  obtain ⟨⟨s', hs', hdesired'⟩, hheld'⟩ := hfenced
  obtain ⟨_, hlease, _⟩ := Db.leaseHeld_iff.mp hheld
  obtain ⟨_, hlease', _⟩ := Db.leaseHeld_iff.mp hheld'
  have hlease' := hall.lease_since h.linked hysuf (hold.granted hgold (Runner.grants_of_seen hg))
    hlease'
  have hsame := hold.lease_unique (h.linked.suffix hysuf) _ _ _ _ _ hlease hlease'
  have hservice : o.serviceID = item.serviceID := (Prod.mk.inj hsame).2
  rw [hservice] at hs
  -- and its generation
  have htarget : o.targetGeneration = item.generation := by
    obtain ⟨newer, older, hsplit⟩ := List.append_of_mem hgold
    obtain ⟨s₁, hs₁, hle₁⟩ := hold.generationFrom (h.linked.suffix hysuf) ⟨newer, hsplit.symm⟩
      (hold.claims_generation ⟨newer, hsplit.symm⟩ hg)
    obtain rfl := Option.some.inj (hs.symm.trans hs₁)
    obtain ⟨s₂, hs₂, hle₂⟩ := hall.generationFrom h.linked hysuf ⟨s, hs, le_rfl⟩
    obtain rfl := Option.some.inj (hs'.symm.trans hs₂)
    rw [hdesired] at hle₁ hle₂
    rw [hdesired'] at hle₂
    exact le_antisymm hle₂ hle₁
  -- an operation that is current and over has succeeded
  obtain ⟨c', choice', w', mine', hmade', hold', rfl⟩ := hall y old hysuf
  have hlive := (hold.published (h.linked.suffix hysuf)).live _ _ hrow
    ⟨s, hservice ▸ hs, hid, hdesired⟩
  have hsucceeded : o.phase = .succeeded := by
    cases hphase : o.phase with
    | succeeded => rfl
    | failed => exact absurd hphase hlive
    | pending | running => simp [hphase, Phase.active] at hended
  have hstep := (hmade'.kept.followed.rows _ _ hrow).succeeded hsucceeded
  have hvouched := hold.vouched (h.linked.suffix hysuf) _ _ hrow (by rw [hstep]; rfl)
  rw [hservice, htarget] at hvouched
  obtain ⟨e, he, hcall⟩ := hvouched
  exact ⟨e, ((List.suffix_cons _ _).trans hysuf).mem he, hcall⟩

/-- A runtime observation saved in an operation is saved for a generation that has been vouched
for, if by nothing else then by the observation itself. -/
theorem Made.runtimeObservation_vouched
    (h : Made opts r (.write (.runtimeObservation op fact)) w mine)
    (hall : Explained opts r w.history)
    (hchanged : (exec opts (.write (.runtimeObservation op fact)) choice w).2.db ≠ w.db) :
    Vouched op.tenantID op.serviceID op.targetGeneration
      (Call.entry opts (.write (.runtimeObservation op fact)) choice w :: w.history) := by
  obtain ⟨item, load, es, op₀, o, ha⟩ := Runner.acting_of_made h trivial
  obtain ⟨hsteps, htenant, hservice, htarget, hstep⟩ := ha.acts.runtimeObservation
  rcases hsteps with hruntime | habsence
  · -- the row was at this step when it was loaded
    obtain ⟨tenant, before, hturn⟩ := ha.turn
    obtain ⟨rest, hload⟩ := ha.loads.first
    rw [hload, List.cons_append, ← List.cons_append] at hturn
    obtain ⟨y, new, old, _, _, hy, hhistory, _⟩ := split_of_seen h.owns hturn
    have hysuf : y :: old <:+ w.history := ⟨new, hhistory.symm⟩
    have hold := hall.suffix ((List.suffix_cons _ _).trans hysuf)
    obtain ⟨hrow, _⟩ := read_leasedOperation hall hysuf hy
    have hvouched := hold.vouched (h.linked.suffix hysuf) _ _ hrow
      (by rw [← ha.loads.step, hruntime]; rfl)
    obtain ⟨e, he, hcall⟩ := hvouched
    rw [← ha.loads.tenantID, ← ha.loads.serviceID, ← ha.loads.targetGeneration, ← htenant,
      ← hservice, ← htarget] at hcall
    exact ⟨e, List.mem_cons_of_mem _ (((List.suffix_cons _ _).trans hysuf).mem he), hcall⟩
  · exact ⟨_, List.mem_cons_self,
      .inr ⟨op, fact, rfl, hstep.trans habsence, rfl, .inr hchanged⟩⟩

/-- Whatever generation a service is said to have applied has been vouched for. -/
theorem Explained.applied (hall : Explained opts r history) (hlinked : Linked history db) :
    ∀ k s, db.services.lookup k = some s → 1 ≤ s.appliedGeneration →
      Vouched k.1 k.2 s.appliedGeneration history := by
  refine hlinked.induction (P := fun history db => ∀ k s, db.services.lookup k = some s →
    1 ≤ s.appliedGeneration → Vouched k.1 k.2 s.appliedGeneration history) (by simp [Db.empty])
    fun e past hsuf ih k s' hs' hpositive => ?_
  obtain ⟨c, choice, w, mine, hmade, rfl, rfl⟩ := hall e past hsuf
  have hpast := hall.suffix ((List.suffix_cons _ _).trans hsuf)
  by_cases hchanged : (exec opts c choice w).2.db = w.db
  · have hs : w.db.services.lookup k = some s' := hchanged ▸ hs'
    exact (ih k s' hs hpositive).cons
  rcases (exec_effect opts c choice w).applied hs' with
    hzero | ⟨s, hs, hsame⟩ | ⟨item, hobserved, rfl, happlied, hcall⟩
  · rw [hzero] at hpositive
    exact absurd hpositive (by decide)
  · rw [← hsame] at hpositive ⊢
    exact (ih k s hs hpositive).cons
  · rw [happlied]
    rcases hcall with ⟨op, fact, rfl, rfl⟩ | ⟨x, rfl⟩
    · exact hmade.runtimeObservation_vouched hpast hchanged
    · exact (hmade.observation_vouched hpast hobserved.fenced).cons

/-- In every run, a service that says it has applied a generation has had that generation applied by
the runtime, unless an absence was recorded for it. -/
theorem applied_generation_was_applied {s : Pool World Call Call.Answer} (h : Running opts r s) :
    ∀ k service, s.world.db.services.lookup k = some service → 1 ≤ service.appliedGeneration →
      (∀ e ∈ s.world.history, ¬e.savesAbsence k.1 k.2 service.appliedGeneration) →
      ∃ e ∈ s.world.history, e.applies k.1 k.2 service.appliedGeneration := by
  intro k service hservice hpositive hnone
  obtain ⟨e, he, hcall⟩ := h.explained.applied h.linked k service hservice hpositive
  rcases hcall with happlies | habsence
  · exact ⟨e, he, happlies⟩
  · exact absurd habsence (hnone e he)

end

def Call.asksApply : Call → Bool
  | .provider (.applyRuntime _) => true
  | _ => false

def Call.asksAbsence : Call → Bool
  | .write (.runtimeObservation op _) => op.step = .observeAbsence
  | _ => false

theorem Entry.not_applies {e : Entry} (h : e.call.asksApply = false) (tenant service : Uuid)
    (g : Generation) : ¬e.applies tenant service g := by
  intro ⟨op, hseen, _⟩
  have hcall : e.call = .provider (.applyRuntime op) := congrArg Sigma.fst hseen
  rw [hcall] at h
  cases h

theorem Entry.not_savesAbsence {e : Entry} (h : e.call.asksAbsence = false)
    (tenant service : Uuid) (g : Generation) : ¬e.savesAbsence tenant service g := by
  intro ⟨op, fact, hcall, hstep, _⟩
  rw [hcall] at h
  simp [Call.asksAbsence, hstep] at h

/-- A service is created and deleted before anything is done for it, and its worker goes on until
the absence of the runtime has been recorded. -/
def absenceRun : List Event :=
  oneByOne 0 (Sample.created Sample.create [] Sample.outside ++
    Sample.commanded .delete 1 20 [24, 20, 21])

set_option maxRecDepth 100000 in
/-- The delete is taken for applied though the runtime was never asked to apply anything. -/
theorem applied_generation_never_applied :
    ∃ s, Running .default .configured s ∧ ∃ service,
      s.world.db.services.lookup (1, 7) = some service ∧ service.appliedGeneration = 2 ∧
      ∀ e ∈ s.world.history, ¬e.applies 1 7 2 := by
  have hrun : ((played .default .configured absenceRun).world.db.services.lookup (1, 7)).map
        Service.appliedGeneration = some 2 ∧
      (played .default .configured absenceRun).world.history.all
        (fun e => !e.call.asksApply) = true := by
    decide +kernel
  obtain ⟨service, hservice, happlied⟩ := Option.map_eq_some_iff.mp hrun.1
  refine ⟨_, running_played .default .configured absenceRun, service, hservice, happlied, ?_⟩
  intro e he
  have hcall := List.all_eq_true.mp hrun.2 e he
  exact Entry.not_applies (by simpa using hcall) 1 7 2

set_option maxRecDepth 100000 in
theorem applied_generation_was_applied_createRun :
    ∃ service, (played .default .configured createRun).world.db.services.lookup (1, 7) =
        some service ∧ service.appliedGeneration = 1 ∧
      ∃ e ∈ (played .default .configured createRun).world.history, e.applies 1 7 1 := by
  have hrun : ((played .default .configured createRun).world.db.services.lookup (1, 7)).map
        Service.appliedGeneration = some 1 ∧
      (played .default .configured createRun).world.history.all
        (fun e => !e.call.asksAbsence) = true := by
    decide +kernel
  obtain ⟨service, hservice, happlied⟩ := Option.map_eq_some_iff.mp hrun.1
  have hfound := applied_generation_was_applied (running_played .default .configured createRun)
    (1, 7) service hservice (Nat.le_of_eq happlied.symm) fun e he =>
      Entry.not_savesAbsence (by simpa using List.all_eq_true.mp hrun.2 e he) _ _ _
  rw [happlied] at hfound
  exact ⟨service, hservice, happlied, hfound⟩

end AniInference
