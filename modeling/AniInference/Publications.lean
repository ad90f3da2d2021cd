import AniInference.Audit
import AniInference.Paths

namespace AniInference
open Lib Txn Prog

/-- Nothing is left of a publication, neither wanted nor observed. -/
def PublicationRow.Gone (p : PublicationRow) : Prop :=
  p.desiredPhase = .withdrawn ∧ p.observedPhase = .withdrawn

/-- The operation has nothing of an earlier generation before it: it is the first one, comes after a
stop, or has withdrawn what was published. -/
def OperationRow.Clears (o : OperationRow) : Prop :=
  o.kind = .create ∨ o.kind = .start ∨ Step.withdrawPublication ∈ Operation.before o.kind o.step

/-- The invariant of the publications. -/
structure Db.Published (db : Db) : Prop where
  owned : ∀ tenant service g p, db.publications.lookup (tenant, service, g) = some p →
    ∃ s, db.services.lookup (tenant, service) = some s ∧ g ≤ s.desiredGeneration
  older : ∀ tenant service g g' p p', db.publications.lookup (tenant, service, g) = some p →
    db.publications.lookup (tenant, service, g') = some p' → g < g' → p.Gone
  cleared : ∀ k o, db.operations.lookup k = some o → db.IsCurrent k o → o.Clears → ∀ g p,
    db.publications.lookup (k.1, o.serviceID, g) = some p →
    g < o.targetGeneration ∨ o.kind = .stop ∨ o.kind = .delete → p.Gone
  -- An operation fails only when a delete takes its place.
  live : ∀ k o, db.operations.lookup k = some o → db.IsCurrent k o → o.phase ≠ .failed
  stopped : ∀ k s, db.services.lookup k = some s → s.desiredState = .stopped →
    ∃ id o, s.currentOperation = some id ∧ db.operations.lookup (k.1, id) = some o ∧ o.kind = .stop

theorem Db.published_empty : Db.empty.Published where
  owned := by simp [Db.empty]
  older := by simp [Db.empty]
  cleared := by simp [Db.empty]
  live := by simp [Db.empty]
  stopped := by simp [Db.empty]

/-- The publications of the service up to the generation `target` end with `newest`. -/
def Newest (tenant service : Uuid) (target newest : Generation) (db : Db) : Prop :=
  newest ≤ target ∧
    ∀ g, g ≤ target → (db.publications.lookup (tenant, service, g)).isSome = true →
      g ≤ newest ∧ (db.publications.lookup (tenant, service, newest)).isSome = true

namespace Runner
open M
section
variable {opts : WorkOptions} {r : Runner} {c : Call} {w : World} {mine : List Entry}
variable {item : Item} {op : OperationContext} {o : OperationRow} {load es : List Exchange}

/-- What a step writes about publications: the one it was loaded with. -/
theorem publication_of_step (h : Call.OfStep op (.write (.publication p))) :
    p.tenantID = op.publication.tenantID ∧ p.serviceID = op.publication.serviceID ∧
      p.generation = op.publication.generation ∧ p.leaseToken = op.leaseToken ∧
      p.fenceOperationID = some op.id ∧
      ((op.step = .withdrawPublication ∧ (p.state = .withdrawing ∨ p.state = .withdrawn)) ∨
        (op.step = .publish ∧ (p.state = .publishing ∨ p.state = .published))) := by
  rcases h with ⟨hstep, rfl | rfl⟩ | ⟨hstep, rfl | ⟨url, rfl⟩⟩
  · exact ⟨rfl, rfl, rfl, rfl, rfl, .inl ⟨hstep, .inl rfl⟩⟩
  · exact ⟨rfl, rfl, rfl, rfl, rfl, .inl ⟨hstep, .inr rfl⟩⟩
  · exact ⟨rfl, rfl, rfl, rfl, rfl, .inr ⟨hstep, .inl rfl⟩⟩
  · exact ⟨rfl, rfl, rfl, rfl, rfl, .inr ⟨hstep, .inr rfl⟩⟩

/-- Of the calls on the way through a turn, those on publications are the step's. -/
theorem Acts.publication (h : Acts r op es (.write (.publication p))) :
    Call.OfStep op (.write (.publication p)) := by
  generalize hc : Call.write (.publication p) = c at h
  cases h with
  | step entered asks =>
    subst hc
    have hstep := only_runStep.asks asks
    rwa [entered.ofStep] at hstep
  | _ => cases hc

theorem Own.publication (h : Own op (.write (.publication p))) :
    Call.OfStep op (.write (.publication p)) := by
  rcases h with h | ⟨_, _, h⟩
  · exact h
  · cases h

/-- Under the fence of a worker, no one else writes about the publications of its service. -/
theorem others_keep_publication :
    ∀ c choice w mine, Made opts r c w mine → c.presents ≠ some op.leaseToken →
      w.db.fenced op.tenantID op.id op.leaseToken w.now = true → Seated op w.db →
      (exec opts c choice w).2.db.publications.lookup (op.tenantID, op.serviceID, g) =
        w.db.publications.lookup (op.tenantID, op.serviceID, g) := by
  intro c choice w mine hmade hpresents hf ⟨o, ho, haim⟩
  cases (exec_effect opts c choice w).publications (op.tenantID, op.serviceID, g) with
  | none _ same => exact same
  | @saved p key fenced written =>
    obtain ⟨op', hknown, htenant, hservice, htoken, hfence⟩ :
      Write.Proper opts r (.publication p) w := hmade.proper
    have hfenced := hmade.kept.chronicle.sound.aggregate.fenced fenced
    rw [htenant, hfence, htoken] at hfenced
    obtain ⟨o', ho', haim'⟩ := hknown.row
    obtain ⟨o₁, ho₁, _, hheld⟩ := Db.fenced_iff.mp hf
    obtain ⟨o₂, ho₂, _, hheld'⟩ := Db.fenced_iff.mp hfenced
    rw [ho] at ho₁
    obtain rfl := Option.some.inj ho₁
    change w.db.operations.lookup (op'.tenantID, op'.id) = some o₂ at ho₂
    rw [ho'] at ho₂
    obtain rfl := Option.some.inj ho₂
    simp only [OperationRow.aim, Prod.mk.injEq] at haim haim' key
    rw [haim.1] at hheld
    rw [haim'.1, ← hservice, ← key.2.1, ← htenant, ← key.1] at hheld'
    have hsame := Db.leaseHeld_unique hheld' hheld
    rw [← htoken] at hsame
    exact absurd (congrArg some hsame) hpresents

theorem newest_of_read
    (h : Runs ((Read.latestPublication tenant service target).tx now) db row db') :
    Newest tenant service target (row.elim target Prod.fst) db := by
  simp only [Read.tx, Sql.getLatestPublication, runs_get_bind, runs_pure] at h
  obtain ⟨hrow, _⟩ := h
  refine ⟨(latest_publication hrow).1, fun g hle hsome => ?_⟩
  refine ⟨(latest_publication hrow).2 g hsome hle, ?_⟩
  obtain ⟨p, hp⟩ := Option.isSome_iff_exists.mp hsome
  have hmem := mem_publicationsUpTo.mpr ⟨hp, hle⟩
  cases row with
  | none =>
    rw [List.argmax_eq_none.mp hrow.symm] at hmem
    cases hmem
  | some found =>
    obtain ⟨generation, p'⟩ := found
    have hfound := (mem_publicationsUpTo.mp (List.argmax_mem hrow.symm)).1
    change (db.publications.lookup (tenant, service, generation)).isSome = true
    rw [hfound]
    rfl

/-- A call that writes to no other publication than the newest leaves it the newest. -/
theorem Newest.call (h : Newest tenant service target newest w.db) (choice : c.Choice)
    (hc : ∀ p, c = .write (.publication p) → (p.tenantID, p.serviceID) = (tenant, service) →
      p.generation = newest) : Newest tenant service target newest (exec opts c choice w).2.db := by
  refine ⟨h.1, fun g hle hsome => ?_⟩
  have heffect := exec_effect opts c choice w
  have kept : (w.db.publications.lookup (tenant, service, g)).isSome = true → g ≤ newest ∧
      ((exec opts c choice w).2.db.publications.lookup
        (tenant, service, newest)).isSome = true := by
    intro hbefore
    obtain ⟨hg, hnewest⟩ := h.2 g hle hbefore
    exact ⟨hg, (heffect.publications _).isSome hnewest⟩
  cases heffect.publications (tenant, service, g) with
  | none _ same =>
    rw [same] at hsome
    exact kept hsome
  | @saved p key fenced written =>
    simp only [Prod.mk.injEq] at key
    obtain ⟨rfl, rfl, rfl⟩ := key
    obtain rfl := hc p rfl rfl
    exact ⟨le_rfl, hsome⟩

/-- The publications the turn writes about are those of its service, at the generation loaded. -/
theorem own_keep_newest (hown : ∀ x ∈ es, Own op x.1) :
    OwnKeep opts op history es
      (Newest op.tenantID op.serviceID op.targetGeneration op.publication.generation) := by
  intro c' choice w' hseen _ _ _ hnewest
  refine Newest.call hnewest choice fun p hp _ => ?_
  subst hp
  have hstep : Call.OfStep op (.write (.publication p)) := (hown _ hseen).publication
  exact (publication_of_step hstep).2.2.1

theorem others_keep_newest :
    OthersKeep opts r op history (Newest op.tenantID op.serviceID op.targetGeneration newest) := by
  intro c' choice w' mine' hmade hpresents _ hf hseat _ ⟨htarget, hnewest⟩
  refine ⟨htarget, fun g hle hsome => ?_⟩
  rw [others_keep_publication c' choice w' mine' hmade hpresents hf hseat] at hsome ⊢
  exact hnewest g hle hsome

/-- The read of the load that finds the publication to withdraw. -/
theorem Acting.newestRead (ha : Acting r mine c item load es op o)
    (hstep : op.step = .withdrawPublication) :
    ∃ x es₁, load = es₁ ++ [x] ∧ ∀ (opts : WorkOptions) (history : List Entry),
      Takes opts op history x (fun _ => True)
        (Newest op.tenantID op.serviceID op.targetGeneration op.publication.generation) := by
  obtain ⟨row, es₁, hload, _, hgeneration⟩ := ha.loads.publication
  have hnot : ¬o.step = .publish := by
    rw [← ha.loads.step, hstep]
    simp
  rw [if_neg hnot] at hload
  refine ⟨_, es₁, hload, fun opts history => takes_read fun w' _ _ hrun => ?_⟩
  have hnewest := newest_of_read hrun
  rwa [← hgeneration, ← ha.loads.tenantID, ← ha.loads.serviceID,
    ← ha.loads.targetGeneration] at hnewest

/-- The publication a withdrawal was loaded with stays the newest one. -/
theorem Acting.newest (ha : Acting r mine c item load es op o) (h : Made opts r c w mine)
    (hall : Explained opts r w.history)
    (hf : w.db.fenced op.tenantID op.id op.leaseToken w.now = true)
    (hstep : op.step = .withdrawPublication) :
    Newest op.tenantID op.serviceID op.targetGeneration op.publication.generation w.db := by
  obtain ⟨x, es₁, hload, htakes⟩ := ha.newestRead hstep
  have hx : load ++ es = es₁ ++ x :: es := by simp [hload]
  exact ha.since h hall hf hx (htakes opts _) (own_keep_newest ha.acts.own) others_keep_newest

theorem played_runWithdrawPublication
    (h : Played (runWithdrawPublication r op).run es (.ok result)) :
    ∃ es', es = es' ++ [⟨.write (.publication (withPublication op .withdrawn)), .ok ()⟩] := by
  obtain ⟨_, h₁⟩ := played_failIf_bind_ok.mp h
  obtain ⟨es₁, rfl, h₂⟩ := played_write_bind_ok.mp h₁
  obtain ⟨_, es₂, rfl, h₃⟩ := played_provider_bind_ok.mp h₂
  obtain ⟨_, es₃, rfl, h₄⟩ := played_provider_bind_ok.mp h₃
  obtain ⟨_, h₅⟩ := played_failIf_bind_ok.mp h₄
  obtain ⟨es₄, rfl, h₆⟩ := played_write_bind_ok.mp h₅
  obtain ⟨rfl, _⟩ := played_pure.mp h₆
  exact ⟨[_, _, _], rfl⟩

/-- Everything up to the target of the operation is withdrawn. -/
def Withdrawn (op : OperationContext) (db : Db) : Prop :=
  ∀ g p, g ≤ op.targetGeneration →
    db.publications.lookup (op.tenantID, op.serviceID, g) = some p → p.Gone

theorem gone_publicationRow :
    (Sql.publicationRow .withdrawn (Store.observedState .withdrawn) url p).Gone := by
  cases p with
  | none => exact ⟨rfl, rfl⟩
  | some p => exact ⟨rfl, by simp [Sql.publicationRow, Store.observedState]⟩

/-- The write that ends a withdrawal takes the newest publication out, and the older ones were out
before. -/
theorem Acting.takes_withdrawn (ha : Acting r mine c item load es op o)
    (hpublished : ∀ e past, e :: past <:+ history → e.before.Published) :
    Takes opts op history ⟨.write (.publication (withPublication op .withdrawn)), .ok ()⟩
      (Newest op.tenantID op.serviceID op.targetGeneration op.publication.generation)
      (Withdrawn op) := by
  refine takes_write fun w' db' past e hsuf hbefore _ _ hnewest hrun g p hle hp => ?_
  obtain ⟨_, rfl⟩ := Store.runs_savePublication hrun
  change (w'.db.publications.insert (op.publication.tenantID, op.publication.serviceID,
    op.publication.generation) _).lookup _ = some p at hp
  obtain ⟨htenant, hservice⟩ := ha.published
  rw [htenant, hservice, Table.lookup_insert_ite] at hp
  split at hp
  · obtain rfl := Option.some.inj hp
    exact gone_publicationRow
  · next hkey =>
    obtain ⟨hg, hsome⟩ := hnewest.2 g hle (by rw [hp]; rfl)
    obtain ⟨p', hp'⟩ := Option.isSome_iff_exists.mp hsome
    have hlt : g < op.publication.generation := by
      refine lt_of_le_of_ne hg fun heq => hkey ?_
      rw [heq]
    have hearlier := hpublished e past hsuf
    rw [hbefore] at hearlier
    exact hearlier.older _ _ g _ p p' hp hp' hlt

/-- A worker that has withdrawn what was published leaves nothing behind. -/
theorem Acting.withdrawn (ha : Acting r mine c item load es op o) (h : Made opts r c w mine)
    (hall : Explained opts r w.history)
    (hpublished : ∀ e past, e :: past <:+ w.history → e.before.Published)
    (hf : w.db.fenced op.tenantID op.id op.leaseToken w.now = true)
    (hstep : op.step = .withdrawPublication)
    (hes : es = es' ++ [⟨.write (.publication (withPublication op .withdrawn)), .ok ()⟩]) :
    Withdrawn op w.db := by
  obtain ⟨x, es₁, hload, htakes⟩ := ha.newestRead hstep
  have hx : load ++ es = es₁ ++ x :: (es' ++
      ⟨.write (.publication (withPublication op .withdrawn)), .ok ()⟩ :: []) := by
    simp [hload, hes]
  have hown : ∀ y ∈ es', Own op y.1 := fun y hy => ha.acts.own y (by simp [hes, hy])
  refine ha.through h hall hf hx (htakes opts _) (own_keep_newest hown) others_keep_newest
    (ha.takes_withdrawn hpublished) ?_ ?_
  · intro c' choice w' hseen
    cases hseen
  · intro c' choice w' mine' hmade hpresents _ hfenced hseat _ hwithdrawn g p hle hp
    rw [others_keep_publication c' choice w' mine' hmade hpresents hfenced hseat] at hp
    exact hwithdrawn g p hle hp

/-- A publishing worker has loaded the publication of its own target. -/
theorem Acting.generation (ha : Acting r mine c item load es op o) (h : Made opts r c w mine)
    (hall : Explained opts r w.history) (hstep : op.step = .publish) :
    op.publication.generation = op.targetGeneration := by
  obtain ⟨row, es₁, hload, _, hgeneration⟩ := ha.loads.publication
  rw [if_pos (ha.loads.step.symm.trans hstep)] at hload
  obtain ⟨y, past, now, _, _, hrun⟩ := ha.loadRead h hall
    (q := .publication item.tenantID o.serviceID o.targetGeneration) (a := row) (by simp [hload])
  simp only [Read.tx, Sql.getPublication, runs_get_bind, runs_pure] at hrun
  rw [hgeneration, hrun.1, ha.loads.targetGeneration]
  cases y.before.publications.lookup (item.tenantID, o.serviceID, o.targetGeneration) <;> rfl

end
end Runner

/-- What a write about a publication that passes its fence finds: the current operation of the
service, publishing its own target or withdrawing the newest publication. -/
structure Writes (db : Db) (p : Publication) (id : Uuid) (o : OperationRow) : Prop where
  row : db.operations.lookup (p.tenantID, id) = some o
  service : p.serviceID = o.serviceID
  current : db.IsCurrent (p.tenantID, id) o
  step : (o.step = .publish ∧ p.generation = o.targetGeneration) ∨
    (o.step = .withdrawPublication ∧
      Newest p.tenantID p.serviceID o.targetGeneration p.generation db)

section
variable {opts : WorkOptions} {r : Runner} {w : World} {mine : List Entry} {p : Publication}

theorem Made.writes (h : Made opts r (.write (.publication p)) w mine)
    (hall : Explained opts r w.history)
    (hfenced : w.db.operationFenced p.tenantID (p.fenceOperationID.getD p.operationID) p.generation
      p.leaseToken w.now = true) : ∃ id o, Writes w.db p id o := by
  obtain ⟨item, load, es, op, o, ha⟩ := Runner.acting_of_made h trivial
  have hstep := ha.acts.publication
  obtain ⟨htenant, hservice, hgeneration, htoken, hfence, hwrites⟩ :=
    Runner.publication_of_step hstep
  rw [ha.published.1] at htenant
  rw [ha.published.2] at hservice
  have hf := h.kept.chronicle.sound.aggregate.fenced hfenced
  rw [htenant, hfence, htoken] at hf
  obtain ⟨o', ho', hat, haim⟩ := ha.rowAt h hall hf hstep
  obtain ⟨o₁, ho₁, hcurrent, _⟩ := Db.fenced_iff.mp hf
  obtain rfl : o' = o₁ := Option.some.inj (ho'.symm.trans ho₁)
  simp only [OperationRow.aim, Prod.mk.injEq] at haim
  refine ⟨op.id, o', ⟨by rw [htenant]; exact ho', hservice.trans haim.1.symm,
    by rw [htenant]; exact hcurrent, ?_⟩⟩
  rcases hwrites with ⟨hwithdraw, _⟩ | ⟨hpublish, _⟩
  · refine .inr ⟨hat.trans hwithdraw, ?_⟩
    rw [htenant, hservice, hgeneration, haim.2.2]
    exact ha.newest h hall hf hwithdraw
  · refine .inl ⟨hat.trans hpublish, ?_⟩
    rw [hgeneration, haim.2.2]
    exact ha.generation h hall hpublish

variable {id : Uuid} {o : OperationRow}

/-- A publish step comes after the withdrawal of what was there before. -/
theorem OperationRow.clears_of_publish {kind : Kind} (hpath : Step.publish ∈ Operation.paths kind) :
    (kind = .create ∨ kind = .start ∨
      Step.withdrawPublication ∈ Operation.before kind .publish) ∧ kind ≠ .stop ∧
        kind ≠ .delete := by
  revert hpath
  cases kind <;> decide

theorem OperationRow.not_clears_of_withdraw {kind : Kind}
    (hpath : Step.withdrawPublication ∈ Operation.paths kind) :
    ¬(kind = .create ∨ kind = .start ∨
      Step.withdrawPublication ∈ Operation.before kind .withdrawPublication) := by
  revert hpath
  cases kind <;> decide

/-- No publication is newer than the one that is written. -/
theorem Writes.above (h : Writes w.db p id o) (hpublished : w.db.Published) {g : Generation}
    {row : PublicationRow}
    (hrow : w.db.publications.lookup (p.tenantID, p.serviceID, g) = some row) :
    g ≤ p.generation := by
  obtain ⟨s, hs, hle⟩ := hpublished.owned _ _ _ _ hrow
  obtain ⟨s', hs', _, htarget⟩ := h.current
  rw [h.service] at hs
  obtain rfl := Option.some.inj (hs.symm.trans hs')
  rw [htarget] at hle
  rcases h.step with ⟨_, hgeneration⟩ | ⟨_, hnewest⟩
  · rw [hgeneration]
    exact hle
  · exact (hnewest.2 g hle (by rw [hrow]; rfl)).1

/-- Every older one is withdrawn. -/
theorem Writes.below (h : Writes w.db p id o) (hkept : w.Kept) (hpublished : w.db.Published)
    {g : Generation} {row : PublicationRow}
    (hrow : w.db.publications.lookup (p.tenantID, p.serviceID, g) = some row)
    (hlt : g < p.generation) : row.Gone := by
  rcases h.step with ⟨hstep, hgeneration⟩ | ⟨_, hnewest⟩
  · have hpath := (hkept.followed.rows _ _ h.row).path
    rw [hstep] at hpath
    have hclears : o.Clears := by
      rw [OperationRow.Clears, hstep]
      exact (OperationRow.clears_of_publish hpath).1
    rw [h.service] at hrow
    exact hpublished.cleared _ o h.row h.current hclears g row hrow (.inl (hgeneration ▸ hlt))
  · have hle : g ≤ o.targetGeneration := le_trans hlt.le hnewest.1
    obtain ⟨_, hsome⟩ := hnewest.2 g hle (by rw [hrow]; rfl)
    obtain ⟨row', hrow'⟩ := Option.isSome_iff_exists.mp hsome
    exact hpublished.older _ _ g _ row row' hrow hrow' hlt

/-- The current operation that writes is not past the withdrawal of what it writes. -/
theorem Writes.uncleared (h : Writes w.db p id o) (hkept : w.Kept) (hclears : o.Clears) :
    ¬(p.generation < o.targetGeneration ∨ o.kind = .stop ∨ o.kind = .delete) := by
  have hpath := (hkept.followed.rows _ _ h.row).path
  rcases h.step with ⟨hstep, hgeneration⟩ | ⟨hstep, _⟩
  · rw [hstep] at hpath
    have hkind := (OperationRow.clears_of_publish hpath).2
    rintro (hlt | hstop | hdelete)
    · rw [hgeneration] at hlt
      exact Nat.lt_irrefl _ hlt
    · exact hkind.1 hstop
    · exact hkind.2 hdelete
  · rw [hstep] at hpath
    rw [OperationRow.Clears, hstep] at hclears
    exact absurd hclears (OperationRow.not_clears_of_withdraw hpath)

/-- Two operations that are current for one service are the same. -/
theorem Db.IsCurrent.unique {db : Db} {o o' : OperationRow} (h : db.IsCurrent (tenant, id) o)
    (h' : db.IsCurrent (tenant, id') o') (hservice : o.serviceID = o'.serviceID) : id = id' := by
  obtain ⟨s, hs, hid, _⟩ := h
  obtain ⟨s', hs', hid', _⟩ := h'
  rw [hservice] at hs
  obtain rfl := Option.some.inj (hs.symm.trans hs')
  exact Option.some.inj (hid.symm.trans hid')

theorem Db.IsCurrent.congr {db : Db} {o o' : OperationRow} (haim : o'.aim = o.aim)
    (h : db.IsCurrent k o') : db.IsCurrent k o := by
  simp only [OperationRow.aim, Prod.mk.injEq] at haim
  obtain ⟨s, hs, hid, hgeneration⟩ := h
  rw [haim.1] at hs
  rw [haim.2.2] at hgeneration
  exact ⟨s, hs, hid, hgeneration⟩

/-- What a write about publications leaves besides the row it writes. -/
theorem publication_rest (opts : WorkOptions) (w : World)
    (choice : Call.Choice (.write (.publication p))) :
    (exec opts (.write (.publication p)) choice w).2.db.operations = w.db.operations ∧
      (exec opts (.write (.publication p)) choice w).2.db.services = w.db.services := by
  rcases settle_state ((Write.publication p).tx w.now) .connection choice w.db with hs | ⟨_, ha⟩
  · exact ⟨congrArg Db.operations hs, congrArg Db.services hs⟩
  · obtain ⟨_, hdb⟩ := Store.runs_savePublication ha
    exact ⟨(congrArg Db.operations hdb).trans rfl, (congrArg Db.services hdb).trans rfl⟩

/-- The invariant is kept by what workers write about publications. -/
theorem Db.Published.publication (hpublished : w.db.Published)
    (h : Made opts r (.write (.publication p)) w mine) (hall : Explained opts r w.history)
    (choice : Call.Choice (.write (.publication p))) :
    (exec opts (.write (.publication p)) choice w).2.db.Published := by
  have heffect := exec_effect opts (.write (.publication p)) choice w
  obtain ⟨hoperations, hservices⟩ := publication_rest opts w choice
  have hchange : ∀ k, (exec opts (.write (.publication p)) choice w).2.db.publications.lookup k =
      w.db.publications.lookup k ∨
        k = (p.tenantID, p.serviceID, p.generation) ∧ ∃ id o, Writes w.db p id o := by
    intro k
    cases heffect.publications k with
    | none _ same => exact .inl same
    | saved key fenced _ => exact .inr ⟨key, h.writes hall fenced⟩
  refine ⟨?_, ?_, ?_, ?_, ?_⟩
  · intro tenant service g row hrow
    rw [hservices]
    rcases hchange (tenant, service, g) with same | ⟨⟨⟩, id, o, hwrites⟩
    · rw [same] at hrow
      exact hpublished.owned tenant service g row hrow
    · obtain ⟨s, hs, _, htarget⟩ := hwrites.current
      rw [hwrites.service]
      refine ⟨s, hs, ?_⟩
      rw [htarget]
      rcases hwrites.step with ⟨_, hgeneration⟩ | ⟨_, hnewest⟩
      · exact hgeneration.le
      · exact hnewest.1
  · intro tenant service g g' row row' hrow hrow' hlt
    rcases hchange (tenant, service, g) with same | ⟨⟨⟩, id, o, hwrites⟩
    · rw [same] at hrow
      rcases hchange (tenant, service, g') with same' | ⟨⟨⟩, id, o, hwrites⟩
      · rw [same'] at hrow'
        exact hpublished.older tenant service g g' row row' hrow hrow' hlt
      · exact hwrites.below h.kept hpublished hrow hlt
    · rcases hchange (p.tenantID, p.serviceID, g') with same | ⟨key, _⟩
      · rw [same] at hrow'
        exact absurd (hwrites.above hpublished hrow') (Nat.not_le.mpr hlt)
      · cases key
        exact absurd hlt (Nat.lt_irrefl _)
  · intro k o ho hcurrent hclears g row hrow hcase
    rw [hoperations] at ho
    have hbefore : w.db.IsCurrent k o := by
      obtain ⟨s, hs, hrest⟩ := hcurrent
      rw [hservices] at hs
      exact ⟨s, hs, hrest⟩
    rcases hchange (k.1, o.serviceID, g) with same | ⟨key, id, o', hwrites⟩
    · rw [same] at hrow
      exact hpublished.cleared k o ho hbefore hclears g row hrow hcase
    · obtain ⟨tenant, id'⟩ := k
      simp only [Prod.mk.injEq] at key
      obtain ⟨rfl, hservice, rfl⟩ := key
      obtain rfl := hbefore.unique hwrites.current (hservice.trans hwrites.service)
      obtain rfl := Option.some.inj (ho.symm.trans hwrites.row)
      exact absurd hcase (hwrites.uncleared h.kept hclears)
  · intro k o ho ⟨s, hs, hrest⟩
    rw [hoperations] at ho
    rw [hservices] at hs
    exact hpublished.live k o ho ⟨s, hs, hrest⟩
  · intro k s hs hstopped
    rw [hservices] at hs
    rw [hoperations]
    exact hpublished.stopped k s hs hstopped

end

/-- A new operation has no step behind it. -/
theorem NewOperation.before_eq (h : NewOperation db db' k o) :
    Operation.before o.kind o.step = [] := by
  cases h with
  | created hnew =>
    rw [show o.kind = .create from congrArg OperationRow.kind hnew,
      show o.step = .admission from congrArg OperationRow.step hnew]
    rfl
  | accepted hnew found admits =>
    rw [show o.step = Commands.firstStep o.kind from congrArg OperationRow.step hnew]
    revert admits
    cases o.kind with
    | create => exact fun admits => False.elim admits
    | _ => exact fun _ => rfl

section
variable {opts : WorkOptions} {r : Runner} {c : Call} {w : World} {mine : List Entry}

/-- An operation that is new finds nothing of an earlier generation when it is the first one or a
start. -/
theorem NewOperation.cleared (h : NewOperation w.db db' k o) (hkept : w.Kept)
    (hpublished : w.db.Published) (hclears : o.Clears)
    (hrow : w.db.publications.lookup (k.1, o.serviceID, g) = some row) : row.Gone := by
  obtain ⟨s₀, hs₀, _⟩ := hpublished.owned _ _ _ _ hrow
  have hnothing := h.before_eq
  cases h with
  | created _ absent =>
    rw [absent] at hs₀
    cases hs₀
  | @accepted s hash _ found admits service idle =>
    rcases hclears with hcreate | hstart | hbefore
    · rw [hcreate] at admits
      exact absurd admits id
    · rw [hstart] at admits
      -- The stop before it has withdrawn everything.
      obtain ⟨id, o₁, hid, ho₁, hstop⟩ := hpublished.stopped _ s found admits
      obtain ⟨o₂, ho₂, hservice, htarget⟩ :=
        hkept.chronicle.sound.aggregate.owned _ s id found hid
      obtain rfl := Option.some.inj (ho₁.symm.trans ho₂)
      have hcurrent : w.db.IsCurrent (k.1, id) o₁ :=
        ⟨s, by rw [hservice]; exact found, hid, htarget.symm⟩
      have hended : o₁.phase.active ≠ true := fun hactive =>
        absurd ((idle id o₁ ho₁ hservice hactive).symm.trans hstart) (by simp)
      have hlive := hpublished.live _ o₁ ho₁ hcurrent
      have hsucceeded : o₁.phase = .succeeded := by
        revert hended hlive
        cases o₁.phase <;> simp [Phase.active]
      have hcomplete := (hkept.followed.rows _ _ ho₁).succeeded hsucceeded
      refine hpublished.cleared _ o₁ ho₁ hcurrent (.inr (.inr ?_)) g row ?_ (.inr (.inl hstop))
      · rw [hstop, hcomplete]
        decide
      · rw [hservice]
        exact hrow
    · rw [hnothing] at hbefore
      cases hbefore

/-- A service that is to be stopped is so because of its current operation. -/
theorem Db.Published.stopped_call (hpublished : w.db.Published) (h : Made opts r c w mine)
    (choice : c.Choice) (hs' : (exec opts c choice w).2.db.services.lookup k = some s')
    (hstopped : s'.desiredState = .stopped) :
    ∃ id o, s'.currentOperation = some id ∧
      (exec opts c choice w).2.db.operations.lookup (k.1, id) = some o ∧ o.kind = .stop := by
  have heffect := exec_effect opts c choice w
  rcases heffect.service hs' with ⟨s, hs, haim⟩ | ⟨id, hid, hnone⟩
  · simp only [Service.aim, Prod.mk.injEq] at haim
    obtain ⟨id, o, hid, ho, hkind⟩ := hpublished.stopped k s hs (haim.1.symm.trans hstopped)
    obtain ⟨o', ho', haim'⟩ := heffect.aim ho
    simp only [OperationRow.aim, Prod.mk.injEq] at haim'
    exact ⟨id, o', haim.2.2.trans hid, ho', haim'.2.1.trans hkind⟩
  · have hafter : (exec opts c choice w).2.Chronicle := h.kept.chronicle.exec c choice
    obtain ⟨o, ho, hservice, _⟩ := hafter.sound.aggregate.owned k s' id hs' hid
    refine ⟨id, o, hid, ho, ?_⟩
    obtain ⟨tenant, service⟩ := k
    obtain rfl : o.serviceID = service := hservice
    cases (exec_effect opts c choice w).newOperation hnone ho with
    | created _ _ created =>
      obtain ⟨s₁, hs₁, hrunning, _⟩ := created
      obtain rfl := Option.some.inj (hs'.symm.trans hs₁)
      rw [hrunning] at hstopped
      cases hstopped
    | @accepted s _ _ found admits service =>
      obtain rfl := Option.some.inj (hs'.symm.trans service)
      change Commands.targetState o.kind s.desiredState = .stopped at hstopped
      revert admits hstopped
      cases o.kind <;> simp +contextual [Kind.Admits, Commands.targetState]

/-- The transition out of a withdrawal is asked for once everything is withdrawn. -/
theorem Made.withdrawn (h : Made opts r (.write (.advance t event)) w mine)
    (hall : Explained opts r w.history)
    (hpublished : ∀ e past, e :: past <:+ w.history → e.before.Published)
    (ho : w.db.operations.lookup (t.tenantID, t.operationID) = some o)
    (hm : Sql.stepMatches w.now (Store.stepCAS t) w.db o = true)
    (hleads : Operation.Leads o.kind o.step t.nextPhase t.nextStep)
    (hstep : o.step = .withdrawPublication)
    (hrow : w.db.publications.lookup (t.tenantID, o.serviceID, g) = some row)
    (hle : g ≤ o.targetGeneration) : row.Gone := by
  obtain ⟨item, load, es₀, es, op, phase, o₀, result, ha, entered, ran, hat, haim,
    htenant, hid, hf⟩ :=
    h.finishing hall ho hm hleads
  simp only [OperationRow.aim, Prod.mk.injEq] at haim
  rw [htenant, haim.1] at hrow
  rw [haim.2.2] at hle
  have hwithdraw : op.step = .withdrawPublication := hat.symm.trans hstep
  have hrun : Played (Runner.runWithdrawPublication r { op with phase := phase }).run es
      (.ok result) := by
    simpa only [Runner.runStep, hwithdraw] using ran
  obtain ⟨es', rfl⟩ := Runner.played_runWithdrawPublication hrun
  rw [← List.append_assoc] at ha
  exact ha.withdrawn h hall hpublished hf hwithdraw rfl g row hle hrow

/-- The invariant is kept by everything that is not written about publications. -/
theorem Db.Published.other (hpublished : w.db.Published) (h : Made opts r c w mine)
    (hall : Explained opts r w.history)
    (hpast : ∀ e past, e :: past <:+ w.history → e.before.Published) (choice : c.Choice)
    (hc : ∀ p, c ≠ .write (.publication p)) : (exec opts c choice w).2.db.Published := by
  have heffect := exec_effect opts c choice w
  have same : ∀ k, (exec opts c choice w).2.db.publications.lookup k =
      w.db.publications.lookup k := by
    intro k
    cases heffect.publications k with
    | none _ same => exact same
    | saved => exact absurd rfl (hc _)
  -- A cancelled operation is current no longer.
  have uncancelled : ∀ k o, w.db.operations.lookup k = some o →
      (exec opts c choice w).2.db.IsCurrent k o →
      ¬DeleteAccepted w.db (exec opts c choice w).2.db k.1 o.serviceID := by
    intro k o ho ⟨s, hs, hid, _⟩ ⟨id, s', _, hnew, _, _, _, hs', _, hid'⟩
    obtain rfl := Option.some.inj (hs.symm.trans hs')
    obtain rfl := Option.some.inj (hid.symm.trans hid')
    exact absurd (ho.symm.trans hnew) (by simp)
  refine ⟨?_, ?_, ?_, ?_, fun k s hs hstopped => hpublished.stopped_call h choice hs hstopped⟩
  · intro tenant service g row hrow
    rw [same] at hrow
    obtain ⟨s, hs, hle⟩ := hpublished.owned tenant service g row hrow
    obtain ⟨s', hs', hkept⟩ := heffect.service_kept hs
    refine ⟨s', hs', ?_⟩
    rcases hkept with haim | hnext
    · simp only [Service.aim, Prod.mk.injEq] at haim
      rw [haim.2.1]
      exact hle
    · rw [hnext]
      exact Nat.le_succ_of_le hle
  · intro tenant service g g' row row' hrow hrow' hlt
    rw [same] at hrow hrow'
    exact hpublished.older tenant service g g' row row' hrow hrow' hlt
  · intro k o' ho' hcurrent hclears g row hrow hcase
    rw [same] at hrow
    cases ho : w.db.operations.lookup k with
    | none =>
      exact ((exec_effect opts c choice w).newOperation ho ho').cleared h.kept
        hpublished hclears hrow
    | some o =>
      obtain ⟨o'', ho'', hchange⟩ := heffect.operation ho
      obtain rfl := Option.some.inj (ho'.symm.trans ho'')
      have haim := hchange.aim
      have hafter := hcurrent.congr haim
      have hbefore : w.db.IsCurrent k o := isCurrent_back c choice ho hafter
      simp only [OperationRow.aim, Prod.mk.injEq] at haim
      rw [haim.1] at hrow
      rw [haim.2.1, haim.2.2] at hcase
      have old : o.Clears → row.Gone := fun hold =>
        hpublished.cleared k o ho hbefore hold g row hrow hcase
      cases hchange with
      | none | retried => exact old hclears
      | cancelled _ accepted => exact absurd accepted (uncancelled k o ho hafter)
      | @advanced t event key checked matched =>
        subst key
        cases transits_advance h.proper ho checked matched with
        | claimed _ _ step =>
          refine old ?_
          change o.kind = .create ∨ o.kind = .start ∨
            _ ∈ Operation.before o.kind t.nextStep at hclears
          rw [step] at hclears
          exact hclears
        | advanced _ leads =>
          rcases hclears with hcreate | hstart | hwithdrew
          · exact old (.inl hcreate)
          · exact old (.inr (.inl hstart))
          · rcases leads.left hwithdrew (by simp) with hearlier | hstep
            · exact old (.inr (.inr hearlier))
            · refine h.withdrawn hall hpast ho matched leads hstep hrow ?_
              obtain ⟨s, hs, hle⟩ := hpublished.owned _ _ _ _ hrow
              obtain ⟨s', hs', _, htarget⟩ := hbefore
              obtain rfl := Option.some.inj (hs.symm.trans hs')
              rw [← htarget]
              exact hle
  · intro k o' ho' hcurrent
    cases ho : w.db.operations.lookup k with
    | none =>
      obtain ⟨_, _, _, _, _, rfl, _⟩ := heffect.operation_new ho ho'
      simp [Sql.newOperation]
    | some o =>
      obtain ⟨o'', ho'', hchange⟩ := heffect.operation ho
      obtain rfl := Option.some.inj (ho'.symm.trans ho'')
      have hafter := hcurrent.congr hchange.aim
      have hlive := hpublished.live k o ho (isCurrent_back c choice ho hafter)
      cases hchange with
      | none => exact hlive
      | cancelled _ accepted => exact absurd accepted (uncancelled k o ho hafter)
      | retried => simp [Store.steppedRow, Sql.retriedRow]
      | @advanced t event key checked matched =>
        subst key
        change t.nextPhase ≠ .failed
        cases transits_advance h.proper ho checked matched with
        | claimed _ running =>
          rw [running]
          simp
        | advanced _ leads => exact leads.phase_ne_failed

end

section
variable {opts : WorkOptions} {r : Runner} {history : List Entry} {db : Db}

/-- The invariant holds in every database of a run. -/
theorem Explained.published (hall : Explained opts r history) (h : Linked history db) :
    db.Published := by
  -- A withdrawal relies on the databases its worker has seen, so all of them are carried along.
  suffices db.Published ∧ ∀ e past, e :: past <:+ history → e.before.Published from this.1
  refine h.induction
    (P := fun history db => db.Published ∧ ∀ e past, e :: past <:+ history → e.before.Published)
    ⟨Db.published_empty, by simp⟩ fun e past hsuf ⟨hbefore, hpast⟩ => ?_
  obtain ⟨c, choice, w, mine, hmade, rfl, rfl⟩ := hall e past hsuf
  have hall' := hall.suffix ((List.suffix_cons _ _).trans hsuf)
  refine ⟨?_, fun e' past' hsuf' => ?_⟩
  · by_cases hc : ∃ p, c = .write (.publication p)
    · obtain ⟨p, rfl⟩ := hc
      exact Db.Published.publication hbefore hmade hall' choice
    · exact Db.Published.other hbefore hmade hall' hpast choice fun p hp => hc ⟨p, hp⟩
  · rcases List.suffix_cons_iff.mp hsuf' with heq | hsuf'
    · injection heq with heq
      exact heq ▸ hbefore
    · exact hpast e' past' hsuf'

/-- What a worker asks to be written about a publication belongs to the operation it has loaded. -/
theorem Made.publishing (h : Made opts r (.write (.publication p)) w mine)
    (hall : Explained opts r w.history) :
    ∃ id o, p.fenceOperationID = some id ∧ w.db.operations.lookup (p.tenantID, id) = some o ∧
      p.serviceID = o.serviceID ∧
      (p.state = .publishing ∨ p.state = .published → p.generation = o.targetGeneration) := by
  obtain ⟨item, load, es, op, o, ha⟩ := Runner.acting_of_made h trivial
  obtain ⟨htenant, hservice, hgeneration, _, hfence, hwrites⟩ :=
    Runner.publication_of_step ha.acts.publication
  obtain ⟨o', ho', haim⟩ := ha.loaded h hall
  simp only [OperationRow.aim, Prod.mk.injEq] at haim
  rw [ha.published.1] at htenant
  rw [ha.published.2] at hservice
  refine ⟨op.id, o', hfence, by rw [htenant]; exact ho', hservice.trans haim.1.symm,
    fun hstate => ?_⟩
  rcases hwrites with ⟨_, hwithdraw⟩ | ⟨hpublish, _⟩
  · rcases hstate with hstate | hstate <;> simp [hstate] at hwithdraw
  · rw [hgeneration, haim.2.2]
    exact ha.generation h hall hpublish

end

/-- A service has at most one publication that is not withdrawn, and it is the newest one. -/
structure PublishedOnce (w : World) : Prop where
  unique : ∀ tenant service g g' p p', w.db.publications.lookup (tenant, service, g) = some p →
    w.db.publications.lookup (tenant, service, g') = some p' → ¬p.Gone → ¬p'.Gone → g = g'
  older : ∀ tenant service g g' p p', w.db.publications.lookup (tenant, service, g) = some p →
    w.db.publications.lookup (tenant, service, g') = some p' → g < g' →
    p.desiredPhase = .withdrawn ∧ p.observedPhase = .withdrawn
  -- Whatever is asked to be published is the operation's own target.
  publish : ∀ e past, e :: past <:+ w.history → ∀ p, e.call = .write (.publication p) →
    ∃ id o, p.fenceOperationID = some id ∧ e.before.operations.lookup (p.tenantID, id) = some o ∧
      p.serviceID = o.serviceID ∧
      (p.state = .publishing ∨ p.state = .published → p.generation = o.targetGeneration)
  -- What is written is written for the current operation, in the one step or the other.
  written : ∀ e past, e :: past <:+ w.history → ∀ tenant service g,
    e.after.publications.lookup (tenant, service, g) ≠
      e.before.publications.lookup (tenant, service, g) →
    ∃ id o, e.before.operations.lookup (tenant, id) = some o ∧ o.serviceID = service ∧
      e.before.IsCurrent (tenant, id) o ∧
      (o.step = .withdrawPublication ∨ (o.step = .publish ∧ g = o.targetGeneration))

/-- In every run, the publications of a service are one at a time. -/
theorem published_once {opts : WorkOptions} {r : Runner} {s : Pool World Call Call.Answer}
    (h : Running opts r s) : PublishedOnce s.world := by
  have hall := h.explained
  have hpublished := hall.published h.linked
  refine ⟨?_, hpublished.older, ?_, ?_⟩
  · intro tenant service g g' p p' hp hp' hlive hlive'
    rcases Nat.lt_trichotomy g g' with hlt | heq | hgt
    · exact absurd (hpublished.older tenant service g g' p p' hp hp' hlt) hlive
    · exact heq
    · exact absurd (hpublished.older tenant service g' g p' p hp' hp hgt) hlive'
  · intro e past hsuf p hcall
    have hall' := hall.suffix ((List.suffix_cons _ _).trans hsuf)
    obtain ⟨c, choice, w, mine, hmade, rfl, rfl⟩ := hall e past hsuf
    obtain rfl : c = .write (.publication p) := hcall
    exact hmade.publishing hall'
  · intro e past hsuf tenant service g hchanged
    have hall' := hall.suffix ((List.suffix_cons _ _).trans hsuf)
    obtain ⟨c, choice, w, mine, hmade, rfl, rfl⟩ := hall e past hsuf
    cases (exec_effect opts c choice w).publications (tenant, service, g) with
    | none _ same => exact absurd same hchanged
    | saved key fenced written =>
      obtain ⟨id, o, hwrites⟩ := hmade.writes hall' fenced
      simp only [Prod.mk.injEq] at key
      obtain ⟨rfl, rfl, rfl⟩ := key
      refine ⟨id, o, hwrites.row, hwrites.service.symm, hwrites.current, ?_⟩
      rcases hwrites.step with hpublish | hwithdraw
      · exact .inr hpublish
      · exact .inl hwithdraw.1

/-- A service is created and published, restarted, and published again. -/
def republishedRun : List Event :=
  oneByOne 0 (Sample.running ++ Sample.commanded .restart 1 20 Sample.replaceTurns)

theorem published_once_republishedRun :
    ((played .default .configured republishedRun).world.db.publications.entries.map
      fun row => (row.1, row.2.desiredPhase, row.2.observedPhase)) =
        [((1, 7, 2), .published, .published), ((1, 7, 1), .withdrawn, .withdrawn)] ∧
    PublishedOnce (played .default .configured republishedRun).world :=
  ⟨by decide +kernel, published_once (running_played .default .configured republishedRun)⟩

end AniInference
