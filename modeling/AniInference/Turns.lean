import AniInference.StepCalls

namespace AniInference
open Lib Prog Txn

/-- The calls only a worker makes, and only on the operation it has loaded. -/
def Call.OfTurn : Call → Prop
  | .write (.observation ..) | .write (.releaseReport ..) => False
  | .provider (.reportReleased _) | .provider (.ensureRuntime _) => False
  | .write _ | .provider _ => True
  | _ => False

/-- The calls of the observation of a service. -/
def Call.OfObserver : Call → Prop
  | .read _ | .provider (.ensureRuntime _) | .write (.observation ..) => True
  | _ => False

namespace Runner
open M

/-- A worker is in the turn it claimed `item` for, has loaded `op` from the row `o`, and goes on
with `c`. -/
structure Acting (r : Runner) (mine : List Entry) (c : Call) (item : Item)
    (load es : List Exchange) (op : OperationContext) (o : OperationRow) : Prop where
  turn : ∃ tenant before, (mine.map Entry.seen).reverse =
    ⟨.work (.claim tenant), .ok (some item)⟩ :: (before ++ (load ++ es))
  loads : Loads item load op o
  service : op.serviceID = item.serviceID
  target : op.targetGeneration = item.generation
  active : op.phase.active = true
  acts : Acts r op es c

section
variable {opts : WorkOptions} {r : Runner} {c : Call} {w : World} {mine : List Entry}
variable {item : Item} {op : OperationContext} {o : OperationRow} {load es : List Exchange}

theorem only_observe : (observe item).run.Only Call.OfObserver := by
  refine only_run_bind only_failIf fun _ => only_run_bind (only_read trivial) fun _ => ?_
  refine only_run_bind only_failIf fun _ => only_run_bind (only_provider trivial) fun _ => ?_
  exact only_run_bind only_failIf fun _ => only_write trivial

/-- A call that ends its program. -/
theorem eq_of_asks_call (h : Asks (.call e fun _ => .ret ()) es c) : c = e := by
  rcases asks_call.mp h with ⟨_, rfl⟩ | ⟨_, _, _, h⟩
  · rfl
  · exact absurd h not_asks_ret

theorem Acting.of_works (h : Works r tenant (mine.map Entry.seen).reverse c) (hc : ¬c.OfObserver)
    (hw : ∀ k, c ≠ .work k) : ∃ item load es op o, Acting r mine c item load es op o := by
  generalize hes : (mine.map Entry.seen).reverse = made at h
  cases h with
  | claims | commits | retries => exact absurd rfl (hw _)
  | loads => exact absurd trivial hc
  | observes _ _ asks => exact absurd (only_observe.asks asks) hc
  | acts first loaded service target active acts =>
    obtain ⟨o, hloads⟩ := loads_of_played loaded
    exact ⟨_, _, _, _, o, ⟨_, _, hes⟩, hloads, service, target, active, acts⟩

/-- Whoever makes such a call is a worker in its turn. -/
theorem acting_of_made (h : Made opts r c w mine) (hc : c.OfTurn) :
    ∃ item load es op o, Acting r mine c item load es op o := by
  obtain ⟨p, hp, hasks⟩ := h.asks
  cases hp with
  | worker tenant =>
    refine Acting.of_works (works_of_asks hasks) (fun hobs => ?_) fun k hk => ?_
    · cases c with
      | write x | provider x => cases x <;> first | exact hobs | exact hc
      | _ => exact hc
    · subst hk
      exact hc
  | closer =>
    have hclose := only_closer.asks hasks
    cases c with
    | write x | provider x => cases x <;> first | exact absurd hclose id | exact absurd hc id
    | _ => exact absurd hc id
  | request q | notify tenant service dirty | repair tenant service dirty | time =>
    obtain rfl := eq_of_asks_call hasks
    exact absurd hc id

end

section
variable {opts : WorkOptions} {r : Runner} {c : Call} {w : World} {mine : List Entry}
variable {item : Item} {op : OperationContext} {o : OperationRow} {load es : List Exchange}

/-- The publication of a turn is one of its service. -/
theorem Acting.published (ha : Acting r mine c item load es op o) :
    op.publication.tenantID = op.tenantID ∧ op.publication.serviceID = op.serviceID := by
  obtain ⟨htenant, hservice⟩ := ha.loads.published
  refine ⟨htenant.trans ha.loads.tenantID.symm, ?_⟩
  rcases hservice with hservice | hservice
  · exact hservice.trans ha.loads.serviceID.symm
  · exact hservice.trans ha.service.symm

/-- So is its reservation one of its tenant. -/
theorem Acting.reserved (ha : Acting r mine c item load es op o) (hx : op.reservation = some x) :
    x.tenantID = op.tenantID := by
  obtain ⟨row, _, _, _, _, hloaded⟩ := ha.loads.reservation
  rw [hx] at hloaded
  cases row with
  | none => cases hloaded
  | some found =>
    obtain ⟨id, row⟩ := found
    obtain ⟨y, hy, hfrom⟩ := hloaded
    obtain rfl := Option.some.inj hy
    exact hfrom.tenantID.trans ha.loads.tenantID.symm

/-- The process has seen what it has made. -/
theorem mem_of_seen {m : List Entry} (hm : (m.map Entry.seen).reverse = es) (hx : x ∈ es) :
    ∃ g ∈ m, g.seen = x := by
  rw [← hm, List.mem_reverse, List.mem_map] at hx
  exact hx

theorem grants_of_seen {g : Entry} (hg : g.seen = ⟨.work (.claim tenant), .ok (some item)⟩) :
    g.call.grants g.answer = some item.leaseToken := by
  change Call.grants g.seen.1 g.seen.2 = _
  rw [hg]
  rfl

/-- From the first read of the load on the operation is there, and the lease of the turn was out
before. -/
theorem Acting.placed (ha : Acting r mine c item load es op o) (hall : Explained opts r w.history)
    (hx : load ++ es = es₁ ++ x :: es₂) {y : Entry} {m old : List Entry} (hy : y.seen = x)
    (hsuf : y :: old <:+ w.history) (hold : Owns P m old)
    (hm : (m.map Entry.seen).reverse =
      ⟨.work (.claim tenant), .ok (some item)⟩ :: (before ++ es₁)) :
    (∃ o', y.before.operations.lookup (op.tenantID, op.id) = some o') ∧
      op.leaseToken ≤ old.length ∧ ∃ g ∈ m, g.call.grants g.answer = some op.leaseToken := by
  have hpast : old <:+ w.history := (List.suffix_cons _ _).trans hsuf
  obtain ⟨g, hgm, hg⟩ := mem_of_seen hm List.mem_cons_self
  have hgrants := grants_of_seen hg
  rw [← ha.loads.leaseToken] at hgrants
  refine ⟨?_, (hall.suffix hpast).granted (hold.sublist.mem hgm) hgrants, g, hgm, hgrants⟩
  obtain ⟨rest, hfirst⟩ := ha.loads.first
  have hfirst' : ⟨.read (.leasedOperation item.tenantID item.leaseToken), .ok (some (op.id, o))⟩ ::
      (rest ++ es) = es₁ ++ x :: es₂ := by
    rw [← hx, hfirst]
    rfl
  rw [ha.loads.tenantID]
  cases es₁ with
  | nil =>
    injection hfirst' with hx₀
    obtain ⟨hrow, _⟩ := read_leasedOperation hall hsuf (hy.trans hx₀.symm)
    exact ⟨o, hrow⟩
  | cons x₀ es₁ =>
    injection hfirst' with hx₀
    obtain ⟨f, hfm, hf⟩ := mem_of_seen (x := x₀) hm (by simp)
    obtain ⟨newer, past, hsplit⟩ := List.append_of_mem (hold.sublist.mem hfm)
    have hfsuf : f :: past <:+ old := ⟨newer, hsplit.symm⟩
    obtain ⟨hrow, _⟩ := read_leasedOperation hall (hfsuf.trans hpast) (hf.trans hx₀.symm)
    obtain ⟨c', choice, w', mine', hmade, rfl, rfl⟩ := hall y old hsuf
    obtain ⟨o', ho', _⟩ := hmade.kept.chronicle.rows f past hfsuf _ o hrow
    exact ⟨o', ho'⟩

/-- The operation is there, and is what the worker has loaded it as. -/
def Seated (op : OperationContext) (db : Db) : Prop :=
  ∃ o, db.operations.lookup (op.tenantID, op.id) = some o ∧
    o.aim = (op.serviceID, op.kind, op.targetGeneration)

section
variable (ha : Acting r mine c item load es op o) (h : Made opts r c w mine)
variable (hall : Explained opts r w.history)
include ha h hall

/-- From the load on, the operation is what the worker has loaded. -/
theorem Acting.loaded : Seated op w.db := by
  obtain ⟨tenant, before, hturn⟩ := ha.turn
  obtain ⟨rest, hfirst⟩ := ha.loads.first
  obtain ⟨y, hym, hy⟩ := mem_of_seen hturn (x := ⟨.read (.leasedOperation item.tenantID
    item.leaseToken), .ok (some (op.id, o))⟩) (by simp [hfirst])
  obtain ⟨newer, past, hsplit⟩ := List.append_of_mem (h.owns.sublist.mem hym)
  have hsuf : y :: past <:+ w.history := ⟨newer, hsplit.symm⟩
  obtain ⟨hrow, _⟩ := read_leasedOperation hall hsuf hy
  obtain ⟨o', ho', haim⟩ := h.kept.chronicle.rows y past hsuf _ o hrow
  refine ⟨o', ?_, haim.trans ?_⟩
  · rw [ha.loads.tenantID]
    exact ho'
  · rw [ha.loads.serviceID, ha.loads.kind, ha.loads.targetGeneration]
    rfl

theorem Acting.seated (hsuf : e :: past <:+ w.history)
    (hf : e.before.fenced op.tenantID op.id op.leaseToken t = true) : Seated op e.before := by
  obtain ⟨o₁, ho₁, haim₁⟩ := ha.loaded h hall
  obtain ⟨o₂, ho₂, _⟩ := Db.fenced_iff.mp hf
  obtain ⟨o₃, ho₃, haim₃⟩ := h.kept.chronicle.rows e past hsuf _ o₂ ho₂
  rw [ho₁] at ho₃
  obtain rfl := Option.some.inj ho₃
  exact ⟨o₂, ho₂, haim₃.symm.trans haim₁⟩

/-- What the load was answered was read from the database of that moment. -/
theorem Acting.loadRead {q : Read} {a : q.Result} (hmem : ⟨.read q, .ok a⟩ ∈ load) :
    ∃ y past now, y :: past <:+ w.history ∧ y.after = y.before ∧
      Runs (q.tx now) y.before a y.before := by
  obtain ⟨tenant, before, hturn⟩ := ha.turn
  obtain ⟨y, hym, hy⟩ := mem_of_seen hturn (x := ⟨.read q, .ok a⟩) (by simp [hmem])
  obtain ⟨newer, past, hsplit⟩ := List.append_of_mem (h.owns.sublist.mem hym)
  have hsuf : y :: past <:+ w.history := ⟨newer, hsplit.symm⟩
  obtain ⟨c', choice, w', _, _, rfl, rfl⟩ := hall y past hsuf
  obtain ⟨rfl, hanswer⟩ : c' = .read q ∧ _ := by
    injection hy with h₁ h₂
    exact ⟨h₁, h₂⟩
  have hans : (exec opts (.read q) choice w').1 = .ok a := eq_of_heq hanswer
  exact ⟨_, w'.history, w'.now, hsuf, read_db, read_runs hans⟩

/-- The calls of the history that others have made under the fence of the worker keep `Q`. -/
def OthersKeep (opts : WorkOptions) (r : Runner) (op : OperationContext) (history : List Entry)
    (Q : Db → Prop) : Prop :=
  ∀ c choice w mine, Made opts r c w mine → c.presents ≠ some op.leaseToken →
    c.entry opts choice w :: w.history <:+ history →
    w.db.fenced op.tenantID op.id op.leaseToken w.now = true → Seated op w.db →
    (∃ t, (exec opts c choice w).2.db.fenced op.tenantID op.id op.leaseToken t = true) →
    Q w.db → Q (exec opts c choice w).2.db

/-- The worker's own calls `es` keep `Q` under its fence. -/
def OwnKeep (opts : WorkOptions) (op : OperationContext) (history : List Entry)
    (es : List Exchange) (Q : Db → Prop) : Prop :=
  ∀ c choice w, (Call.entry opts c choice w).seen ∈ es →
    c.entry opts choice w :: w.history <:+ history →
    w.db.fenced op.tenantID op.id op.leaseToken w.now = true → Seated op w.db →
    Q w.db → Q (exec opts c choice w).2.db

/-- The call `x` of the worker, made under its fence, takes `Q` to `G`. -/
def Takes (opts : WorkOptions) (op : OperationContext) (history : List Entry)
    (x : Exchange) (Q G : Db → Prop) : Prop :=
  ∀ c choice w, (Call.entry opts c choice w).seen = x →
    c.entry opts choice w :: w.history <:+ history →
    w.db.fenced op.tenantID op.id op.leaseToken w.now = true → Seated op w.db →
    Q w.db → G (exec opts c choice w).2.db

variable (hf : w.db.fenced op.tenantID op.id op.leaseToken w.now = true)
include hf

/-- One carrying argument of a worker: from the call `y` of its turn to the database `db`. -/
theorem Acting.carry (hx : load ++ es = es₁ ++ x :: es₃) (hy : y.seen = x)
    (hsuf : new ++ y :: old <:+ w.history) (hm₁ : (m₁.map Entry.seen).reverse =
      ⟨.work (.claim tenant), .ok (some item)⟩ :: (before ++ es₁))
    (hm₂ : (m₂.map Entry.seen).reverse = es₂)
    (hnew : Owns (Presented leaseTokens Entry.seen mine) m₂ new)
    (hold : Owns (Presented leaseTokens Entry.seen mine) m₁ old) (hmine : ∀ g ∈ m₁, g ∈ mine)
    (h0 : Takes opts op w.history x Q G) (hQ : Q y.before) (hown : OwnKeep opts op w.history es₂ G)
    (hother : OthersKeep opts r op w.history G) (hlinked : Linked (new ++ y :: old) db)
    (hdb : ∃ t, db.fenced op.tenantID op.id op.leaseToken t = true) : G db := by
  have hysuf : y :: old <:+ w.history := (List.suffix_append _ _).trans hsuf
  obtain ⟨⟨o', ho'⟩, htoken, g, hgm, hgrants⟩ := ha.placed hall hx hy hysuf hold hm₁
  have hfy := h.kept.chronicle.fences y old hysuf _ _ _ o' ho' htoken hf
  have hafter : G y.after := by
    obtain ⟨c', choice, w', mine', _, rfl, rfl⟩ := hall y old hysuf
    exact h0 c' choice w' hy hysuf hfy (ha.seated h hall hysuf hfy) hQ
  have hmem : ∀ z ∈ m₂, z.seen ∈ es₂ := by
    intro z hz
    rw [← hm₂, List.mem_reverse]
    exact List.mem_map_of_mem hz
  refine h.carry hall ho' htoken ⟨g, hmine g hgm,
    hgrants⟩ hf hafter ?_ ?_ hnew hmem hsuf hlinked hdb
  · intro c' choice w' hseen hz hfz hG
    exact hown c' choice w' hseen hz hfz (ha.seated h hall hz hfz) hG
  · intro c' choice w' mine' hmade hpresents hz hfz hafter hG
    exact hother c' choice w' mine' hmade hpresents hz hfz (ha.seated h hall hz hfz) hafter hG

/-- What a call of the turn has brought about still holds, where neither the worker's own calls
since nor the calls others can make under its fence break it. -/
theorem Acting.since (hx : load ++ es = es₁ ++ x :: es₂)
    (h0 : Takes opts op w.history x (fun _ => True) Q) (hown : OwnKeep opts op w.history es₂ Q)
    (hother : OthersKeep opts r op w.history Q) : Q w.db := by
  obtain ⟨tenant, before, hturn⟩ := ha.turn
  have hsplit : (mine.map Entry.seen).reverse =
      (⟨.work (.claim tenant), .ok (some item)⟩ :: (before ++ es₁)) ++ x :: es₂ := by
    rw [hturn, hx, List.cons_append, List.append_assoc]
  obtain ⟨y, new, old, m₁, m₂, hy, hhistory, hmine, hm₁, hm₂, hnew, hold⟩ :=
    split_of_seen h.owns hsplit
  have hlinked := h.linked
  rw [hhistory] at hlinked
  exact ha.carry h hall hf hx hy ⟨[], hhistory.symm⟩ hm₁ hm₂ hnew hold
    (fun g hg => by simp [hmine, hg]) h0 trivial hown hother hlinked ⟨_, hf⟩

/-- The same in two stages: `Q` from the call `x` to the call `z`, and `G` from there. -/
theorem Acting.through (hx : load ++ es = es₁ ++ x :: (es₂ ++ z :: es₃))
    (h0 : Takes opts op w.history x (fun _ => True) Q) (hown : OwnKeep opts op w.history es₂ Q)
    (hother : OthersKeep opts r op w.history Q) (h1 : Takes opts op w.history z Q G)
    (hown' : OwnKeep opts op w.history es₃ G) (hother' : OthersKeep opts r op w.history G) :
    G w.db := by
  obtain ⟨tenant, before, hturn⟩ := ha.turn
  have hz : load ++ es = (es₁ ++ x :: es₂) ++ z :: es₃ := by simp [hx]
  have hsplit : (mine.map Entry.seen).reverse =
      (⟨.work (.claim tenant), .ok (some item)⟩ :: (before ++ (es₁ ++ x :: es₂))) ++ z :: es₃ := by
    rw [hturn, hz, List.cons_append, List.append_assoc before]
  obtain ⟨y', new', old', m₁', m₂', hy', hhistory, hmine, hm₁', hm₂', hnew', hold'⟩ :=
    split_of_seen h.owns hsplit
  have hsuf' : y' :: old' <:+ w.history := ⟨new', hhistory.symm⟩
  have hown₁ : ∀ g ∈ m₁', g ∈ mine := fun g hg => by simp [hmine, hg]
  -- Between the two calls.
  have hbetween : Q y'.before := by
    have hsplit' : (m₁'.map Entry.seen).reverse =
        (⟨.work (.claim tenant), .ok (some item)⟩ :: (before ++ es₁)) ++ x :: es₂ := by
      rw [hm₁', List.cons_append, List.append_assoc before]
    obtain ⟨⟨o', ho'⟩, htoken, _⟩ := ha.placed hall hz hy' hsuf' hold' hm₁'
    have hfy' := h.kept.chronicle.fences y' old' hsuf' _ _ _ o' ho' htoken hf
    obtain ⟨y, new, old, m₁, m₂, hy, hold'', hmine', hm₁, hm₂, hnew, hold⟩ :=
      split_of_seen hold' hsplit'
    have hlinked := h.linked.suffix hsuf'
    have hpast : old' <:+ w.history := (List.suffix_cons _ _).trans hsuf'
    rw [hold''] at hlinked hpast
    exact ha.carry h hall hf hx hy hpast hm₁ hm₂ hnew hold
      (fun g hg => hown₁ g (by simp [hmine', hg])) h0 trivial hown hother hlinked ⟨_, hfy'⟩
  have hlinked := h.linked
  rw [hhistory] at hlinked
  exact ha.carry h hall hf hz hy' ⟨[], hhistory.symm⟩ hm₁' hm₂' hnew' hold' hown₁ h1 hbetween hown'
    hother' hlinked ⟨_, hf⟩

end

/-- An own read takes nothing for granted, and leaves what it has read. -/
theorem takes_read {history : List Entry} {q : Read} {a : q.Result} {Q : Db → Prop}
    (h : ∀ w : World, w.db.fenced op.tenantID op.id op.leaseToken w.now = true → Seated op w.db →
      Runs (q.tx w.now) w.db a w.db → Q w.db) :
    Takes opts op history ⟨.read q, .ok a⟩ (fun _ => True) Q := by
  intro c' choice w' hseen _ hfenced hseat _
  obtain ⟨rfl, hanswer⟩ : c' = .read q ∧ _ := by
    injection hseen with h₁ h₂
    exact ⟨h₁, h₂⟩
  have hans : (exec opts (.read q) choice w').1 = .ok a := eq_of_heq hanswer
  rw [read_db]
  exact h w' hfenced hseat (read_runs hans)

/-- An own write that was answered. -/
theorem takes_write
    (h : ∀ (w : World) (db' : Db) (past : List Entry) (e : Entry), e :: past <:+ history →
      e.before = w.db → w.db.fenced op.tenantID op.id op.leaseToken w.now = true →
      Seated op w.db → Q w.db → Runs (x.tx w.now) w.db () db' → G db') :
    Takes opts op history ⟨.write x, .ok ()⟩ Q G := by
  intro c' choice w' hseen hsuf hfenced hseat hQ
  obtain ⟨rfl, hanswer⟩ : c' = .write x ∧ _ := by
    injection hseen with h₁ h₂
    exact ⟨h₁, h₂⟩
  have hans : (exec opts (.write x) choice w').1 = .ok () := eq_of_heq hanswer
  exact h w' _ _ _ hsuf rfl hfenced hseat hQ (write_runs hans)

/-- A call that its owner makes on the way through a step. -/
def Own (op : OperationContext) (c : Call) : Prop :=
  c.OfStep op ∨ ∃ t event, c = .write (.advance t event)

/-- A step is run on the operation as it was loaded, up to its phase. -/
theorem Entered.eq (h : Entered op es₀ op') : ∃ phase, op' = { op with phase := phase } := by
  cases h with
  | claimed => exact ⟨_, rfl⟩
  | running => exact ⟨op.phase, rfl⟩

theorem Entered.ofStep (h : Entered op es₀ op') : Call.OfStep op' = Call.OfStep op := by
  cases h with
  | claimed | running => rfl

theorem Entered.own (h : Entered op es₀ op') : ∀ x ∈ es₀, Own op x.1 := by
  cases h with
  | claimed =>
    intro x hx
    obtain rfl := List.mem_singleton.mp hx
    exact .inr ⟨_, _, rfl⟩
  | running => exact fun x hx => nomatch hx

/-- Before a worker gives its step up, it has not given it up. -/
theorem Acts.own (h : Acts r op es c) : ∀ x ∈ es, Own op x.1 := by
  have through : ∀ {op' : OperationContext} {es₀ es' : List Exchange},
      Entered op es₀ op' → (∀ x ∈ es', x.1.OfStep op') → ∀ x ∈ es₀ ++ es', Own op x.1 := by
    intro op' es₀ es' hentered hes' x hx
    rcases List.mem_append.mp hx with hx | hx
    · exact hentered.own x hx
    · exact .inl (hentered.ofStep ▸ hes' x hx)
  cases h with
  | claim => exact fun x hx => nomatch hx
  | unclaimed =>
    intro x hx
    obtain rfl := List.mem_singleton.mp hx
    exact .inr ⟨_, _, rfl⟩
  | step entered asks => exact through entered (only_runStep.asked asks)
  | failed entered ran | finish entered ran => exact through entered (only_runStep.played ran)
  | unfinished entered ran cause =>
    intro x hx
    rw [← List.append_assoc] at hx
    rcases List.mem_append.mp hx with hx | hx
    · exact through entered (only_runStep.played ran) x hx
    · obtain rfl := List.mem_singleton.mp hx
      exact .inr ⟨_, _, rfl⟩

/-- Since its load began, a worker has made no other calls than these. -/
theorem Acting.own (ha : Acting r mine c item load es op o) (hx : x ∈ load ++ es) : Own op x.1 := by
  rcases List.mem_append.mp hx with hx | hx
  · obtain ⟨q, hq⟩ := ha.loads.reads x hx
    rw [hq]
    exact .inl trivial
  · exact ha.acts.own x hx

end

section
variable {opts : WorkOptions} {w : World} {tenant operation token : Uuid} {o : OperationRow}

/-- Under the fence of a token, the row of its operation changes with that token, or is
cancelled. -/
theorem others_leave_row (choice : c.Choice) (hpresents : c.presents ≠ some token)
    (hf : w.db.fenced tenant operation token w.now = true)
    (ho : w.db.operations.lookup (tenant, operation) = some o) :
    ∃ o', (exec opts c choice w).2.db.operations.lookup (tenant, operation) = some o' ∧
      (o' = o ∨ (o' = Sql.cancelled w.now o ∧ o.phase.active = true ∧
        DeleteAccepted w.db (exec opts c choice w).2.db tenant o.serviceID)) := by
  -- Two workers that pass the same fence hold the same lease.
  have same : ∀ token', w.db.fenced tenant operation token' w.now = true → token' = token := by
    intro token' hf'
    obtain ⟨o₁, ho₁, _, hheld⟩ := Db.fenced_iff.mp hf
    obtain ⟨o₂, ho₂, _, hheld'⟩ := Db.fenced_iff.mp hf'
    rw [ho₁] at ho₂
    obtain rfl := Option.some.inj ho₂
    exact Db.leaseHeld_unique hheld' hheld
  obtain ⟨o', ho', hchange⟩ := (exec_effect opts c choice w).operation ho
  refine ⟨o', ho', ?_⟩
  cases hchange with
  | none => exact .inl rfl
  | cancelled _ accepted active => exact .inr ⟨rfl, active, accepted⟩
  | @advanced t event key checked matched | @retried t after event key matched =>
    obtain ⟨_, _, _, hfenced⟩ := Store.stepMatches_iff.mp matched
    obtain ⟨rfl, rfl⟩ := Prod.mk.injEq .. ▸ key
    exact absurd (congrArg some (same _ hfenced)) hpresents

/-- A cancelled operation is fenced off. -/
theorem others_keep_row (choice : c.Choice) (hpresents : c.presents ≠ some token)
    (hf : w.db.fenced tenant operation token w.now = true)
    (hafter : ∃ t, (exec opts c choice w).2.db.fenced tenant operation token t = true)
    (ho : w.db.operations.lookup (tenant, operation) = some o) :
    (exec opts c choice w).2.db.operations.lookup (tenant, operation) = some o := by
  obtain ⟨o', ho', rfl | ⟨rfl, _, id, s, _, hnew, _, _, _, hs, _, hid⟩⟩ :=
    @others_leave_row opts w tenant operation token o c choice hpresents hf ho
  · exact ho'
  · obtain ⟨t, hft⟩ := hafter
    obtain ⟨o₁, ho₁, ⟨s₁, hs₁, hcur, _⟩, _⟩ := Db.fenced_iff.mp hft
    rw [ho'] at ho₁
    obtain rfl := Option.some.inj ho₁
    change _ = some s at hs
    rw [show (Sql.cancelled w.now o).serviceID = o.serviceID from rfl, hs] at hs₁
    obtain rfl := Option.some.inj hs₁
    rw [hid] at hcur
    obtain rfl := Option.some.inj hcur
    rw [ho] at hnew
    cases hnew

end

section
variable {opts : WorkOptions} {r : Runner} {c : Call} {w : World} {mine : List Entry}
variable {item : Item} {op : OperationContext} {o : OperationRow} {load es : List Exchange}

/-- The row of an operation is where the worker has found it. -/
def RowAt (op : OperationContext) (db : Db) : Prop :=
  ∃ o, db.operations.lookup (op.tenantID, op.id) = some o ∧ o.step = op.step ∧
    o.aim = (op.serviceID, op.kind, op.targetGeneration)

theorem RowAt.others : OthersKeep opts r op history (RowAt op) := by
  intro c' choice w' mine' _ hpresents _ hf _ hafter ⟨o', ho', hrow⟩
  exact ⟨o', others_keep_row choice hpresents hf hafter ho', hrow⟩

/-- Neither a step nor its claim moves the row to another step. -/
theorem RowAt.own (choice : c'.Choice) (hown : c'.OfStep op ∨ c' = claimCall op)
    (h : RowAt op w'.db) : RowAt op (exec opts c' choice w').2.db := by
  obtain ⟨o', ho', hstep, haim⟩ := h
  obtain ⟨o'', ho'', hchange⟩ := (exec_effect opts c' choice w').operation ho'
  refine ⟨o'', ho'', ?_, hchange.aim.trans haim⟩
  cases hchange with
  | none | cancelled | retried => exact hstep
  | advanced =>
    rcases hown with hown | hown
    · exact absurd hown id
    · injection hown with hown
      injection hown with ht
      subst ht
      rfl

/-- A call a worker makes while it runs its step comes after the calls of its claim and its step
only. -/
theorem Acts.running (h : Acts r op es c) (hc : c.OfStep op) :
    ∀ x ∈ es, x.1.OfStep op ∨ x.1 = claimCall op := by
  cases h with
  | claim => exact fun x hx => nomatch hx
  | unclaimed | failed | unfinished | finish => exact absurd hc id
  | step entered asks =>
    intro x hx
    rcases List.mem_append.mp hx with hx | hx
    · cases entered with
      | claimed =>
        obtain rfl := List.mem_singleton.mp hx
        exact .inr rfl
      | running => cases hx
    · have hstep := only_runStep.asked asks x hx
      rw [entered.ofStep] at hstep
      exact .inl hstep

/-- While a worker runs its step, the row of its operation stays at that step. -/
theorem Acting.rowAt (ha : Acting r mine c item load es op o) (h : Made opts r c w mine)
    (hall : Explained opts r w.history)
    (hf : w.db.fenced op.tenantID op.id op.leaseToken w.now = true) (hc : c.OfStep op) :
    RowAt op w.db := by
  obtain ⟨rest, hfirst⟩ := ha.loads.first
  have hx : load ++ es = [] ++
      ⟨.read (.leasedOperation item.tenantID item.leaseToken), .ok (some (op.id, o))⟩ ::
        (rest ++ es) := by
    rw [hfirst]
    rfl
  refine ha.since h hall hf hx (takes_read fun w' _ _ hrun => ?_)
    (fun c' choice w' hseen _ _ _ hrow => ?_) RowAt.others
  · refine ⟨o, ?_, ha.loads.step.symm, ?_⟩
    · rw [ha.loads.tenantID]
      exact (runs_leasedOperation hrun).1
    · rw [ha.loads.serviceID, ha.loads.kind, ha.loads.targetGeneration]
      rfl
  · refine RowAt.own choice ?_ hrow
    rcases List.mem_append.mp hseen with hseen | hseen
    · obtain ⟨q, hq⟩ := ha.loads.reads _ (by rw [hfirst]; exact List.mem_cons_of_mem _ hseen)
      change c' = .read q at hq
      rw [hq]
      exact .inl trivial
    · exact ha.acts.running hc _ hseen

end
end Runner
end AniInference
