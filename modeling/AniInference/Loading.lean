import AniInference.Rules

namespace AniInference
open Lib Txn

/-- An operation of a service, and a token that is out. -/
structure Seat (tenant service operation token : Uuid) (w : World) : Prop where
  row : ∃ o, w.db.operations.lookup (tenant, operation) = some o ∧ o.serviceID = service
  issued : token < w.nextToken

/-- `generation` is what the withdrawal up to `target` has to be about, as long as the fence
holds. -/
structure Selected (tenant service operation token : Uuid) (target generation : Generation)
    (w : World) : Prop where
  seat : Seat tenant service operation token w
  le : generation ≤ target
  highest : w.db.fenced tenant operation token w.now = true →
    ∀ g, (w.db.publications.lookup (tenant, service, g)).isSome = true → g ≤ target →
      g ≤ generation

/-- `scope` is what is stored, as long as the fence holds and the others kept theirs. -/
structure ScopeAt (tenant service operation token key : Uuid) (scope : Option ReleaseScope)
    (w : World) : Prop where
  seat : Seat tenant service operation token w
  stored : ScopesFenced w.history → w.db.fenced tenant operation token w.now = true →
    w.db.releaseScopes.lookup (tenant, service, key) = scope

section
variable {opts : WorkOptions} {w : World} {tenant service operation token : Uuid}

theorem Seat.call (h : Seat tenant service operation token w) (c : Call) (choice : c.Choice) :
    Seat tenant service operation token (exec opts c choice w).2 where
  row := by
    obtain ⟨o, ho, hsv⟩ := h.row
    obtain ⟨o', ho', haim⟩ := (exec_effect opts c choice w).aim ho
    exact ⟨o', ho', (congrArg Prod.fst haim).trans hsv⟩
  issued := Nat.lt_succ_of_lt h.issued

theorem Seat.fenced_back (h : Seat tenant service operation token w) (c : Call) (choice : c.Choice)
    (hf : (exec opts c choice w).2.db.fenced tenant operation token
      (exec opts c choice w).2.now = true) :
    w.db.fenced tenant operation token w.now = true := by
  obtain ⟨o, ho, _⟩ := h.row
  exact AniInference.fenced_back c choice ho h.issued hf

/-- Who passes the fence holds the lease of a service that is there. -/
theorem Seat.leaseHeld (h : Seat tenant service operation token w)
    (hf : w.db.fenced tenant operation token w.now = true) :
    w.db.leaseHeld tenant service token w.now = true ∧
      ∃ s, w.db.services.lookup (tenant, service) = some s := by
  obtain ⟨o, ho, hsv⟩ := h.row
  obtain ⟨o', ho', hcur, hlease⟩ := Db.fenced_iff.mp hf
  rw [ho] at ho'
  obtain rfl := Option.some.inj ho'
  obtain ⟨s, hs, _⟩ := hcur
  subst hsv
  exact ⟨hlease, s, hs⟩

theorem Db.leaseHeld_unique {db : Db} (h : db.leaseHeld tenant service token now = true)
    (h' : db.leaseHeld tenant service token' now = true) : token = token' := by
  obtain ⟨_, hl, _⟩ := Db.leaseHeld_iff.mp h
  obtain ⟨_, hl', _⟩ := Db.leaseHeld_iff.mp h'
  rw [hl] at hl'
  injection hl' with hl'
  injection hl'

theorem ScopesFenced.tail (h : ScopesFenced (e :: history)) : ScopesFenced history :=
  fun e' he' => h e' (List.mem_cons_of_mem _ he')

/-- A call that brings no publication above the one that is selected. -/
theorem Selected.call (h : Selected tenant service operation token target generation w) (c : Call)
    (choice : c.Choice) (hpub : w.db.fenced tenant operation token w.now = true → ∀ g,
      (w.db.publications.lookup (tenant, service, g)).isSome = true ∨ g = generation ∨
        (exec opts c choice w).2.db.publications.lookup (tenant, service, g) = none) :
    Selected tenant service operation token target generation (exec opts c choice w).2 where
  seat := h.seat.call c choice
  le := h.le
  highest hf g hg hle := by
    have hf' := h.seat.fenced_back c choice hf
    rcases hpub hf' g with hold | rfl | hnone
    · exact h.highest hf' g hold hle
    · exact le_refl _
    · rw [hnone] at hg
      cases hg

theorem ScopeAt.call (h : ScopeAt tenant service operation token key scope w) (c : Call)
    (choice : c.Choice) (hscope : ScopesFenced (c.entry opts choice w :: w.history) →
      w.db.fenced tenant operation token w.now = true →
      (exec opts c choice w).2.db.releaseScopes.lookup (tenant, service, key) =
        w.db.releaseScopes.lookup (tenant, service, key)) :
    ScopeAt tenant service operation token key scope (exec opts c choice w).2 where
  seat := h.seat.call c choice
  stored hall hf := by
    have hf' := h.seat.fenced_back c choice hf
    rw [exec_history] at hall
    rw [hscope hall hf']
    exact h.stored hall.tail hf'

/-- A write that is to no scope leaves the scopes. -/
theorem ScopeAt.write (fault : Fault) (hx : ∀ op scope, x ≠ .releaseScope op scope)
    (h : ScopeAt tenant service operation token key scope w) :
    ScopeAt tenant service operation token key scope (exec opts (.write x) fault w).2 := by
  refine h.call (.write x) fault fun _ _ => ?_
  cases (exec_effect opts (.write x) fault w).scope (tenant, service, key) with
  | none _ same => exact same
  | @saved op scope _ _ => exact absurd rfl (hx op scope)

theorem Selected.write (fault : Fault) (hx : ∀ p, x ≠ .publication p)
    (h : Selected tenant service operation token target generation w) :
    Selected tenant service operation token target generation (exec opts (.write x) fault w).2 := by
  refine h.call (.write x) fault fun _ g => ?_
  cases (exec_effect opts (.write x) fault w).publications (tenant, service, g) with
  | none _ same =>
    cases hg : w.db.publications.lookup (tenant, service, g) with
    | some row => exact .inl rfl
    | none => exact .inr (.inr (same.trans hg))
  | @saved p _ _ _ => exact absurd rfl (hx p)

/-- Saving the publication that is selected selects no other. -/
theorem Selected.publication (fault : Fault) (hp : p.generation = generation)
    (h : Selected tenant service operation token target generation w) :
    Selected tenant service operation token target generation
      (exec opts (.write (.publication p)) fault w).2 := by
  refine h.call (.write (.publication p)) fault fun _ g => ?_
  cases (exec_effect opts (.write (.publication p)) fault w).publications (tenant, service, g) with
  | none _ same =>
    cases hg : w.db.publications.lookup (tenant, service, g) with
    | some row => exact .inl rfl
    | none => exact .inr (.inr (same.trans hg))
  | saved key _ _ =>
    obtain ⟨_, _, rfl⟩ : tenant = p.tenantID ∧ service = p.serviceID ∧ g = p.generation := by
      simpa using key
    exact .inr (.inl hp)

variable {r : Runner}

/-- No other worker publishes for a service while the fence holds. -/
theorem lasting_selected :
    Lasting opts r token (Selected tenant service operation token target generation) := by
  intro c choice w hI hp ht h
  refine h.call c choice fun hf g => ?_
  cases (exec_effect opts c choice w).publications (tenant, service, g) with
  | none _ same =>
    cases hg : w.db.publications.lookup (tenant, service, g) with
    | some p => exact .inl rfl
    | none => exact .inr (.inr (same.trans hg))
  | @saved p key fenced written =>
    obtain ⟨op, hknown, htenant, hservice, htoken, hfence⟩ :
      Write.Proper opts r (.publication p) w :=
      hp
    obtain ⟨rfl, rfl, rfl⟩ : tenant = p.tenantID ∧ service = p.serviceID ∧ g = p.generation := by
      simpa using key
    obtain ⟨row, hrow, haim⟩ := hknown.row
    obtain ⟨o, ho, _, _, hlease⟩ := Db.operationFenced_iff.mp fenced
    rw [hfence, Option.getD_some, htenant, hrow] at ho
    obtain rfl := Option.some.inj ho
    have hsv : row.serviceID = p.serviceID := (congrArg Prod.fst haim).trans hservice.symm
    rw [hsv] at hlease
    have hsame := Db.leaseHeld_unique (h.seat.leaseHeld hf).1 hlease
    exact absurd (congrArg some hsame.symm) ht

theorem OperationContext.Known.seat {op : OperationContext} (h : op.Known opts w) :
    Seat op.tenantID op.serviceID op.id op.leaseToken w := by
  obtain ⟨o, ho, haim⟩ := h.row
  exact ⟨⟨o, ho, congrArg Prod.fst haim⟩, h.issued⟩

/-- No other worker that keeps its fence writes to the scope while this fence holds. -/
theorem lasting_scopeAt :
    Lasting opts r token (ScopeAt tenant service operation token key scope) := by
  intro c choice w hI hp ht h
  refine h.call c choice fun hall hf => ?_
  obtain ⟨hlease, s, hs⟩ := h.seat.leaseHeld hf
  cases (exec_effect opts c choice w).scope (tenant, service, key) with
  | none _ same => exact same
  | @saved op scope' hkey written =>
    obtain ⟨hknown, _⟩ : op.Known opts w ∧ op.Merges scope' w := hp
    obtain ⟨rfl, rfl, _⟩ : tenant = op.tenantID ∧ service = op.serviceID ∧
        key = op.scopeOperation := by simpa using hkey
    have hfenced := hall _ List.mem_cons_self op scope' rfl
    have hsame := Db.leaseHeld_unique hlease (hknown.seat.leaseHeld hfenced).1
    exact absurd (congrArg some hsame.symm) ht
  | closed absent =>
    rw [hs] at absent
    cases absent

end

/-- What a worker has from its claim. -/
structure Turn (opts : WorkOptions) (item : Item) (w : World) : Prop where
  issued : item.leaseToken < w.nextToken
  holds : ∃ aim, Holds opts item.tenantID item.serviceID item.leaseToken aim w

/-- What a worker has from reading the row of its operation. -/
structure Started (opts : WorkOptions) (item : Item) (id : Uuid) (o : OperationRow) (w : World) :
    Prop where
  turn : Turn opts item w
  row : ∃ o', w.db.operations.lookup (item.tenantID, id) = some o' ∧ o'.aim = o.aim
  loaded : ∃ e past, e.seen = ⟨.read (.leasedOperation item.tenantID item.leaseToken),
    .ok (some (id, o))⟩ ∧ e :: past <:+ w.history
  holds : o.serviceID = item.serviceID → ∃ desired, Holds opts item.tenantID o.serviceID
    item.leaseToken (desired, o.targetGeneration, some id) w
  step : o.phase.active = true → o.step ∈ (Operation.paths o.kind).dropLast
  withdrew : Step.withdrawPublication ∈ Operation.before o.kind o.step →
    Withdrew (item.tenantID, id) o.serviceID o.targetGeneration w.history
  absent : Step.observeAbsence ∈ Operation.before o.kind o.step →
    Absent (item.tenantID, id) w.history

section
variable {opts : WorkOptions} {r : Runner} {item : Item} {w : World}

theorem Turn.call (h : Turn opts item w) (c : Call) (choice : c.Choice)
    (hs : c.settles ≠ some item.leaseToken) : Turn opts item (exec opts c choice w).2 where
  issued := Nat.lt_succ_of_lt h.issued
  holds := by
    obtain ⟨aim, hh⟩ := h.holds
    exact ⟨aim, hh.call h.issued c choice hs⟩

theorem Started.call {id : Uuid} {o : OperationRow} (h : Started opts item id o w) (c : Call)
    (choice : c.Choice) (hs : c.settles ≠ some item.leaseToken) :
    Started opts item id o (exec opts c choice w).2 where
  turn := h.turn.call c choice hs
  row := by
    obtain ⟨o₁, ho₁, haim₁⟩ := h.row
    obtain ⟨o₂, ho₂, haim₂⟩ := (exec_effect opts c choice w).aim ho₁
    exact ⟨o₂, ho₂, haim₂.trans haim₁⟩
  loaded := by
    obtain ⟨e, past, hseen, hsuf⟩ := h.loaded
    exact ⟨e, past, hseen, hsuf.trans (List.suffix_cons _ _)⟩
  holds hsv := by
    obtain ⟨desired, hh⟩ := h.holds hsv
    exact ⟨desired, hh.call h.turn.issued c choice hs⟩
  step := h.step
  withdrew hb := (h.withdrew hb).cons
  absent hb := (h.absent hb).cons

theorem Started.seat {id : Uuid} {o : OperationRow} (h : Started opts item id o w) :
    Seat item.tenantID o.serviceID id item.leaseToken w := by
  obtain ⟨o', ho', haim⟩ := h.row
  exact ⟨⟨o', ho', congrArg Prod.fst haim⟩, h.turn.issued⟩

theorem lasting_turn : Lasting opts r item.leaseToken (Turn opts item) :=
  fun c choice _ _ _ ht h => h.call c choice (Call.settles_ne ht)

theorem lasting_started {id : Uuid} {o : OperationRow} :
    Lasting opts r item.leaseToken (Started opts item id o) :=
  fun c choice _ _ _ ht h => h.call c choice (Call.settles_ne ht)

/-- The operation a worker finds under its lease passes the fence. -/
theorem fenced_of_read {tenant token id : Uuid} {fault : Fault} {o : OperationRow}
    (h : (exec opts (.read (.leasedOperation tenant token)) fault w).1 = .ok (some (id, o))) :
    w.db.operations.lookup (tenant, id) = some o ∧ w.db.fenced tenant id token w.now = true := by
  have hrun := read_runs h
  simp only [Read.tx, Sql.getLeasedOperation, runs_get_bind, runs_pure] at hrun
  obtain ⟨⟨k, row⟩, hhead, hrow⟩ := Option.map_eq_some_iff.mp hrun.1.symm
  obtain ⟨rfl, rfl⟩ : k.2 = id ∧ row = o := by simpa using hrow
  have hmem := Table.mem_select.mp (List.mem_of_mem_head? hhead)
  simp only [Bool.and_eq_true, decide_eq_true_eq] at hmem
  obtain ⟨hlookup, hk, hf⟩ := hmem
  rw [← hk]
  exact ⟨hlookup, hk ▸ hf⟩

/-- The operation a worker finds under its lease is current, and where its row says. -/
theorem started_of_read {fault : Fault} {id : Uuid} {o : OperationRow} (hw : w.Kept)
    (ht : Turn opts item w)
    (h : (exec opts (.read (.leasedOperation item.tenantID item.leaseToken)) fault w).1 =
      .ok (some (id, o))) :
    Started opts item id o
      (exec opts (.read (.leasedOperation item.tenantID item.leaseToken)) fault w).2 := by
  have hsettles : (Call.read (.leasedOperation item.tenantID item.leaseToken)).settles ≠
      some item.leaseToken := fun hs => nomatch hs
  obtain ⟨hlookup, hf⟩ := fenced_of_read h
  have hfollowed := hw.followed.rows _ o hlookup
  obtain ⟨o', ho', ⟨s, hs, hcur, hgen⟩, _⟩ := Db.fenced_iff.mp hf
  rw [hlookup] at ho'
  obtain rfl := Option.some.inj ho'
  refine
    { turn := ht.call _ fault hsettles
      row := (exec_effect opts (.read _) fault w).aim hlookup
      loaded := ⟨_, w.history, entry_seen h, List.suffix_refl _⟩
      holds := fun hsv => ?_
      step := fun hact => ?_
      withdrew := fun hb => (hfollowed.withdrew hb).cons
      absent := fun hb => (hfollowed.absent hb).cons }
  · obtain ⟨aim, hh⟩ := ht.holds
    rw [← hsv] at hh
    have hread := (hh.reread hs).call ht.issued _ fault hsettles
    refine ⟨s.desiredState, ?_⟩
    rw [← hgen, ← hcur]
    exact hread
  · exact Operation.mem_dropLast hfollowed.path (hfollowed.active hact)

/-- What a worker takes from the managed resource of its service. -/
structure Runner.ManagedFacts.Read (facts : Runner.ManagedFacts) (item : Item) (id : Uuid)
    (o : OperationRow) (w : World) : Prop where
  scope : facts.managedGPU = true → ∃ key scope, facts.createOperationID = some key ∧
    ScopeAt item.tenantID o.serviceID id item.leaseToken key scope w ∧
    facts.sealedAt = scope.bind (·.sealedAt)
  sealing : ∀ t, facts.sealedAt = some t → Sealed item.tenantID o.serviceID t w.history

/-- The resource is the one `create` made. -/
def MadeBy (tenant service create : Uuid) (w : World) : Prop :=
  ∃ m, w.db.managedResources.lookup (tenant, service) = some m ∧ m.createOperationID = create

theorem lasting_madeBy : Lasting opts r token (MadeBy tenant service create) := by
  intro c choice w _ _ _ h
  obtain ⟨m, hm, hid⟩ := h
  obtain ⟨m', hm', hkeeps⟩ := (exec_effect opts c choice w).managed.kept _ m hm
  exact ⟨m', hm', hkeeps.createOperationID.trans hid⟩

theorem lasting_read {facts : Runner.ManagedFacts} {id : Uuid} {o : OperationRow} :
    Lasting opts r item.leaseToken fun w => facts.Read item id o w := by
  intro c choice w hI hp ht h
  refine ⟨fun hgpu => ?_, fun t hs => (h.sealing t hs).cons⟩
  obtain ⟨key, scope, hkey, hat, hsealed⟩ := h.scope hgpu
  exact ⟨key, scope, hkey, lasting_scopeAt c choice w hI hp ht hat, hsealed⟩

/-- What is read of the scope is what is stored, and its seal is the create's. -/
theorem obeys_loadScope {id create : Uuid} {o : OperationRow} :
    Obeys opts r item.leaseToken
      (fun w => Started opts item id o w ∧ MadeBy item.tenantID o.serviceID create w)
      (Runner.loadScope item.tenantID o.serviceID create)
      (fun facts w => Started opts item id o w ∧ ∃ scope,
        ScopeAt item.tenantID o.serviceID id item.leaseToken create scope w ∧
        facts.2 = scope.bind (·.sealedAt) ∧
        ∀ t, facts.2 = some t → Sealed item.tenantID o.serviceID t w.history)
      (fun _ => Turn opts item) := by
  have hlast : ∀ scope : Option ReleaseScope, Lasting opts r item.leaseToken fun w =>
      Started opts item id o w ∧
        ScopeAt item.tenantID o.serviceID id item.leaseToken create scope w ∧
        ∀ t, scope.bind (·.sealedAt) = some t → Sealed item.tenantID o.serviceID t w.history := by
    intro scope
    refine lasting_started.and (lasting_scopeAt.and fun c choice w _ _ _ h t ht => (h t ht).cons)
  unfold Runner.loadScope
  refine triple_bind (G := fun scope w => Started opts item id o w ∧
    ScopeAt item.tenantID o.serviceID id item.leaseToken create scope w ∧
    ∀ t, scope.bind (·.sealedAt) = some t → Sealed item.tenantID o.serviceID t w.history)
    (obeys_read (lasting_started.and lasting_madeBy) hlast (fun _ => lasting_turn)
      (fun fault w scope hw hF hread => ?_) (fun _ _ hF => hF.1.turn)) fun scope => ?_
  · obtain ⟨hstarted, m, hm, hcreate⟩ := hF
    have hrun := read_runs hread
    simp only [Read.tx, Sql.getReleaseScope, runs_get_bind, runs_pure] at hrun
    refine ⟨hstarted.call _ fault (Option.some_ne_none _).symm, ⟨hstarted.seat.call _ fault,
      fun _ _ => ?_⟩, fun t ht => ?_⟩
    · rw [read_db]
      exact hrun.1.symm
    · obtain ⟨stored, hstored, hsealed⟩ := Option.bind_eq_some_iff.mp ht
      rw [hstored] at hrun
      rcases hw.dated.seals _ _ _ stored hrun.1.symm t hsealed with hs | ⟨m', hm', hne⟩
      · exact hs.cons
      · rw [hm] at hm'
        obtain rfl := Option.some.inj hm'
        exact absurd hcreate hne
  · cases scope with
    | none =>
      refine triple_pure (hlast none) fun w _ h => ⟨h.1, none, h.2.1, rfl, fun t ht => ?_⟩
      cases ht
    | some scope =>
      refine triple_bind (G := fun _ w => Started opts item id o w ∧
        ScopeAt item.tenantID o.serviceID id item.leaseToken create (some scope) w ∧
        ∀ t, scope.sealedAt = some t → Sealed item.tenantID o.serviceID t w.history)
        ((keeps_checked (hlast (some scope))).weaken (fun _ h => h) (fun _ _ h => h)
          (fun _ _ h => h.1.turn)) fun _ => ?_
      exact triple_pure (hlast (some scope)) fun w _ h => ⟨h.1, some scope, h.2.1, rfl, h.2.2⟩

theorem obeys_loadManaged {id : Uuid} {o : OperationRow} :
    Obeys opts r item.leaseToken (Started opts item id o)
      (Runner.loadManaged item.tenantID o.serviceID)
      (fun facts w => Started opts item id o w ∧ facts.Read item id o w)
      (fun _ => Turn opts item) := by
  have hlast : ∀ m : Option ManagedResource, Lasting opts r item.leaseToken fun w =>
      Started opts item id o w ∧ ∀ resource, m = some resource →
        MadeBy item.tenantID o.serviceID resource.originalContext.originalCreateOperationID w := by
    intro m
    refine lasting_started.and fun c choice w hI hp ht h resource hm => ?_
    exact lasting_madeBy c choice w hI hp ht (h resource hm)
  unfold Runner.loadManaged
  refine triple_bind (G := fun m w => Started opts item id o w ∧ ∀ resource, m = some resource →
    MadeBy item.tenantID o.serviceID resource.originalContext.originalCreateOperationID w)
    (obeys_read lasting_started hlast (fun _ => lasting_turn) (fun fault w m hw hF hread => ?_)
      (fun _ _ hF => hF.turn)) fun m => ?_
  · refine ⟨hF.call _ fault (Option.some_ne_none _).symm, fun resource hm => ?_⟩
    have hrun := read_runs hread
    simp only [Read.tx, Sql.runs_getManagedResource, hm] at hrun
    refine ⟨resource, ?_, (hw.dated.named _ resource hrun.1.symm).symm⟩
    rw [read_db]
    exact hrun.1.symm
  · cases m with
    | none =>
      refine triple_pure (hlast none) fun w _ h => ⟨h.1, fun hgpu => ?_, fun _ ht => ?_⟩
      · cases hgpu
      · cases ht
    | some resource =>
      refine triple_bind (obeys_loadScope.weaken (fun w h => ⟨h.1, h.2 resource rfl⟩)
        (fun _ _ h => h) (fun _ _ h => h)) fun scope => ?_
      refine triple_pure (lasting_started.and (Steady.exists fun stored =>
        lasting_scopeAt.and (steady_const.and fun c choice w _ _ _ h t ht => (h t ht).cons)))
        fun w _ h => ?_
      obtain ⟨hstarted, stored, hat, hsealed, hdated⟩ := h
      exact ⟨hstarted, fun _ => ⟨_, stored, rfl, hat, hsealed⟩, hdated⟩

theorem mem_publicationsUpTo :
    (g, p) ∈ Sql.publicationsUpTo db tenant service target ↔
      db.publications.lookup (tenant, service, g) = some p ∧ g ≤ target := by
  simp only [Sql.publicationsUpTo, List.mem_map, Prod.exists, Table.mem_select, Bool.and_eq_true,
    decide_eq_true_eq, Prod.mk.injEq]
  constructor
  · rintro ⟨t, s, g', p', ⟨hlookup, ⟨rfl, rfl⟩, hle⟩, rfl, rfl⟩
    exact ⟨hlookup, hle⟩
  · rintro ⟨hlookup, hle⟩
    exact ⟨tenant, service, g, p, ⟨hlookup, ⟨rfl, rfl⟩, hle⟩, rfl, rfl⟩

/-- What the latest publication is found to be is what has to be withdrawn. -/
theorem latest_publication
    (h : row = (Sql.publicationsUpTo db tenant service target).argmax Prod.fst) :
    row.elim target Prod.fst ≤ target ∧
      ∀ g, (db.publications.lookup (tenant, service, g)).isSome = true → g ≤ target →
        g ≤ row.elim target Prod.fst := by
  cases row with
  | none => exact ⟨le_refl _, fun g _ hle => hle⟩
  | some row =>
    obtain ⟨generation, p⟩ := row
    have hmem := (mem_publicationsUpTo.mp (List.argmax_mem h.symm))
    refine ⟨hmem.2, fun g hg hle => ?_⟩
    obtain ⟨p', hp'⟩ := Option.isSome_iff_exists.mp hg
    exact List.le_of_mem_argmax (mem_publicationsUpTo.mpr ⟨hp', hle⟩) h.symm

/-- The publication a worker has loaded. -/
structure Publication.Read (p : Publication) (item : Item) (id : Uuid) (o : OperationRow)
    (w : World) : Prop where
  tenant : p.tenantID = item.tenantID
  service : p.serviceID = o.serviceID ∨ p.serviceID = item.serviceID
  selected : o.step = .withdrawPublication →
    Selected item.tenantID o.serviceID id item.leaseToken o.targetGeneration p.generation w

theorem lasting_publication {p : Publication} {id : Uuid} {o : OperationRow} :
    Lasting opts r item.leaseToken fun w => p.Read item id o w :=
  fun c choice w hI hp ht h =>
    ⟨h.tenant, h.service, fun hs => lasting_selected c choice w hI hp ht (h.selected hs)⟩

theorem obeys_publicationRow {id : Uuid} {o : OperationRow} {F : World → Prop}
    (hF : Lasting opts r item.leaseToken F) (hstarted : ∀ w, F w → Started opts item id o w) :
    Obeys opts r item.leaseToken F (Runner.publicationRow item o)
      (fun row w => F w ∧ (o.step = .withdrawPublication → Selected item.tenantID o.serviceID id
        item.leaseToken o.targetGeneration (row.elim o.targetGeneration Prod.fst) w))
      (fun _ => F) := by
  refine triple_ite (fun hpublish => ?_) fun _ => ?_
  · refine (keeps_read hF).weaken (fun _ h => h) (fun _ _ h => ⟨h, fun hs => ?_⟩) (fun _ _ h => h)
    rw [hpublish] at hs
    cases hs
  · refine obeys_read hF (fun row => hF.and fun c choice w hI hp ht h hs => ?_) (fun _ => hF)
      (fun fault w row hw hFw hread => ?_) (fun _ _ h => h)
    · exact lasting_selected c choice w hI hp ht (h hs)
    · have hw' : F (exec opts (.read _) fault w).2 :=
        hF _ fault w hw trivial (fun ht => nomatch ht) hFw
      refine ⟨hw', fun _ => ?_⟩
      have hrun := read_runs hread
      simp only [Read.tx, Sql.getLatestPublication, runs_get_bind, runs_pure] at hrun
      obtain ⟨hle, hmax⟩ := latest_publication hrun.1
      refine ⟨(hstarted _ hw').seat, hle, fun _ => ?_⟩
      rw [read_db]
      exact hmax

theorem obeys_loadPublication {id : Uuid} {o : OperationRow} {F : World → Prop}
    (hF : Lasting opts r item.leaseToken F) (hstarted : ∀ w, F w → Started opts item id o w) :
    Obeys opts r item.leaseToken F (Runner.loadPublication item id o)
      (fun p w => F w ∧ p.Read item id o w) (fun _ => F) := by
  refine triple_bind (obeys_publicationRow hF hstarted) fun row => ?_
  have hlast : Lasting opts r item.leaseToken fun w => F w ∧
      (o.step = .withdrawPublication → Selected item.tenantID o.serviceID id item.leaseToken
        o.targetGeneration (row.elim o.targetGeneration Prod.fst) w) :=
    hF.and fun c choice w hI hp ht h hs => lasting_selected c choice w hI hp ht (h hs)
  cases row with
  | none => exact triple_pure hlast fun w _ h => ⟨h.1, rfl, .inr rfl, h.2⟩
  | some row => exact triple_pure hlast fun w _ h => ⟨h.1, rfl, .inl rfl, h.2⟩

/-- What a worker has once its operation is loaded. -/
structure OperationContext.Ready (opts : WorkOptions) (op : OperationContext) (w : World) :
    Prop where
  known : op.Known opts w
  selected : op.step = .withdrawPublication → Selected op.tenantID op.serviceID op.id op.leaseToken
    op.targetGeneration op.publication.generation w
  scope : op.managedGPU = true → ∃ scope, ScopeAt op.tenantID op.serviceID op.id op.leaseToken
    op.scopeOperation scope w ∧ op.managedGPUReleaseSealedAt = scope.bind (·.sealedAt)

/-- An active operation of the service that was claimed is ready to be worked on. -/
structure OperationContext.LoadedBy (opts : WorkOptions) (item : Item) (op : OperationContext)
    (w : World) : Prop where
  turn : Turn opts item w
  token : op.leaseToken = item.leaseToken
  ready : op.phase.active = true → op.serviceID = item.serviceID → op.Ready opts w

/-- A worker that read no plan. -/
def Unplanned (item : Item) (o : OperationRow) (plan : Option Gpu.Snapshot) (w : World) : Prop :=
  plan = none → Agreed item.tenantID o.serviceID o.targetGeneration w

theorem lasting_unplanned {F : World → Prop} {id : Uuid} (hF : Lasting opts r item.leaseToken F)
    (hrow : ∀ w, F w → Started opts item id o w) :
    Lasting opts r item.leaseToken fun w => F w ∧ Unplanned item o plan w := by
  intro c choice w hw hp ht h
  obtain ⟨o', ho', haim⟩ := (hrow w h.1).row
  exact ⟨hF c choice w hw hp ht h.1, fun hnone => (h.2 hnone).call hw ⟨o', ho', haim⟩ c choice⟩

theorem obeys_loadSpec {F : World → Prop} {id : Uuid} (hF : Lasting opts r item.leaseToken F)
    (hrow : ∀ w, F w → Started opts item id o w) :
    Obeys opts r item.leaseToken F (Runner.loadSpec item.tenantID o.serviceID o)
      (fun spec w => F w ∧ Unplanned item o (spec.bind (·.gpuPlan)) w) (fun _ => F) := by
  refine triple_bind (G := fun (spec : Option Spec) w =>
      F w ∧ Unplanned item o (spec.bind (·.gpuPlan)) w)
    (obeys_read hF (fun spec => lasting_unplanned hF hrow) (fun _ => hF)
      (fun fault w spec hw h hread => ⟨hF _ fault w hw trivial (fun h => nomatch h) h, ?_⟩)
      fun _ _ h => h) fun spec => ?_
  · obtain ⟨rfl, hdb⟩ := Sql.runs_getSpec.mp (read_runs hread)
    intro hnone spec hspec plan hplan
    rw [read_db] at hspec
    rw [hspec, Option.bind_some, hplan] at hnone
    cases hnone
  cases spec with
  | some spec => exact triple_pure (lasting_unplanned hF hrow) fun _ _ h => h
  | none =>
    have hagreed : Lasting opts r item.leaseToken fun w => F w ∧ Unplanned item o none w :=
      lasting_unplanned hF hrow
    have hany : ∀ (spec : Option Spec) w, F w ∧ Unplanned item o none w →
        F w ∧ Unplanned item o (spec.bind (·.gpuPlan)) w := fun _ _ h => ⟨h.1, fun _ => h.2 rfl⟩
    refine triple_ite (fun _ => ?_) fun _ => triple_pure hagreed fun w _ h => hany none w h
    exact (keeps_read hagreed).weaken (fun _ h => h) hany (fun _ _ h => h.1)

section
variable {F : World → Prop} (hF : Lasting opts r item.leaseToken F)
include hF

theorem obeys_specFacts :
    Obeys opts r item.leaseToken F (Runner.specFacts spec)
      (fun facts w => F w ∧ facts.gpuSnapshot = spec.bind (·.gpuPlan)) (fun _ => F) := by
  cases spec with
  | none => exact triple_pure hF fun _ _ h => ⟨h, rfl⟩
  | some spec =>
    exact triple_bind (keeps_failIf hF) fun _ => triple_pure hF fun _ _ h => ⟨h, rfl⟩

theorem keeps_loadPrevious : Keeps opts r item.leaseToken F (Runner.loadPrevious item o) :=
  triple_ite (fun _ => keeps_read hF) fun _ => keeps_pure hF

theorem keeps_findSpec :
    Keeps opts r item.leaseToken F (Runner.findSpec tenant service generation) := by
  refine triple_bind (keeps_read hF) fun spec => ?_
  cases spec with
  | some spec => exact keeps_pure hF
  | none => exact keeps_read hF

theorem keeps_demandSpec :
    Keeps opts r item.leaseToken F (Runner.demandSpec tenant service generation) := by
  refine triple_bind (keeps_findSpec hF) fun found => ?_
  cases found with
  | some spec => exact keeps_pure hF
  | none => exact keeps_throw hF

theorem keeps_quotaDemand :
    Keeps opts r item.leaseToken F (Runner.quotaDemand tenant service generation) := by
  refine triple_bind (keeps_failIf hF) fun _ => ?_
  refine triple_bind (keeps_demandSpec hF) fun spec => ?_
  exact triple_bind (keeps_checked hF) fun _ => keeps_checked hF

/-- A reservation is loaded under the fence of the operation that loads it. -/
theorem obeys_loadReservation {id : Uuid} {row : Option (Uuid × ReservationRow)} :
    Obeys opts r item.leaseToken F (Runner.loadReservation item id row)
      (fun found w => F w ∧ ∀ reservation, found = some reservation →
        reservation.tenantID = item.tenantID ∧ reservation.leaseToken = item.leaseToken ∧
          reservation.fenceOperationID = some id)
      (fun _ => F) := by
  cases row with
  | none => exact triple_pure hF fun _ _ h => ⟨h, fun _ hr => nomatch hr⟩
  | some row =>
    refine triple_bind (keeps_checked hF) fun resources => ?_
    refine triple_bind (keeps_quotaDemand hF) fun demand => ?_
    refine triple_pure hF fun _ _ h => ⟨h, fun reservation hr => ?_⟩
    cases hr
    exact ⟨rfl, rfl, rfl⟩

end

/-- `CurrentOperation` tells the truth, as long as the worker passes the fence. -/
theorem obeys_currentOperation :
    Obeys opts r item.leaseToken (Turn opts item) (Runner.currentOperation item)
      (fun op => op.LoadedBy opts item) (fun _ => Turn opts item) := by
  unfold Runner.currentOperation
  refine triple_bind (G := fun found w =>
    found.elim (Turn opts item w) fun p => Started opts item p.1 p.2 w)
    (obeys_read lasting_turn (fun found => ?_) (fun _ => lasting_turn)
      (fun fault w found hw hF hread => ?_) (fun _ _ h => h)) fun found => ?_
  · cases found with
    | none => exact lasting_turn
    | some p => exact lasting_started
  · cases found with
    | none => exact hF.call _ fault (fun hs => nomatch hs)
    | some p => exact started_of_read hw hF hread
  cases found with
  | none => exact triple_throw lasting_turn fun _ _ h => h
  | some p =>
    obtain ⟨id, o⟩ := p
    refine triple_bind obeys_loadManaged fun managed => ?_
    have hread : Lasting opts r item.leaseToken fun w =>
        Started opts item id o w ∧ managed.Read item id o w := lasting_started.and lasting_read
    refine triple_bind ((obeys_loadSpec hread fun _ h => h.1).weaken (fun _ h => h)
      (fun _ _ h => h) (fun _ _ h => h.1.turn)) fun spec => ?_
    let F : World → Prop := fun w =>
      (Started opts item id o w ∧ managed.Read item id o w) ∧
        Unplanned item o (spec.bind (·.gpuPlan)) w
    have hF : Lasting opts r item.leaseToken F := lasting_unplanned hread fun _ h => h.1
    have hturn : ∀ w, F w → Turn opts item w := fun _ h => h.1.1.turn
    -- Every read that follows keeps what is known, and fails with the turn intact.
    have keeps : ∀ {β : Type} {x : M β}, Keeps opts r item.leaseToken F x →
        Obeys opts r item.leaseToken F x (fun _ => F) (fun _ => Turn opts item) :=
      fun hx => hx.weaken (fun _ h => h) (fun _ _ h => h) (fun _ => hturn)
    refine triple_bind ((obeys_specFacts hF).weaken (fun _ h => h) (fun _ _ h => h)
      (fun _ => hturn)) fun facts => triple_fact fun hfacts => ?_
    refine triple_bind (keeps (keeps_read hF)) fun caller => ?_
    refine triple_bind (keeps (keeps_read hF)) fun activeRow => ?_
    refine triple_bind ((obeys_loadReservation hF).weaken (fun _ h => h) (fun _ _ h => h)
      (fun _ => hturn)) fun active => triple_fact fun hactive => ?_
    refine triple_bind (keeps (keeps_loadPrevious hF)) fun previousRow => ?_
    refine triple_bind ((obeys_loadReservation hF).weaken (fun _ h => h) (fun _ _ h => h)
      (fun _ => hturn)) fun previous => triple_fact fun hprevious => ?_
    refine triple_bind ((obeys_loadPublication hF fun _ h => h.1.1).weaken (fun _ h => h)
      (fun _ _ h => h) (fun _ => hturn)) fun p => ?_
    refine triple_pure (hF.and lasting_publication) fun w _ h => ?_
    obtain ⟨⟨⟨hstarted, hmanaged⟩, hunplanned⟩, hp⟩ := h
    refine ⟨hstarted.turn, rfl, fun hact hsv => ⟨?_, hp.selected, fun hgpu => ?_⟩⟩
    · refine
        { row := hstarted.row, issued := hstarted.turn.issued, loaded := ?_
          holds := hstarted.holds hsv, step := hstarted.step hact, withdrew := hstarted.withdrew
          absent := hstarted.absent, sealing := hmanaged.sealing, reservations := ?_
          publication := ⟨hp.tenant, hp.service.elim (fun hs => hs) fun hs => hs.trans hsv.symm⟩
          plan := fun hnone => hunplanned (hfacts.symm.trans hnone) }
      · obtain ⟨e, past, hseen, hsuf⟩ := hstarted.loaded
        exact ⟨o, e, past, hseen, rfl, hsuf⟩
      · intro reservation hres
        rcases hres with hres | hres
        · exact hactive reservation hres
        · exact hprevious reservation hres
    · obtain ⟨key, scope, hkey, hat, hsealed⟩ := hmanaged.scope hgpu
      refine ⟨scope, ?_, hsealed⟩
      rw [OperationContext.scopeOperation]
      simp only [hkey, Option.getD_some]
      exact hat

end

end AniInference
