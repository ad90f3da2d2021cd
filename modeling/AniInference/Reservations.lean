import AniInference.QuotaCalls

namespace AniInference
open Lib Txn Prog

/-- The reservations of a service, by the operations they were made for. -/
def Db.quotas (db : Db) (tenant service id : Uuid) (row : ReservationRow) : Prop :=
  db.reservations.lookup (tenant, id) = some row ∧ row.serviceID = service

/-- The row a saved reservation leaves. -/
def ReservationRow.saved (row : ReservationRow) (x : Reservation) : ReservationRow :=
  { row with
    reservationID := x.reservationID.getD (.issued ""), requestedResources := x.requestedResources,
    state := x.state, lastErrorCode := x.lastErrorCode }

/-- What a call can do to a reservation. -/
inductive ReservationChange (now : Time) (db db' : Db) (k : Uuid × Uuid) : Call → Prop
  | kept (c : Call) (same : db'.reservations.lookup k = db.reservations.lookup k) :
      ReservationChange now db db' k c
  | placed {q : Request} {o : OperationRow} {resources : Resources.Spec}
      (unused : db.reservations.lookup k = none) (fresh : db.operations.lookup k = none)
      (operation : db'.operations.lookup k = some o) (reserves : o.kind.reserves = true)
      (written : db'.reservations.lookup k =
        some ⟨o.serviceID, o.targetGeneration, .placeholder k.2, resources, .pending, ""⟩) :
      ReservationChange now db db' k (.request q)
  | saved {x : Reservation} {row : ReservationRow} (key : k = (x.tenantID, x.operationID))
      (found : db.reservations.lookup k = some row) (generation : row.generation = x.generation)
      (fenced : db.operationFenced x.tenantID (x.fenceOperationID.getD x.operationID) x.generation
        x.leaseToken now = true)
      (written : db'.reservations.lookup k = some (row.saved x)) :
      ReservationChange now db db' k (.write (.quota x))

section
variable {now : Time} {token : Uuid} {db db' : Db} {c : Call}

theorem Reserved.change (h : Reserved reserve tenant service operation target db db')
    (hfresh : db.operations.lookup (tenant, operation) = none)
    (ho : db'.operations.lookup (tenant, operation) = some o) (hservice : o.serviceID = service)
    (htarget : o.targetGeneration = target) (hreserves : reserve → o.kind.reserves = true)
    (k : Uuid × Uuid) : ReservationChange now db db' k (.request q) := by
  cases h with
  | left unasked same => exact .kept _ (by rw [same])
  | placed asked spec unused own found row =>
    by_cases hk : k = (tenant, operation)
    · subst hk
      have hwritten : db'.reservations.lookup (tenant, operation) = some ⟨o.serviceID,
          o.targetGeneration, .placeholder operation, spec.content.resources, .pending, ""⟩ := by
        rw [row, AList.lookup_insert, hservice, htarget]
      exact .placed unused hfresh ho (hreserves asked) hwritten
    · refine .kept _ ?_
      rw [row, Table.lookup_insert_ite, if_neg hk]

theorem Effect.reservation (h : Effect now token db c db') (k : Uuid × Uuid) :
    ReservationChange now db db' k c := by
  have observed : ∀ {item : Item} {c : Call} {db' : Db}, Store.Observed now item db db' →
      ReservationChange now db db' k c := by
    intro item c db' ho
    obtain ⟨_, _, hrest⟩ := ho.rest
    exact .kept _ (by rw [hrest])
  have moved : ∀ {w : Work} {db' : Db}, Work.Moves now token db w db' →
      ReservationChange now db db' k (.work w) := by
    intro w db' hm
    cases hm <;> exact .kept _ rfl
  cases h with
  | same => exact .kept _ rfl
  | aside _ l | closed _ l | advanced l | retried l => exact .kept _ (by rw [l.reservations])
  | @accepted q tenant service operation hash s _ ha l =>
    have hrow := ha.operations (tenant, operation)
    rw [if_pos rfl] at hrow
    exact l.reservations.change ha.unused hrow rfl rfl (fun hreserve => hreserve.2) k
  | @created q tenant service operation hash _ hc l =>
    have hrow : db'.operations.lookup (tenant, operation) =
        some (Sql.newOperation service .create .admission 1 hash) := by
      rw [hc.operations, AList.lookup_insert]
    exact l.reservations.change hc.unused hrow rfl rfl (fun _ => rfl) k
  | claimed _ l | queued _ l | committed _ l | requeued _ l => exact moved l
  | runtimeObserved ho | observed ho => exact observed ho
  | planned hp =>
    obtain ⟨_, _, _, _, rfl⟩ := hp.specs
    exact .kept _ rfl
  | reported _ l =>
    obtain ⟨_, rfl⟩ := l
    exact .kept _ rfl
  | @quota x reservations fenced l =>
    obtain ⟨row, hrow, hgeneration, hdb⟩ := l.row
    have hreservations := congrArg Db.reservations hdb
    simp only at hreservations
    by_cases hk : k = (x.tenantID, x.operationID)
    · subst hk
      refine .saved rfl hrow hgeneration fenced ?_
      rw [hreservations, AList.lookup_insert]
      rfl
    · refine .kept _ ?_
      rw [hreservations, Table.lookup_insert_ite, if_neg hk]
  | publication | modelObserved | materializing | scopeSaved => exact .kept _ rfl

/-- Every reservation was made for an operation that brings a runtime up. -/
def Db.Quotas (db : Db) : Prop :=
  ∀ k row, db.reservations.lookup k = some row → ∃ o, db.operations.lookup k = some o ∧
    row.serviceID = o.serviceID ∧ row.generation = o.targetGeneration ∧ o.kind.reserves = true

theorem Db.Quotas.effect (hquotas : db.Quotas) (h : Effect now token db c db') : db'.Quotas := by
  have kept : ∀ k row, db.reservations.lookup k = some row → ∃ o, db'.operations.lookup k = some o ∧
      row.serviceID = o.serviceID ∧ row.generation = o.targetGeneration ∧
      o.kind.reserves = true := by
    intro k row hrow
    obtain ⟨o, ho, hservice, hgeneration, hreserves⟩ := hquotas k row hrow
    obtain ⟨o', ho', haim⟩ := h.aim ho
    simp only [OperationRow.aim, Prod.mk.injEq] at haim
    refine ⟨o', ho', ?_⟩
    rw [haim.1, haim.2.1, haim.2.2]
    exact ⟨hservice, hgeneration, hreserves⟩
  intro k row hrow
  cases h.reservation k with
  | kept _ same =>
    rw [same] at hrow
    exact kept k row hrow
  | placed unused fresh operation reserves written =>
    rw [written] at hrow
    obtain rfl := Option.some.inj hrow
    exact ⟨_, operation, rfl, rfl, reserves⟩
  | saved key found generation fenced written =>
    rw [written] at hrow
    obtain rfl := Option.some.inj hrow
    obtain ⟨o, ho, hservice, htarget, hreserves⟩ := kept k _ found
    exact ⟨o, ho, hservice, htarget, hreserves⟩

end

theorem Explained.quotas (hall : Explained opts r history) (h : Linked history db) : db.Quotas := by
  refine h.induction (P := fun _ db => db.Quotas) ?_ fun e past hsuf hquotas => ?_
  · intro k row hrow
    simp [Db.empty] at hrow
  · obtain ⟨c, choice, w, mine, _, rfl, rfl⟩ := hall e past hsuf
    exact Db.Quotas.effect hquotas (exec_effect opts c choice w)

/-- The newest of the rows that `p` selects. -/
def NewestOf (rows : Uuid → ReservationRow → Prop) (p : ReservationRow → Bool) :
    Option (Uuid × ReservationRow) → Prop
  | none => ∀ id row, rows id row → p row = false
  | some (id, row) => rows id row ∧ p row = true ∧
      ∀ id' row', rows id' row' → p row' = true → row'.generation ≤ row.generation

theorem runs_latestReservation (h : Runs (Sql.latestReservation tenant service p) db found db') :
    NewestOf (db.quotas tenant service) p found := by
  simp only [Sql.latestReservation, runs_get_bind, runs_pure] at h
  obtain ⟨hfound, _⟩ := h
  have mem : ∀ id row, db.quotas tenant service id row → p row = true →
      ((tenant, id), row) ∈ Table.select (fun k r => k.1 = tenant && r.serviceID = service && p r)
        db.reservations := by
    intro id row hrow hp
    rw [Table.mem_select]
    exact ⟨hrow.1, by simp [hrow.2, hp]⟩
  cases found with
  | none =>
    have hnone := List.argmax_eq_none.mp (Option.map_eq_none_iff.mp hfound.symm)
    intro id row hrow
    by_contra hp
    have hmem := mem id row hrow (by simpa using hp)
    rw [hnone] at hmem
    cases hmem
  | some found =>
    obtain ⟨id, row⟩ := found
    obtain ⟨⟨k, row'⟩, hmax, heq⟩ := Option.map_eq_some_iff.mp hfound.symm
    simp only [Prod.mk.injEq] at heq
    obtain ⟨rfl, rfl⟩ := heq
    have hmem := List.argmax_mem hmax
    rw [Table.mem_select] at hmem
    simp only [Bool.and_eq_true, decide_eq_true_eq] at hmem
    obtain ⟨hlookup, ⟨rfl, hservice⟩, hp⟩ := hmem
    refine ⟨⟨hlookup, hservice⟩, hp, fun id' row'' hrow'' hp' => ?_⟩
    exact List.le_of_mem_argmax (f := fun r : (Uuid × Uuid) × ReservationRow => r.2.generation)
      (mem id' row'' hrow'' hp') hmax

/-- What `GetActiveQuotaReservation` selects. -/
def ReservationRow.outstanding (target : Generation) (row : ReservationRow) : Bool :=
  row.generation ≤ target && row.state ≠ .released

/-- What `GetPreviousQuotaReservation` selects. -/
def ReservationRow.replaced (target : Generation) (row : ReservationRow) : Bool :=
  row.generation < target && row.state ≠ .released && row.state ≠ .pending

namespace Runner
open M
section
variable {opts : WorkOptions} {r : Runner} {c : Call} {w : World} {mine : List Entry}
variable {item : Item} {op : OperationContext} {o : OperationRow} {load es : List Exchange}

theorem Entered.noQuota (h : Entered op es₀ op') : ∀ x ∈ es₀, ∀ y, x.1 ≠ .write (.quota y) := by
  cases h with
  | claimed =>
    intro x hx y
    obtain rfl := List.mem_singleton.mp hx
    exact fun hc => nomatch hc
  | running => exact fun x hx => nomatch hx

/-- What a worker writes about reservations, and why. -/
inductive QuotaWrite (op : OperationContext) (es : List Exchange)
    (x : Reservation) : Prop
  | reserves {y : Reservation} (step : op.step = .reserveQuota) (loaded : op.reservation = some y)
      (own : y.Of op) (reserves : Reserves op y es (.write (.quota x)))
  | releases {y : Reservation} (step : op.step = .releaseQuota) (loaded : op.reservation = some y)
      (releases : Releases op y es (.write (.quota x)))
  | cancels {y : Reservation} (step : op.step = .releaseQuota) (loaded : op.reservation = some y)
      (delete : op.kind = .delete) (placeholder : localPlaceholder y = true) (first : es = [])
      (written : x = withReservation op y .released "")
  | replaces {y : Reservation} (step : op.step = .releasePreviousQuota)
      (loaded : op.previousReservation = some y) (releases : Releases op y es (.write (.quota x)))

theorem quotaWrite_of_asks (h : Asks (runStep r op).run es (.write (.quota x))) :
    QuotaWrite op es x := by
  have hstep : Call.OfStep op (.write (.quota x)) := only_runStep.asks h
  rcases hstep with ⟨hstep, _⟩ | ⟨hstep | hstep, _⟩
  · simp only [runStep, hstep] at h
    obtain ⟨y, hy, hown, hreserves⟩ := asks_runReserveQuota h
    exact .reserves hstep hy hown hreserves
  · simp only [runStep, hstep] at h
    obtain ⟨y, hy, hreleases | ⟨hdelete, hplaceholder, hes, hx⟩⟩ := asks_runReleaseQuota h
    · exact .releases hstep hy hreleases
    · exact .cancels hstep hy hdelete hplaceholder hes hx
  · simp only [runStep, hstep] at h
    obtain ⟨y, hy, hreleases⟩ := asks_runReleasePreviousQuota h
    exact .replaces hstep hy hreleases

/-- Only the step itself writes about reservations. -/
theorem Acts.quota (h : Acts r op es (.write (.quota x))) :
    ∃ op' es₀ es', Entered op es₀ op' ∧ es = es₀ ++ es' ∧
      Asks (runStep r op').run es' (.write (.quota x)) := by
  generalize hc : Call.write (.quota x) = c at h
  cases h with
  | step entered asks =>
    subst hc
    exact ⟨_, _, _, entered, rfl, asks⟩
  | _ => cases hc

/-- The loaded reservations are rows of the service. -/
theorem Acting.loadedRow (ha : Acting r mine c item load es op o) (h : Made opts r c w mine)
    (hall : Explained opts r w.history)
    (hy : op.reservation = some y ∨ op.previousReservation = some y) :
    y.tenantID = op.tenantID ∧ y.leaseToken = op.leaseToken ∧ y.fenceOperationID = some op.id ∧
      ∃ o', w.db.operations.lookup (op.tenantID, y.operationID) = some o' ∧
        o'.serviceID = op.serviceID ∧ o'.targetGeneration = y.generation := by
  -- Whichever the read was, it found a row of the service.
  have found : ∀ {q : Read} {row : Option (Uuid × ReservationRow)} {p : ReservationRow → Bool}
      {a : q.Result}, ⟨.read q, .ok a⟩ ∈ load →
      (∀ now db db', Runs (q.tx now) db a db' →
        NewestOf (db.quotas item.tenantID o.serviceID) p row) →
      LoadedFrom item op.id row (some y) →
      y.tenantID = op.tenantID ∧ y.leaseToken = op.leaseToken ∧ y.fenceOperationID = some op.id ∧
        ∃ o', w.db.operations.lookup (op.tenantID, y.operationID) = some o' ∧
          o'.serviceID = op.serviceID ∧ o'.targetGeneration = y.generation := by
    intro q row p a hmem hread hfrom
    cases row with
    | none => cases hfrom
    | some found =>
      obtain ⟨id, row⟩ := found
      obtain ⟨y', hy', hfrom⟩ := hfrom
      obtain rfl := Option.some.inj hy'
      obtain ⟨g, past, now, hsuf, _, hrun⟩ := ha.loadRead h hall hmem
      have hquotas := (hall.suffix ((List.suffix_cons _ _).trans hsuf)).quotas
        (h.linked.suffix hsuf)
      obtain ⟨⟨hrow, hservice⟩, _⟩ := hread _ _ _ hrun
      obtain ⟨o₁, ho₁, hservice₁, hgeneration₁, _⟩ := hquotas _ row hrow
      obtain ⟨o₂, ho₂, haim⟩ := h.kept.chronicle.rows _ past hsuf _ o₁ ho₁
      simp only [OperationRow.aim, Prod.mk.injEq] at haim
      refine ⟨hfrom.tenantID.trans ha.loads.tenantID.symm,
        hfrom.leaseToken.trans ha.loads.leaseToken.symm, hfrom.fenceOperationID, o₂, ?_, ?_, ?_⟩
      · rw [ha.loads.tenantID, hfrom.operationID]
        exact ho₂
      · rw [haim.1, ← hservice₁, hservice, ha.loads.serviceID]
      · rw [haim.2.2, ← hgeneration₁, hfrom.generation]
  rcases hy with hy | hy
  · obtain ⟨row, es₁, es₂, hload, _, hfrom⟩ := ha.loads.reservation
    rw [hy] at hfrom
    refine found (q := .activeReservation item.tenantID o.serviceID o.targetGeneration) (a := row)
      (p := ReservationRow.outstanding o.targetGeneration) ?_ ?_ hfrom
    · rw [hload]
      exact List.mem_append_right _ List.mem_cons_self
    · exact fun _ _ _ hrun => runs_latestReservation hrun
  · by_cases hkind : o.kind = .update ∨ o.kind = .restart
    · obtain ⟨row, es₁, es₂, hload, _, hfrom⟩ := ha.loads.previous hkind
      rw [hy] at hfrom
      refine found (q := .previousReservation item.tenantID o.serviceID
        o.targetGeneration) (a := row)
        (p := ReservationRow.replaced o.targetGeneration) ?_ ?_ hfrom
      · rw [hload]
        exact List.mem_append_right _ List.mem_cons_self
      · exact fun _ _ _ hrun => runs_latestReservation hrun
    · rw [ha.loads.unreplaced hkind] at hy
      cases hy

/-- What a worker writes about reservations is about a row of its service, under its own lease. -/
theorem Acting.quotaRow (ha : Acting r mine (.write (.quota x)) item load es op o)
    (h : Made opts r (.write (.quota x)) w mine) (hall : Explained opts r w.history) :
    x.tenantID = op.tenantID ∧ x.leaseToken = op.leaseToken ∧ x.fenceOperationID = some op.id ∧
      ∃ o', w.db.operations.lookup (op.tenantID, x.operationID) = some o' ∧
        o'.serviceID = op.serviceID := by
  obtain ⟨op', es₀, es', entered, _, asks⟩ := ha.acts.quota
  obtain ⟨phase, rfl⟩ := entered.eq
  have loaded : ∀ {y : Reservation} {state : QuotaState} {code : String},
      op.reservation = some y ∨ op.previousReservation = some y →
        x = withReservation op y state code →
      x.tenantID = op.tenantID ∧ x.leaseToken = op.leaseToken ∧ x.fenceOperationID = some op.id ∧
        ∃ o', w.db.operations.lookup (op.tenantID, x.operationID) = some o' ∧
          o'.serviceID = op.serviceID := by
    intro y state code hy hx
    obtain ⟨htenant, _, _, o', ho', hservice, _⟩ := ha.loadedRow h hall hy
    subst hx
    exact ⟨htenant, rfl, rfl, o', ho', hservice⟩
  have released : ∀ {y : Reservation}, op.reservation = some y ∨ op.previousReservation = some y →
      Releases { op with phase := phase } y es' (.write (.quota x)) →
      x.tenantID = op.tenantID ∧ x.leaseToken = op.leaseToken ∧ x.fenceOperationID = some op.id ∧
        ∃ o', w.db.operations.lookup (op.tenantID, x.operationID) = some o' ∧
          o'.serviceID = op.serviceID := by
    intro y hy hreleases
    cases hreleases with
    | saves | fails => exact loaded hy rfl
  have own : ∀ {z : Reservation} {state : QuotaState} {code : String},
      z.Of { op with phase := phase } →
      x = withReservation { op with phase := phase } z state code →
      x.tenantID = op.tenantID ∧ x.leaseToken = op.leaseToken ∧ x.fenceOperationID = some op.id ∧
        ∃ o', w.db.operations.lookup (op.tenantID, x.operationID) = some o' ∧
          o'.serviceID = op.serviceID := by
    intro z state code hz hx
    obtain ⟨o', ho', haim⟩ := ha.loaded h hall
    simp only [OperationRow.aim, Prod.mk.injEq] at haim
    subst hx
    refine ⟨hz.1, rfl, rfl, o', ?_, haim.1⟩
    change w.db.operations.lookup (op.tenantID, z.operationID) = some o'
    rw [hz.2.2.1]
    exact ho'
  cases quotaWrite_of_asks asks with
  | reserves step hloaded hown hreserves =>
    cases hreserves with
    | saves z hz | fails z hz => exact own hz rfl
  | releases step hloaded hreleases => exact released (.inl hloaded) hreleases
  | cancels step hloaded delete placeholder first written => exact loaded (.inl hloaded) written
  | replaces step hloaded hreleases => exact released (.inr hloaded) hreleases

/-- Under the fence of a worker, no one else touches the reservations of its service. -/
theorem others_leave_quotas (hall : Explained opts r history) (choice : c.Choice)
    (hmade : Made opts r c w mine) (hpresents : c.presents ≠ some op.leaseToken)
    (hsuf : c.entry opts choice w :: w.history <:+ history)
    (hf : w.db.fenced op.tenantID op.id op.leaseToken w.now = true) (hseat : Seated op w.db)
    (hafter : ∃ t, (exec opts c choice w).2.db.fenced op.tenantID op.id op.leaseToken t = true) :
    (exec opts c choice w).2.db.quotas op.tenantID op.serviceID =
      w.db.quotas op.tenantID op.serviceID := by
  have hpast := hall.suffix ((List.suffix_cons _ _).trans hsuf)
  obtain ⟨o, ho, haim⟩ := hseat
  simp only [OperationRow.aim, Prod.mk.injEq] at haim
  funext id row
  unfold Db.quotas
  cases (exec_effect opts c choice w).reservation (op.tenantID, id) with
  | kept _ same => rw [same]
  | @placed q o₁ resources unused fresh operation reserves written =>
    -- A new operation on the service would have taken the fence away.
    have hother : o₁.serviceID ≠ op.serviceID := by
      intro hservice
      obtain ⟨t, hft⟩ := hafter
      obtain ⟨o₂, ho₂, hcurrent, _⟩ := Db.fenced_iff.mp hft
      obtain ⟨o₃, ho₃, haim₃⟩ := (exec_effect opts _ choice w).aim ho
      obtain rfl := Option.some.inj (ho₂.symm.trans ho₃)
      simp only [OperationRow.aim, Prod.mk.injEq] at haim₃
      refine (exec_effect opts _ choice w).newOperation_elsewhere fresh operation ho hcurrent ?_
      exact hservice.trans (haim.1.symm.trans haim₃.1.symm)
    rw [written, unused]
    simp only [Option.some.injEq, reduceCtorEq, false_and, eq_iff_iff, iff_false, not_and]
    intro hrow
    subst hrow
    exact hother
  | @saved x row₀ key found generation fenced written =>
    obtain ⟨item', load', es', op', o', ha'⟩ := acting_of_made hmade trivial
    obtain ⟨htenant, htoken, hfence, o₁, ho₁, hservice₁⟩ := ha'.quotaRow hmade hpast
    have hfenced := hmade.kept.chronicle.sound.aggregate.fenced fenced
    rw [htenant, hfence, htoken] at hfenced
    obtain ⟨o₂, ho₂, hservice₂, _⟩ := hpast.quotas hmade.linked _ row₀ found
    simp only [Prod.mk.injEq] at key
    obtain ⟨hkey, rfl⟩ := key
    rw [hkey, htenant] at ho₂
    obtain rfl := Option.some.inj (ho₁.symm.trans ho₂)
    have hother : row₀.serviceID ≠ op.serviceID := by
      intro hservice
      obtain ⟨o₃, ho₃, _, hheld⟩ := Db.fenced_iff.mp hf
      obtain ⟨o₄, ho₄, _, hheld'⟩ := Db.fenced_iff.mp hfenced
      obtain ⟨o₅, ho₅, haim₅⟩ := ha'.loaded hmade hpast
      obtain rfl := Option.some.inj (ho.symm.trans ho₃)
      obtain rfl := Option.some.inj (ho₅.symm.trans ho₄)
      simp only [OperationRow.aim, Prod.mk.injEq] at haim₅
      rw [haim.1, ← hservice, hservice₂, hservice₁, ← haim₅.1, hkey, htenant] at hheld
      have hsame := Db.leaseHeld_unique hheld' hheld
      refine hpresents ?_
      change some x.leaseToken = _
      rw [htoken, hsame]
    rw [written, found]
    simp only [Option.some.injEq, eq_iff_iff]
    constructor
    · intro h
      obtain ⟨rfl, hservice⟩ := h
      exact absurd hservice hother
    · intro h
      obtain ⟨rfl, hservice⟩ := h
      exact absurd hservice hother

theorem others_keep_quotas (hall : Explained opts r history)
    {G : (Uuid → ReservationRow → Prop) → Prop} :
    OthersKeep opts r op history (fun db => G (db.quotas op.tenantID op.serviceID)) := by
  intro c' choice w' mine' hmade hpresents hsuf hf hseat hafter hG
  rw [others_leave_quotas hall choice hmade hpresents hsuf hf hseat hafter]
  exact hG

/-- Neither does the worker itself, short of writing about them. -/
theorem own_keep_quotas (hown : ∀ x ∈ es, Own op x.1) (hes : ∀ x ∈ es, ∀ y, x.1 ≠ .write (.quota y))
    {G : (Uuid → ReservationRow → Prop) → Prop} :
    OwnKeep opts op history es (fun db => G (db.quotas op.tenantID op.serviceID)) := by
  intro c' choice w' hseen _ _ _ hG
  have hsame : (exec opts c' choice w').2.db.quotas op.tenantID op.serviceID =
      w'.db.quotas op.tenantID op.serviceID := by
    funext id row
    unfold Db.quotas
    cases (exec_effect opts c' choice w').reservation (op.tenantID, id) with
    | kept _ same => rw [same]
    | placed =>
      rcases hown _ hseen with hstep | ⟨_, _, hc⟩
      · exact False.elim hstep
      · cases hc
    | saved => exact absurd rfl (hes _ hseen _)
  rw [hsame]
  exact hG

variable (ha : Acting r mine c item load es op o)
include ha

/-- The read of the load that finds the outstanding reservation. -/
theorem Acting.activeRead :
    ∃ found x es₁ es₂, load = es₁ ++ x :: es₂ ∧ LoadedFrom item op.id found op.reservation ∧
      ∀ (opts : WorkOptions) (history : List Entry), Takes opts op history x (fun _ => True)
        (fun db => NewestOf (db.quotas op.tenantID op.serviceID)
          (ReservationRow.outstanding op.targetGeneration) found) := by
  obtain ⟨found, es₁, es₂, hload, _, hfrom⟩ := ha.loads.reservation
  refine ⟨found, _, es₁, es₂, hload, hfrom, fun opts history => takes_read fun w' _ _ hrun => ?_⟩
  rw [ha.loads.tenantID, ha.loads.serviceID, ha.loads.targetGeneration]
  exact runs_latestReservation hrun

/-- The read of the load that finds the reservation to replace. -/
theorem Acting.previousRead (hkind : op.kind = .update ∨ op.kind = .restart) :
    ∃ found x es₁ es₂, load = es₁ ++ x :: es₂ ∧
      LoadedFrom item op.id found op.previousReservation ∧
      ∀ (opts : WorkOptions) (history : List Entry), Takes opts op history x (fun _ => True)
        (fun db => NewestOf (db.quotas op.tenantID op.serviceID)
          (ReservationRow.replaced op.targetGeneration) found) := by
  rw [ha.loads.kind] at hkind
  obtain ⟨found, es₁, es₂, hload, _, hfrom⟩ := ha.loads.previous hkind
  refine ⟨found, _, es₁, es₂, hload, hfrom, fun opts history => takes_read fun w' _ _ hrun => ?_⟩
  rw [ha.loads.tenantID, ha.loads.serviceID, ha.loads.targetGeneration]
  exact runs_latestReservation hrun

theorem Acting.load_noQuota : ∀ x ∈ load, ∀ y, x.1 ≠ .write (.quota y) := by
  intro x hx y
  obtain ⟨q, hq⟩ := ha.loads.reads x hx
  rw [hq]
  exact fun hc => nomatch hc

variable (h : Made opts r c w mine) (hall : Explained opts r w.history)
variable (hf : w.db.fenced op.tenantID op.id op.leaseToken w.now = true)
include h hall hf

/-- What the load has found of the reservations holds until the worker writes about them. -/
theorem Acting.untouched (hes : ∀ x ∈ es, ∀ y, x.1 ≠ .write (.quota y))
    (hload : load = es₁ ++ x :: es₂) {G : (Uuid → ReservationRow → Prop) → Prop}
    (htakes : Takes opts op w.history x (fun _ => True)
      (fun db => G (db.quotas op.tenantID op.serviceID))) :
    G (w.db.quotas op.tenantID op.serviceID) := by
  have hx : load ++ es = es₁ ++ x :: (es₂ ++ es) := by simp [hload]
  refine ha.since h hall hf hx htakes ?_ (others_keep_quotas hall)
  refine own_keep_quotas (fun y hy => ha.own ?_) fun y hy => ?_
  · rw [hx]
    exact List.mem_append_right _ (List.mem_cons_of_mem _ hy)
  · rcases List.mem_append.mp hy with hy | hy
    · exact ha.load_noQuota y (by simp [hload, hy])
    · exact hes y hy

theorem Acting.activeRow (hes : ∀ x ∈ es, ∀ y, x.1 ≠ .write (.quota y)) :
    ∃ found, LoadedFrom item op.id found op.reservation ∧
      NewestOf (w.db.quotas op.tenantID op.serviceID)
        (ReservationRow.outstanding op.targetGeneration) found := by
  obtain ⟨found, x, es₁, es₂, hload, hfrom, htakes⟩ := ha.activeRead
  refine ⟨found, hfrom, ?_⟩
  exact ha.untouched h hall hf hes hload
    (G := fun rows => NewestOf rows (ReservationRow.outstanding op.targetGeneration) found)
    (htakes opts _)

theorem Acting.previousRow (hkind : op.kind = .update ∨ op.kind = .restart)
    (hes : ∀ x ∈ es, ∀ y, x.1 ≠ .write (.quota y)) :
    ∃ found, LoadedFrom item op.id found op.previousReservation ∧
      NewestOf (w.db.quotas op.tenantID op.serviceID)
        (ReservationRow.replaced op.targetGeneration) found := by
  obtain ⟨found, x, es₁, es₂, hload, hfrom, htakes⟩ := ha.previousRead hkind
  refine ⟨found, hfrom, ?_⟩
  exact ha.untouched h hall hf hes hload
    (G := fun rows => NewestOf rows (ReservationRow.replaced op.targetGeneration) found)
    (htakes opts _)

end
end Runner

end AniInference
