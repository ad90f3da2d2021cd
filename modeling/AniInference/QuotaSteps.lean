import AniInference.Reservations
import AniInference.Publications

namespace AniInference
open Lib Txn Prog

/-- The quota authority has shown the reservation `id` of the operation `k` to be confirmed. -/
def QuotaConfirmed (k : Uuid × Uuid) (id : ReservationID) (history : List Entry) : Prop :=
  ∃ x : Reservation, (x.tenantID, x.operationID) = k ∧ x.reservationID = some id ∧
    x.ConfirmedBy (history.map Entry.seen)

/-- The quota authority has released the reservation `id` of the operation `k`. -/
def QuotaReleased (k : Uuid × Uuid) (id : ReservationID) (history : List Entry) : Prop :=
  ∃ x : Reservation, (x.tenantID, x.operationID) = k ∧ x.reservationID = some id ∧
    ⟨.provider (.quotaRelease x), .ok ()⟩ ∈ history.map Entry.seen

/-- What a write about a reservation that passes its fence finds, and why it is made: the current
operation `o` of the service reserves for itself, or gives up what is outstanding. -/
inductive Saves (w : World) (x : Reservation) (id : Uuid) (o : OperationRow)
    (row : ReservationRow) :
    Prop
  | reserves (step : o.step = .reserveQuota) (own : x.operationID = id)
      (state : x.state = .reserved ∨ (x.state = .confirmed ∧
        QuotaConfirmed (x.tenantID, x.operationID) (row.saved x).reservationID w.history))
  | releases (step : o.step = .releaseQuota) (outstanding : row.state ≠ .released)
      (same : x.reservationID = some row.reservationID)
      (state : x.state = .releasePending ∨ (x.state = .released ∧
        QuotaReleased (x.tenantID, x.operationID) row.reservationID w.history))
  | cancels (step : o.step = .releaseQuota) (delete : o.kind = .delete)
      (pending : row.state = .pending) (same : x.reservationID = some row.reservationID)
      (state : x.state = .released)
  | replaces (step : o.step = .releasePreviousQuota) (earlier : row.generation < o.targetGeneration)
      (outstanding : row.state ≠ .released) (held : row.state ≠ .pending)
      (same : x.reservationID = some row.reservationID)
      (state : x.state = .releasePending ∨ (x.state = .released ∧
        QuotaReleased (x.tenantID, x.operationID) row.reservationID w.history))

theorem ReservationRow.outstanding_iff {row : ReservationRow} :
    row.outstanding target = true ↔ row.generation ≤ target ∧ row.state ≠ .released := by
  simp [ReservationRow.outstanding]

theorem ReservationRow.replaced_iff {row : ReservationRow} :
    row.replaced target = true ↔
      row.generation < target ∧ row.state ≠ .released ∧ row.state ≠ .pending := by
  simp [ReservationRow.replaced, and_assoc]

/-- What a write about a reservation leaves besides the row it writes. -/
theorem quota_rest (opts : WorkOptions) (w : World) (choice : Call.Choice (.write (.quota x))) :
    (exec opts (.write (.quota x)) choice w).2.db.operations = w.db.operations ∧
      (exec opts (.write (.quota x)) choice w).2.db.services = w.db.services := by
  rcases settle_state ((Write.quota x).tx w.now) .connection choice w.db with hs | ⟨_, ha⟩
  · exact ⟨congrArg Db.operations hs, congrArg Db.services hs⟩
  · obtain ⟨_, _, _, _, _, hdb⟩ := Store.runs_saveQuotaReservation ha
    exact ⟨(congrArg Db.operations hdb).trans rfl, (congrArg Db.services hdb).trans rfl⟩

/-- What a call can do to the reservations of a service whose current operation stays. -/
theorem quotas_call (opts : WorkOptions) {c : Call} {w : World} (choice : c.Choice)
    {tenant service id : Uuid}
    {o o' : OperationRow} (ho : w.db.operations.lookup (tenant, id) = some o)
    (hcurrent : (exec opts c choice w).2.db.IsCurrent (tenant, id) o')
    (hservice : o'.serviceID = service) {id' : Uuid} {row' : ReservationRow}
    (hrow' : (exec opts c choice w).2.db.quotas tenant service id' row') :
    w.db.quotas tenant service id' row' ∨ ∃ x row, c = .write (.quota x) ∧ x.tenantID = tenant ∧
      id' = x.operationID ∧ w.db.quotas tenant service id' row ∧ row' = row.saved x ∧
      w.db.operationFenced x.tenantID (x.fenceOperationID.getD x.operationID) x.generation
        x.leaseToken w.now = true := by
  obtain ⟨hlookup, hserved⟩ := hrow'
  cases (exec_effect opts c choice w).reservation (tenant, id') with
  | kept _ same =>
    rw [same] at hlookup
    exact .inl ⟨hlookup, hserved⟩
  | placed unused fresh operation reserves written =>
    rw [written] at hlookup
    obtain rfl := Option.some.inj hlookup
    exact absurd (hserved.trans hservice.symm)
      ((exec_effect opts _ choice w).newOperation_elsewhere fresh operation ho hcurrent)
  | @saved x row key found generation fenced written =>
    rw [written] at hlookup
    obtain rfl := Option.some.inj hlookup
    simp only [Prod.mk.injEq] at key
    exact .inr ⟨x, row, rfl, key.1.symm, key.2, ⟨found, hserved⟩, rfl, fenced⟩

/-- A service that Governance does not know was never known to it. -/
theorem Explained.unmanaged (hall : Explained opts r history) (h : Linked history db)
    (hsuf : y :: past <:+ history) (hnone : db.managedResources.lookup k = none) :
    y.before.managedResources.lookup k = none := by
  have later : ∀ z old, z :: old <:+ history → (z.before.managedResources.lookup k).isSome = true →
      (z.after.managedResources.lookup k).isSome = true := by
    intro z old hz hbefore
    obtain ⟨c, choice, w, _, _, _, rfl⟩ := hall z old hz
    obtain ⟨m, hm⟩ := Option.isSome_iff_exists.mp hbefore
    obtain ⟨m', hm', _⟩ := (exec_effect opts c choice w).managed.kept k m hm
    exact Option.isSome_iff_exists.mpr ⟨m', hm'⟩
  cases hy : y.before.managedResources.lookup k with
  | none => rfl
  | some m =>
    have hsome : (db.managedResources.lookup k).isSome = true := by
      refine h.later (Q := fun db => (db.managedResources.lookup k).isSome = true)
        (fun z hz hbefore => ?_) hsuf (later y past hsuf (by rw [hy]; rfl))
      obtain ⟨newer, old, hsplit⟩ := List.append_of_mem hz
      exact later z old ⟨newer, hsplit.symm⟩ hbefore
    rw [hnone] at hsome
    cases hsome

namespace Runner
section
variable {opts : WorkOptions} {r : Runner} {c : Call} {w : World} {mine : List Entry}
variable {item : Item} {op : OperationContext} {o : OperationRow} {load es : List Exchange}

/-- The row a reservation was loaded from. -/
theorem LoadedFrom.row (h : LoadedFrom item operation found (some y))
    (hnewest : NewestOf rows p found) :
    ∃ row, rows y.operationID row ∧ p row = true ∧ FromRow item operation y.operationID row y := by
  cases found with
  | none => cases h
  | some found =>
    obtain ⟨id, row⟩ := found
    obtain ⟨y', hy', hfrom⟩ := h
    obtain rfl := Option.some.inj hy'
    obtain ⟨hrow, hp, _⟩ := hnewest
    have hid := hfrom.operationID
    subst hid
    exact ⟨row, hrow, hp, hfrom⟩

/-- What a worker has been answered is in the history. -/
theorem Acting.answered (ha : Acting r mine c item load es op o) (h : Made opts r c w mine)
    (hx : x ∈ es) : x ∈ w.history.map Entry.seen := by
  obtain ⟨tenant, before, hturn⟩ := ha.turn
  obtain ⟨g, hgm, hg⟩ := mem_of_seen hturn (x := x) (by simp [hx])
  exact List.mem_map.mpr ⟨g, h.owns.sublist.mem hgm, hg⟩

/-- A worker has found a service that Governance does not know to be unmanaged. -/
theorem Acting.unmanaged (ha : Acting r mine c item load es op o) (h : Made opts r c w mine)
    (hall : Explained opts r w.history)
    (hm : w.db.managedResources.lookup (op.tenantID, op.serviceID) = none) :
    ¬(op.managed = true ∨ op.managedGPU = true) := by
  obtain ⟨row, es₁, es₂, hload, hmanaged, hgpu, _⟩ := ha.loads.managed
  intro hop
  have hsome : row.isSome = true := by
    rcases hop with hop | hop
    · exact hmanaged.symm.trans hop
    · exact hgpu hop
  obtain ⟨y, past, now, hsuf, hafter, hrun⟩ := ha.loadRead h hall
    (q := .managedResource item.tenantID o.serviceID) (a := row) (by simp [hload])
  simp only [Read.tx, Sql.getManagedResource, runs_get_bind, runs_pure] at hrun
  rw [ha.loads.tenantID, ha.loads.serviceID] at hm
  rw [hrun.1, hall.unmanaged h.linked hsuf hm] at hsome
  cases hsome

end
end Runner

section
variable {opts : WorkOptions} {r : Runner} {w : World} {mine : List Entry} {x : Reservation}
variable {row : ReservationRow}
open Runner

theorem Made.saves (h : Made opts r (.write (.quota x)) w mine) (hall : Explained opts r w.history)
    (hfenced : w.db.operationFenced x.tenantID (x.fenceOperationID.getD x.operationID) x.generation
      x.leaseToken w.now = true)
    (hrow : w.db.reservations.lookup (x.tenantID, x.operationID) = some row) :
    ∃ id o, w.db.operations.lookup (x.tenantID, id) = some o ∧ w.db.IsCurrent (x.tenantID, id) o ∧
      row.serviceID = o.serviceID ∧ Saves w x id o row := by
  obtain ⟨item, load, es, op, o₀, ha⟩ := acting_of_made h trivial
  obtain ⟨htenant, htoken, hfence, o₂, ho₂, hservice₂⟩ := ha.quotaRow h hall
  have hf := h.kept.chronicle.sound.aggregate.fenced hfenced
  rw [htenant, hfence, htoken] at hf
  obtain ⟨op', es₀, es', entered, rfl, asks⟩ := ha.acts.quota
  have hof : Call.OfStep op (.write (.quota x)) := entered.ofStep ▸ only_runStep.asks asks
  obtain ⟨o, ho, hat, haim⟩ := ha.rowAt h hall hf hof
  obtain ⟨o₁, ho₁, hcurrent, _⟩ := Db.fenced_iff.mp hf
  obtain rfl := Option.some.inj (ho.symm.trans ho₁)
  simp only [OperationRow.aim, Prod.mk.injEq] at haim
  obtain ⟨o₃, ho₃, hservice₃, _⟩ := hall.quotas h.linked _ row hrow
  rw [htenant] at ho₃
  obtain rfl := Option.some.inj (ho₂.symm.trans ho₃)
  refine ⟨op.id, o, by rw [htenant]; exact ho, by rw [htenant]; exact hcurrent,
    hservice₃.trans (hservice₂.trans haim.1.symm), ?_⟩
  obtain ⟨phase, rfl⟩ := entered.eq
  -- What the worker has loaded is still the row it writes to.
  have noQuota : PortsOnly es' → ∀ z ∈ es₀ ++ es', ∀ y, z.1 ≠ .write (.quota y) := by
    intro hports z hz y
    rcases List.mem_append.mp hz with hz | hz
    · exact entered.noQuota z hz y
    · obtain ⟨p, hp⟩ := hports z hz
      rw [hp]
      intro hc
      cases hc
  have active : PortsOnly es' → ∀ {y : Reservation}, op.reservation = some y →
      y.operationID = x.operationID →
      row.outstanding op.targetGeneration = true ∧ y.reservationID = some row.reservationID ∧
        y.state = row.state := by
    intro hports y hy hid
    obtain ⟨found, hfrom, hnewest⟩ := ha.activeRow h hall hf (noQuota hports)
    rw [hy] at hfrom
    obtain ⟨row', hrow', hp, hfrom⟩ := hfrom.row hnewest
    rw [htenant] at hrow
    rw [hid] at hrow'
    obtain rfl := Option.some.inj (hrow.symm.trans hrow'.1)
    exact ⟨hp, hfrom.reservationID, hfrom.state⟩
  have released : ∀ {y : Reservation}, op.reservation = some y ∨ op.previousReservation = some y →
      y.reservationID = some row.reservationID →
      Releases { op with phase := phase } y es' (.write (.quota x)) →
      x.reservationID = some row.reservationID ∧ (x.state = .releasePending ∨
        (x.state = .released ∧
          QuotaReleased (x.tenantID, x.operationID) row.reservationID w.history)) := by
    intro y hy hsame hreleases
    cases hreleases with
    | saves ports released =>
      refine ⟨hsame, .inr ⟨rfl, y, rfl, hsame, ?_⟩⟩
      exact ha.answered h (List.mem_append_right _ released)
    | fails ports => exact ⟨hsame, .inl rfl⟩
  have traced : ∀ {y : Reservation}, Releases { op with phase := phase } y es' (.write (.quota x)) →
      PortsOnly es' ∧ y.operationID = x.operationID := by
    intro y hreleases
    cases hreleases with
    | saves ports released | fails ports => exact ⟨ports, rfl⟩
  cases quotaWrite_of_asks asks with
  | reserves step loaded own hreserves =>
    cases hreserves with
    | saves z hz confirmed =>
      refine .reserves (hat.trans step) hz.2.2.1 (.inr ⟨rfl, z, rfl, ?_, ?_⟩)
      · obtain ⟨id, hid⟩ := Option.ne_none_iff_exists'.mp hz.2.2.2.2
        change z.reservationID = some (z.reservationID.getD _)
        rw [hid]
        rfl
      · rcases confirmed with hconfirm | ⟨tenant, id, hget, hstate⟩
        · exact .inl (ha.answered h (List.mem_append_right _ hconfirm))
        · exact .inr ⟨tenant, id, ha.answered h (List.mem_append_right _ hget), hstate⟩
    | fails z hz => exact .reserves (hat.trans step) hz.2.2.1 (.inl rfl)
  | releases step loaded hreleases =>
    obtain ⟨hports, hid⟩ := traced hreleases
    obtain ⟨hp, hsame, _⟩ := active hports loaded hid
    obtain ⟨hsame', hstate⟩ := released (.inl loaded) hsame hreleases
    exact .releases (hat.trans step) (ReservationRow.outstanding_iff.mp hp).2 hsame' hstate
  | cancels step loaded delete placeholder first written =>
    subst written
    obtain ⟨_, hsame, hstate⟩ := active (first ▸ portsOnly_nil) loaded rfl
    refine .cancels (hat.trans step) (haim.2.1.trans delete) ?_ hsame rfl
    simp only [localPlaceholder, Bool.and_eq_true, decide_eq_true_eq] at placeholder
    exact hstate.symm.trans placeholder.1
  | replaces step loaded hreleases =>
    obtain ⟨hports, hid⟩ := traced hreleases
    have hkind : op.kind = .update ∨ op.kind = .restart := by
      by_contra hkind
      rw [ha.loads.kind] at hkind
      rw [ha.loads.unreplaced hkind] at loaded
      cases loaded
    obtain ⟨found, hfrom, hnewest⟩ := ha.previousRow h hall hf hkind (noQuota hports)
    rw [loaded] at hfrom
    obtain ⟨row', hrow', hp, hfrom⟩ := hfrom.row hnewest
    rw [htenant] at hrow
    rw [hid] at hrow'
    obtain rfl := Option.some.inj (hrow.symm.trans hrow'.1)
    obtain ⟨hlt, hheld, hpending⟩ := ReservationRow.replaced_iff.mp hp
    obtain ⟨hsame', hstate⟩ := released (.inr loaded) hfrom.reservationID hreleases
    exact .replaces (hat.trans step) (by rw [haim.2.2]; exact hlt) hheld hpending hsame' hstate

/-- The row a written reservation leaves among those of its service. -/
theorem quotas_of_saved (hrun : Runs ((Write.quota x).tx now) db () db') (hquotas : db.Quotas)
    (hseat : Seated op db) (htenant : x.tenantID = op.tenantID) (hid : x.operationID = op.id) :
    ∃ row, db'.quotas op.tenantID op.serviceID op.id row ∧ row.generation = op.targetGeneration ∧
      row.state = x.state := by
  obtain ⟨_, _, row, hrow, _, rfl⟩ := Store.runs_saveQuotaReservation hrun
  rw [htenant, hid] at hrow
  obtain ⟨o, ho, hservice, hgeneration, _⟩ := hquotas _ row hrow
  obtain ⟨o', ho', haim⟩ := hseat
  obtain rfl := Option.some.inj (ho.symm.trans ho')
  simp only [OperationRow.aim, Prod.mk.injEq] at haim
  refine ⟨row.saved x, ⟨?_, hservice.trans haim.1⟩, hgeneration.trans haim.2.2, rfl⟩
  rw [← htenant, ← hid]
  exact AList.lookup_insert _

/-- The transition out of the step that reserves quota is asked for once the operation's own
reservation is confirmed. -/
theorem Made.reserved (h : Made opts r (.write (.advance t event)) w mine)
    (hall : Explained opts r w.history) (hquota : r.quota = true)
    (ho : w.db.operations.lookup (t.tenantID, t.operationID) = some o)
    (hm : Sql.stepMatches w.now (Store.stepCAS t) w.db o = true)
    (hleads : Operation.Leads o.kind o.step t.nextPhase t.nextStep) (hstep : o.step = .reserveQuota)
    (hunmanaged : w.db.managedResources.lookup (t.tenantID, o.serviceID) = none) :
    ∃ row, w.db.quotas t.tenantID o.serviceID t.operationID row ∧
      row.generation = o.targetGeneration ∧ row.state = .confirmed := by
  obtain ⟨item, load, es₀, es, op, phase, o₀, result, ha, entered, ran, hat, haim,
    htenant, hid, hf⟩ :=
    h.finishing hall ho hm hleads
  simp only [OperationRow.aim, Prod.mk.injEq] at haim
  rw [htenant, haim.1] at hunmanaged
  rw [htenant, hid, haim.1, haim.2.2]
  have hreserve : op.step = .reserveQuota := hat.symm.trans hstep
  have hrun : Played (runReserveQuota r { op with phase := phase }).run es (.ok result) := by
    simpa only [runStep, hreserve] using ran
  obtain ⟨y, hy, hown, ⟨hstate, rfl⟩ | ⟨z, es', hz, _, hports, rfl⟩⟩ :=
    played_runReserveQuota hquota (ha.unmanaged h hall hunmanaged) hrun
  · -- It was loaded as confirmed, and no one has touched it since.
    obtain ⟨found, hfrom, hnewest⟩ := ha.activeRow h hall hf fun x hx => by
      rw [List.append_nil] at hx
      exact entered.noQuota x hx
    change op.reservation = some y at hy
    rw [hy] at hfrom
    obtain ⟨row, hrow, _, hfrom⟩ := hfrom.row hnewest
    have hself : y.operationID = op.id := hown.2.2.1
    rw [hself] at hrow
    exact ⟨row, hrow, hfrom.generation.symm.trans hown.2.2.2.1, hfrom.state.symm.trans hstate⟩
  · have hx : load ++ (es₀ ++ (es' ++
        [⟨.write (.quota (withReservation op z .confirmed "")), .ok ()⟩])) =
        (load ++ es₀ ++ es') ++
          ⟨.write (.quota (withReservation op z .confirmed "")), .ok ()⟩ :: [] := by
      simp
    refine ha.since h hall hf hx (Q := fun db => ∃ row,
      db.quotas op.tenantID op.serviceID op.id row ∧ row.generation = op.targetGeneration ∧
        row.state = .confirmed) ?_ ?_ ?_
    · refine takes_write fun w' db' past e hsuf hbefore _ hseat _ hrun' => ?_
      have hquotas := (hall.suffix ((List.suffix_cons _ _).trans hsuf)).quotas
        (h.linked.suffix hsuf)
      rw [hbefore] at hquotas
      exact quotas_of_saved hrun' hquotas hseat hz.1 hz.2.2.1
    · intro c' choice w' hseen
      cases hseen
    · exact others_keep_quotas hall (G := fun rows => ∃ row, rows op.id row ∧
        row.generation = op.targetGeneration ∧ row.state = .confirmed)

end

end AniInference
