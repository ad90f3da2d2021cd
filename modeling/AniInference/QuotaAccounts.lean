import AniInference.QuotaSteps

namespace AniInference
open Lib Txn Prog

/-- A reservation that has not been given back. -/
def ReservationRow.Held (row : ReservationRow) : Prop := row.state ≠ .released

/-- The operation has no reservation before it but its own: it is the first one, comes after a stop,
or has given back what was there. -/
def OperationRow.Sole (o : OperationRow) : Prop :=
  o.kind = .create ∨ o.kind = .start ∨ Step.releasePreviousQuota ∈ Operation.before o.kind o.step ∨
    Step.releaseQuota ∈ Operation.before o.kind o.step

/-- How the reservations of a service stand with its current operation. -/
structure Accounts (rows : Uuid → ReservationRow → Prop) (id : Uuid) (o : OperationRow) : Prop where
  sole : o.Sole → ∀ id' row, rows id' row → row.Held → id' = id
  -- A load finds one reservation to give back, so there must not be two.
  single : ∀ id₁ id₂ row₁ row₂, rows id₁ row₁ → rows id₂ row₂ → row₁.Held → row₂.Held →
    id₁ ≠ id → id₂ ≠ id → id₁ = id₂
  placed : o.kind = .update ∨ o.kind = .restart → ∀ id' row, rows id' row → row.Held → id' ≠ id →
    row.state ≠ .pending
  confirmed : Step.reserveQuota ∈ Operation.before o.kind o.step → ∀ row, rows id row →
    row.state = .confirmed

/-- The invariant of the reservations of an unmanaged service. -/
def Db.Accounted (db : Db) (tenant service : Uuid) : Prop :=
  db.managedResources.lookup (tenant, service) = none → ∀ id o,
    db.operations.lookup (tenant, id) = some o → o.serviceID = service →
    db.IsCurrent (tenant, id) o → Accounts (db.quotas tenant service) id o

/-- A service has a current operation. -/
def Db.Led (db : Db) : Prop := ∀ k s, db.services.lookup k = some s → s.currentOperation ≠ none

/-- A delete of the service is accepted while an update or a restart has still to give the
reservation of an earlier operation back. -/
def Entry.Strands (tenant service : Uuid) (e : Entry) : Prop :=
  DeleteAccepted e.before e.after tenant service ∧
    ∃ id o id' row, e.before.operations.lookup (tenant, id) = some o ∧ o.serviceID = service ∧
      o.phase.active = true ∧ (o.kind = .update ∨ o.kind = .restart) ∧
      e.before.quotas tenant service id' row ∧ row.Held ∧ id' ≠ id

section
variable {db : Db} {op : OperationContext} {p : ReservationRow → Bool}

/-- `p` selects what the operation has to give back, which is one reservation at most. -/
def Sorts (op : OperationContext) (p : ReservationRow → Bool) (db : Db) : Prop :=
  (∀ id row, db.quotas op.tenantID op.serviceID id row → (p row = true ↔ row.Held ∧ id ≠ op.id)) ∧
    ∀ id₁ id₂ row₁ row₂, db.quotas op.tenantID op.serviceID id₁ row₁ →
      db.quotas op.tenantID op.serviceID id₂ row₂ → p row₁ = true → p row₂ = true → id₁ = id₂

/-- No reservation of the service is newer than its current operation, only its own is as new. -/
theorem generation_of_quotas {tenant service id id' : Uuid} {o : OperationRow}
    {row : ReservationRow}
    (hquotas : db.Quotas) (haggregate : db.Aggregate) (hcurrent : db.IsCurrent (tenant, id) o)
    (hservice : o.serviceID = service) (hrow : db.quotas tenant service id' row) :
    row.generation ≤ o.targetGeneration ∧ (row.generation = o.targetGeneration → id' = id) := by
  obtain ⟨o', ho', hservice', hgeneration, _⟩ := hquotas _ row hrow.1
  obtain ⟨s, hs, hle, hlast⟩ := haggregate.target _ o' ho'
  obtain ⟨s', hs', hid, htarget⟩ := hcurrent
  rw [← hservice', hrow.2] at hs
  rw [hservice] at hs'
  obtain rfl := Option.some.inj (hs.symm.trans hs')
  rw [hgeneration, ← htarget]
  refine ⟨hle, fun heq => ?_⟩
  exact (Option.some.inj (hid.symm.trans (hlast heq))).symm

/-- An operation that does not bring a runtime up has no reservation of its own. -/
theorem Db.Quotas.foreign {tenant service id id' : Uuid} {o : OperationRow} {row : ReservationRow}
    (hquotas : db.Quotas) (ho : db.operations.lookup (tenant, id) = some o)
    (hkind : o.kind = .stop ∨ o.kind = .delete) (hrow : db.quotas tenant service id' row) :
    id' ≠ id := by
  rintro rfl
  obtain ⟨o', ho', _, _, hreserves⟩ := hquotas _ row hrow.1
  obtain rfl := Option.some.inj (ho.symm.trans ho')
  rcases hkind with hkind | hkind <;> rw [hkind] at hreserves <;> cases hreserves

variable (haccounted : db.Accounted op.tenantID op.serviceID)
variable (hunmanaged : db.managedResources.lookup (op.tenantID, op.serviceID) = none)
variable {t : Time} (hf : db.fenced op.tenantID op.id op.leaseToken t = true)
variable (hseat : Runner.Seated op db)
include haccounted hunmanaged hf hseat

theorem sorts_of_iff (h : ∀ o, db.operations.lookup (op.tenantID, op.id) = some o →
    db.IsCurrent (op.tenantID, op.id) o → o.aim = (op.serviceID, op.kind, op.targetGeneration) →
    Accounts (db.quotas op.tenantID op.serviceID) op.id o → ∀ id row,
    db.quotas op.tenantID op.serviceID id row → (p row = true ↔ row.Held ∧ id ≠ op.id)) :
    Sorts op p db := by
  obtain ⟨o, ho, hcurrent, _⟩ := Db.fenced_iff.mp hf
  obtain ⟨o', ho', haim⟩ := hseat
  obtain rfl := Option.some.inj (ho.symm.trans ho')
  have haccounts := haccounted hunmanaged _ o ho (congrArg Prod.fst haim) hcurrent
  have hiff := h o ho hcurrent haim haccounts
  refine ⟨hiff, fun id₁ id₂ row₁ row₂ hrow₁ hrow₂ hp₁ hp₂ => ?_⟩
  have h₁ := (hiff id₁ row₁ hrow₁).mp hp₁
  have h₂ := (hiff id₂ row₂ hrow₂).mp hp₂
  exact haccounts.single id₁ id₂ row₁ row₂ hrow₁ hrow₂ h₁.1 h₂.1 h₁.2 h₂.2

variable (hquotas : db.Quotas) (haggregate : db.Aggregate)
include hquotas haggregate

theorem sorts_outstanding (hkind : op.kind = .stop ∨ op.kind = .delete) :
    Sorts op (ReservationRow.outstanding op.targetGeneration) db := by
  refine sorts_of_iff haccounted hunmanaged hf hseat
    fun o ho hcurrent haim _ id row hrow => ?_
  simp only [OperationRow.aim, Prod.mk.injEq] at haim
  have hle := (generation_of_quotas hquotas haggregate hcurrent haim.1 hrow).1
  rw [haim.2.2] at hle
  rw [ReservationRow.outstanding_iff]
  refine ⟨fun hp => ⟨hp.2, ?_⟩, fun hheld => ⟨hle, hheld.1⟩⟩
  exact hquotas.foreign ho (by rw [haim.2.1]; exact hkind) hrow

theorem sorts_replaced (hkind : op.kind = .update ∨ op.kind = .restart) :
    Sorts op (ReservationRow.replaced op.targetGeneration) db := by
  refine sorts_of_iff haccounted hunmanaged hf hseat
    fun o ho hcurrent haim haccounts id row hrow => ?_
  simp only [OperationRow.aim, Prod.mk.injEq] at haim
  obtain ⟨hle, hlast⟩ := generation_of_quotas hquotas haggregate hcurrent haim.1 hrow
  rw [haim.2.2] at hle hlast
  rw [ReservationRow.replaced_iff]
  constructor
  · intro hreplaced
    obtain ⟨hlt, hheld, _⟩ := hreplaced
    refine ⟨hheld, ?_⟩
    rintro rfl
    obtain ⟨o', ho', _, hgeneration, _⟩ := hquotas _ row hrow.1
    obtain rfl := Option.some.inj (ho.symm.trans ho')
    rw [hgeneration, haim.2.2] at hlt
    exact Nat.lt_irrefl _ hlt
  · intro hother
    obtain ⟨hheld, hne⟩ := hother
    refine ⟨lt_of_le_of_ne hle fun heq => hne (hlast heq), hheld, ?_⟩
    exact haccounts.placed (by rw [haim.2.1]; exact hkind) id row hrow hheld hne

end

namespace Runner
section
variable {opts : WorkOptions} {r : Runner} {c : Call} {w : World} {mine : List Entry}
variable {item : Item} {op : OperationContext} {o : OperationRow} {load es₀ es : List Exchange}

/-- The row that is written as released is held no longer, and no other row changes. -/
theorem held_of_released {now : Time} {db db' : Db} {x : Reservation}
    (hrun : Runs ((Write.quota x).tx now) db () db') (hstate : x.state = .released)
    (htenant : x.tenantID = op.tenantID) {id : Uuid} {row : ReservationRow}
    (hrow : db'.quotas op.tenantID op.serviceID id row) (hheld : row.Held) :
    id ≠ x.operationID ∧ db.quotas op.tenantID op.serviceID id row := by
  obtain ⟨_, _, row₀, hrow₀, _, rfl⟩ := Store.runs_saveQuotaReservation hrun
  obtain ⟨hlookup, hservice⟩ := hrow
  rw [Table.lookup_insert_ite, htenant] at hlookup
  split at hlookup
  · obtain rfl := Option.some.inj hlookup
    exact absurd hstate hheld
  · next hk =>
    refine ⟨?_, hlookup, hservice⟩
    rintro rfl
    exact hk rfl

/-- Once a worker has given back what it has loaded, the service is left with the reservation of the
operation itself. -/
theorem Acting.cleared {phase : Phase} (ha : Acting r mine c item load (es₀ ++ es) op o)
    (h : Made opts r c w mine) (hall : Explained opts r w.history)
    (hf : w.db.fenced op.tenantID op.id op.leaseToken w.now = true)
    (entered : Entered op es₀ { op with phase := phase }) {p : ReservationRow → Bool}
    {loaded : Option Reservation} {found : Option (Uuid × ReservationRow)} {x : Exchange}
    {es₁ es₂ : List Exchange} (hload : load = es₁ ++ x :: es₂)
    (hfrom : LoadedFrom item op.id found loaded)
    (htakes : Takes opts op w.history x (fun _ => True)
      (fun db => NewestOf (db.quotas op.tenantID op.serviceID) p found))
    (hlast : ReleasedLast { op with phase := phase } loaded es) (hsorts : Sorts op p w.db)
    (hpast : ∀ e past, e :: past <:+ w.history → Seated op e.before →
      (∃ t, e.before.fenced op.tenantID op.id op.leaseToken t = true) → Sorts op p e.before)
    {id : Uuid} {row : ReservationRow} (hrow : w.db.quotas op.tenantID op.serviceID id row)
    (hheld : row.Held) : id = op.id := by
  rcases hlast with ⟨hnone, rfl⟩ | ⟨y, es', hy, hports, rfl⟩
  · -- There was nothing to give back.
    rw [List.append_nil] at ha
    have hnewest := ha.untouched h hall hf entered.noQuota hload
      (G := fun rows => NewestOf rows p found)
      htakes
    cases found with
    | some found =>
      obtain ⟨id', row'⟩ := found
      obtain ⟨y, hy, _⟩ := hfrom
      rw [hnone] at hy
      cases hy
    | none =>
      by_contra hne
      have hp := (hsorts.1 id row hrow).mpr ⟨hheld, hne⟩
      rw [hnewest id row hrow] at hp
      cases hp
  · rw [hy] at hfrom
    have hx : load ++ (es₀ ++ (es' ++
        [⟨.write (.quota (withReservation { op with phase := phase } y .released "")), .ok ()⟩])) =
        es₁ ++ x :: ((es₂ ++ es₀ ++ es') ++
          ⟨.write (.quota (withReservation { op with phase := phase } y .released "")), .ok ()⟩ ::
            []) := by
      simp [hload]
    have hown : ∀ z ∈ es₂ ++ es₀ ++ es', Own op z.1 := by
      intro z hz
      refine ha.own ?_
      rw [hx]
      exact List.mem_append_right _ (List.mem_cons_of_mem _ (List.mem_append_left _ hz))
    have hnoQuota : ∀ z ∈ es₂ ++ es₀ ++ es', ∀ y, z.1 ≠ .write (.quota y) := by
      intro z hz y
      rcases List.mem_append.mp hz with hz | hz
      · rcases List.mem_append.mp hz with hz | hz
        · exact ha.load_noQuota z (by simp [hload, hz]) y
        · exact entered.noQuota z hz y
      · obtain ⟨q, hq⟩ := hports z hz
        rw [hq]
        exact fun hc => nomatch hc
    have hcleared : ∀ id row, w.db.quotas op.tenantID op.serviceID id row → row.Held →
      id = op.id := by
      refine ha.through h hall hf hx
        (Q := fun db => NewestOf (db.quotas op.tenantID op.serviceID) p found)
        (G := fun db => ∀ id row, db.quotas op.tenantID op.serviceID id row → row.Held → id = op.id)
        htakes ?_ ?_ ?_ ?_ ?_
      · exact own_keep_quotas hown hnoQuota (G := fun rows => NewestOf rows p found)
      · exact others_keep_quotas hall (G := fun rows => NewestOf rows p found)
      · refine takes_write fun w' db' past e hsuf hbefore hf' hseat hnewest hrun id row
          hrow hheld => ?_
        have hsorts' := hpast e past hsuf (by rw [hbefore]; exact hseat)
          ⟨w'.now, by rw [hbefore]; exact hf'⟩
        rw [hbefore] at hsorts'
        obtain ⟨row₀, hrow₀, hp₀, hfrom₀⟩ := hfrom.row hnewest
        have htenant : y.tenantID = op.tenantID := hfrom₀.tenantID.trans ha.loads.tenantID.symm
        obtain ⟨hother, hrow'⟩ := held_of_released hrun rfl htenant hrow hheld
        by_contra hne
        have hp := (hsorts'.1 id row hrow').mpr ⟨hheld, hne⟩
        exact hother (hsorts'.2 id y.operationID row row₀ hrow' hrow₀ hp hp₀)
      · intro c' choice w' hseen
        cases hseen
      · exact others_keep_quotas hall (G := fun rows => ∀ id row, rows id row →
          row.Held → id = op.id)
    exact hcleared id row hrow hheld

end
end Runner

section
variable {opts : WorkOptions} {r : Runner} {w : World} {mine : List Entry} {t : StepTransition}
variable {event : AuditEvent} {o : OperationRow}
open Runner

theorem Operation.kind_of_releaseQuota (hpath : Step.releaseQuota ∈ Operation.paths kind) :
    kind = .stop ∨ kind = .delete := by
  revert hpath
  cases kind <;> decide

theorem Operation.kind_of_releasePreviousQuota
    (hpath : Step.releasePreviousQuota ∈ Operation.paths kind) :
    kind = .update ∨ kind = .restart := by
  revert hpath
  cases kind <;> decide

/-- The transition out of a step that gives reservations back is asked for once none is left but the
operation's own. -/
theorem Made.released (h : Made opts r (.write (.advance t event)) w mine)
    (hall : Explained opts r w.history) (hquota : r.quota = true)
    (haccounted : w.db.Accounted t.tenantID o.serviceID)
    (hpast : ∀ e past, e :: past <:+ w.history → e.before.Accounted t.tenantID o.serviceID)
    (ho : w.db.operations.lookup (t.tenantID, t.operationID) = some o)
    (hm : Sql.stepMatches w.now (Store.stepCAS t) w.db o = true)
    (hleads : Operation.Leads o.kind o.step t.nextPhase t.nextStep)
    (hstep : o.step = .releaseQuota ∨ o.step = .releasePreviousQuota)
    (hunmanaged : w.db.managedResources.lookup (t.tenantID, o.serviceID) = none)
    {id : Uuid} {row : ReservationRow} (hrow : w.db.quotas t.tenantID o.serviceID id row)
    (hheld : row.Held) : id = t.operationID := by
  have hpath := (h.kept.followed.rows _ _ ho).path
  obtain ⟨item, load, es₀, es, op, phase, o₀, result, ha, entered, ran, hat, haim,
    htenant, hid, hf⟩ :=
    h.finishing hall ho hm hleads
  have hseat : Seated op w.db := ha.loaded h hall
  simp only [OperationRow.aim, Prod.mk.injEq] at haim
  rw [htenant, haim.1] at hunmanaged hrow haccounted
  simp only [htenant, haim.1] at hpast
  rw [hid]
  have hmanaged := ha.unmanaged h hall hunmanaged
  have hquotas := hall.quotas h.linked
  have haggregate := h.kept.chronicle.sound.aggregate
  -- What held of the databases the worker has seen.
  have past : ∀ e old, e :: old <:+ w.history → e.before.Quotas ∧ e.before.Aggregate ∧
      e.before.Accounted op.tenantID op.serviceID ∧
      e.before.managedResources.lookup (op.tenantID, op.serviceID) = none := by
    intro e old hsuf
    refine ⟨(hall.suffix ((List.suffix_cons _ _).trans hsuf)).quotas (h.linked.suffix hsuf), ?_,
      hpast e old hsuf, hall.unmanaged h.linked hsuf hunmanaged⟩
    obtain ⟨c', choice, w', mine', hmade, _, rfl⟩ := hall e old hsuf
    exact hmade.kept.chronicle.sound.aggregate
  rcases hstep with hstep | hstep
  · have hrelease : op.step = .releaseQuota := hat.symm.trans hstep
    have hkind : op.kind = .stop ∨ op.kind = .delete := by
      rw [hstep] at hpath
      rw [← haim.2.1]
      exact Operation.kind_of_releaseQuota hpath
    have hrun : Played (runReleaseQuota r { op with phase := phase }).run es (.ok result) := by
      simpa only [runStep, hrelease] using ran
    obtain ⟨found, x, es₁, es₂, hload, hfrom, htakes⟩ := ha.activeRead
    refine ha.cleared h hall hf entered hload hfrom (htakes opts _)
      (played_runReleaseQuota hquota hmanaged hrun)
      (sorts_outstanding haccounted hunmanaged hf hseat hquotas haggregate hkind) ?_ hrow hheld
    intro e old hsuf hseat' hafter
    obtain ⟨t', hf'⟩ := hafter
    obtain ⟨hquotas', haggregate', haccounted', hunmanaged'⟩ := past e old hsuf
    exact sorts_outstanding haccounted' hunmanaged' hf' hseat' hquotas' haggregate' hkind
  · have hrelease : op.step = .releasePreviousQuota := hat.symm.trans hstep
    have hkind : op.kind = .update ∨ op.kind = .restart := by
      rw [hstep] at hpath
      rw [← haim.2.1]
      exact Operation.kind_of_releasePreviousQuota hpath
    have hrun : Played (runReleasePreviousQuota r { op with phase := phase }).run es
        (.ok result) := by
      simpa only [runStep, hrelease] using ran
    obtain ⟨found, x, es₁, es₂, hload, hfrom, htakes⟩ := ha.previousRead hkind
    refine ha.cleared h hall hf entered hload hfrom (htakes opts _)
      (played_runReleasePreviousQuota hquota hmanaged hrun)
      (sorts_replaced haccounted hunmanaged hf hseat hquotas haggregate hkind) ?_ hrow hheld
    intro e old hsuf hseat' hafter
    obtain ⟨t', hf'⟩ := hafter
    obtain ⟨hquotas', haggregate', haccounted', hunmanaged'⟩ := past e old hsuf
    exact sorts_replaced haccounted' hunmanaged' hf' hseat' hquotas' haggregate' hkind

end

section
variable {opts : WorkOptions} {r : Runner} {c : Call} {w : World} {mine : List Entry}

theorem Db.Led.effect (hled : db.Led) (h : Effect now token db c db') : db'.Led := by
  intro k s' hs'
  rcases h.service hs' with ⟨s, hs, haim⟩ | ⟨id, hid, _⟩
  · simp only [Service.aim, Prod.mk.injEq] at haim
    rw [haim.2.2]
    exact hled k s hs
  · rw [hid]
    simp

theorem Explained.led (hall : Explained opts r history) (h : Linked history db) : db.Led := by
  refine h.induction (P := fun _ db => db.Led) ?_ fun e past hsuf hled => ?_
  · intro k s hs
    simp [Db.empty] at hs
  · obtain ⟨c, choice, w, mine, _, rfl, rfl⟩ := hall e past hsuf
    exact Db.Led.effect hled (exec_effect opts c choice w)

/-- What an operation that has succeeded leaves is its own reservation, confirmed. -/
theorem Accounts.succeeded {db : Db} {tenant service id : Uuid} {o : OperationRow}
    (h : Accounts (db.quotas tenant service) id o) (hquotas : db.Quotas)
    (ho : db.operations.lookup (tenant, id) = some o) (hstep : o.step = .complete)
    {id' : Uuid} {row : ReservationRow} (hrow : db.quotas tenant service id' row)
    (hheld : row.Held) : id' = id ∧ row.state = .confirmed ∧ o.kind.reserves = true := by
  have hsole : o.Sole := by
    rw [OperationRow.Sole, hstep]
    cases o.kind <;> decide
  obtain rfl := h.sole hsole id' row hrow hheld
  obtain ⟨o', ho', _, _, hreserves⟩ := hquotas _ row hrow.1
  obtain rfl := Option.some.inj (ho.symm.trans ho')
  refine ⟨rfl, h.confirmed ?_ row hrow, hreserves⟩
  rw [hstep]
  revert hreserves
  cases o.kind <;> decide

/-- What a new operation finds: nothing, or the reservation of the operation before it. -/
theorem NewOperation.found {db' : Db} {k : Uuid × Uuid} {o : OperationRow}
    (h : NewOperation w.db db' k o) (hkept : w.Kept) (hpublished : w.db.Published)
    (hquotas : w.db.Quotas) (hled : w.db.Led) (haccounted : w.db.Accounted k.1 o.serviceID)
    (hunmanaged : w.db.managedResources.lookup (k.1, o.serviceID) = none) {id : Uuid}
    {row : ReservationRow} (hrow : w.db.quotas k.1 o.serviceID id row) (hheld : row.Held) :
    ∃ id₁ o₁ s, w.db.operations.lookup (k.1, id₁) = some o₁ ∧ o₁.serviceID = o.serviceID ∧
      w.db.services.lookup (k.1, o.serviceID) = some s ∧ o.kind.Admits s.desiredState ∧
      Accounts (w.db.quotas k.1 o.serviceID) id₁ o₁ ∧ w.db.IsCurrent (k.1, id₁) o₁ ∧
      (o₁.phase.active = true → o.kind = .delete) ∧ (o.kind = .start → o₁.kind = .stop) ∧
      (o₁.phase.active = false → id = id₁ ∧ row.state = .confirmed ∧ o₁.kind.reserves = true) := by
  obtain ⟨o₀, ho₀, hservice₀, _⟩ := hquotas _ row hrow.1
  obtain ⟨s₀, hs₀, _⟩ := hkept.chronicle.sound.aggregate.target _ o₀ ho₀
  rw [← hservice₀, hrow.2] at hs₀
  cases h with
  | created _ absent =>
    rw [absent] at hs₀
    cases hs₀
  | @accepted s hash hnew found admits service idle =>
    obtain ⟨id₁, hid₁⟩ := Option.ne_none_iff_exists'.mp (hled _ s found)
    obtain ⟨o₁, ho₁, hservice, htarget⟩ :=
      hkept.chronicle.sound.aggregate.owned _ s id₁ found hid₁
    change o₁.serviceID = o.serviceID at hservice
    have hcurrent : w.db.IsCurrent (k.1, id₁) o₁ :=
      ⟨s, by rw [hservice]; exact found, hid₁, htarget.symm⟩
    have haccounts := haccounted hunmanaged _ o₁ ho₁ hservice hcurrent
    refine ⟨id₁, o₁, s, ho₁, hservice, found, admits, haccounts, hcurrent,
      fun hactive => idle id₁ o₁ ho₁ hservice hactive, fun hstart => ?_, fun hinactive => ?_⟩
    · rw [hstart] at admits
      obtain ⟨id₂, o₂, hid₂, ho₂, hstop⟩ := hpublished.stopped _ s found admits
      obtain rfl := Option.some.inj (hid₁.symm.trans hid₂)
      obtain rfl := Option.some.inj (ho₁.symm.trans ho₂)
      exact hstop
    · have hlive := hpublished.live _ o₁ ho₁ hcurrent
      have hsucceeded : o₁.phase = .succeeded := by
        revert hinactive hlive
        cases o₁.phase <;> simp [Phase.active]
      have hcomplete := (hkept.followed.rows _ _ ho₁).succeeded hsucceeded
      exact haccounts.succeeded hquotas ho₁ hcomplete hrow hheld

/-- The reservations of a service with an operation that is new to it. -/
theorem NewOperation.accounts {db' : Db} {k : Uuid × Uuid} {o : OperationRow}
    (h : NewOperation w.db db' k o) (hkept : w.Kept) (hpublished : w.db.Published)
    (hquotas : w.db.Quotas) (hled : w.db.Led) (haccounted : w.db.Accounted k.1 o.serviceID)
    (hunmanaged : w.db.managedResources.lookup (k.1, o.serviceID) = none)
    (hsteady : o.kind = .delete → ∀ id₁ o₁, w.db.operations.lookup (k.1, id₁) = some o₁ →
      o₁.serviceID = o.serviceID → o₁.phase.active = true → o₁.kind = .update ∨ o₁.kind = .restart →
      ∀ id row, w.db.quotas k.1 o.serviceID id row → row.Held → id = id₁)
    {rows : Uuid → ReservationRow → Prop}
    (hrows : ∀ id row, rows id row → id ≠ k.2 → w.db.quotas k.1 o.serviceID id row) :
    Accounts rows k.2 o := by
  have hbefore := h.before_eq
  refine ⟨?_, ?_, ?_, ?_⟩
  · intro hsole id row hrow hheld
    by_contra hne
    obtain ⟨id₁, o₁, s, ho₁, hservice, hs, hadmits, haccounts, hcurrent, hactive, hstart, hended⟩ :=
      h.found hkept hpublished hquotas hled haccounted hunmanaged (hrows id row hrow hne) hheld
    rcases hsole with hcreate | hstarted | hbehind | hbehind
    · rw [hcreate] at hadmits
      exact hadmits
    · -- The stop before it has left nothing.
      have hinactive : o₁.phase.active = false := by
        by_contra hphase
        have hdelete := hactive (by simpa using hphase)
        rw [hstarted] at hdelete
        cases hdelete
      obtain ⟨_, _, hreserves⟩ := hended hinactive
      rw [hstart hstarted] at hreserves
      cases hreserves
    · rw [hbefore] at hbehind
      cases hbehind
    · rw [hbefore] at hbehind
      cases hbehind
  · intro i₁ i₂ row₁ row₂ hrow₁ hrow₂ hheld₁ hheld₂ hne₁ hne₂
    have hold₁ := hrows i₁ row₁ hrow₁ hne₁
    have hold₂ := hrows i₂ row₂ hrow₂ hne₂
    obtain ⟨id₁, o₁, s, ho₁, hservice, hs, hadmits, haccounts, hcurrent, hactive, hstart, hended⟩ :=
      h.found hkept hpublished hquotas hled haccounted hunmanaged hold₁ hheld₁
    cases hphase : o₁.phase.active with
    | false =>
      obtain ⟨id₂, o₂, _, ho₂, hservice₂, _, _, _, hcurrent₂, _, _, hended₂⟩ :=
        h.found hkept hpublished hquotas hled haccounted hunmanaged hold₂ hheld₂
      obtain rfl := hcurrent.unique hcurrent₂ (hservice.trans hservice₂.symm)
      obtain rfl := Option.some.inj (ho₁.symm.trans ho₂)
      rw [(hended hphase).1, (hended₂ hphase).1]
    | true =>
      have hdelete := hactive hphase
      have hown : o₁.Sole ∨ (o₁.kind = .update ∨ o₁.kind = .restart) ∨ o₁.kind = .stop ∨
          o₁.kind = .delete := by
        rw [OperationRow.Sole]
        cases o₁.kind <;> simp
      rcases hown with hsole | hreplaces | hstop | hdeleted
      · rw [haccounts.sole hsole i₁ row₁ hold₁ hheld₁, haccounts.sole hsole i₂ row₂ hold₂ hheld₂]
      · rw [hsteady hdelete id₁ o₁ ho₁ hservice hphase hreplaces i₁ row₁ hold₁ hheld₁,
          hsteady hdelete id₁ o₁ ho₁ hservice hphase hreplaces i₂ row₂ hold₂ hheld₂]
      · exact haccounts.single i₁ i₂ row₁ row₂ hold₁ hold₂ hheld₁ hheld₂
          (hquotas.foreign ho₁ (.inl hstop) hold₁) (hquotas.foreign ho₁ (.inl hstop) hold₂)
      · -- Nothing is accepted after a delete.
        obtain ⟨s', hs', hgone, _⟩ := hkept.chronicle.sound.aggregate.deleted _ o₁ ho₁ hdeleted
        rw [hservice] at hs'
        obtain rfl := Option.some.inj (hs.symm.trans hs')
        rw [hdelete, hgone] at hadmits
        exact absurd rfl hadmits
  · intro hkind id row hrow hheld hne
    obtain ⟨id₁, o₁, s, ho₁, hservice, hs, hadmits, haccounts, hcurrent, hactive, hstart, hended⟩ :=
      h.found hkept hpublished hquotas hled haccounted hunmanaged (hrows id row hrow hne) hheld
    have hinactive : o₁.phase.active = false := by
      by_contra hphase
      have hdelete := hactive (by simpa using hphase)
      rcases hkind with hkind | hkind <;> rw [hkind] at hdelete <;> cases hdelete
    rw [(hended hinactive).2.1]
    simp
  · intro hbehind
    rw [hbefore] at hbehind
    cases hbehind

theorem Accounts.mono {rows rows' : Uuid → ReservationRow → Prop} {id : Uuid} {o : OperationRow}
    (h : Accounts rows id o) (hrows : ∀ id' row', rows' id' row' → rows id' row') :
    Accounts rows' id o where
  sole hsole id' row hrow := h.sole hsole id' row (hrows id' row hrow)
  single id₁ id₂ row₁ row₂ hrow₁ hrow₂ :=
    h.single id₁ id₂ row₁ row₂ (hrows id₁ row₁ hrow₁) (hrows id₂ row₂ hrow₂)
  placed hkind id' row hrow := h.placed hkind id' row (hrows id' row hrow)
  confirmed hreserved row hrow := h.confirmed hreserved row (hrows id row hrow)

theorem Accounts.congr {rows : Uuid → ReservationRow → Prop} {id : Uuid} {o o' : OperationRow}
    (h : Accounts rows id o) (hkind : o'.kind = o.kind) (hstep : o'.step = o.step) :
    Accounts rows id o' := by
  refine ⟨fun hsole => h.sole ?_, h.single, fun hkind' => h.placed ?_, fun hreserved =>
    h.confirmed ?_⟩
  · rw [OperationRow.Sole, hkind, hstep] at hsole
    exact hsole
  · rw [hkind] at hkind'
    exact hkind'
  · rw [hkind, hstep] at hreserved
    exact hreserved

/-- What a write about a reservation makes of the others: those that are held besides the
operation's own were held before. -/
theorem Saves.held {x : Reservation} {id id' : Uuid} {o : OperationRow} {row row' : ReservationRow}
    (h : Saves w x id o row) (hid : id' = x.operationID) (hrow' : row' = row.saved x)
    (hheld : row'.Held) (hne : id' ≠ id) : row.Held ∧ row'.state = .releasePending := by
  subst hid hrow'
  change x.state ≠ .released at hheld
  change row.state ≠ .released ∧ x.state = .releasePending
  cases h with
  | reserves _ own => exact absurd own hne
  | releases _ outstanding _ state => exact ⟨outstanding, state.resolve_right fun hs => hheld hs.1⟩
  | cancels _ _ _ _ state => exact absurd state hheld
  | replaces _ _ outstanding _ _ state =>
    exact ⟨outstanding, state.resolve_right fun hs => hheld hs.1⟩

/-- It is not made by an operation that has its reservation already. -/
theorem Saves.unreserved {x : Reservation} {id : Uuid} {o : OperationRow} {row : ReservationRow}
    (h : Saves w x id o row) (hpath : o.step ∈ Operation.paths o.kind) :
    Step.reserveQuota ∉ Operation.before o.kind o.step := by
  have released : o.step = .releaseQuota → Step.reserveQuota ∉ Operation.before o.kind o.step := by
    intro hstep
    rw [hstep] at hpath ⊢
    rcases Operation.kind_of_releaseQuota hpath with hkind | hkind <;> rw [hkind] <;> decide
  cases h with
  | reserves step =>
    rw [step]
    exact Operation.notMem_before _ _
  | releases step | cancels step => exact released step
  | replaces step =>
    rw [step] at hpath ⊢
    rcases Operation.kind_of_releasePreviousQuota hpath with hkind | hkind <;> rw [hkind] <;> decide

theorem Accounts.saves {rows rows' : Uuid → ReservationRow → Prop} {x : Reservation} {id : Uuid}
    {o : OperationRow} {row : ReservationRow} (h : Accounts rows id o) (hsaves : Saves w x id o row)
    (hpath : o.step ∈ Operation.paths o.kind) (hrow : rows x.operationID row)
    (hrows : ∀ id' row', rows' id' row' →
      rows id' row' ∨ (id' = x.operationID ∧ row' = row.saved x)) : Accounts rows' id o := by
  have old : ∀ id' row', rows' id' row' → row'.Held → id' ≠ id →
      ∃ row₀, rows id' row₀ ∧ row₀.Held ∧ (row₀ = row' ∨ row'.state = .releasePending) := by
    intro id' row' hrow' hheld hne
    rcases hrows id' row' hrow' with hsame | ⟨hid, hsaved⟩
    · exact ⟨row', hsame, hheld, .inl rfl⟩
    · obtain ⟨hheld₀, hstate⟩ := hsaves.held hid hsaved hheld hne
      exact ⟨row, hid ▸ hrow, hheld₀, .inr hstate⟩
  refine ⟨?_, ?_, ?_, ?_⟩
  · intro hsole id' row' hrow' hheld
    by_contra hne
    obtain ⟨row₀, hrow₀, hheld₀, _⟩ := old id' row' hrow' hheld hne
    exact hne (h.sole hsole id' row₀ hrow₀ hheld₀)
  · intro id₁ id₂ row₁ row₂ hrow₁ hrow₂ hheld₁ hheld₂ hne₁ hne₂
    obtain ⟨row₃, hrow₃, hheld₃, _⟩ := old id₁ row₁ hrow₁ hheld₁ hne₁
    obtain ⟨row₄, hrow₄, hheld₄, _⟩ := old id₂ row₂ hrow₂ hheld₂ hne₂
    exact h.single id₁ id₂ row₃ row₄ hrow₃ hrow₄ hheld₃ hheld₄ hne₁ hne₂
  · intro hkind id' row' hrow' hheld hne
    obtain ⟨row₀, hrow₀, hheld₀, rfl | hstate⟩ := old id' row' hrow' hheld hne
    · exact h.placed hkind id' _ hrow₀ hheld₀ hne
    · rw [hstate]
      simp
  · intro hreserved
    exact absurd hreserved (hsaves.unreserved hpath)

/-- The invariant is kept by every call that does not strand a reservation. -/
theorem Db.Accounted.call (haccounted : w.db.Accounted tenant service) (h : Made opts r c w mine)
    (hall : Explained opts r w.history) (hquota : r.quota = true)
    (hpast : ∀ e past, e :: past <:+ w.history → e.before.Accounted tenant service)
    (choice : c.Choice) (hsteady : ¬(Call.entry opts c choice w).Strands tenant service) :
    (exec opts c choice w).2.db.Accounted tenant service := by
  have heffect := exec_effect opts c choice w
  intro hmanaged id o' ho' hservice hcurrent
  have hunmanaged : w.db.managedResources.lookup (tenant, service) = none := by
    cases hm : w.db.managedResources.lookup (tenant, service) with
    | none => rfl
    | some m =>
      obtain ⟨m', hm', _⟩ := heffect.managed.kept _ m hm
      rw [hmanaged] at hm'
      cases hm'
  cases ho : w.db.operations.lookup (tenant, id) with
  | none =>
    have hnew := (exec_effect opts c choice w).newOperation ho ho'
    subst hservice
    refine hnew.accounts h.kept (hall.published h.linked) (hall.quotas h.linked) (hall.led h.linked)
      haccounted hunmanaged ?_ ?_
    · intro hdelete id₁ o₁ ho₁ hservice₁ hactive hkind id₂ row hrow hheld
      by_contra hne
      refine hsteady ⟨?_, id₁, o₁, id₂, row, ho₁, hservice₁, hactive, hkind, hrow, hheld, hne⟩
      obtain ⟨s, hs, hid, _⟩ := hcurrent
      refine ⟨id, s, o', ho, ho', hdelete, rfl, hs, ?_, hid⟩
      have hafter : (exec opts c choice w).2.Chronicle := h.kept.chronicle.exec c choice
      obtain ⟨s', hs', hgone, _⟩ := hafter.sound.aggregate.deleted _ o' ho' hdelete
      obtain rfl := Option.some.inj (hs.symm.trans hs')
      exact hgone
    · intro id' row' hrow' hne
      obtain ⟨hlookup, hserved⟩ := hrow'
      cases heffect.reservation (tenant, id') with
      | kept _ same =>
        rw [same] at hlookup
        exact ⟨hlookup, hserved⟩
      | @placed q o₁ resources unused fresh operation reserves written =>
        -- Both operations would be new to the service.
        rw [written] at hlookup
        obtain rfl := Option.some.inj hlookup
        have hother := (exec_effect opts _ choice w).newOperation fresh operation
        exact absurd (hother.unique hcurrent hserved).symm hne
      | saved key found generation fenced written =>
        -- Nothing else comes with a new operation.
        rw [(quota_rest opts w choice).1, ho] at ho'
        cases ho'
  | some o =>
    obtain ⟨o'', ho'', hchange⟩ := heffect.operation ho
    obtain rfl := Option.some.inj (ho'.symm.trans ho'')
    have haim := hchange.aim
    have hafter := hcurrent.congr haim
    have hbefore : w.db.IsCurrent (tenant, id) o := isCurrent_back c choice ho hafter
    simp only [OperationRow.aim, Prod.mk.injEq] at haim
    have hserved : o.serviceID = service := haim.1.symm.trans hservice
    have haccounts := haccounted hunmanaged id o ho hserved hbefore
    have hpath := (h.kept.followed.rows _ _ ho).path
    by_cases hc : ∃ x, c = .write (.quota x)
    · obtain ⟨x, rfl⟩ := hc
      rw [(quota_rest opts w choice).1, ho] at ho'
      obtain rfl := Option.some.inj ho'
      by_cases hwritten : ∃ id' row', (exec opts (.write (.quota x)) choice w).2.db.quotas
        tenant service
          id' row' ∧ ¬w.db.quotas tenant service id' row'
      · obtain ⟨id', row', hrow', hnew⟩ := hwritten
        obtain ⟨x', row, hx, htenant, rfl, hrow, _, fenced⟩ :=
          (quotas_call opts choice ho hcurrent hservice hrow').resolve_left hnew
        cases hx
        subst htenant
        obtain ⟨id₀, o₀, ho₀, hcurrent₀, hservice₀, hsaves⟩ := h.saves hall fenced hrow.1
        obtain rfl := hbefore.unique hcurrent₀ (hserved.trans (hrow.2.symm.trans hservice₀))
        obtain rfl := Option.some.inj (ho.symm.trans ho₀)
        refine haccounts.saves hsaves hpath hrow fun id₁ row₁ hrow₁ => ?_
        rcases quotas_call opts choice ho hcurrent hservice hrow₁ with
          hsame | ⟨x', row₂, hx, _, hid, hrow₂, hsaved, _⟩
        · exact .inl hsame
        · cases hx
          subst hid
          obtain rfl := Option.some.inj (hrow.1.symm.trans hrow₂.1)
          exact .inr ⟨rfl, hsaved⟩
      · -- The write has not reached the service.
        have hsub : ∀ id' row', (exec opts (.write (.quota x)) choice w).2.db.quotas tenant service
            id' row' → w.db.quotas tenant service id' row' := by
          intro id' row' hrow'
          by_contra hnew
          exact hwritten ⟨id', row', hrow', hnew⟩
        exact haccounts.mono hsub
    · have hsub : ∀ id' row', (exec opts c choice w).2.db.quotas tenant service id' row' →
          w.db.quotas tenant service id' row' := by
        intro id' row' hrow'
        rcases quotas_call opts choice ho hcurrent hservice hrow' with hsame | ⟨x, _, hx, _⟩
        · exact hsame
        · exact absurd ⟨x, hx⟩ hc
      refine Accounts.mono ?_ hsub
      have same : o'.kind = o.kind → o'.step = o.step →
        Accounts (w.db.quotas tenant service) id o' := by
        intro hkind hstep
        exact haccounts.congr hkind hstep
      cases hchange with
      | none => exact haccounts
      | cancelled | retried => exact same rfl rfl
      | @advanced t event key checked matched =>
        simp only [Prod.mk.injEq] at key
        obtain ⟨rfl, rfl⟩ := key
        subst hserved
        cases transits_advance h.proper ho checked matched with
        | claimed _ _ step => exact same rfl step
        | advanced _ leads =>
          refine ⟨?_, haccounts.single, haccounts.placed, ?_⟩
          · intro hsole id' row' hrow' hheld
            have hcases : o.Sole ∨ o.step = .releaseQuota ∨ o.step = .releasePreviousQuota := by
              rcases hsole with hcreate | hstart | hprevious | hrelease
              · exact .inl (.inl hcreate)
              · exact .inl (.inr (.inl hstart))
              · rcases leads.left hprevious (by simp) with hearlier | hstep
                · exact .inl (.inr (.inr (.inl hearlier)))
                · exact .inr (.inr hstep)
              · rcases leads.left hrelease (by simp) with hearlier | hstep
                · exact .inl (.inr (.inr (.inr hearlier)))
                · exact .inr (.inl hstep)
            rcases hcases with hsole | hstep
            · exact haccounts.sole hsole id' row' hrow' hheld
            · exact h.released hall hquota haccounted hpast ho matched leads hstep
                hunmanaged hrow' hheld
          · intro hreserved row hrow
            rcases leads.left hreserved (by simp) with hearlier | hstep
            · exact haccounts.confirmed hearlier row hrow
            · obtain ⟨row', hrow', _, hconfirmed⟩ :=
                h.reserved hall hquota ho matched leads hstep hunmanaged
              obtain rfl := Option.some.inj (hrow.1.symm.trans hrow'.1)
              exact hconfirmed

end

section
variable {opts : WorkOptions} {r : Runner} {history : List Entry} {db : Db}

/-- The invariant holds in every database of a run that strands no reservation of the service. -/
theorem Explained.accounted (hall : Explained opts r history) (h : Linked history db)
    (hquota : r.quota = true) (hsteady : ∀ e ∈ history, ¬e.Strands tenant service) :
    db.Accounted tenant service := by
  suffices db.Accounted tenant service ∧
      ∀ e past, e :: past <:+ history → e.before.Accounted tenant service from this.1
  refine h.induction
    (P := fun history db => db.Accounted tenant service ∧
      ∀ e past, e :: past <:+ history → e.before.Accounted tenant service)
    ⟨?_, by simp⟩ fun e past hsuf ⟨hbefore, hpast⟩ => ?_
  · intro _ id o ho
    simp [Db.empty] at ho
  · have hmem : e ∈ history := hsuf.subset List.mem_cons_self
    obtain ⟨c, choice, w, mine, hmade, rfl, rfl⟩ := hall e past hsuf
    have hall' := hall.suffix ((List.suffix_cons _ _).trans hsuf)
    refine ⟨?_, fun e' past' hsuf' => ?_⟩
    · exact Db.Accounted.call hbefore hmade hall' hquota hpast choice (hsteady _ hmem)
    · rcases List.suffix_cons_iff.mp hsuf' with heq | hsuf'
      · injection heq with heq
        exact heq ▸ hbefore
      · exact hpast e' past' hsuf'

end

/-- Once a delete has succeeded, every reservation of its service is given back, provided that the
delete was not accepted before an update or a restart had given the earlier reservation back. -/
theorem quota_returned {opts : WorkOptions} {r : Runner} {s : Pool World Call Call.Answer}
    (h : Running opts r s) (hquota : r.quota = true) {tenant id : Uuid} {o : OperationRow}
    (ho : s.world.db.operations.lookup (tenant, id) = some o) (hdelete : o.kind = .delete)
    (hsucceeded : o.phase = .succeeded)
    (hunmanaged : s.world.db.managedResources.lookup (tenant, o.serviceID) = none)
    (hsteady : ∀ e ∈ s.world.history, ¬e.Strands tenant o.serviceID) {id' : Uuid}
    {row : ReservationRow} (hrow : s.world.db.quotas tenant o.serviceID id' row) :
    row.state = .released := by
  have hall := h.explained
  have hkept := h.kept.1
  have hquotas := hall.quotas h.linked
  have haggregate := hkept.chronicle.sound.aggregate
  have hcurrent : s.world.db.IsCurrent (tenant, id) o := by
    obtain ⟨sv, hsv, _, hid⟩ := haggregate.deleted _ o ho hdelete
    obtain ⟨o', ho', _, htarget⟩ := haggregate.owned _ sv id hsv hid
    obtain rfl := Option.some.inj (ho.symm.trans ho')
    exact ⟨sv, hsv, hid, htarget.symm⟩
  have haccounts := hall.accounted h.linked hquota hsteady hunmanaged id o ho rfl hcurrent
  have hcomplete := (hkept.followed.rows _ _ ho).succeeded hsucceeded
  by_contra hheld
  obtain ⟨_, _, hreserves⟩ := haccounts.succeeded hquotas ho hcomplete hrow hheld
  rw [hdelete] at hreserves
  cases hreserves

/-- A service is created, and deleted as soon as its restart has been accepted. -/
def strandedRun : List Event :=
  oneByOne 0 (Sample.running ++ Sample.commanded .restart 1 20 [] ++
    Sample.commanded .delete 2 30 [24, 20, 21, 21, 20])

/-- The delete gives back the reservation of the restart, which was never made, and succeeds. The
reservation of the create stays confirmed. -/
theorem reservation_stranded :
    Running .default .configured (played .default .configured strandedRun) ∧
    ((played .default .configured strandedRun).world.db.operations.lookup (1, 30)).map
      (fun o => (o.serviceID, o.kind, o.phase)) = some (7, .delete, .succeeded) ∧
    (played .default .configured strandedRun).world.db.managedResources.lookup (1, 7) = none ∧
    ((played .default .configured strandedRun).world.db.reservations.entries.map
      fun row => (row.1, row.2.serviceID, row.2.state)) =
        [((1, 20), 7, .released), ((1, 8), 7, .confirmed)] :=
  ⟨running_played .default .configured strandedRun, by decide +kernel⟩

/-- A service is created, restarted and deleted, each to the end. -/
def returnedRun : List Event :=
  oneByOne 0 (Sample.running ++ Sample.commanded .restart 1 20 Sample.replaceTurns ++
    Sample.commanded .delete 2 30 [24, 20, 21, 21, 21])

/-- Whether a call is made before there is a delete, or while nothing is being replaced. -/
def Entry.calm (e : Entry) : Bool :=
  e.after.operations.entries.all (fun row => row.2.kind ≠ .delete) ||
    e.before.operations.entries.all fun row =>
      !(row.2.phase.active && (row.2.kind = .update || row.2.kind = .restart))

theorem Entry.not_strands {e : Entry} (h : e.calm = true) : ¬e.Strands tenant service := by
  rintro ⟨⟨id, _, o, _, ho, hdelete, _⟩, id₁, o₁, _, _, ho₁, _, hactive, hkind, _⟩
  rw [← Table.mem_entries_iff] at ho ho₁
  simp only [Entry.calm, Bool.or_eq_true, List.all_eq_true] at h
  rcases h with h | h
  · have hother := h _ ho
    simp [hdelete] at hother
  · have hother := h _ ho₁
    simp only [hactive, Bool.true_and, Bool.not_eq_true', Bool.or_eq_false_iff,
      decide_eq_false_iff_not] at hother
    rcases hkind with hkind | hkind
    · exact hother.1 hkind
    · exact hother.2 hkind

theorem quota_returned_returnedRun :
    ∃ o, (played .default .configured returnedRun).world.db.operations.lookup (1, 30) = some o ∧
      ∀ id row, (played .default .configured returnedRun).world.db.quotas 1 o.serviceID id row →
        row.state = .released := by
  have hrun : ((played .default .configured returnedRun).world.db.operations.lookup (1, 30)).map
        (fun o => (o.kind, o.phase, o.serviceID)) = some (.delete, .succeeded, 7) ∧
      (played .default .configured returnedRun).world.db.managedResources.lookup (1, 7) = none ∧
      (played .default .configured returnedRun).world.history.all Entry.calm = true := by
    decide +kernel
  obtain ⟨hrow, hunmanaged, hcalm⟩ := hrun
  obtain ⟨o, ho, heq⟩ := Option.map_eq_some_iff.mp hrow
  simp only [Prod.mk.injEq] at heq
  refine ⟨o, ho, fun id row => ?_⟩
  refine quota_returned (running_played .default .configured returnedRun) rfl ho heq.1 heq.2.1 ?_ ?_
  · rw [heq.2.2]
    exact hunmanaged
  · intro e he
    exact Entry.not_strands (List.all_eq_true.mp hcalm e he)

end AniInference
