import AniInference.QuotaSteps

namespace AniInference
open Lib Txn Prog

/-- The call asks the quota authority to reserve for the operation `k`. -/
def Entry.Reserves (k : Uuid × Uuid) (e : Entry) : Prop :=
  ∃ x : Reservation, e.call = .provider (.quotaReserve x) ∧ (x.tenantID, x.operationID) = k

/-- A reservation for the operation `k` has been made at the quota authority. Which calls have
`landed` there is not told by their answers: an answer can be lost. -/
def Landed (landed : Entry → Prop) (k : Uuid × Uuid) (history : List Entry) : Prop :=
  ∃ e ∈ history, e.Reserves k ∧ landed e

/-- No delete comes between a reservation and its record. -/
structure Timely (landed : Entry → Prop) (history : List Entry) : Prop where
  -- When a delete is accepted, no placeholder of its service stands for a reservation.
  recorded : ∀ e past, e :: past <:+ history → ∀ tenant service,
    DeleteAccepted e.before e.after tenant service → ∀ id row,
    e.before.quotas tenant service id row → row.state = .pending →
    ¬Landed landed (tenant, id) past
  -- Nothing is reserved for a service whose delete has been accepted.
  standing : ∀ e past, e :: past <:+ history → ∀ k o s, e.Reserves k → landed e →
    e.before.operations.lookup k = some o → e.before.services.lookup (k.1, o.serviceID) = some s →
    s.desiredState ≠ .deleted

theorem Timely.suffix (h : Timely landed history) (hsuf : past <:+ history) :
    Timely landed past where
  recorded e past' hsuf' := h.recorded e past' (hsuf'.trans hsuf)
  standing e past' hsuf' := h.standing e past' (hsuf'.trans hsuf)

/-- The placeholders of the services that are being deleted stand for nothing. -/
def Db.Unlanded (landed : Entry → Prop) (history : List Entry) (db : Db) : Prop :=
  ∀ tenant id o, db.operations.lookup (tenant, id) = some o → o.kind = .delete → ∀ id' row,
    db.quotas tenant o.serviceID id' row → row.state = .pending →
    ¬Landed landed (tenant, id') history

section
variable {opts : WorkOptions} {r : Runner} {c : Call} {w : World} {mine : List Entry}
variable {landed : Entry → Prop} {tenant id id' : Uuid} {o o' : OperationRow} {row : ReservationRow}

/-- What a delete that is there and a reservation of its service say about the service. -/
theorem Db.Aggregate.standing {db : Db} (h : db.Aggregate) (hquotas : db.Quotas)
    (ho : db.operations.lookup (tenant, id) = some o) (hdelete : o.kind = .delete)
    (hrow : db.quotas tenant o.serviceID id' row) : ∃ o' s,
      db.operations.lookup (tenant, id') = some o' ∧
      db.services.lookup (tenant, o'.serviceID) = some s ∧ s.desiredState = .deleted := by
  obtain ⟨s, hs, hgone, _⟩ := h.deleted _ o ho hdelete
  obtain ⟨o', ho', hservice, _⟩ := hquotas _ row hrow.1
  refine ⟨o', s, ho', ?_, hgone⟩
  rw [← hservice, hrow.2]
  exact hs

theorem Saves.not_pending (h : Saves w x id o row) : x.state ≠ .pending := by
  cases h with
  | reserves _ _ state | releases _ _ _ state
  | replaces _ _ _ _ _ state => rcases state with hs | hs <;> simp [hs]
  | cancels _ _ _ _ state => simp [state]

/-- A call of a port changes no row, so it is not the one that an operation came with. -/
theorem Entry.Reserves.operations (h : (Call.entry opts c choice w).Reserves k) :
    (exec opts c choice w).2.db = w.db := by
  obtain ⟨x, hc, _⟩ := h
  change c = _ at hc
  subst hc
  rfl

theorem Db.Unlanded.call (hunlanded : w.db.Unlanded landed w.history) (h : Made opts r c w mine)
    (hall : Explained opts r w.history) (htimely : Timely landed history) (choice : c.Choice)
    (hsuf : c.entry opts choice w :: w.history <:+ history) :
    (exec opts c choice w).2.db.Unlanded landed (c.entry opts choice w :: w.history) := by
  have heffect := exec_effect opts c choice w
  have hquotas := hall.quotas h.linked
  have haggregate := h.kept.chronicle.sound.aggregate
  have hafter : (exec opts c choice w).2.Chronicle := h.kept.chronicle.exec c choice
  intro tenant id o' ho' hdelete id' row' hrow' hpending
  have hcurrent : (exec opts c choice w).2.db.IsCurrent (tenant, id) o' := by
    obtain ⟨s, hs, _, hid⟩ := hafter.sound.aggregate.deleted _ o' ho' hdelete
    obtain ⟨o₁, ho₁, _, htarget⟩ := hafter.sound.aggregate.owned _ s id hs hid
    obtain rfl := Option.some.inj (ho'.symm.trans ho₁)
    exact ⟨s, hs, hid, htarget.symm⟩
  cases ho : w.db.operations.lookup (tenant, id) with
  | none =>
    -- The delete has just been accepted.
    have hnew := (exec_effect opts c choice w).newOperation ho ho'
    have hold : w.db.quotas tenant o'.serviceID id' row' := by
      obtain ⟨hlookup, hserved⟩ := hrow'
      cases heffect.reservation (tenant, id') with
      | kept _ same =>
        rw [same] at hlookup
        exact ⟨hlookup, hserved⟩
      | placed unused fresh operation reserves written =>
        rw [written] at hlookup
        obtain rfl := Option.some.inj hlookup
        obtain rfl := ((exec_effect opts _ choice w).newOperation fresh operation).unique
          hcurrent hserved
        obtain rfl := Option.some.inj (ho'.symm.trans operation)
        rw [hdelete] at reserves
        cases reserves
      | saved =>
        rw [(quota_rest opts w choice).1, ho] at ho'
        cases ho'
    have haccepted : DeleteAccepted w.db (exec opts c choice w).2.db tenant o'.serviceID := by
      obtain ⟨s, hs, hgone, hid⟩ := hafter.sound.aggregate.deleted _ o' ho' hdelete
      exact ⟨id, s, o', ho, ho', hdelete, rfl, hs, hgone, hid⟩
    intro ⟨e, he, hreserves, hlanded⟩
    rcases List.mem_cons.mp he with rfl | he
    · rw [hreserves.operations, ho] at ho'
      cases ho'
    · exact htimely.recorded _ _ hsuf tenant _ haccepted id' row' hold hpending
        ⟨e, he, hreserves, hlanded⟩
  | some o =>
    obtain ⟨o'', ho'', haim⟩ := heffect.aim ho
    obtain rfl := Option.some.inj (ho'.symm.trans ho'')
    simp only [OperationRow.aim, Prod.mk.injEq] at haim
    have hdelete₀ : o.kind = .delete := haim.2.1.symm.trans hdelete
    have hold : w.db.quotas tenant o.serviceID id' row' := by
      rw [haim.1] at hrow'
      rcases quotas_call opts choice ho hcurrent haim.1 hrow' with
        hsame | ⟨x, row, rfl, rfl, rfl, hrow, rfl, fenced⟩
      · exact hsame
      · obtain ⟨_, _, _, _, _, hsaves⟩ := h.saves hall fenced hrow.1
        exact absurd hpending hsaves.not_pending
    intro ⟨e, he, hreserves, hlanded⟩
    rcases List.mem_cons.mp he with rfl | he
    · obtain ⟨o₁, s, ho₁, hs, hgone⟩ := haggregate.standing hquotas ho hdelete₀ hold
      exact htimely.standing _ _ hsuf (tenant, id') o₁ s hreserves hlanded ho₁ hs hgone
    · exact hunlanded tenant id o ho hdelete₀ id' row' hold hpending ⟨e, he, hreserves, hlanded⟩

end

section
variable {opts : WorkOptions} {r : Runner} {history : List Entry} {db : Db}
variable {landed : Entry → Prop}

theorem Explained.unlanded (hall : Explained opts r history) (h : Linked history db)
    (htimely : Timely landed history) : db.Unlanded landed history := by
  refine h.induction (P := fun past db => db.Unlanded landed past) ?_ fun e past hsuf hbefore => ?_
  · intro tenant id o ho
    simp [Db.empty] at ho
  · obtain ⟨c, choice, w, mine, hmade, rfl, rfl⟩ := hall e past hsuf
    have hall' := hall.suffix ((List.suffix_cons _ _).trans hsuf)
    exact Db.Unlanded.call hbefore hmade hall' htimely choice hsuf

end

/-- A row that is moved to released stands for a reservation the quota authority has released, or
for none, provided that no delete comes between a reservation and its record. -/
theorem released_at_authority {opts : WorkOptions} {r : Runner} {s : Pool World Call Call.Answer}
    (h : Running opts r s) {landed : Entry → Prop} (htimely : Timely landed s.world.history)
    {e : Entry} {past : List Entry} (hsuf : e :: past <:+ s.world.history) {k : Uuid × Uuid}
    {row row' : ReservationRow} (hrow : e.before.reservations.lookup k = some row)
    (hrow' : e.after.reservations.lookup k = some row') (hheld : row.state ≠ .released)
    (hreleased : row'.state = .released) :
    QuotaReleased k row.reservationID past ∨ ¬Landed landed k s.world.history := by
  have hall := h.explained
  have hpast : past <:+ s.world.history := (List.suffix_cons _ _).trans hsuf
  have hunlanded := (hall.suffix hpast).unlanded (h.linked.suffix hsuf) (htimely.suffix hpast)
  obtain ⟨c, choice, w, mine, hmade, rfl, rfl⟩ := hall e past hsuf
  have hall' := hall.suffix hpast
  cases (exec_effect opts c choice w).reservation k with
  | kept _ same =>
    have hsame := hrow'.symm.trans (same.trans hrow)
    obtain rfl := Option.some.inj hsame
    exact absurd hreleased hheld
  | placed unused =>
    have hnone := hrow.symm.trans unused
    cases hnone
  | @saved x row₀ key found generation fenced written =>
    subst key
    obtain rfl := Option.some.inj (hrow.symm.trans found)
    obtain rfl := Option.some.inj (hrow'.symm.trans written)
    change x.state = .released at hreleased
    obtain ⟨id, o, ho, hcurrent, hservice, hsaves⟩ := hmade.saves hall' fenced found
    cases hsaves with
    | reserves _ _ state => rcases state with hs | hs <;> simp [hs] at hreleased
    | releases _ _ _ state | replaces _ _ _ _ _ state =>
      rcases state with hs | hs
      · simp [hs] at hreleased
      · exact .inl hs.2
    | cancels _ delete pending =>
      right
      have hquotas := hall'.quotas hmade.linked
      have hrow₀ : w.db.quotas x.tenantID o.serviceID x.operationID row := ⟨found, hservice⟩
      rintro ⟨z, hz, hreserves, hlanded⟩
      obtain ⟨newer, old, hsplit⟩ := List.append_of_mem hz
      have hzsuf : z :: old <:+ s.world.history := ⟨newer, hsplit.symm⟩
      rcases List.suffix_or_suffix_of_suffix hzsuf hsuf with hearlier | hlater
      · -- Nothing had landed when the delete cancelled the placeholder.
        rcases List.suffix_cons_iff.mp hearlier with heq | hearlier
        · injection heq with heq
          subst heq
          obtain ⟨y, hc, _⟩ := hreserves
          cases hc
        · exact hunlanded x.tenantID id o ho delete _ _ hrow₀ pending
            ⟨z, hearlier.subset List.mem_cons_self, hreserves, hlanded⟩
      · -- And nothing lands after it.
        rcases List.suffix_cons_iff.mp hlater with heq | hbehind
        · injection heq with heq
          subst heq
          obtain ⟨y, hc, _⟩ := hreserves
          cases hc
        · obtain ⟨o₁, ho₁, hservice₁, _⟩ := hquotas _ row found
          obtain ⟨c', choice', w', mine', hmade', rfl, rfl⟩ := hall z old hzsuf
          have hrows := hmade'.kept.chronicle.rows _ _ hbehind
          obtain ⟨o₂, ho₂, haim₂⟩ := hrows _ o ho
          obtain ⟨o₃, ho₃, haim₃⟩ := hrows _ o₁ ho₁
          simp only [OperationRow.aim, Prod.mk.injEq] at haim₂ haim₃
          obtain ⟨sv, hsv, hgone, _⟩ := hmade'.kept.chronicle.sound.aggregate.deleted _ o₂ ho₂
            (haim₂.2.1.trans delete)
          refine htimely.standing _ _ hzsuf _ o₃ sv hreserves hlanded ho₃ ?_ hgone
          rw [haim₃.1, ← hservice₁, hservice, ← haim₂.1]
          exact hsv

/-- The operation a reservation was made for, where the answer tells so. -/
def Entry.reserved : Entry → Option (Uuid × Uuid)
  | ⟨.provider (.quotaReserve x), .ok _, _, _, _⟩ => some (x.tenantID, x.operationID)
  | _ => none

/-- Whether a call asks the quota authority to release. -/
def Entry.releases : Entry → Bool
  | ⟨.provider (.quotaRelease _), _, _, _, _⟩ => true
  | _ => false

def Entry.quotaStates (e : Entry) (k : Uuid × Uuid) : Option QuotaState × Option QuotaState :=
  ((e.before.reservations.lookup k).map (·.state), (e.after.reservations.lookup k).map (·.state))

/-- The worker that creates a service dies when its reservation has been made, and the service is
deleted. -/
def orphanedRun : List Event :=
  oneByOne 0 (Sample.created Sample.create [19, 17] Sample.outside ++
    Sample.commanded .delete 1 30 [24, 20, 21, 21, 20])

/-- The delete cancels the placeholder, and no one is ever asked to release the reservation. -/
theorem reservation_orphaned :
    Running .default .configured (played .default .configured orphanedRun) ∧
    (∃ e ∈ (played .default .configured orphanedRun).world.history, e.reserved = some (1, 8)) ∧
    (∃ e ∈ (played .default .configured orphanedRun).world.history,
      e.quotaStates (1, 8) = (some .pending, some .released)) ∧
    ∀ e ∈ (played .default .configured orphanedRun).world.history, e.releases = false :=
  ⟨running_played .default .configured orphanedRun, by decide +kernel⟩

/-- A service is created and deleted, each to the end. -/
def recordedRun : List Event :=
  oneByOne 0 (Sample.running ++ Sample.commanded .delete 1 30 [24, 20, 21, 21, 21])

/-- Whether a call brings no delete while there are placeholders, and reserves for no service that
is being deleted. -/
def Entry.punctual (e : Entry) : Bool :=
  (e.after.operations.entries.all (fun row =>
      row.2.kind ≠ .delete || (e.before.operations.lookup row.1).isSome) ||
    e.before.reservations.entries.all fun row => row.2.state ≠ .pending) &&
  (e.reserved.isNone || e.before.services.entries.all fun row => row.2.desiredState ≠ .deleted)

theorem Timely.of_checks (h : history.all Entry.punctual = true) :
    Timely (fun e => e.reserved.isSome = true) history := by
  simp only [List.all_eq_true, Entry.punctual, Bool.and_eq_true, Bool.or_eq_true] at h
  refine ⟨fun e past hsuf tenant service haccepted id row hrow hpending => ?_,
    fun e past hsuf k o s _ hlanded _ hs hgone => ?_⟩
  · obtain ⟨id', _, o', hnone, ho', hdelete, _⟩ := haccepted
    rcases (h e (hsuf.subset List.mem_cons_self)).1 with hdeletes | hplaceholders
    · have hknown := hdeletes _ (Table.mem_entries_iff.mpr ho')
      simp [hdelete, hnone] at hknown
    · have hstate := hplaceholders _ (Table.mem_entries_iff.mpr hrow.1)
      simp [hpending] at hstate
  · rcases (h e (hsuf.subset List.mem_cons_self)).2 with hanswer | hservices
    · rw [Option.isNone_iff_eq_none] at hanswer
      rw [hanswer] at hlanded
      cases hlanded
    · have hstate := hservices _ (Table.mem_entries_iff.mpr hs)
      simp [hgone] at hstate

theorem released_at_authority_recordedRun :
    ∃ e past row, e :: past <:+ (played .default .configured recordedRun).world.history ∧
      e.before.reservations.lookup (1, 8) = some row ∧
      (QuotaReleased (1, 8) row.reservationID past ∨
        ¬Landed (fun e => e.reserved.isSome = true) (1, 8)
          (played .default .configured recordedRun).world.history) := by
  have hrun : (∃ e ∈ (played .default .configured recordedRun).world.history,
        e.quotaStates (1, 8) = (some .confirmed, some .released)) ∧
      (played .default .configured recordedRun).world.history.all Entry.punctual = true := by
    decide +kernel
  obtain ⟨⟨e, he, hstates⟩, hpunctual⟩ := hrun
  simp only [Entry.quotaStates, Prod.mk.injEq, Option.map_eq_some_iff] at hstates
  obtain ⟨⟨row, hrow, hheld⟩, row', hrow', hreleased⟩ := hstates
  obtain ⟨newer, past, hsplit⟩ := List.append_of_mem he
  refine ⟨e, past, row, ⟨newer, hsplit.symm⟩, hrow, ?_⟩
  exact released_at_authority (running_played .default .configured recordedRun)
    (Timely.of_checks hpunctual) ⟨newer, hsplit.symm⟩ hrow hrow' (by simp [hheld]) hreleased

end AniInference
