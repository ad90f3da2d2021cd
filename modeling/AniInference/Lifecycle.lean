import AniInference.Acceptance
import AniInference.Idempotency
import AniInference.QuotaSteps

namespace AniInference
open Lib Txn Prog

section
variable {opts : WorkOptions} {r : Runner} {history : List Entry} {db : Db}

theorem QuotaConfirmed.cons {id : ReservationID} (h : QuotaConfirmed k id history)
    (e : Entry) : QuotaConfirmed k id (e :: history) := by
  obtain ⟨x, hk, hid, hconfirmed⟩ := h
  have happend : x.ConfirmedBy ([e.seen] ++ history.map Entry.seen) := hconfirmed.append
  exact ⟨x, hk, hid, happend⟩

/-- What is recorded as confirmed, the quota authority has confirmed. -/
def Db.Confirmed (db : Db) (history : List Entry) : Prop :=
  ∀ k row, db.reservations.lookup k = some row → row.state = .confirmed →
    QuotaConfirmed k row.reservationID history

theorem Explained.confirmed (hall : Explained opts r history) (h : Linked history db) :
    db.Confirmed history := by
  refine h.induction (P := fun past db => db.Confirmed past) ?_
    fun e past hsuf ih k row hrow hstate => ?_
  · intro k row hrow
    simp [Db.empty] at hrow
  obtain ⟨c, choice, w, mine, hmade, rfl, rfl⟩ := hall e past hsuf
  change (exec opts c choice w).2.db.reservations.lookup k = some row at hrow
  cases (exec_effect opts c choice w).reservation k with
  | kept _ same => exact (ih k row (same ▸ hrow) hstate).cons _
  | placed _ _ _ _ written =>
    -- A placeholder is not confirmed.
    obtain rfl := Option.some.inj (hrow.symm.trans written)
    cases hstate
  | @saved x _ key found _ fenced written =>
    obtain rfl := Option.some.inj (hrow.symm.trans written)
    subst key
    have hpast := hall.suffix ((List.suffix_cons _ _).trans hsuf)
    obtain ⟨_, _, _, _, _, hsaves⟩ := hmade.saves hpast fenced found
    replace hstate : x.state = .confirmed := hstate
    cases hsaves with
    | reserves _ _ state =>
      rcases state with hreserved | ⟨_, hconfirmed⟩
      · cases hreserved.symm.trans hstate
      · exact hconfirmed.cons _
    | cancels _ _ _ _ state => cases state.symm.trans hstate
    | releases _ _ _ state | replaces _ _ _ _ _ state =>
      rcases state with hpending | ⟨hreleased, _⟩
      · cases hpending.symm.trans hstate
      · cases hreleased.symm.trans hstate

/-- An operation on an unmanaged service leaves the step that reserves quota only with a
reservation of its generation on record, which the quota authority has confirmed. -/
theorem reserve_left_confirmed {s : Pool World Call Call.Answer} (hr : Running opts r s)
    (hquota : r.quota = true) {e : Entry} {past : List Entry} {tenant id : Uuid}
    {o o' : OperationRow} (hsuf : e :: past <:+ s.world.history)
    (ho : e.before.operations.lookup (tenant, id) = some o)
    (ho' : e.after.operations.lookup (tenant, id) = some o')
    (hstep : o.step = .reserveQuota) (hleft : o'.step ≠ .reserveQuota)
    (hunmanaged : e.before.managedResources.lookup (tenant, o.serviceID) = none) :
    ∃ row, e.before.quotas tenant o.serviceID id row ∧ row.generation = o.targetGeneration ∧
      row.state = .confirmed ∧ QuotaConfirmed (tenant, id) row.reservationID past := by
  have hpast := hr.explained.suffix ((List.suffix_cons _ _).trans hsuf)
  obtain ⟨c, choice, w, mine, hmade, rfl, rfl⟩ := hr.explained e past hsuf
  obtain ⟨o₁, ho₁, hchange⟩ := (exec_effect opts c choice w).operation ho
  obtain rfl := Option.some.inj (ho'.symm.trans ho₁)
  cases hchange with
  | none | cancelled | retried => exact absurd hstep hleft
  | @advanced t event key checked matched =>
    simp only [Prod.mk.injEq] at key
    obtain ⟨rfl, rfl⟩ := key
    cases transits_advance hmade.proper ho checked matched with
    | claimed _ _ step => exact absurd (step.trans hstep) hleft
    | advanced _ leads =>
      obtain ⟨row, hrow, hgeneration, hstate⟩ :=
        hmade.reserved hpast hquota ho matched leads hstep hunmanaged
      exact ⟨row, hrow, hgeneration, hstate,
        hpast.confirmed (hr.linked.suffix hsuf) _ row hrow.1 hstate⟩

end

theorem reserve_left_confirmed_createRun :
    ∃ e past row, e :: past <:+ (played .default .configured createRun).world.history ∧
      e.before.quotas 1 7 8 row ∧ row.state = .confirmed ∧
      QuotaConfirmed (1, 8) row.reservationID past := by
  have hrun : ∃ e ∈ (played .default .configured createRun).world.history,
      (e.before.operations.lookup (1, 8)).map (fun o => (o.step, o.serviceID)) =
        some (.reserveQuota, 7) ∧
      (e.after.operations.lookup (1, 8)).map (·.step) = some .resolveGPU ∧
      (e.before.managedResources.lookup (1, 7)).isNone = true := by
    decide +kernel
  simp only [Option.map_eq_some_iff, Prod.mk.injEq, Option.isNone_iff_eq_none] at hrun
  obtain ⟨e, he, ⟨o, ho, hstep, hservice⟩, ⟨o', ho', hstep'⟩, hunmanaged⟩ := hrun
  obtain ⟨newer, past, hsplit⟩ := List.append_of_mem he
  obtain ⟨row, hrow, _, hstate, hconfirmed⟩ := reserve_left_confirmed
    (running_played .default .configured createRun) rfl ⟨newer, hsplit.symm⟩ ho ho' hstep
    (by simp [hstep']) (hservice ▸ hunmanaged)
  exact ⟨e, past, row, ⟨newer, hsplit.symm⟩, hservice ▸ hrow, hstate, hconfirmed⟩

section
variable {opts : WorkOptions} {r : Runner} {history : List Entry} {z : Entry} {k : Uuid × Uuid}

/-- The service `k` is there, and aims at `aim`. -/
def Db.Aims (db : Db) (k : Uuid × Uuid) (aim : DesiredState × Generation × Option Uuid) : Prop :=
  ∃ s, db.services.lookup k = some s ∧ s.aim = aim

/-- A call leaves a service that is to be deleted to its delete. -/
theorem Explained.deleted_kept (h : Explained opts r history) (hz : z ∈ history)
    (hs : z.before.Aims k aim) (hdeleted : aim.1 = .deleted) :
    ¬z.before.Adds z.after k ∧ z.after.Aims k aim := by
  obtain ⟨s, hs, rfl⟩ := hs
  change s.desiredState = .deleted at hdeleted
  obtain ⟨newer, past, hsplit⟩ := List.append_of_mem hz
  obtain ⟨c, choice, w, _, _, _, rfl⟩ := h z past ⟨newer, hsplit.symm⟩
  have hadds : ¬w.db.Adds (exec opts c choice w).2.db k := by
    rintro ⟨id, o, hfresh, ho, hservice⟩
    cases (exec_effect opts c choice w).newOperation hfresh ho with
    | created _ absent =>
      rw [hservice] at absent
      cases absent.symm.trans hs
    | accepted _ found admits =>
      rw [hservice] at found
      obtain rfl := Option.some.inj (found.symm.trans hs)
      rw [hdeleted] at admits
      revert admits
      cases o.kind <;> simp [Kind.Admits]
  obtain ⟨s', hs', haim⟩ := (exec_effect opts c choice w).service_kept hs
  obtain ⟨s'', hs'', hraises⟩ := (exec_effect opts c choice w).raises hs
  obtain rfl := Option.some.inj (hs'.symm.trans hs'')
  have hgeneration := (hraises.resolve_left fun hadded => hadds hadded.1).2
  refine ⟨hadds, s', hs', haim.resolve_right fun hraised => ?_⟩
  exact Nat.succ_ne_self _ (hraised.symm.trans hgeneration)

/-- A delete is final: once a service is to be deleted, no command on it is accepted any more, and
it stays with the operation that deletes it. -/
theorem deletion_final {s : Pool World Call Call.Answer} (hr : Running opts r s) {e : Entry}
    {past : List Entry} {s₀ : Service} (hsuf : e :: past <:+ s.world.history)
    (hs : e.after.services.lookup k = some s₀) (hdeleted : s₀.desiredState = .deleted) :
    s.world.db.Aims k s₀.aim ∧
      ∀ z old, z :: old <:+ s.world.history → e :: past <:+ old → ¬z.before.Adds z.after k := by
  have step : ∀ z ∈ s.world.history, z.before.Aims k s₀.aim →
      ¬z.before.Adds z.after k ∧ z.after.Aims k s₀.aim :=
    fun z hz h => hr.explained.deleted_kept hz h hdeleted
  refine ⟨hr.linked.later (Q := (·.Aims k s₀.aim)) (fun z hz h => (step z hz h).2) hsuf
    ⟨s₀, hs, rfl⟩, fun z old hz hold => ?_⟩
  refine (step z (hz.subset List.mem_cons_self) ?_).1
  refine (hr.linked.suffix hz).later (Q := (·.Aims k s₀.aim)) (fun z' hz' h => (step z' ?_ h).2)
    hold ⟨s₀, hs, rfl⟩
  exact hz.subset (List.mem_cons_of_mem _ hz')

end

theorem deletion_final_repeatedDelete :
    ∃ e past, (played .default .configured repeatedDelete).world.history = e :: past ∧
      (played .default .configured repeatedDelete).world.db.Aims (1, 7) (.deleted, 2, some 20) ∧
      ¬e.before.Adds e.after (1, 7) := by
  refine ⟨_, _, rfl, ?_⟩
  obtain ⟨s, hs, haim⟩ := Option.map_eq_some_iff.mp (show Option.map Service.aim
    ((played .default .configured repeatedDelete).world.history.tail.head?.bind
      (·.after.services.lookup (1, 7))) = some (.deleted, 2, some 20) by decide +kernel)
  have hfinal := deletion_final (running_played .default .configured repeatedDelete)
    (List.suffix_cons _ _) hs (congrArg Prod.fst haim)
  exact ⟨haim ▸ hfinal.1, hfinal.2 _ _ (List.suffix_refl _) (List.suffix_refl _)⟩

section
variable {now : Time} {token : Uuid} {db db' : Db} {k : Uuid × Uuid}

theorem Db.serviceless_insert (hs : db.services.lookup k' = some s)
    (hn : db.services.lookup k = none) : (db.services.insert k' row).lookup k = none := by
  rw [Table.lookup_insert_ite, if_neg, hn]
  rintro rfl
  cases hn.symm.trans hs

/-- Services come from requests only. -/
theorem Effect.serviceless (h : Effect now token db c db') (hc : ∀ q, c ≠ .request q)
    (hn : db.services.lookup k = none) : db'.services.lookup k = none := by
  cases h.serviceChange k with
  | none _ same => exact same.trans hn
  | written _ found => cases found.symm.trans hn
  | moved | created => exact absurd rfl (hc _)

theorem Accepted.serviceless (h : Accepted now tenant service operation kind digest s db db')
    (hn : db.services.lookup k = none) : db'.services.lookup k = none :=
  h.services ▸ Db.serviceless_insert h.found hn

/-- A create of Governance goes on only while no delete has closed the resource. -/
theorem Managed.Prepared.open (h : Prepared c .create operation db (.fresh c') db')
    (hm : db.managedResources.lookup (c.context.tenantID, c.context.resourceID) = some m) :
    m.deleteOperationID = none := by
  generalize hintake : Intake.fresh c' = intake at h
  cases h with
  | replay | blocked => cases hintake
  | delete _ _ _ _ delete => cases delete
  | again _ _ found _ create =>
    obtain rfl := Option.some.inj (found.symm.trans hm)
    exact create rfl
  | record _ absent => cases absent.symm.trans hm

theorem Managed.serviceless_createService (hc : input.managed = some c)
    (h : Runs (Managed.createService now fresh input) db result db')
    (hm : db.managedResources.lookup k = some m) (hclosed : m.deleteOperationID.isSome = true)
    (hn : db.services.lookup k = none) : db'.services.lookup k = none := by
  simp only [Managed.createService, hc, runs_bind, runs_reject] at h
  obtain ⟨_, _, ⟨hfits, _, rfl⟩, intake, db₁, hprepare, h⟩ := h
  have hsame := (aside_prepareManagedCommand hprepare : Aside (fun _ => False) _ _).services
  rw [← hsame] at hn
  cases intake with
  | replay response =>
    obtain ⟨_, rfl⟩ := runs_pure.mp h
    exact hn
  | closing c' => exact (aside_blockCreate h).services ▸ hn
  | fresh c' =>
    simp only [runs_bind, runs_pure] at h
    obtain ⟨_, _, haccept, _, _, hpersist, _, rfl⟩ := h
    obtain ⟨_, he⟩ := (runs_acceptCreate haccept).services
    rw [(aside_persistManagedCommand hpersist : Aside (fun _ => False) _ _).services, he,
      Table.lookup_insert_ite, if_neg, hn]
    rintro rfl
    rw [← not_not.mp (not_or.mp hfits).1] at hm
    rw [(runs_prepareManagedCommand hprepare).open hm] at hclosed
    cases hclosed

end

/-- The ids drawn for direct creates are none that Governance gave out. -/
def DrawnApart (history : List Entry) : Prop :=
  ∀ z ∈ history, ∀ input k, z.call = .request (.create input) → input.managed = none →
    z.before.services.lookup k = none → z.after.services.lookup k ≠ none →
    z.before.managedResources.lookup k = none

section
variable {opts : WorkOptions} {r : Runner} {history : List Entry} {z : Entry} {k : Uuid × Uuid}

/-- A resource that is closed without a service gets none. -/
theorem Explained.serviceless (h : Explained opts r history) (hapart : DrawnApart history)
    (hz : z ∈ history) (hm : z.before.managedResources.lookup k = some m)
    (hclosed : m.deleteOperationID.isSome = true) (hn : z.before.services.lookup k = none) :
    z.after.services.lookup k = none := by
  by_cases hcall : ∃ q, z.call = .request q
  · obtain ⟨q, hcall⟩ := hcall
    obtain ⟨fault, fresh, _, hafter⟩ := h.request hz hcall
    rcases settle_state (q.tx z.time fresh) .connection fault z.before with hsame | ⟨a, hrun⟩
    · rw [hafter, hsame, hn]
    rw [← hafter] at hrun
    cases q with
    | command input =>
      rcases Commands.runs_command hrun with hsame | ⟨_, ha, _⟩
      · exact hsame ▸ hn
      · exact ha.serviceless hn
    | update input =>
      rcases Commands.runs_update hrun with hsame | ⟨_, ha, _⟩
      · exact hsame ▸ hn
      · exact ha.serviceless hn
    | create input =>
      cases hmanaged : input.managed with
      | none =>
        by_contra hs
        cases (hapart z hz input k hcall hmanaged hn hs).symm.trans hm
      | some c => exact Managed.serviceless_createService hmanaged hrun hm hclosed hn
    | prepareCreate c => exact (Managed.runs_prepareCreate hrun).1.services ▸ hn
    | managedDelete input =>
      rcases Managed.runs_acceptManagedDelete hrun with ⟨ha, _⟩ | ⟨_, _, ⟨hc, _⟩ | ⟨_, ha, _⟩⟩
      · exact ha.services ▸ hn
      · exact hc.services ▸ hn
      · exact ha.serviceless hn
  · obtain ⟨token, heffect⟩ := h.effect hz
    exact heffect.serviceless (fun q hq => hcall ⟨q, hq⟩) hn

/-- What Governance recorded of a resource is kept: its class, its create with the original context
and, once it is set, the delete that closes it. A resource closed without a service gets none. -/
theorem closed_resource_stays {s : Pool World Call Call.Answer} (hr : Running opts r s)
    (hapart : DrawnApart s.world.history) {e : Entry} {past : List Entry} {m : ManagedResource}
    (hsuf : e :: past <:+ s.world.history) (hm : e.after.managedResources.lookup k = some m) :
    ∃ m', s.world.db.managedResources.lookup k = some m' ∧ m.Keeps m' ∧
      (m.deleteOperationID.isSome = true → e.after.services.lookup k = none →
        s.world.db.services.lookup k = none) := by
  have hlater := hr.linked.later (Q := fun db => ManagedKept e.after db ∧
    (m.deleteOperationID.isSome = true → e.after.services.lookup k = none →
      db.services.lookup k = none)) (fun z hz hQ => ?_) hsuf ⟨.of_eq rfl, fun _ hn => hn⟩
  · obtain ⟨m', hm', hkeeps⟩ := hlater.1.kept k m hm
    exact ⟨m', hm', hkeeps, hlater.2⟩
  · obtain ⟨m', hm', hkeeps⟩ := hQ.1.kept k m hm
    obtain ⟨token, heffect⟩ := hr.explained.effect hz
    refine ⟨hQ.1.trans heffect.managed, fun hclosed hn => ?_⟩
    refine hr.explained.serviceless hapart hz hm' ?_ (hQ.2 hclosed hn)
    rw [hkeeps.deleteOperationID hclosed]
    exact hclosed

end

/-- Governance deletes a service before its create is delivered. -/
def deletedFirst : List Event :=
  oneByOne 0 [(.request (.managedDelete (Sample.managedDelete 40)), 1, Sample.outside),
    (.request (.create Sample.managedCreate), 1, Sample.outside)]

theorem closed_resource_stays_deletedFirst :
    ((played .default .configured deletedFirst).world.db.managedCommands.lookup (1, 8)).isSome =
      true ∧
    (played .default .configured deletedFirst).world.db.services.lookup (1, 7) = none := by
  obtain ⟨m, hm, hclosed⟩ := Option.map_eq_some_iff.mp (show Option.map (·.deleteOperationID)
    ((played .default .configured deletedFirst).world.history.tail.head?.bind
      (·.after.managedResources.lookup (1, 7))) = some (some 40) by decide +kernel)
  have hapart : DrawnApart (played .default .configured deletedFirst).world.history := by
    intro z hz input k hcall hmanaged
    have hmem : z.call ∈ [Call.request (.create Sample.managedCreate),
        .request (.managedDelete (Sample.managedDelete 40))] := List.mem_map_of_mem hz
    rw [hcall] at hmem
    simp only [List.mem_cons, Call.request.injEq, Request.create.injEq, reduceCtorEq, or_false,
      List.not_mem_nil] at hmem
    subst hmem
    cases hmanaged
  obtain ⟨_, _, _, hnone⟩ := closed_resource_stays
    (running_played .default .configured deletedFirst) hapart (List.suffix_cons _ _) hm
  exact ⟨by decide +kernel, hnone (by rw [hclosed]; rfl) (by decide +kernel)⟩
end AniInference
