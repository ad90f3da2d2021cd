import AniInference.Workers
import AniInference.Schedule

namespace AniInference
open Lib

/-- What a call can do to the work row of the service `k`. -/
inductive WorkChange (now : Time) (token : Uuid) (db db' : Db) (k : Uuid × Uuid) : Call → Prop
  | kept (c : Call) (same : db'.work.lookup k = db.work.lookup k) : WorkChange now token db db' k c
  | notified (c : Call) {dirty : Nat}
      (written : db'.work.lookup k = some (.notified now dirty (db.work.lookup k))) :
      WorkChange now token db db' k c
  | dropped {q : Request} {dirty : Nat} {w : WorkRow} (row : db.work.lookup k = some w)
      (written : db'.work.lookup k = some (.notified now dirty (some (w.dropped now)))) :
      WorkChange now token db db' k (.request q)
  | claimed {tenant : Uuid} {expiry : Time} {w : WorkRow} (row : db.work.lookup k = some w)
      (due : Sql.claimable now w = true)
      (written : db'.work.lookup k = some (Work.claimedRow token expiry w)) :
      WorkChange now token db db' k (.work (.claim tenant))
  | committed {item : Item} {delay : Nat} {w : WorkRow} {s : Service}
      (key : k = (item.tenantID, item.serviceID)) (row : db.work.lookup k = some w)
      (owner : db.services.lookup k = some s) (generation : s.desiredGeneration = item.generation)
      (held : w.heldBy item.leaseToken now = true) (seen : item.dirtyVersion ≤ w.dirtyVersion)
      (written : db'.work.lookup k =
        some (Work.committedRow now item.dirtyVersion delay s w)) :
      WorkChange now token db db' k (.work (.commit item))
  | retried {item : Item} {cause : Err} {delay : Nat} {w : WorkRow}
      (row : db.work.lookup k = some w) (held : w.heldBy item.leaseToken now = true)
      (written : db'.work.lookup k =
        some (Work.retriedRow now delay (workErrorCode cause) w)) :
      WorkChange now token db db' k (.work (.retry item cause))

section
variable {now : Time} {token : Uuid} {db db' : Db} {c : Call}

theorem Unbooked.workChange (h : Unbooked db db') (k : Uuid × Uuid) :
    WorkChange now token db db' k c :=
  .kept c (by rw [h.work])

theorem Booked.workChange {key : Option (Uuid × String × String)} {hash : String} {kind : Kind}
    {reserve : Prop} {tenant service operation : Uuid} {target : Generation} {q : Request}
    (h : Booked now key hash kind reserve tenant service operation target db db')
    (k : Uuid × Uuid) : WorkChange now token db db' k (.request q) := by
  obtain ⟨w, hw, hlookup⟩ := h.work
  by_cases hk : k = (tenant, service)
  · have hwritten := hlookup k
    rw [if_pos hk] at hwritten
    rw [← hk] at hw
    rcases hw with rfl | ⟨_, rfl⟩
    · exact .notified _ hwritten
    · cases hrow : db.work.lookup k with
      | none =>
        rw [hrow, Option.map_none] at hwritten
        exact .notified _ (hrow ▸ hwritten)
      | some w =>
        rw [hrow, Option.map_some] at hwritten
        exact .dropped hrow hwritten
  · refine .kept _ ?_
    rw [hlookup, if_neg hk]

theorem Work.Moves.workChange (h : Work.Moves now token db m db') (k : Uuid × Uuid) :
    WorkChange now token db db' k (.work m) := by
  have other : ∀ {k' : Uuid × Uuid} {row : WorkRow}, k ≠ k' →
      (db.work.insert k' row).lookup k = db.work.lookup k := by
    intro k' row hk
    rw [Table.lookup_insert_ite, if_neg hk]
  cases h with
  | @claimed tenant service expiry w s row owner live due =>
    by_cases hk : k = (tenant, service)
    · subst hk
      exact .claimed row due (AList.lookup_insert _)
    · exact .kept _ (other hk)
  | @committed item delay w s row owner generation held seen =>
    by_cases hk : k = (item.tenantID, item.serviceID)
    · subst hk
      exact .committed rfl row owner generation held seen (AList.lookup_insert _)
    · exact .kept _ (other hk)
  | @retried item cause delay w s row owner live generation held =>
    by_cases hk : k = (item.tenantID, item.serviceID)
    · subst hk
      exact .retried row held (AList.lookup_insert _)
    · exact .kept _ (other hk)
  | @notified tenant service dirty owner =>
    by_cases hk : k = (tenant, service)
    · subst hk
      exact .notified _ (AList.lookup_insert _)
    · exact .kept _ (other hk)
  | @ensured tenant service dirty owner missing =>
    by_cases hk : k = (tenant, service)
    · subst hk
      exact .notified _ (by rw [missing, AList.lookup_insert])
    · exact .kept _ (other hk)
  | closing commands => exact .kept _ rfl

theorem Effect.workRow (h : Effect now token db c db') (k : Uuid × Uuid) :
    WorkChange now token db db' k c := by
  have observed : ∀ {item : Item}, Store.Observed now item db db' →
      WorkChange now token db db' k c := by
    intro item ho
    obtain ⟨_, _, hrest⟩ := ho.rest
    exact .kept c (by rw [hrest])
  cases h with
  | same => exact .kept _ rfl
  | aside _ l | closed _ l | accepted _ l | created _ l | claimed _ l
  | queued _ l => exact l.workChange k
  | committed _ l | requeued _ l => exact l.workChange k
  | advanced hs | retried hs => exact .kept _ (by rw [hs.work])
  | runtimeObserved ho | observed ho => exact observed ho
  | planned hp =>
    obtain ⟨_, _, _, _, rfl⟩ := hp.specs
    exact .kept _ rfl
  | reported _ l =>
    obtain ⟨_, rfl⟩ := l
    exact .kept _ rfl
  | quota | publication | modelObserved | materializing | scopeSaved => exact .kept _ rfl

end

section
variable {now : Time} {token : Uuid} {db db' : Db} {c : Call} {k : Uuid × Uuid}

/-- Services stay, and a service that is deleted stays deleted. -/
theorem Effect.deletedAt (h : Effect now token db c db') (hs : db.services.lookup k = some s) :
    ∃ s', db'.services.lookup k = some s' ∧
      (s.deletedAt.isSome = true → s'.deletedAt.isSome = true) := by
  cases h.serviceChange k with
  | none _ same => exact ⟨s, same.trans hs, id⟩
  | written _ found set _ _ deleted =>
    cases found.symm.trans hs
    exact ⟨_, set, deleted⟩
  | moved ha =>
    cases ha.found.symm.trans hs
    exact ⟨s.moved _ _ _, by rw [ha.services, AList.lookup_insert], id⟩
  | created hc => cases hc.absent.symm.trans hs

/-- Notifications only ever move the dirty version on. -/
theorem WorkChange.dirty (h : WorkChange now token db db' k c)
    (hrow : db.work.lookup k = some row) :
    ∃ row', db'.work.lookup k = some row' ∧ row.dirtyVersion ≤ row'.dirtyVersion := by
  cases h with
  | kept _ same => exact ⟨row, same.trans hrow, le_refl _⟩
  | notified _ written =>
    refine ⟨_, written, ?_⟩
    rw [hrow]
    simp only [WorkRow.notified]
    omega
  | dropped hw written =>
    rw [hrow] at hw
    obtain rfl := Option.some.inj hw
    refine ⟨_, written, ?_⟩
    simp only [WorkRow.notified, WorkRow.dropped, WorkRow.released]
    omega
  | claimed hw _ written | committed _ hw _ _ _ _ written | retried hw _ written =>
    rw [hrow] at hw
    obtain rfl := Option.some.inj hw
    exact ⟨_, written, le_refl _⟩

/-- What is acknowledged was recorded before. -/
theorem WorkChange.acknowledged (h : WorkChange now token db db' k c)
    (hall : ∀ row, db.work.lookup k = some row → row.acknowledgedVersion ≤ row.dirtyVersion)
    (hrow' : db'.work.lookup k = some row') : row'.acknowledgedVersion ≤ row'.dirtyVersion := by
  cases h with
  | kept _ same =>
    rw [same] at hrow'
    exact hall row' hrow'
  | @notified _ dirty written =>
    rw [written] at hrow'
    obtain rfl := Option.some.inj hrow'
    cases hrow : db.work.lookup k with
    | none => exact Nat.zero_le _
    | some row =>
      have hle := hall row hrow
      simp only [WorkRow.notified]
      omega
  | dropped hw written =>
    rw [written] at hrow'
    obtain rfl := Option.some.inj hrow'
    have hle := hall _ hw
    simp only [WorkRow.notified, WorkRow.dropped, WorkRow.released]
    omega
  | claimed hw _ written | retried hw _ written =>
    rw [written] at hrow'
    obtain rfl := Option.some.inj hrow'
    have hle := hall _ hw
    exact hle
  | committed _ hw _ _ _ hseen written =>
    rw [written] at hrow'
    obtain rfl := Option.some.inj hrow'
    have hle := hall _ hw
    simp only [Work.committedRow, WorkRow.released]
    omega

/-- Only a commit for a deleted service takes a row off the schedule. -/
theorem WorkChange.scheduled (h : WorkChange now token db db' k c)
    (hrow' : db'.work.lookup k = some row') (hn : row'.nextRunAt = none) :
    (∃ row, db.work.lookup k = some row ∧ row.nextRunAt = none) ∨
      ∃ s, db.services.lookup k = some s ∧ s.deletedAt.isSome = true := by
  cases h with
  | kept _ same => exact .inl ⟨row', same ▸ hrow', hn⟩
  | notified _ written =>
    rw [written] at hrow'
    obtain rfl := Option.some.inj hrow'
    cases hrow : db.work.lookup k <;> simp [hrow, WorkRow.notified] at hn
  | dropped _ written =>
    rw [written] at hrow'
    obtain rfl := Option.some.inj hrow'
    simp [WorkRow.notified] at hn
  | claimed hw _ written =>
    rw [written] at hrow'
    obtain rfl := Option.some.inj hrow'
    exact .inl ⟨_, hw, hn⟩
  | @committed item delay w s _ hw owner _ _ _ written =>
    rw [written] at hrow'
    obtain rfl := Option.some.inj hrow'
    refine .inr ⟨s, owner, ?_⟩
    by_contra hlive
    simp only [Work.committedRow, if_neg hlive] at hn
    split at hn <;> cases hn
  | retried _ _ written =>
    rw [written] at hrow'
    obtain rfl := Option.some.inj hrow'
    cases hn

/-- A lease that is there was there before, and nothing was acknowledged since, or it is new. -/
theorem WorkChange.lease (h : WorkChange now token db db' k c)
    (hrow' : db'.work.lookup k = some row') (hl : row'.leaseToken = some holder) :
    (∃ row, db.work.lookup k = some row ∧ row.leaseToken = some holder ∧
      row'.acknowledgedVersion = row.acknowledgedVersion) ∨ holder = token := by
  cases h with
  | kept _ same => exact .inl ⟨row', same ▸ hrow', hl, rfl⟩
  | notified _ written =>
    rw [written] at hrow'
    obtain rfl := Option.some.inj hrow'
    cases hrow : db.work.lookup k with
    | none =>
      rw [hrow] at hl
      cases hl
    | some row =>
      rw [hrow] at hl
      exact .inl ⟨row, rfl, hl, rfl⟩
  | dropped _ written | committed _ _ _ _ _ _ written | retried _ _ written =>
    rw [written] at hrow'
    obtain rfl := Option.some.inj hrow'
    cases hl
  | claimed _ _ written =>
    rw [written] at hrow'
    obtain rfl := Option.some.inj hrow'
    exact .inr (Option.some.inj hl).symm

end

/-- The call was a claim, and `item` is what it was given. -/
def Entry.obtains (e : Entry) (item : Item) : Prop :=
  e.seen = ⟨.work (.claim item.tenantID), .ok (some item)⟩

/-- What holds of the queue in every world. -/
structure World.Queue (w : World) : Prop where
  chronicle : w.Chronicle
  acknowledged : ∀ k row, w.db.work.lookup k = some row →
    row.acknowledgedVersion ≤ row.dirtyVersion
  scheduled : ∀ k row, w.db.work.lookup k = some row → row.nextRunAt = none →
    ∃ s, w.db.services.lookup k = some s ∧ s.deletedAt.isSome = true
  -- The holder of a lease claimed at least what is acknowledged.
  holder : ∀ e ∈ w.history, ∀ item row, e.obtains item →
    w.db.work.lookup (item.tenantID, item.serviceID) = some row →
    row.leaseToken = some item.leaseToken → row.acknowledgedVersion ≤ item.dirtyVersion
  dirty : ∀ e ∈ w.history, ∀ k row, e.after.work.lookup k = some row →
    ∃ row', w.db.work.lookup k = some row' ∧ row.dirtyVersion ≤ row'.dirtyVersion

theorem World.queue_start : World.start.Queue where
  chronicle := World.chronicle_start
  acknowledged := by simp [World.start, Db.empty]
  scheduled := by simp [World.start, Db.empty]
  holder := by simp [World.start]
  dirty := by simp [World.start]

section
variable {opts : WorkOptions} {w : World}

/-- A claim is given the row as it finds it. -/
theorem claims_row (h : (c.entry opts choice w).obtains item) :
    item.leaseToken = w.nextToken ∧ ∃ row,
      w.db.work.lookup (item.tenantID, item.serviceID) = some row ∧
      Sql.claimable w.now row = true ∧ item.dirtyVersion = row.dirtyVersion ∧
      (exec opts c choice w).2.db.work.lookup (item.tenantID, item.serviceID) =
        some (Work.claimedRow w.nextToken (w.now + opts.leaseSeconds) row) := by
  obtain ⟨rfl, ha⟩ := Sigma.mk.inj_iff.mp h
  have ha' : (exec opts (.work (.claim item.tenantID)) choice w).1 = .ok (some item) := eq_of_heq ha
  rcases Work.moves_claim (work_runs ha') with ⟨hnone, _⟩ | ⟨row, s, hrow, _, _, hdue, hitem, hdb⟩
  · cases hnone
  · have hid := Option.some.inj hitem
    have hservice : item.serviceID = choice.2 := by rw [hid]
    have hdirty : item.dirtyVersion = row.dirtyVersion := by rw [hid]
    have htoken : item.leaseToken = w.nextToken := by rw [hid]
    refine ⟨htoken, row, by rw [hservice]; exact hrow, hdue, hdirty, ?_⟩
    rw [hdb, hservice]
    exact AList.lookup_insert _

theorem World.Queue.call (h : w.Queue) (c : Call) (choice : c.Choice) :
    (exec opts c choice w).2.Queue where
  chronicle := h.chronicle.exec c choice
  acknowledged k row' hrow' :=
    ((exec_effect opts c choice w).workRow k).acknowledged (h.acknowledged k) hrow'
  scheduled k row' hrow' hn := by
    have heff := exec_effect opts c choice w
    have hold : ∃ s, w.db.services.lookup k = some s ∧ s.deletedAt.isSome = true := by
      rcases (heff.workRow k).scheduled hrow' hn with ⟨row, hrow, hnone⟩ | hdeleted
      · exact h.scheduled k row hrow hnone
      · exact hdeleted
    obtain ⟨s, hs, hdeleted⟩ := hold
    obtain ⟨s', hs', hkept⟩ := heff.deletedAt hs
    exact ⟨s', hs', hkept hdeleted⟩
  holder e he item row' hclaims hrow' hl := by
    rw [exec_history] at he
    rcases List.mem_cons.mp he with rfl | he
    · obtain ⟨_, row, hrow, _, hdirty, hwritten⟩ := claims_row hclaims
      rw [hwritten] at hrow'
      obtain rfl := Option.some.inj hrow'
      rw [hdirty]
      exact h.acknowledged _ row hrow
    · have hchange := (exec_effect opts c choice w).workRow (item.tenantID, item.serviceID)
      rcases hchange.lease hrow' hl with ⟨row, hrow, hl', hack⟩ | htoken
      · rw [hack]
        exact h.holder e he item row hclaims hrow hl'
      · -- The token of this call was not out when the item was claimed.
        have hgrant : e.call.grants e.answer = some item.leaseToken :=
          congrArg (fun s : Exchange => s.1.grants s.2) hclaims
        have hlt := h.chronicle.granted e he _ hgrant
        rw [htoken] at hlt
        exact absurd hlt (Nat.lt_irrefl _)
  dirty e he k row hrow := by
    rw [exec_history] at he
    rcases List.mem_cons.mp he with rfl | he
    · exact ⟨row, hrow, le_refl _⟩
    · obtain ⟨row₁, hrow₁, hle₁⟩ := h.dirty e he k row hrow
      obtain ⟨row₂, hrow₂, hle₂⟩ := ((exec_effect opts c choice w).workRow k).dirty hrow₁
      exact ⟨row₂, hrow₂, le_trans hle₁ hle₂⟩

end

/-- The item that a call gives back, with its work done or to be done again. -/
def Call.returns : Call → Option Item
  | .work (.commit item) | .work (.retry item _) => some item
  | _ => none

/-- The lease the item was claimed under is not held any more, or the service has moved on. -/
def Db.Stale (db : Db) (item : Item) (now : Time) : Prop :=
  db.leaseHeld item.tenantID item.serviceID item.leaseToken now = false ∨
    ∀ s, db.services.lookup (item.tenantID, item.serviceID) = some s →
      s.desiredGeneration ≠ item.generation

/-- The call recorded the version `version` for the service `k`, above all it had before. -/
def Entry.Notifies (e : Entry) (k : Uuid × Uuid) (version : Nat) : Prop :=
  (∃ row, e.after.work.lookup k = some row ∧ row.dirtyVersion = version) ∧
    ∀ row, e.before.work.lookup k = some row → row.dirtyVersion < version

/-- `item` was claimed, then `version` was recorded, and then the claim was committed. -/
structure Overtaken (item : Item) (version : Nat) (claimed notified committed : Entry)
    (history : List Entry) : Prop where
  claim : claimed.obtains item
  notification : notified.Notifies (item.tenantID, item.serviceID) version
  commit : committed.call = .work (.commit item)
  done : committed.after ≠ committed.before
  order : ∃ past past' past'', committed :: past <:+ history ∧ notified :: past' <:+ past ∧
    claimed :: past'' <:+ past'

structure QueueHolds (w : World) : Prop where
  acknowledged : ∀ k row, w.db.work.lookup k = some row →
    row.acknowledgedVersion ≤ row.dirtyVersion
  scheduled : ∀ k row s, w.db.work.lookup k = some row → w.db.services.lookup k = some s →
    s.deletedAt = none → row.nextRunAt.isSome = true
  notified : ∀ e ∈ w.history, ∀ tenant service dirty,
    e.seen = ⟨.work (.notify tenant service dirty), .ok ()⟩ →
    ∃ version, e.Notifies (tenant, service) version
  -- The version is not acknowledged, and the row is due at once.
  wakes : ∀ item version claimed notified committed,
    Overtaken item version claimed notified committed w.history →
    ∃ row, committed.after.work.lookup (item.tenantID, item.serviceID) = some row ∧
      row.acknowledgedVersion < version ∧ Sql.claimable committed.time row = true
  leases : ∀ e ∈ w.history, ∀ tenant, e.call = .work (.claim tenant) → ∀ k row,
    e.before.work.lookup k = some row → row.leaseUntil.any (e.time < ·) = true →
    e.after.work.lookup k = some row
  stale : ∀ e ∈ w.history, ∀ item, e.call.returns = some item → e.before.Stale item e.time →
    e.after = e.before

section
variable {opts : WorkOptions} {w : World}

theorem Work.Moves.not_stale (h : Work.Moves now token db k db')
    (hk : (Call.work k).returns = some item) : ¬db.Stale item now := by
  have held : ∀ {row : WorkRow} {s : Service},
      db.work.lookup (item.tenantID, item.serviceID) = some row →
      db.services.lookup (item.tenantID, item.serviceID) = some s →
      s.desiredGeneration = item.generation → row.heldBy item.leaseToken now = true →
      ¬db.Stale item now := by
    intro row s hrow hs hgen hheld hstale
    rcases hstale with hlease | hother
    · simp [Db.leaseHeld, hrow, hheld] at hlease
    · exact hother s hs hgen
  cases h with
  | committed row owner generation hheld | retried row owner _ generation hheld =>
    obtain rfl := Option.some.inj hk
    exact held row owner generation hheld
  | @closing k _ hcloses => cases k <;> cases hk <;> cases hcloses
  | claimed | notified | ensured => cases hk

/-- What is given back too late changes nothing. -/
theorem stale_returned (hc : c.returns = some item) (hstale : w.db.Stale item w.now) :
    (exec opts c choice w).2.db = w.db := by
  cases c with
  | work k =>
    rcases Txn.settle_state (k.tx opts w.now w.nextToken choice.2) .connection choice.1 w.db with
      hs | ⟨a, ha⟩
    · exact hs
    · exfalso
      cases k with
      | commit item' => exact (Work.runs_commit ha).2.not_stale hc hstale
      | retry item' cause => exact (Work.runs_retry ha).2.not_stale hc hstale
      | _ => cases hc
  | _ => cases hc

/-- A claim leaves the rows alone whose lease still runs. -/
theorem lease_unclaimed (hrow : w.db.work.lookup k = some row)
    (hlive : row.leaseUntil.any (w.now < ·) = true) :
    (exec opts (.work (.claim tenant)) choice w).2.db.work.lookup k = some row := by
  rcases Txn.settle_state ((Work.claim tenant).tx opts w.now w.nextToken choice.2) .connection
    choice.1 w.db with hs | ⟨a, ha⟩
  · change ((Work.claim tenant).tx opts w.now w.nextToken choice.2).settle .connection choice.1
      w.db |>.2.work.lookup k = some row
    rw [hs]
    exact hrow
  · have hrun : Txn.Runs ((Work.claim tenant).tx opts w.now w.nextToken choice.2) w.db a
        (exec opts (.work (.claim tenant)) choice w).2.db := ha
    rcases Work.moves_claim hrun with ⟨_, hdb⟩ | ⟨w', s, hw', _, _, hdue, _, hdb⟩
    · rw [hdb]
      exact hrow
    · rw [hdb, Table.lookup_insert_ite, if_neg]
      · exact hrow
      · intro hk
        rw [hk, hw'] at hrow
        obtain rfl := Option.some.inj hrow
        simp only [Option.any_eq_true, decide_eq_true_eq] at hlive
        obtain ⟨expiry, hexpiry, hlt⟩ := hlive
        simp [Sql.claimable, hexpiry] at hdue
        exact absurd hlt (Nat.not_lt.mpr hdue.1)

/-- A notification that is answered is recorded. -/
theorem notifies_of_answered {c : Call} {choice : c.Choice} {tenant service : Uuid} {dirty : Nat}
    (h : (c.entry opts choice w).seen = ⟨.work (.notify tenant service dirty), .ok ()⟩) :
    ∃ version, (c.entry opts choice w).Notifies (tenant, service) version := by
  obtain ⟨rfl, ha⟩ := Sigma.mk.inj_iff.mp h
  have ha' : (exec opts (.work (.notify tenant service dirty)) choice w).1 = .ok () := eq_of_heq ha
  have hdb := Sql.booked_upsertResourceWork (work_runs ha')
  have hafter : (exec opts (.work (.notify tenant service dirty)) choice w).2.db.work.lookup
      (tenant, service) = some (.notified w.now dirty (w.db.work.lookup (tenant, service))) := by
    rw [hdb]
    exact AList.lookup_insert _
  refine ⟨_, ⟨_, hafter, rfl⟩, fun row hrow => ?_⟩
  · have hrow' : w.db.work.lookup (tenant, service) = some row := hrow
    rw [hrow']
    simp only [WorkRow.notified]
    omega

/-- A commit that comes after a newer version leaves it to be worked on, and at once. -/
theorem World.Queue.wakes (h : w.Queue) (hclaimed : claimed ∈ w.history)
    (hclaims : claimed.obtains item)
    (hrow : w.db.work.lookup (item.tenantID, item.serviceID) = some row)
    (hseen : item.dirtyVersion < version) (hversion : version ≤ row.dirtyVersion)
    (hdone : (exec opts (.work (.commit item)) choice w).2.db ≠ w.db) :
    ∃ row', (exec opts (.work (.commit item)) choice w).2.db.work.lookup
        (item.tenantID, item.serviceID) = some row' ∧
      row'.acknowledgedVersion < version ∧ Sql.claimable w.now row' = true := by
  rcases Txn.settle_state ((Work.commit item).tx opts w.now w.nextToken choice.2) .connection
    choice.1 w.db with hs | ⟨a, ha⟩
  · exact absurd hs hdone
  · have hrun : Txn.Runs ((Work.commit item).tx opts w.now w.nextToken choice.2) w.db a
        (exec opts (.work (.commit item)) choice w).2.db := ha
    have hmoves := (Work.runs_commit hrun).2
    generalize hdb : (exec opts (.work (.commit item)) choice w).2.db = db' at hmoves
    cases hmoves with
    | @committed _ delay row₀ s hrow₀ _ _ hheld _ =>
      rw [hrow] at hrow₀
      obtain rfl := Option.some.inj hrow₀
      have htoken : row.leaseToken = some item.leaseToken := by
        simp only [WorkRow.heldBy, Bool.and_eq_true, decide_eq_true_eq] at hheld
        exact hheld.1
      have hack := h.holder claimed hclaimed item row hclaims hrow htoken
      refine ⟨_, AList.lookup_insert _, ?_, ?_⟩
      · simp only [Work.committedRow]
        omega
      · -- Off the schedule, the versions alone make the row due.
        have hlt : max row.acknowledgedVersion item.dirtyVersion < row.dirtyVersion := by omega
        have hnew : item.dirtyVersion < row.dirtyVersion := by omega
        by_cases hd : s.deletedAt.isSome = true
        · simp [Sql.claimable, Work.committedRow, WorkRow.released, hd] at hlt ⊢
          exact hlt
        · simp [Sql.claimable, Work.committedRow, WorkRow.released, hd, hnew]
    | closing _ hcloses => cases hcloses

end

/-- In every run no wake-up is lost. -/
theorem queue_holds {opts : WorkOptions} {r : Runner} {s : Pool World Call Call.Answer}
    (h : Running opts r s) : QueueHolds s.world := by
  have hall : s.world.Queue ∧ Recorded World.history (Call.entry opts)
    (fun _ w => w.Queue) s.world :=
    reachable_logged exec_history (fun w hw => by subst hw; exact ⟨World.queue_start, rfl⟩)
      (fun c choice w hw => hw.call c choice) h
  obtain ⟨hqueue, hrecorded⟩ := hall
  have made : ∀ e ∈ s.world.history, ∃ c choice w, w.Queue ∧ e = Call.entry opts c choice w := by
    intro e he
    obtain ⟨newer, past, hsplit⟩ := List.append_of_mem he
    obtain ⟨c, choice, w, hw, _, rfl⟩ := hrecorded e past ⟨newer, hsplit.symm⟩
    exact ⟨c, choice, w, hw, rfl⟩
  refine ⟨hqueue.acknowledged, ?_, ?_, ?_, ?_, ?_⟩
  · intro k row service hrow hservice hlive
    by_contra hnone
    have hnone' : row.nextRunAt = none := by simpa using hnone
    obtain ⟨service', hservice', hdeleted⟩ := hqueue.scheduled k row hrow hnone'
    rw [hservice] at hservice'
    obtain rfl := Option.some.inj hservice'
    simp [hlive] at hdeleted
  · intro e he tenant service dirty hseen
    obtain ⟨c, choice, w, _, rfl⟩ := made e he
    exact notifies_of_answered hseen
  · rintro item version claimed notified committed ⟨hclaims, hnotifies, hcommit, hdone, horder⟩
    obtain ⟨past, past', past'', hpast, hpast', hpast''⟩ := horder
    obtain ⟨c, choice, w, hw, hlog, rfl⟩ := hrecorded _ _ hpast
    obtain ⟨c₁, choice₁, w₁, hw₁, hlog₁, rfl⟩ := hrecorded notified past'
      (hpast'.trans ((List.suffix_cons _ _).trans hpast))
    obtain ⟨c₂, choice₂, w₂, hw₂, hlog₂, rfl⟩ := hrecorded claimed past''
      (hpast''.trans ((List.suffix_cons _ _).trans
        (hpast'.trans ((List.suffix_cons _ _).trans hpast))))
    -- The version that was claimed was there when the newer one was recorded.
    obtain ⟨_, row₂, _, _, hdirty, hafter⟩ := claims_row hclaims
    have hmem₂ : c₂.entry opts choice₂ w₂ ∈ w₁.history := by
      rw [hlog₁]
      exact hpast''.subset List.mem_cons_self
    obtain ⟨row₁, hrow₁, hle₁⟩ := hw₁.dirty _ hmem₂ _ _ hafter
    have hlt := hnotifies.2 row₁ hrow₁
    have hle₂ : row₂.dirtyVersion ≤ row₁.dirtyVersion := hle₁
    obtain ⟨⟨row₁', hrow₁', rfl⟩, _⟩ := hnotifies
    have hmem₁ : c₁.entry opts choice₁ w₁ ∈ w.history := by
      rw [hlog]
      exact hpast'.subset List.mem_cons_self
    have hmem₂' : c₂.entry opts choice₂ w₂ ∈ w.history := by
      rw [hlog]
      exact (hpast''.trans ((List.suffix_cons _ _).trans hpast')).subset List.mem_cons_self
    obtain ⟨row, hrow, hle⟩ := hw.dirty _ hmem₁ _ _ hrow₁'
    obtain rfl : c = .work (.commit item) := hcommit
    exact hw.wakes hmem₂' hclaims hrow (by omega) hle hdone
  · intro e he tenant hcall k row hrow hlive
    obtain ⟨c, choice, w, _, rfl⟩ := made e he
    obtain rfl : c = .work (.claim tenant) := hcall
    exact lease_unclaimed hrow hlive
  · intro e he item hreturns hstale
    obtain ⟨c, choice, w, _, rfl⟩ := made e he
    exact stale_returned hreturns hstale

/-- A service is created, and notified about while its first worker is at work. -/
def notifiedRun : List Event :=
  [.start (.request (.create Sample.create)), .calls 0 1 Sample.outside,
    .start (.worker 1), .calls 1 1 Sample.outside,
    .start (.notify 1 7 1), .calls 2 1 Sample.outside,
    .calls 1 18 Sample.outside]

theorem queue_holds_notifiedRun :
    ((played .default .configured notifiedRun).world.db.work.lookup (1, 7)).map
      (fun row => (row.dirtyVersion, row.acknowledgedVersion, row.nextRunAt)) =
        some (2, 1, some 0) ∧
    QueueHolds (played .default .configured notifiedRun).world :=
  ⟨by decide +kernel, queue_holds (running_played .default .configured notifiedRun)⟩

end AniInference
