import AniInference.Aggregate

namespace AniInference
open Lib Txn

/-- What a call made in `w` leaves in the history. -/
def Call.entry (opts : WorkOptions) (c : Call) (choice : c.Choice) (w : World) : Entry :=
  let r := c.perform opts choice w
  ⟨c, r.1, w.db, r.2, w.now⟩

/-- A call with its answer. -/
def Entry.seen (e : Entry) : Exchange := ⟨e.call, e.answer⟩

section
variable {opts : WorkOptions}

theorem exec_history (c : Call) (choice : c.Choice) (w : World) :
    (exec opts c choice w).2.history = c.entry opts choice w :: w.history := rfl

theorem seen_entry (c : Call) (choice : c.Choice) (w : World) :
    (c.entry opts choice w).seen = ⟨c, (exec opts c choice w).1⟩ := rfl

theorem entry_seen (h : (exec opts c choice w).1 = a) : (c.entry opts choice w).seen = ⟨c, a⟩ := by
  rw [seen_entry, h]

theorem exec_now_le (c : Call) (choice : c.Choice) (w : World) :
    w.now ≤ (exec opts c choice w).2.now := Nat.le_add_right _ _

theorem exec_nextToken (c : Call) (choice : c.Choice) (w : World) :
    (exec opts c choice w).2.nextToken = w.nextToken + 1 := rfl

end

/-- A call that was answered ran. -/
theorem work_runs (h : (exec opts (.work k) choice w).1 = .ok a) :
    Runs (k.tx opts w.now w.nextToken choice.2) w.db a (exec opts (.work k) choice w).2.db :=
  settle_ok (x := k.tx opts w.now w.nextToken choice.2) h

theorem read_runs (h : (exec opts (.read q) fault w).1 = .ok a) :
    Runs (q.tx w.now) w.db a w.db := by
  have hrun : Runs (q.tx w.now) w.db a (exec opts (.read q) fault w).2.db :=
    settle_ok (x := q.tx w.now) h
  rwa [Read.runs_same hrun] at hrun

theorem read_db : (exec opts (.read q) fault w).2.db = w.db := by
  rcases settle_state (q.tx w.now) .connection fault w.db with hs | ⟨a, ha⟩
  · exact hs
  · exact Read.runs_same ha

theorem write_runs (h : (exec opts (.write x) fault w).1 = .ok ()) :
    Runs (x.tx w.now) w.db () (exec opts (.write x) fault w).2.db :=
  settle_ok (x := x.tx w.now) h

/-- The lease token a write presents to its fence. -/
def Write.token : Write → Uuid
  | .advance t _ | .retry t _ _ => t.leaseToken
  | .quota r => r.leaseToken
  | .publication p => p.leaseToken
  | .observation item _ => item.leaseToken
  | .runtimeObservation op _ | .modelObservation op _ | .modelMaterializing op | .gpuSnapshot op _
  | .releaseScope op _ => op.leaseToken
  | .releaseReport _ _ _ token => token

def Call.presents : Call → Option Uuid
  | .write x => some x.token
  | .work (.commit item) | .work (.retry item _) => some item.leaseToken
  | .work (.retryClose item) | .work (.completeClose item) => some item.leaseToken
  | _ => none

/-- A claim hands out the token of the lease it took. -/
def Call.grants : (c : Call) → c.Answer → Option Uuid
  | .work (.claim _), .ok (some item) => some item.leaseToken
  | .work (.claimClose _), .ok (some item) => some item.leaseToken
  | _, _ => none

def leaseTokens : Tokens World Call Uuid Call.Answer where
  presents := Call.presents
  grants := Call.grants
  issued := fun w token => token < w.nextToken

theorem claim_answer (h : (exec opts (.work (.claim tenant)) choice w).1 = .ok (some item)) :
    item.tenantID = tenant ∧ item.leaseToken = w.nextToken ∧
      Claimed w.now w.nextToken (w.now + opts.leaseSeconds) tenant item.serviceID w.db
        (exec opts (.work (.claim tenant)) choice w).2.db := by
  rcases Work.runs_claim (work_runs h) with ⟨hnone, _⟩ | ⟨hc, i, hi, ht, hs, htok⟩
  · cases hnone
  · obtain rfl := Option.some.inj hi
    exact ⟨ht, htok, hs ▸ hc⟩

theorem grants_eq {opts : WorkOptions} {c : Call} {choice : c.Choice} {w : World} {token : Uuid}
    (h : c.grants (exec opts c choice w).1 = some token) : token = w.nextToken := by
  cases c with
  | work k =>
    cases k with
    | claim tenant =>
      cases ha : (exec opts (.work (.claim tenant)) choice w).1 with
      | error e =>
        rw [ha] at h
        cases h
      | ok o =>
        rw [ha] at h
        cases o with
        | none => cases h
        | some item =>
          obtain rfl := Option.some.inj h
          exact (claim_answer ha).2.1
    | commit item | retry item cause | notify tenant service dirty
    | repair tenant service dirty => cases h
    | claimClose tenant =>
      cases ha : (exec opts (.work (.claimClose tenant)) choice w).1 with
      | error e =>
        rw [ha] at h
        cases h
      | ok o =>
        rw [ha] at h
        cases o with
        | none => cases h
        | some item =>
          obtain rfl := Option.some.inj h
          exact ((Work.runs_claimClose (work_runs ha)).2 item rfl).2
    | retryClose item | completeClose item => cases h
  | read r | write x | request q | provider p | clock | tick => cases h

theorem leaseTokens_lawful (opts : WorkOptions) : leaseTokens.Lawful (exec opts) where
  keep c choice w token h := Nat.lt_succ_of_lt h
  fresh c choice w token h hi := by
    have ht : token = w.nextToken := grants_eq h
    exact absurd hi (ht ▸ Nat.lt_irrefl _)
  grant c choice w token h := by
    have ht : token = w.nextToken := grants_eq h
    exact ht ▸ Nat.lt_succ_self _

/-- A call by which a worker gives its lease back. -/
def Call.settles : Call → Option Uuid
  | .work (.commit item) | .work (.retry item _) => some item.leaseToken
  | _ => none

/-- What a call does to the lease of a service: it leaves it, claims it, gives it back for its
holder, or takes it away where a command is accepted. -/
inductive LeaseChange (now : Time) (token : Uuid) (db db' : Db) (c : Call) (k : Uuid × Uuid) : Prop
  | kept (same : db'.lease k = db.lease k)
  | claimed (expiry : Time) (h : Claimed now token expiry k.1 k.2 db db')
  | settled (item : Item) (settles : c.settles = some item.leaseToken)
    (held : db.leaseHeld k.1 k.2 item.leaseToken now = true) (gone : db'.lease k = none)
  | dropped {operation : Uuid} {kind : Kind} {hash : String} {s : Service}
    (h : Accepted now k.1 k.2 operation kind hash s db db') (gone : db'.lease k = none)

theorem Effect.leaseChange (h : Effect now token db c db') (k : Uuid × Uuid) :
    LeaseChange now token db db' c k := by
  have kept : db'.work = db.work → LeaseChange now token db db' c k := by
    intro he
    exact .kept (by rw [Db.lease, he, Db.lease])
  have settled : ∀ {item : Item}, c.settles = some item.leaseToken → Work.Settles now item db db' →
      LeaseChange now token db db' c k := by
    intro item hc hset
    rcases hset.leases k with he | ⟨⟨rfl, hheld⟩, hnone⟩
    · exact .kept he
    · exact .settled item hc hheld hnone
  cases h with
  | aside ha | queued ha | reported ha => exact .kept (ha.lease_eq k)
  | accepted ha =>
    rcases ha.leases k with he | ⟨rfl, hnone⟩
    · exact .kept he
    · exact .dropped ha hnone
  | created hc | closed hc => exact .kept (hc.leases k)
  | committed ha | requeued ha => exact settled rfl ha
  | advanced hs | retried hs => exact kept hs.work
  | runtimeObserved ho | observed ho =>
    obtain ⟨_, _, hrest⟩ := ho.rest
    exact kept (by rw [hrest])
  | planned hp =>
    obtain ⟨_, _, _, _, rfl⟩ := hp.specs
    exact kept rfl
  | @claimed tenant service expiry _ hc =>
    by_cases hk : k = (tenant, service)
    · subst hk
      exact .claimed expiry hc
    · obtain ⟨row, _, rfl⟩ := hc.work
      exact .kept (by rw [Db.lease_insert, if_neg hk])
  | same | quota | publication | modelObserved | materializing | scopeSaved => exact kept rfl

theorem Claimed.lease (h : Claimed now token expiry tenant service db db') :
    db'.lease (tenant, service) = some (token, some expiry) := by
  obtain ⟨row, hrow, rfl⟩ := h.work
  rw [Db.lease_insert, if_pos rfl, hrow]

/-- Where a lease comes from: it was there, on the same terms, or the call is its claim. -/
theorem Effect.lease (h : Effect now token db c db') (k : Uuid × Uuid) :
    db'.lease k = db.lease k ∨ db'.lease k = none ∨ ∃ expiry,
      db'.lease k = some (token, expiry) := by
  cases h.leaseChange k with
  | kept same => exact .inl same
  | claimed expiry hc => exact .inr (.inr ⟨_, hc.lease⟩)
  | settled _ _ _ gone | dropped _ gone => exact .inr (.inl gone)

/-- What holds of every world a call is made in. -/
structure World.Sound (w : World) : Prop where
  aggregate : w.db.Aggregate
  issued : ∀ k token expiry, w.db.lease k = some (token, expiry) → token < w.nextToken

theorem World.sound_start : World.start.Sound where
  aggregate := .empty
  issued := by simp [World.start, Db.empty, Db.lease]

theorem World.Sound.exec (h : w.Sound) (c : Call) (choice : c.Choice) :
    (exec opts c choice w).2.Sound where
  aggregate := h.aggregate.effect (exec_effect opts c choice w)
  issued := by
    intro k token expiry hl
    rw [exec_nextToken]
    rcases (exec_effect opts c choice w).lease k with he | hn | ⟨_, hnew⟩
    · exact Nat.lt_succ_of_lt (h.issued k token expiry (he ▸ hl))
    · rw [hn] at hl
      cases hl
    · rw [hnew] at hl
      injection hl with hl
      injection hl with htok
      exact htok ▸ Nat.lt_succ_self _

end AniInference
