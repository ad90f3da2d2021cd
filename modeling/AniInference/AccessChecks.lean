import AniInference.RateLimits

namespace AniInference.Access
open Lib LockedRows

/-- What lets a check in, at the moment it commits with the key locked. -/
structure Authorized (i : Nat) (secret model : Text) (now : Instant) (tenant id : Uuid)
    (past : List Event) (y : Event) (row : KeyRow) : Prop where
  locked : y.before.db.lock (.key tenant id) = .exclusive i
  current : y.before.db.committed (.key tenant id) = some row
  secret : verifySecret secret row.secretHash = true
  active : row.revokedAt = none
  unexpired : ∀ t, row.expiresAt = some t → now < t
  policy : ∃ p policy, row.policyID = some p ∧
    y.before.db.committed (.policy tenant p) = some policy ∧ model ∈ policy.allowedModelNames
  published : ∃ service, ∃ z ∈ past, PublishedAt i tenant service model z
  unrevoked : ∀ x ∈ past, ∀ row', x.after.db.committed (.key tenant id) = some row' →
    row'.revokedAt = none

section
variable {requests : Nat → Request} {start : World → Prop} {h past : List Event} {w : World}

/-- A key row after a moment is what the row before it may become. -/
theorem Ran.becomes (hidle : ∀ w, start w → w.Idle) (hr : Ran requests start h w) {x : Event}
    (hx : x :: past <:+ h) {tenant id : Uuid} {row : KeyRow}
    (hrow : x.before.db.committed (.key tenant id) = some row) :
    ∃ row', x.after.db.committed (.key tenant id) = some row' ∧ row.Becomes row' :=
  (Ran.evolves hidle hr hx (.key tenant id)).1 row hrow

theorem Ran.unrevoked_before (hidle : ∀ w, start w → w.Idle) (hr : Ran requests start h w)
    {tenant id : Uuid} {row : KeyRow} (hrow : w.db.committed (.key tenant id) = some row)
    (hactive : row.revokedAt = none) {x : Event} (hx : x ∈ h) {row' : KeyRow}
    (hrow' : x.after.db.committed (.key tenant id) = some row') : row'.revokedAt = none := by
  obtain ⟨older, hsuf, _⟩ := hr.mem_arises hx
  obtain ⟨r, hr', hb⟩ := (Ran.evolves hidle hr hsuf (.key tenant id)).2 row' hrow'
  obtain rfl := Option.some.inj (hrow.symm.trans hr')
  cases hrev : row'.revokedAt with
  | none => rfl
  | some t =>
    have hsome := hb.revoked (by simp [hrev])
    rw [hactive, hrev] at hsome
    cases hsome

theorem KeyRow.Becomes.version_lt {r r' : KeyRow} (h : r.Becomes r')
    (hne : r'.secretHash ≠ r.secretHash ∨ r'.revokedAt ≠ r.revokedAt ∨ r'.policyID ≠ r.policyID) :
    r.version < r'.version := by
  refine lt_of_le_of_ne h.version fun heq => ?_
  obtain ⟨hhash, _, hrevoked, hpolicy, _⟩ := h.same heq
  rcases hne with hne | hne | hne
  · exact hne hhash
  · exact hne hrevoked
  · exact hne hpolicy

/-- A check that is let in commits while it has the key locked, and the key as it then is lets it
in, by the time the check has read. No change of hash, revocation or policy leaves the version,
and a revocation stays. -/
theorem check_authorized (hidle : ∀ w, start w → w.Idle) (hr : Ran requests start h w) :
    (∀ i apiKey serviceID model cost r, requests i = .check apiKey serviceID model cost →
      Answered (.check apiKey serviceID model cost) i h (.ok r) → r.allowed = true →
      ∃ y past tenant id row now seen, y :: past <:+ h ∧ y.actor = i ∧ y.call = .commit ∧
        r.record = some (accessKeyRecord tenant id seen) ∧ timeOf (trace i h) = some now ∧
        Authorized i (Text.trimSpace apiKey) (Text.trimSpace model) now tenant id past y row) ∧
      ∀ x ∈ h, ∀ tenant id row, x.before.db.committed (.key tenant id) = some row →
        ∃ row', x.after.db.committed (.key tenant id) = some row' ∧
          (row'.secretHash ≠ row.secretHash ∨ row'.revokedAt ≠ row.revokedAt ∨
            row'.policyID ≠ row.policyID → row.version < row'.version) ∧
          (row.revokedAt.isSome → row'.revokedAt.isSome) := by
  refine ⟨?_, ?_⟩
  · intro i apiKey serviceID model cost r _ hanswer hallowed
    rcases check_ends requests hidle hanswer with ⟨hdenied, _⟩ |
      ⟨_, es₁, es₂, tenant, id, service, row, latest, p, policy, now, htrace, htime, hrecord,
        hsecret, hheld⟩
    · simp [hallowed] at hdenied
    · obtain ⟨y, past, hy, hi, hcall, ⟨hg, _⟩, _⟩ := Ran.committed hr htrace hheld
      have hent := hg.entitled
      have hhash : latest.secretHash = row.secretHash :=
        (hent.becomes.same hent.version.symm).1
      refine ⟨y, past, tenant, id, latest, now, row, hy, hi, hcall, hrecord, ?_, hg.key.1, hg.key.2,
        ?_, hent.active, hent.unexpired, ⟨p, policy, hent.bound, hg.binding.2, hent.listed⟩,
        ⟨service, hg.published⟩, ?_⟩
      · rw [htrace]
        exact timeOf_append htime
      · rw [hhash]
        exact hsecret
      · intro x hx row' hrow'
        exact Ran.unrevoked_before hidle (hr.arises hy).run hg.key.2 hent.active hx hrow'
  · intro x hx tenant id row hrow
    obtain ⟨older, hsuf, _⟩ := hr.mem_arises hx
    obtain ⟨row', hrow', hb⟩ := Ran.becomes hidle hr hsuf hrow
    refine ⟨row', hrow', hb.version_lt, fun hrev => ?_⟩
    rw [hb.revoked hrev]
    exact hrev

end

namespace Sample

/-- A key that expires within the second. -/
def expiring : KeyRow := { row with expiresAt := some 5000001000 }

/-- A check, and time that goes by. -/
def checkAndTick : Nat → Request
  | 0 => .check secret [] model 1
  | _ => .outside [.tick 6000000000]

/-- The time goes past the expiry after the check has read it. -/
def lateCheck : Play World Call Call.Answer ((q : Request) × Except Err q.Result) :=
  play act (fun i => (checkAndTick i).program) (World.idle (rows (some expiring)) 5000000123)
    (List.replicate 2 (0, smooth 'y' key) ++ [(1, smooth 'y' key)] ++
      List.replicate 11 (0, smooth 'y' key))

def isAllowed : (q : Request) × Except Err q.Result → Bool
  | ⟨.check .., .ok r⟩ => r.allowed
  | _ => false

set_option maxRecDepth 100000 in
theorem lateCheck_facts : (lateCheck.result 0).any isAllowed = true ∧
    (lateCheck.history.any fun x => x.before.db.lock (.key tenant key) = .exclusive 0) = true ∧
    (lateCheck.history.all fun x => x.before.db.lock (.key tenant key) = .exclusive 0 →
      x.before.db.committed (.key tenant key) = some expiring ∧ 5000001000 ≤ x.before.clock) =
      true := by
  decide +kernel

theorem lateCheck_sound : lateCheck.Sound act (fun i => (checkAndTick i).program)
    (Eq (World.idle (rows (some expiring)) 5000000123)) :=
  play_sound rfl _

theorem lateCheck_allowed : ∃ r, Answered (.check secret [] model 1) 0 lateCheck.history (.ok r) ∧
    r.allowed = true := by
  obtain ⟨r, hplayed, htest⟩ := answered_of_result lateCheck_sound lateCheck_facts.1
  cases r with
  | error e => cases htest
  | ok r => exact ⟨r, hplayed, htest⟩

end Sample

open Sample in
/-- The key has expired whenever the check has it locked, and the check is let in. -/
theorem check_allows_expired_key :
    ∃ (requests : Nat → Request) (h : List Event) (w : World) (r : CheckResult),
      Ran requests World.Idle h w ∧ requests 0 = .check secret [] model 1 ∧
      Answered (.check secret [] model 1) 0 h (.ok r) ∧ r.allowed = true ∧
      (∃ x ∈ h, x.before.db.lock (.key tenant key) = .exclusive 0) ∧
      ∀ x ∈ h, x.before.db.lock (.key tenant key) = .exclusive 0 →
        ∃ row t, x.before.db.committed (.key tenant key) = some row ∧
          row.expiresAt = some t ∧ t ≤ x.before.clock := by
  obtain ⟨r, hanswer, hallowed⟩ := lateCheck_allowed
  obtain ⟨_, hany, hall⟩ := lateCheck_facts
  refine ⟨checkAndTick, lateCheck.history, lateCheck.state, r, ?_, rfl, hanswer, hallowed, ?_, ?_⟩
  · exact (play_sound (World.idle_idle _ _) _).run
  · obtain ⟨x, hx, hlock⟩ := List.any_eq_true.mp hany
    exact ⟨x, hx, of_decide_eq_true hlock⟩
  · intro x hx hlock
    obtain ⟨hrow, hclock⟩ := of_decide_eq_true (List.all_eq_true.mp hall x hx) hlock
    exact ⟨expiring, 5000001000, hrow, rfl, hclock⟩

open Sample in
theorem check_authorized_late : ∃ r,
    Answered (.check secret [] model 1) 0 lateCheck.history (.ok r) ∧
    ∃ y past t id row now seen, y :: past <:+ lateCheck.history ∧ y.actor = 0 ∧ y.call = .commit ∧
      r.record = some (accessKeyRecord t id seen) ∧ timeOf (trace 0 lateCheck.history) = some now ∧
      Authorized 0 (Text.trimSpace secret) (Text.trimSpace model) now t id past y row := by
  obtain ⟨r, hanswer, hallowed⟩ := lateCheck_allowed
  have hidle : ∀ w, Eq (World.idle (rows (some expiring)) 5000000123) w → w.Idle := by
    rintro w rfl
    exact World.idle_idle _ _
  exact ⟨r, hanswer,
    (check_authorized hidle lateCheck_sound.run).1 0 secret [] model 1 r rfl hanswer hallowed⟩

end AniInference.Access
