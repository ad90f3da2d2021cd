import AniInference.AccessService

namespace AniInference.Access
open Lib LockedRows

abbrev View := (k : Row) → Option k.Value

/-- The index on the idempotency key with one more entry. -/
def View.entered (v : View) (tenant id : Uuid) : Option Text → View
  | none => v
  | some idempotency => Function.update v (.createKey tenant idempotency) (some id)

/-- The index on the prefix after a key has got another one. -/
def View.reprefixed (v : View) (tenant id : Uuid) (old new : Text) : View :=
  if new = old then v
  else
    let v : View := Function.update v (.keyPrefix new) (some (tenant, id))
    Function.update v (.keyPrefix old) none

/-- The rows an insert leaves. -/
def View.inserted (v : View) (tenant id : Uuid) (row : KeyRow) : View :=
  let v : View := v.entered tenant id row.createIdempotencyKey
  let v : View := Function.update v (.keyPrefix row.keyPrefix) (some (tenant, id))
  Function.update v (.key tenant id) (some row)

/-- The rows a rotation leaves. -/
def View.rotated (v : View) (tenant id : Uuid) (old new : KeyRow) : View :=
  Function.update (v.reprefixed tenant id old.keyPrefix new.keyPrefix) (.key tenant id) (some new)

/-- What a statement answers about the rows it sees, and what it makes of them. -/
def Stmt.Effect (now : Instant) (v v' : View) : (s : Stmt) → s.Answer → Prop
  | .keyByCreateIdempotency tenant idempotency, a => v' = v ∧
    a = (v (.createKey tenant idempotency)).bind fun id => (v (.key tenant id)).map fun r => (id, r)
  | .keyByPrefix text, a => v' = v ∧
    a = (v (.keyPrefix text)).bind fun p => (v (.key p.1 p.2)).map fun r => (p.1, p.2, r)
  | .getKey tenant id, a => v' = v ∧ a = v (.key tenant id)
  | .listKeys tenant, a => v' = v ∧ ∀ p ∈ a, v (.key tenant p.1) = some p.2
  | .lockKey tenant id, a => v' = v ∧ a = v (.key tenant id)
  | .keyByRotationIdempotency tenant id idempotency, a => v' = v ∧
    a = (v (.key tenant id)).filter fun row => row.rotationIdempotencyKey = some idempotency
  | .insertKey tenant _ row, none => v' = v ∧
    ∃ idempotency other, row.createIdempotencyKey = some idempotency ∧
      v (.createKey tenant idempotency) = some other
  | .insertKey tenant id row, some a => a = row ∧ v (.key tenant id) = none ∧
    v (.keyPrefix row.keyPrefix) = none ∧
    (∀ k, row.createIdempotencyKey = some k → v (.createKey tenant k) = none) ∧
    v' = v.inserted tenant id row
  | .rotateKey tenant id .., none => v' = v ∧
    ∀ row, v (.key tenant id) = some row → row.revokedAt.isSome
  | .rotateKey tenant id keyPrefix secretHash idempotency secretCiphertext, some a =>
    ∃ row, v (.key tenant id) = some row ∧ row.revokedAt = none ∧
      (keyPrefix ≠ row.keyPrefix → v (.keyPrefix keyPrefix) = none) ∧
      a = row.rotate keyPrefix secretHash idempotency secretCiphertext ∧
      v' = v.rotated tenant id row a
  | .revokeKey tenant id, a => a = (v (.key tenant id)).map (KeyRow.revoke now) ∧
    v' = Function.update v (.key tenant id) a
  | .bindPolicy tenant id policy, _ =>
    v' = Function.update v (.key tenant id) ((v (.key tenant id)).map (KeyRow.bindPolicy policy))
  | .markUsed .., _ => v' = v
  | .archiveSecret tenant id version secretHash _, false => v' = v ∧
    ∀ row, v (.key tenant id) = some row → row.archivable version secretHash = false
  | .archiveSecret tenant id version secretHash secretCiphertext, true =>
    ∃ row, v (.key tenant id) = some row ∧ row.archivable version secretHash = true ∧
      v' = Function.update v (.key tenant id) (some (row.archive secretCiphertext))
  | .policyForShare tenant id, a => v' = v ∧ a = v (.policy tenant id)
  | .insertPolicy tenant id row, _ => v (.policy tenant id) = none ∧
    v' = Function.update v (.policy tenant id) (some row)
  | .updatePolicy tenant id row, a =>
    a = (v (.policy tenant id)).map (fun old => { row with version := old.version + 1 }) ∧
      v' = Function.update v (.policy tenant id) a
  | .deletePolicy tenant id, a => a = v (.policy tenant id) ∧
    v' = Function.update v (.policy tenant id) none
  | .publishedModel name, a => v' = v ∧ a = (v (.model name)).getD []
  | .serviceForShare tenant id, a => v' = v ∧ a = decide (v (.service tenant id) = some false)
  | .consumeBucket tenant key window start cost max, none => v' = v ∧
    max < (v (.bucket tenant key window start)).getD 0 + cost
  | .consumeBucket tenant key window start cost max, some a =>
    a = (v (.bucket tenant key window start)).getD 0 + cost ∧ a ≤ max ∧
      v' = Function.update v (.bucket tenant key window start) (some a)
  | .appendAudit, _ => v' = v
  | .setService tenant id deleted, _ =>
    v' = Function.update v (.service tenant id) (some deleted)
  | .setModel name rows, _ => v' = Function.update v (.model name) (some rows)

/-- The locks a statement is sure to have afterwards. -/
def Stmt.Locks (i : Nat) (db : Db) : (s : Stmt) → s.Answer → Prop
  | .lockKey tenant id, some _ => db.lock (.key tenant id) = .exclusive i
  | .policyForShare tenant id, some _ => (db.lock (.policy tenant id)).HeldBy i
  | .serviceForShare tenant id, true => (db.lock (.service tenant id)).HeldBy i
  | .rotateKey tenant id .., some _ => db.lock (.key tenant id) = .exclusive i
  | .consumeBucket tenant key window start .., some _ =>
    db.lock (.bucket tenant key window start) = .exclusive i
  | _, _ => True

section
variable {i : Nat} {now : Instant} {luck : Luck} {db db' : Db}

theorem runs_claimIndex (h : Txn.Runs (claimIndex i k v) db u db') :
    db.view i k = none ∧ Works i db db' ∧ db'.view i = Function.update (db.view i) k (some v) := by
  have hrest := runs_read_bind.mp h
  cases hv : db.view i k with
  | some _ => simp [hv] at hrest
  | none =>
    simp only [hv] at hrest
    obtain ⟨hw, hview, _⟩ := runs_write hrest
    exact ⟨rfl, hw, hview⟩

theorem runs_updateKey {tenant id : Uuid} {c : KeyRow → Bool} {f : KeyRow → KeyRow}
    {a : Option KeyRow} (h : Txn.Runs (updateKey i tenant id c f) db a db') :
    Works i db db' ∧
      ((∃ row, db.view i (.key tenant id) = some row ∧ c row = true ∧ a = some (f row) ∧
          db'.view i = Function.update (db.view i) (.key tenant id) (some (f row))) ∨
        (∀ row, db.view i (.key tenant id) = some row → c row = false) ∧ a = none ∧
          db'.view i = db.view i) := by
  obtain ⟨o, mid, hread, hrest⟩ := Txn.runs_bind.mp h
  obtain ⟨rfl, hw, hview, _⟩ := runs_readForUpdate hread
  cases hv : db.view i (.key tenant id) with
  | none =>
    simp only [hv, Txn.runs_pure] at hrest
    obtain ⟨rfl, rfl⟩ := hrest
    exact ⟨hw, .inr ⟨by simp, rfl, hview⟩⟩
  | some row =>
    simp only [hv] at hrest
    cases hc : c row with
    | false =>
      simp only [hc, Bool.false_eq_true, if_false, Txn.runs_pure] at hrest
      obtain ⟨rfl, rfl⟩ := hrest
      refine ⟨hw, .inr ⟨?_, rfl, hview⟩⟩
      rintro _ ⟨⟩
      exact hc
    | true =>
      simp only [hc, if_true] at hrest
      obtain ⟨_, last, hwrite, hret⟩ := Txn.runs_bind.mp hrest
      obtain ⟨rfl, rfl⟩ := Txn.runs_pure.mp hret
      obtain ⟨hw', hview', _⟩ := runs_write hwrite
      exact ⟨hw.trans hw', .inl ⟨row, rfl, hc, rfl, by rw [hview', hview]⟩⟩

theorem runs_createKeyEntry (h : Txn.Runs (createKeyEntry i tenant k) db a db') :
    db' = db ∧ a = k.bind fun k => db.view i (.createKey tenant k) := by
  cases k with
  | none =>
    obtain ⟨rfl, rfl⟩ := Txn.runs_pure.mp h
    exact ⟨rfl, rfl⟩
  | some k =>
    obtain ⟨rfl, rfl⟩ := runs_read.mp h
    exact ⟨rfl, rfl⟩

theorem runs_enterCreateKey {tenant id : Uuid} {k : Option Text} {u : Unit}
    (h : Txn.Runs (enterCreateKey i tenant id k) db u db') :
    Works i db db' ∧ db'.view i = View.entered (db.view i) tenant id k := by
  cases k with
  | none =>
    obtain ⟨_, rfl⟩ := Txn.runs_pure.mp h
    exact ⟨.refl, rfl⟩
  | some k =>
    obtain ⟨hw, hv, _⟩ := runs_write h
    exact ⟨hw, hv⟩

theorem runs_replacePrefix {tenant id : Uuid} {old new : Text} {u : Unit}
    (h : Txn.Runs (replacePrefix i tenant id old new) db u db') :
    Works i db db' ∧ (new ≠ old → db.view i (.keyPrefix new) = none) ∧
      db'.view i = View.reprefixed (db.view i) tenant id old new := by
  unfold replacePrefix at h
  by_cases hp : new = old
  · rw [if_pos hp] at h
    obtain ⟨_, rfl⟩ := Txn.runs_pure.mp h
    exact ⟨.refl, fun hne => absurd hp hne, by simp [View.reprefixed, hp]⟩
  · rw [if_neg hp] at h
    obtain ⟨_, mid, hclaim, hfree⟩ := Txn.runs_bind.mp h
    obtain ⟨hnone, hw₀, hv₀⟩ := runs_claimIndex hclaim
    obtain ⟨hw₁, hv₁, _⟩ := runs_write hfree
    exact ⟨hw₀.trans hw₁, fun _ => hnone, by simp [View.reprefixed, hp, hv₁, hv₀]⟩

theorem spec_insertKey {tenant id : Uuid} {row : KeyRow} {a : Option KeyRow}
    (h : Txn.Runs ((Stmt.insertKey tenant id row).run i now luck) db a db') :
    Works i db db' ∧ (Stmt.insertKey tenant id row).Effect now (db.view i) (db'.view i) a := by
  obtain ⟨entry, mid, hentry, hrest⟩ := Txn.runs_bind.mp h
  obtain ⟨rfl, hentry'⟩ := runs_createKeyEntry hentry
  cases entry with
  | some other =>
    simp only [Option.isSome_some, if_true, Txn.runs_pure] at hrest
    obtain ⟨rfl, rfl⟩ := hrest
    cases hk : row.createIdempotencyKey with
    | none => simp [hk] at hentry'
    | some k =>
      simp only [hk, Option.bind_some] at hentry'
      exact ⟨.refl, rfl, k, other, hk, hentry'.symm⟩
  | none =>
    simp only [Option.isSome_none, Bool.false_eq_true, if_false] at hrest
    obtain ⟨_, m₁, hcreate, hrest⟩ := Txn.runs_bind.mp hrest
    obtain ⟨_, m₂, hprefix, hrest⟩ := Txn.runs_bind.mp hrest
    obtain ⟨_, m₃, hkey, hret⟩ := Txn.runs_bind.mp hrest
    obtain ⟨rfl, rfl⟩ := Txn.runs_pure.mp hret
    obtain ⟨hp, hw₂, hv₂⟩ := runs_claimIndex hprefix
    obtain ⟨hr, hw₃, hv₃⟩ := runs_claimIndex hkey
    obtain ⟨hw₁, hv₁⟩ := runs_enterCreateKey hcreate
    rw [hv₂, hv₁] at hr
    rw [hv₁] at hp
    refine ⟨(hw₁.trans hw₂).trans hw₃, rfl, ?_, ?_, ?_, by rw [hv₃, hv₂, hv₁]; rfl⟩
    · cases hk : row.createIdempotencyKey <;> simpa [View.entered, hk] using hr
    · cases hk : row.createIdempotencyKey <;> simpa [View.entered, hk] using hp
    · intro k hk
      simpa [hk] using hentry'.symm

theorem spec_rotateKey {tenant id : Uuid} {p : Text} {secretHash : SecretHash} {k : Option Text}
    {c : Option Sealed} {a : Option KeyRow}
    (h : Txn.Runs ((Stmt.rotateKey tenant id p secretHash k c).run i now luck) db a db') :
    Works i db db' ∧
      (Stmt.rotateKey tenant id p secretHash k c).Effect now (db.view i) (db'.view i) a ∧
      (Stmt.rotateKey tenant id p secretHash k c).Locks i db' a := by
  obtain ⟨o, mid, hread, hrest⟩ := Txn.runs_bind.mp h
  obtain ⟨rfl, hw, hview, _⟩ := runs_readForUpdate hread
  cases hv : db.view i (.key tenant id) with
  | none =>
    simp only [hv, Txn.runs_pure] at hrest
    obtain ⟨rfl, rfl⟩ := hrest
    exact ⟨hw, ⟨hview, by simp [hv]⟩, trivial⟩
  | some row =>
    simp only [hv] at hrest
    cases hrev : row.revokedAt with
    | some t =>
      simp only [hrev, Option.isSome_some, if_true, Txn.runs_pure] at hrest
      obtain ⟨rfl, rfl⟩ := hrest
      refine ⟨hw, ⟨hview, ?_⟩, trivial⟩
      rw [hv]
      rintro _ ⟨⟩
      simp [hrev]
    | none =>
      simp only [hrev, Option.isSome_none, Bool.false_eq_true, if_false] at hrest
      obtain ⟨_, m₁, hindex, hrest⟩ := Txn.runs_bind.mp hrest
      obtain ⟨_, m₂, hwrite, hret⟩ := Txn.runs_bind.mp hrest
      obtain ⟨rfl, rfl⟩ := Txn.runs_pure.mp hret
      obtain ⟨hw₂, hv₂, hlock⟩ := runs_write hwrite
      obtain ⟨hw₁, hnone, hv₁⟩ := runs_replacePrefix hindex
      rw [hview] at hnone hv₁
      exact ⟨(hw.trans hw₁).trans hw₂, ⟨row, hv, hrev, hnone, rfl, by rw [hv₂, hv₁]; rfl⟩, hlock⟩

theorem spec_consumeBucket {tenant key : Uuid} {window : Window} {start : Instant}
    {cost max : Nat} {a : Option Nat}
    (h : Txn.Runs ((Stmt.consumeBucket tenant key window start cost max).run i now luck) db a db') :
    Works i db db' ∧
      (Stmt.consumeBucket tenant key window start cost max).Effect now (db.view i) (db'.view i) a ∧
      (Stmt.consumeBucket tenant key window start cost max).Locks i db' a := by
  simp only [Stmt.run] at h
  by_cases hcost : cost ≤ max
  · rw [if_pos hcost] at h
    obtain ⟨_, m₁, hacq, h⟩ := Txn.runs_bind.mp h
    obtain ⟨hfree, rfl⟩ := runs_acquire.mp hacq
    replace h := runs_read_bind.mp h
    have hw := works_grab hfree
    have hview : (db.grab i (.bucket tenant key window start)).view i = db.view i :=
      funext (view_grab _)
    rw [view_grab] at h
    obtain ⟨o, hv⟩ : ∃ o : Option Nat, db.view i (.bucket tenant key window start) = o := ⟨_, rfl⟩
    cases o with
    | none =>
      simp only [hv] at h
      obtain ⟨_, m₃, hwrite, hret⟩ := Txn.runs_bind.mp h
      obtain ⟨rfl, rfl⟩ := Txn.runs_pure.mp hret
      obtain ⟨hw', hv', hlock⟩ := runs_write hwrite
      exact ⟨hw.trans hw', ⟨by simp [hv], hcost, by rw [hv', hview]⟩, hlock⟩
    | some count =>
      simp only [hv] at h
      by_cases hfull : (count : Nat) ≤ max - cost
      · rw [if_pos hfull] at h
        obtain ⟨_, m₃, hwrite, hret⟩ := Txn.runs_bind.mp h
        obtain ⟨rfl, rfl⟩ := Txn.runs_pure.mp hret
        obtain ⟨hw', hv', hlock⟩ := runs_write hwrite
        refine ⟨hw.trans hw', ⟨by simp [hv], ?_, by rw [hv', hview]⟩, hlock⟩
        omega
      · rw [if_neg hfull] at h
        obtain ⟨rfl, rfl⟩ := Txn.runs_pure.mp h
        refine ⟨hw, ⟨hview, ?_⟩, trivial⟩
        simp only [hv, Option.getD_some]
        omega
  · rw [if_neg hcost] at h
    obtain ⟨rfl, rfl⟩ := Txn.runs_pure.mp h
    refine ⟨.refl, ⟨rfl, ?_⟩, trivial⟩
    omega

/-- What a statement does that does not fail. -/
theorem Stmt.run_spec {s : Stmt} {a : s.Answer} (h : Txn.Runs (s.run i now luck) db a db') :
    Works i db db' ∧ s.Effect now (db.view i) (db'.view i) a ∧ s.Locks i db' a := by
  cases s with
  | keyByCreateIdempotency tenant idempotency =>
    replace h := runs_read_bind.mp h
    cases hv : db.view i (.createKey tenant idempotency) with
    | none =>
      simp only [hv, Txn.runs_pure] at h
      obtain ⟨rfl, rfl⟩ := h
      exact ⟨.refl, ⟨rfl, by simp [hv]⟩, trivial⟩
    | some id =>
      simp only [hv] at h
      replace h := runs_read_bind.mp h
      obtain ⟨rfl, rfl⟩ := Txn.runs_pure.mp h
      exact ⟨.refl, ⟨rfl, by simp [hv]⟩, trivial⟩
  | keyByPrefix text =>
    replace h := runs_read_bind.mp h
    cases hv : db.view i (.keyPrefix text) with
    | none =>
      simp only [hv, Txn.runs_pure] at h
      obtain ⟨rfl, rfl⟩ := h
      exact ⟨.refl, ⟨rfl, by simp [hv]⟩, trivial⟩
    | some p =>
      simp only [hv] at h
      replace h := runs_read_bind.mp h
      obtain ⟨rfl, rfl⟩ := Txn.runs_pure.mp h
      exact ⟨.refl, ⟨rfl, by simp [hv]⟩, trivial⟩
  | getKey tenant id =>
    obtain ⟨rfl, rfl⟩ := runs_read.mp h
    exact ⟨.refl, ⟨rfl, rfl⟩, trivial⟩
  | listKeys tenant =>
    rw [Stmt.run, Txn.runs_get_bind] at h
    obtain ⟨rfl, rfl⟩ := Txn.runs_pure.mp h
    refine ⟨.refl, ⟨rfl, ?_⟩, trivial⟩
    intro p hp
    simp only [List.mem_filterMap, Option.map_eq_some_iff] at hp
    obtain ⟨id, _, row, hrow, rfl⟩ := hp
    exact hrow
  | lockKey tenant id =>
    obtain ⟨rfl, hw, hview, hlock⟩ := runs_readForUpdate h
    refine ⟨hw, ⟨hview, rfl⟩, ?_⟩
    cases hv : db.view i (.key tenant id) with
    | none => trivial
    | some row => exact hlock (by simp [hv])
  | keyByRotationIdempotency tenant id idempotency | publishedModel name =>
    replace h := runs_read_bind.mp h
    obtain ⟨rfl, rfl⟩ := Txn.runs_pure.mp h
    exact ⟨.refl, ⟨rfl, rfl⟩, trivial⟩
  | insertKey tenant id row =>
    obtain ⟨hw, he⟩ := spec_insertKey h
    exact ⟨hw, he, trivial⟩
  | rotateKey tenant id p secretHash k c => exact spec_rotateKey h
  | revokeKey tenant id =>
    obtain ⟨hw, ⟨row, hv, _, rfl, hview⟩ | ⟨hnone, rfl, hview⟩⟩ := runs_updateKey h
    · exact ⟨hw, ⟨by simp [hv], hview⟩, trivial⟩
    · cases hv : db.view i (.key tenant id) with
      | none => exact ⟨hw, ⟨by simp [hv], by rw [hview, ← hv, Function.update_eq_self]⟩, trivial⟩
      | some row => exact absurd (hnone row hv) (by simp)
  | bindPolicy tenant id policy =>
    obtain ⟨o, mid, hupdate, h⟩ := Txn.runs_bind.mp h
    obtain ⟨rfl, rfl⟩ := Txn.runs_pure.mp h
    obtain ⟨hw, ⟨row, hv, _, rfl, hview⟩ | ⟨hnone, rfl, hview⟩⟩ := runs_updateKey hupdate
    · exact ⟨hw, by simpa [Stmt.Effect, hv] using hview, trivial⟩
    · cases hv : db.view i (.key tenant id) with
      | none =>
        refine ⟨hw, ?_, trivial⟩
        simp only [Stmt.Effect, hv, Option.map_none]
        rw [hview, ← hv, Function.update_eq_self]
      | some row => exact absurd (hnone row hv) (by simp)
  | markUsed tenant id =>
    obtain ⟨o, mid, hupdate, h⟩ := Txn.runs_bind.mp h
    obtain ⟨rfl, rfl⟩ := Txn.runs_pure.mp h
    obtain ⟨hw, ⟨row, hv, _, rfl, hview⟩ | ⟨_, rfl, hview⟩⟩ := runs_updateKey hupdate
    · refine ⟨hw, ?_, trivial⟩
      simp only [Stmt.Effect]
      rw [hview, ← hv, Function.update_eq_self]
    · exact ⟨hw, hview, trivial⟩
  | archiveSecret tenant id version secretHash c =>
    obtain ⟨o, mid, hupdate, h⟩ := Txn.runs_bind.mp h
    obtain ⟨rfl, rfl⟩ := Txn.runs_pure.mp h
    obtain ⟨hw, ⟨row, hv, hc, rfl, hview⟩ | ⟨hnone, rfl, hview⟩⟩ := runs_updateKey hupdate
    · exact ⟨hw, ⟨row, hv, hc, hview⟩, trivial⟩
    · exact ⟨hw, ⟨hview, hnone⟩, trivial⟩
  | policyForShare tenant id =>
    obtain ⟨rfl, hw, hview, hheld⟩ := runs_readForShare h
    refine ⟨hw, ⟨hview, rfl⟩, ?_⟩
    cases hv : db.view i (.policy tenant id) with
    | none => trivial
    | some row => exact hheld (by simp [hv])
  | insertPolicy tenant id row =>
    obtain ⟨hnone, hw, hview⟩ := runs_claimIndex h
    exact ⟨hw, ⟨hnone, hview⟩, trivial⟩
  | updatePolicy tenant id row =>
    obtain ⟨o, mid, hread, h⟩ := Txn.runs_bind.mp h
    obtain ⟨rfl, hw, hview, _⟩ := runs_readForUpdate hread
    cases hv : db.view i (.policy tenant id) with
    | none =>
      simp only [hv, Txn.runs_pure] at h
      obtain ⟨rfl, rfl⟩ := h
      exact ⟨hw, ⟨by simp [hv], by rw [hview, ← hv, Function.update_eq_self]⟩, trivial⟩
    | some old =>
      simp only [hv] at h
      obtain ⟨_, last, hwrite, h⟩ := Txn.runs_bind.mp h
      obtain ⟨rfl, rfl⟩ := Txn.runs_pure.mp h
      obtain ⟨hw', hview', _⟩ := runs_write hwrite
      exact ⟨hw.trans hw', ⟨by simp [hv], by rw [hview', hview]⟩, trivial⟩
  | deletePolicy tenant id =>
    obtain ⟨o, mid, hread, h⟩ := Txn.runs_bind.mp h
    obtain ⟨rfl, hw, hview, _⟩ := runs_readForUpdate hread
    cases hv : db.view i (.policy tenant id) with
    | none =>
      simp only [hv, Txn.runs_pure] at h
      obtain ⟨rfl, rfl⟩ := h
      exact ⟨hw, ⟨hv.symm, by rw [hview, ← hv, Function.update_eq_self]⟩, trivial⟩
    | some old =>
      simp only [hv, Txn.runs_ite, Txn.runs_throw, and_false, false_or] at h
      obtain ⟨_, _, last, hwrite, h⟩ := And.imp_right Txn.runs_bind.mp h
      obtain ⟨rfl, rfl⟩ := Txn.runs_pure.mp h
      obtain ⟨hw', hview', _⟩ := runs_write hwrite
      exact ⟨hw.trans hw', ⟨hv.symm, by rw [hview', hview]⟩, trivial⟩
  | serviceForShare tenant id =>
    replace h := runs_read_bind.mp h
    obtain ⟨o, hv⟩ : ∃ o : Option Bool, db.view i (.service tenant id) = o := ⟨_, rfl⟩
    rcases o with _ | _ | _
    · simp only [hv, Txn.runs_pure] at h
      obtain ⟨rfl, rfl⟩ := h
      exact ⟨.refl, ⟨rfl, by simp [hv]⟩, trivial⟩
    · simp only [hv] at h
      obtain ⟨_, last, hshare, h⟩ := Txn.runs_bind.mp h
      obtain ⟨rfl, rfl⟩ := Txn.runs_pure.mp h
      obtain ⟨l, hl, rfl⟩ := runs_share.mp hshare
      refine ⟨works_share hl, ⟨funext (view_share hl), by simp [hv]⟩, ?_⟩
      simpa [Stmt.Locks] using Lock.heldBy_addReader hl
    · simp only [hv, Txn.runs_pure] at h
      obtain ⟨rfl, rfl⟩ := h
      exact ⟨.refl, ⟨rfl, by simp [hv]⟩, trivial⟩
  | consumeBucket tenant key window start cost max => exact spec_consumeBucket h
  | appendAudit =>
    obtain ⟨_, rfl⟩ := Txn.runs_pure.mp h
    exact ⟨.refl, rfl, trivial⟩
  | setService tenant id deleted | setModel name rows =>
    obtain ⟨hw, hview, _⟩ := runs_write h
    exact ⟨hw, hview, trivial⟩

/-- What a call of process `i` does to the database, by its answer. -/
def Does (i : Nat) (now : Instant) (db db' : Db) : (e : Call) → e.Answer → Prop
  | .begin, .ok _ => db.live i = false ∧ db' = db.openTxn i
  | .stmt s, .ok a => db.live i = true ∧ Works i db db' ∧
    s.Effect now (db.view i) (db'.view i) a ∧ s.Locks i db' a
  | .stmt _, .error _ => db' = db.rollback i
  | .auto s, .ok a => db.live i = false ∧ ∃ mid, Works i (db.openTxn i) mid ∧
    s.Effect now (db.view i) (mid.view i) a ∧ db' = mid.commit i
  | .auto s, .error _ => db' = db ∨ db.live i = false ∧ ∃ a mid, Works i (db.openTxn i) mid ∧
    s.Effect now (db.view i) (mid.view i) a ∧ db' = mid.commit i
  | .commit, .ok _ => db.live i = true ∧ db' = db.commit i
  | .commit, .error _ =>
    db' = db ∨ db' = db.rollback i ∨ db.live i = true ∧ db' = db.commit i
  | .rollback, _ => db' = db.rollback i
  | .disconnect j, _ => db' = db.rollback j
  | _, _ => db' = db

theorem act_does (i : Nat) (e : Call) (c : e.Choice) (w : World) :
    Does i w.clock w.db (act i e c w).2.db e (act i e c w).1 := by
  cases e with
  | now | randomText | salt | nonce | newID | tick t | rollback | disconnect j => rfl
  | begin =>
    simp only [act]
    split
    · exact rfl
    · next h =>
      simp only [not_or, Bool.not_eq_true] at h
      exact ⟨h.2, rfl⟩
  | stmt s =>
    simp only [act]
    split
    · exact rfl
    · next h =>
      simp only [not_or, Bool.not_eq_true, Bool.not_eq_false] at h
      cases hr : s.run i w.clock c w.db with
      | error r => exact rfl
      | ok r => exact ⟨h.2, Stmt.run_spec hr⟩
  | auto s =>
    simp only [act]
    split
    · exact .inl rfl
    · next h =>
      simp only [not_or, Bool.not_eq_true] at h
      cases hr : s.run i w.clock c (w.db.openTxn i) with
      | error r => exact .inl rfl
      | ok r =>
        obtain ⟨hw, he, _⟩ := Stmt.run_spec hr
        by_cases hlost : c.unanswered = true
        · simp only [hlost, if_true]
          exact .inr ⟨h.2, r.1, r.2, hw, he, rfl⟩
        · simp only [hlost]
          exact ⟨h.2, r.2, hw, he, rfl⟩
  | commit =>
    simp only [act]
    by_cases hlive : w.db.live i = true
    · rw [if_pos hlive]
      cases c with
      | none => exact ⟨hlive, rfl⟩
      | lost => exact .inr (.inl rfl)
      | unanswered => exact .inr (.inr ⟨hlive, rfl⟩)
    · rw [if_neg hlive]
      exact .inl rfl

end

end AniInference.Access
