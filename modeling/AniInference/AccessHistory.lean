import AniInference.AccessEffects

namespace AniInference.Access
open Lib LockedRows

/-- What a key row can turn into. Its version tells apart what the access check compares. -/
structure KeyRow.Becomes (r r' : KeyRow) : Prop where
  version : r.version ≤ r'.version
  same : r.version = r'.version → r'.secretHash = r.secretHash ∧ r'.keyPrefix = r.keyPrefix ∧
    r'.revokedAt = r.revokedAt ∧ r'.policyID = r.policyID ∧
    r'.rotationIdempotencyKey = r.rotationIdempotencyKey
  revoked : r.revokedAt.isSome → r'.revokedAt = r.revokedAt
  fixed : r'.name = r.name ∧ r'.expiresAt = r.expiresAt ∧ r'.createdBy = r.createdBy ∧
    r'.createIdempotencyKey = r.createIdempotencyKey

namespace KeyRow.Becomes
variable {r r' r'' : KeyRow}

theorem refl (r : KeyRow) : r.Becomes r :=
  ⟨Nat.le_refl _, fun _ => ⟨rfl, rfl, rfl, rfl, rfl⟩, fun _ => rfl, rfl, rfl, rfl, rfl⟩

theorem trans (h : r.Becomes r') (h' : r'.Becomes r'') : r.Becomes r'' := by
  refine ⟨h.version.trans h'.version, fun heq => ?_, fun hr => ?_, ?_⟩
  · have hv := h.version
    have hv' := h'.version
    obtain ⟨h₁, h₂, h₃, h₄, h₅⟩ := h.same (by omega)
    obtain ⟨k₁, k₂, k₃, k₄, k₅⟩ := h'.same (by omega)
    exact ⟨k₁.trans h₁, k₂.trans h₂, k₃.trans h₃, k₄.trans h₄, k₅.trans h₅⟩
  · have hmid := h.revoked hr
    rw [h'.revoked (by rw [hmid]; exact hr), hmid]
  · obtain ⟨h₁, h₂, h₃, h₄⟩ := h.fixed
    obtain ⟨k₁, k₂, k₃, k₄⟩ := h'.fixed
    exact ⟨k₁.trans h₁, k₂.trans h₂, k₃.trans h₃, k₄.trans h₄⟩

theorem rotate {p : Text} {hash : SecretHash} {k : Option Text} {c : Option Sealed}
    (hr : r.revokedAt = none) : r.Becomes (r.rotate p hash k c) :=
  ⟨Nat.le_succ _, fun h => absurd h (Nat.ne_of_lt (Nat.lt_succ_self _)), by simp [hr],
    rfl, rfl, rfl, rfl⟩

theorem revoke (now : Instant) : r.Becomes (r.revoke now) := by
  refine ⟨Nat.le_succ _, fun h => absurd h (Nat.ne_of_lt (Nat.lt_succ_self _)), fun hr => ?_,
    rfl, rfl, rfl, rfl⟩
  obtain ⟨t, ht⟩ := Option.isSome_iff_exists.mp hr
  simp [KeyRow.revoke, ht]

theorem bindPolicy (policy : Uuid) : r.Becomes (r.bindPolicy policy) :=
  ⟨Nat.le_succ _, fun h => absurd h (Nat.ne_of_lt (Nat.lt_succ_self _)), fun _ => rfl,
    rfl, rfl, rfl, rfl⟩

theorem archive (c : Sealed) : r.Becomes (r.archive c) :=
  ⟨Nat.le_refl _, fun _ => ⟨rfl, rfl, rfl, rfl, rfl⟩, fun _ => rfl, rfl, rfl, rfl, rfl⟩

end KeyRow.Becomes

/-- How a row may change: a key is never deleted and only becomes what it can, an entry of the
index on idempotency keys stays, and a bucket does not shrink. -/
def Row.Evolves : (k : Row) → Option k.Value → Option k.Value → Prop
  | .key .., a, b => ∀ r, a = some r → ∃ r', b = some r' ∧ r.Becomes r'
  | .createKey .., a, b => ∀ id, a = some id → b = some id
  | .bucket .., a, b => (a.getD 0 : Nat) ≤ b.getD 0
  | _, _, _ => True

namespace Row.Evolves

theorem refl (k : Row) (a : Option k.Value) : k.Evolves a a := by
  cases k with
  | key t i => exact fun r h => ⟨r, h, .refl r⟩
  | createKey t x => exact fun _ h => h
  | bucket t i w s => exact Nat.le_refl _
  | keyPrefix | policy | service | model => trivial

theorem trans (k : Row) (a b c : Option k.Value) (h : k.Evolves a b) (h' : k.Evolves b c) :
    k.Evolves a c := by
  cases k with
  | key t i =>
    intro r hr
    obtain ⟨r', hr', hb⟩ := h r hr
    obtain ⟨r'', hr'', hb'⟩ := h' r' hr'
    exact ⟨r'', hr'', hb.trans hb'⟩
  | createKey t x => exact fun id hid => h' id (h id hid)
  | bucket t i w s => exact Nat.le_trans h h'
  | keyPrefix | policy | service | model => trivial

theorem update {v : View} (k₀ : Row) {x : Option k₀.Value} (h : k₀.Evolves (v k₀) x) (k : Row) :
    k.Evolves (v k) (Function.update v k₀ x k) := by
  by_cases hk : k = k₀
  · subst hk
    rw [Function.update_self]
    exact h
  · rw [Function.update_of_ne hk]
    exact refl k _

theorem map_key {tenant id : Uuid} {v : View} {f : KeyRow → KeyRow}
    (hf : ∀ r : KeyRow, r.Becomes (f r)) :
    (Row.key tenant id).Evolves (v (.key tenant id)) ((v (.key tenant id)).map f) := by
  intro r hr
  exact ⟨f r, by rw [hr]; rfl, hf r⟩

theorem entered {v : View} {tenant : Uuid} (id : Uuid) {k : Option Text}
    (h : ∀ x, k = some x → v (.createKey tenant x) = none) (k' : Row) :
    k'.Evolves (v k') (v.entered tenant id k k') := by
  cases k with
  | none => exact refl k' _
  | some x =>
    refine update _ ?_ k'
    intro y hy
    rw [h x rfl] at hy
    cases hy

theorem reprefixed {v : View} (tenant id : Uuid) (old new : Text) (k : Row) :
    k.Evolves (v k) (v.reprefixed tenant id old new k) := by
  unfold View.reprefixed
  by_cases hp : new = old
  · rw [if_pos hp]
    exact refl k _
  · rw [if_neg hp]
    exact trans k _ _ _ (update (.keyPrefix new) trivial k)
      (update (.keyPrefix old) trivial k)

end Row.Evolves

/-- No statement changes a row otherwise. -/
theorem Stmt.Effect.evolves {s : Stmt} {now : Instant} {v v' : View} {a : s.Answer}
    (h : s.Effect now v v' a) (k : Row) : k.Evolves (v k) (v' k) := by
  have hsame : v' = v → k.Evolves (v k) (v' k) := by
    rintro rfl
    exact .refl k _
  cases s with
  | keyByCreateIdempotency | keyByPrefix | getKey | listKeys | lockKey | keyByRotationIdempotency
  | policyForShare | publishedModel | serviceForShare => exact hsame h.1
  | markUsed | appendAudit => exact hsame h
  | insertKey tenant id row =>
    cases a with
    | none => exact hsame h.1
    | some a =>
      obtain ⟨_, hkey, _, hcreate, rfl⟩ := h
      refine Row.Evolves.trans k _ _ _ (.entered id hcreate k) ?_
      refine Row.Evolves.trans k _ _ _ (.update (.keyPrefix row.keyPrefix)
        (x := some (tenant, id)) trivial k) ?_
      refine Row.Evolves.update (.key tenant id) ?_ k
      intro r hr
      have hnone : v.entered tenant id row.createIdempotencyKey (.key tenant id) = none := by
        cases hk : row.createIdempotencyKey <;> simpa [View.entered] using hkey
      rw [Function.update_of_ne (by simp), hnone] at hr
      cases hr
  | rotateKey tenant id p hash x c =>
    cases a with
    | none => exact hsame h.1
    | some a =>
      obtain ⟨row, hrow, hrev, _, rfl, rfl⟩ := h
      refine Row.Evolves.trans k _ _ _ (.reprefixed tenant id row.keyPrefix p k) ?_
      refine Row.Evolves.update (.key tenant id) ?_ k
      intro r hr
      have hkey : v.reprefixed tenant id row.keyPrefix p (.key tenant id) = some row := by
        unfold View.reprefixed
        split <;> simpa using hrow
      obtain rfl := Option.some.inj (hkey.symm.trans hr)
      exact ⟨_, rfl, .rotate hrev⟩
  | revokeKey tenant id =>
    obtain ⟨rfl, rfl⟩ := h
    exact .update _ (.map_key fun r => .revoke now) k
  | bindPolicy tenant id policy =>
    obtain rfl := h
    exact .update _ (.map_key fun r => .bindPolicy policy) k
  | archiveSecret tenant id version hash c =>
    cases a with
    | false => exact hsame h.1
    | true =>
      obtain ⟨row, hrow, _, rfl⟩ := h
      refine .update (.key tenant id) ?_ k
      intro r hr
      obtain rfl := Option.some.inj (hrow.symm.trans hr)
      exact ⟨_, rfl, .archive c⟩
  | insertPolicy tenant id row | updatePolicy tenant id row | deletePolicy tenant id =>
    obtain ⟨_, rfl⟩ := h
    exact .update (.policy tenant id) trivial k
  | consumeBucket tenant key window start cost max =>
    cases a with
    | none => exact hsame h.1
    | some a =>
      obtain ⟨rfl, _, rfl⟩ := h
      exact .update (.bucket tenant key window start) (Nat.le_add_right _ _) k
  | setService tenant id deleted =>
    obtain rfl := h
    exact .update (.service tenant id) trivial k
  | setModel name rows =>
    obtain rfl := h
    exact .update (.model name) trivial k

/-- What a statement can make of a key row. -/
inductive KeyStep (now : Instant) (tenant id : Uuid) : Stmt → Option KeyRow → Option KeyRow → Prop
  | kept (s : Stmt) (a : Option KeyRow) : KeyStep now tenant id s a a
  | inserted (row : KeyRow) : KeyStep now tenant id (.insertKey tenant id row) none (some row)
  | rotated (old : KeyRow) (p : Text) (hash : SecretHash) (k : Option Text) (c : Option Sealed)
      (active : old.revokedAt = none) :
      KeyStep now tenant id (.rotateKey tenant id p hash k c) (some old)
        (some (old.rotate p hash k c))
  | revoked (old : KeyRow) :
      KeyStep now tenant id (.revokeKey tenant id) (some old) (some (old.revoke now))
  | bound (old : KeyRow) (policy : Uuid) :
      KeyStep now tenant id (.bindPolicy tenant id policy) (some old) (some (old.bindPolicy policy))
  | archived (old : KeyRow) (version : Nat) (hash : SecretHash) (c : Sealed)
      (archivable : old.archivable version hash = true) :
      KeyStep now tenant id (.archiveSecret tenant id version hash c) (some old)
        (some (old.archive c))

theorem View.entered_key (v : View) (tenant id tenant' id' : Uuid) (k : Option Text) :
    v.entered tenant id k (.key tenant' id') = v (.key tenant' id') := by
  cases k <;> simp [View.entered]

theorem View.reprefixed_key (v : View) (tenant id tenant' id' : Uuid) (old new : Text) :
    v.reprefixed tenant id old new (.key tenant' id') = v (.key tenant' id') := by
  unfold View.reprefixed
  split <;> simp

/-- No statement makes anything else of a key row. -/
theorem Stmt.Effect.keyStep (h : s.Effect now v v' a) (tenant id : Uuid) :
    KeyStep now tenant id s (v (.key tenant id)) (v' (.key tenant id)) := by
  have hsame : v' (.key tenant id) = v (.key tenant id) →
      KeyStep now tenant id s (v (.key tenant id)) (v' (.key tenant id)) := by
    intro heq
    rw [heq]
    exact .kept s _
  cases s with
  | keyByCreateIdempotency | keyByPrefix | getKey | listKeys | lockKey | keyByRotationIdempotency
  | policyForShare | publishedModel | serviceForShare => exact hsame (by rw [h.1])
  | markUsed | appendAudit => exact hsame (by rw [h])
  | insertKey t i row =>
    cases a with
    | none => exact hsame (by rw [h.1])
    | some a =>
      obtain ⟨_, hnone, _, _, rfl⟩ := h
      by_cases heq : Row.key tenant id = .key t i
      · injection heq with h₁ h₂
        subst h₁ h₂
        rw [hnone, View.inserted, Function.update_self]
        exact .inserted row
      · refine hsame ?_
        rw [View.inserted, Function.update_of_ne heq, Function.update_of_ne (by simp),
          View.entered_key]
  | rotateKey t i p hash x c =>
    cases a with
    | none => exact hsame (by rw [h.1])
    | some a =>
      obtain ⟨row, hrow, hrev, _, rfl, rfl⟩ := h
      by_cases heq : Row.key tenant id = .key t i
      · injection heq with h₁ h₂
        subst h₁ h₂
        rw [hrow, View.rotated, Function.update_self]
        exact .rotated row p hash x c hrev
      · refine hsame ?_
        rw [View.rotated, Function.update_of_ne heq, View.reprefixed_key]
  | revokeKey t i =>
    obtain ⟨rfl, rfl⟩ := h
    by_cases heq : Row.key tenant id = .key t i
    · injection heq with h₁ h₂
      subst h₁ h₂
      cases hv : v (.key tenant id) with
      | none => simpa [hv] using KeyStep.kept _ none
      | some old => simpa [hv] using KeyStep.revoked old
    · exact hsame (Function.update_of_ne heq _ _)
  | bindPolicy t i policy =>
    obtain rfl := h
    by_cases heq : Row.key tenant id = .key t i
    · injection heq with h₁ h₂
      subst h₁ h₂
      cases hv : v (.key tenant id) with
      | none => simpa [hv] using KeyStep.kept _ none
      | some old => simpa [hv] using KeyStep.bound old policy
    · exact hsame (Function.update_of_ne heq _ _)
  | archiveSecret t i version hash c =>
    cases a with
    | false => exact hsame (by rw [h.1])
    | true =>
      obtain ⟨row, hrow, harch, rfl⟩ := h
      by_cases heq : Row.key tenant id = .key t i
      · injection heq with h₁ h₂
        subst h₁ h₂
        rw [hrow, Function.update_self]
        exact .archived row version hash c harch
      · exact hsame (Function.update_of_ne heq _ _)
  | insertPolicy t i row | updatePolicy t i row | deletePolicy t i =>
    obtain ⟨_, rfl⟩ := h
    exact hsame (by simp)
  | consumeBucket t key window start cost max =>
    cases a with
    | none => exact hsame (by rw [h.1])
    | some a =>
      obtain ⟨_, _, rfl⟩ := h
      exact hsame (by simp)
  | setService t i deleted | setModel name rows =>
    obtain rfl := h
    exact hsame (by simp)

/-- The statement a call runs, if its transaction is open. -/
def Call.Issues (e : Call) (live : Bool) (s : Stmt) : Prop := e = .stmt s ∧ live ∨ e = .auto s

section
variable {i j : Nat} {now : Instant} {db db' : Db} {e : Call} {a : e.Answer}
variable {R : Nat → (k : Row) → Option k.Value → Option k.Value → Prop}

theorem Does.tidy (h : Does i now db db' e a) (ht : db.Tidy) : db'.Tidy := by
  have hauto : ∀ {mid : Db}, Works i (db.openTxn i) mid → (mid.commit i).Tidy := by
    intro mid hw
    exact (ht.openTxn.work hw (by simp [openTxn])).commit
  cases e with
  | now | randomText | salt | nonce | newID | tick t => exact h ▸ ht
  | begin =>
    cases a with
    | ok _ => exact h.2 ▸ ht.openTxn
    | error _ => exact h ▸ ht
  | stmt s =>
    cases a with
    | ok b => exact ht.work h.2.1 h.1
    | error _ => exact h ▸ ht.rollback
  | auto s =>
    cases a with
    | ok b =>
      obtain ⟨_, mid, hw, _, rfl⟩ := h
      exact hauto hw
    | error _ =>
      obtain rfl | ⟨_, b, mid, hw, _, rfl⟩ := h
      · exact ht
      · exact hauto hw
  | commit =>
    cases a with
    | ok _ => exact h.2 ▸ ht.commit
    | error _ =>
      obtain rfl | rfl | ⟨_, rfl⟩ := h
      · exact ht
      · exact ht.rollback
      · exact ht.commit
  | rollback | disconnect j => exact h ▸ ht.rollback

/-- A relation that the statements of a call respect bounds what waits to be committed, and what
the call commits. -/
theorem Does.within (hrefl : ∀ i k a, R i k a a)
    (htrans : ∀ i k a b c, R i k a b → R i k b c → R i k a c) (h : Does i now db db' e a)
    (hR : ∀ s, e.Issues (db.live i) s → ∀ v' b, s.Effect now (db.view i) v' b →
      ∀ k, R i k (db.view i k) (v' k)) (hw : db.Within R) :
    db'.Within R ∧ ∀ k, R i k (db.committed k) (db'.committed k) := by
  have hstay : db.Within R ∧ ∀ k, R i k (db.committed k) (db.committed k) :=
    ⟨hw, fun k => hrefl i k _⟩
  have hroll : ∀ j, (db.rollback j).Within R ∧
      ∀ k, R i k (db.committed k) ((db.rollback j).committed k) :=
    fun j => ⟨hw.rollback, fun k => hrefl i k _⟩
  have hcommit : (db.commit i).Within R ∧ ∀ k, R i k (db.committed k) ((db.commit i).committed k) :=
    ⟨hw.commit, fun k => hw.view hrefl i k⟩
  have hauto : ∀ {s : Stmt} {b : s.Answer} {mid : Db}, e.Issues (db.live i) s →
      Works i (db.openTxn i) mid → s.Effect now (db.view i) (mid.view i) b →
      (mid.commit i).Within R ∧ ∀ k, R i k (db.committed k) ((mid.commit i).committed k) := by
    intro s b mid hs hwork he
    have hview := hR s hs _ b he
    have hmid : mid.Within R := Within.work (s := db.openTxn i) hrefl htrans hw hwork hview
    exact ⟨hmid.commit, fun k => htrans i k _ _ _ (hw.view hrefl i k) (hview k)⟩
  cases e with
  | now | randomText | salt | nonce | newID | tick t => exact h ▸ hstay
  | begin =>
    cases a with
    | ok _ => exact h.2 ▸ hstay
    | error _ => exact h ▸ hstay
  | stmt s =>
    cases a with
    | ok b =>
      obtain ⟨hlive, hwork, he, _⟩ := h
      exact ⟨hw.work hrefl htrans hwork (hR s (.inl ⟨rfl, hlive⟩) _ b he),
        fun k => by rw [hwork.committed]; exact hrefl i k _⟩
    | error _ => exact h ▸ hroll i
  | auto s =>
    cases a with
    | ok b =>
      obtain ⟨_, mid, hwork, he, rfl⟩ := h
      exact hauto (.inr rfl) hwork he
    | error _ =>
      obtain rfl | ⟨_, b, mid, hwork, he, rfl⟩ := h
      · exact hstay
      · exact hauto (.inr rfl) hwork he
  | commit =>
    cases a with
    | ok _ => exact h.2 ▸ hcommit
    | error _ =>
      obtain rfl | rfl | ⟨_, rfl⟩ := h
      · exact hstay
      · exact hroll i
      · exact hcommit
  | rollback => exact h ▸ hroll i
  | disconnect j => exact h ▸ hroll j

/-- What process `j` holds stays as it is while its transaction is open, whoever acts. -/
theorem Does.held (h : Does i now db db' e a) (hb : i = j → e ≠ .begin)
    (hlive : db'.live j = true) :
    db.live j = true ∧ ((db.lock k).HeldBy j → (db'.lock k).HeldBy j ∧
      db'.committed k = db.committed k ∧
      (db.lock k = .exclusive j → db'.lock k = .exclusive j)) := by
  have hstay : db.live j = true → db.live j = true ∧ ((db.lock k).HeldBy j → (db.lock k).HeldBy j ∧
      db.committed k = db.committed k ∧ (db.lock k = .exclusive j → db.lock k = .exclusive j)) :=
    fun hl => ⟨hl, fun hk => ⟨hk, rfl, id⟩⟩
  have hroll : ∀ m, (db.rollback m).live j = true → db.live j = true ∧
      ((db.lock k).HeldBy j → ((db.rollback m).lock k).HeldBy j ∧
        (db.rollback m).committed k = db.committed k ∧
        (db.lock k = .exclusive j → (db.rollback m).lock k = .exclusive j)) := by
    intro m hl
    by_cases hjm : j = m
    · simp [rollback, hjm] at hl
    · exact ⟨by simpa [rollback, hjm] using hl, fun hk =>
        ⟨Lock.heldBy_release.mpr ⟨hk, hjm⟩, rfl,
          fun hx => Lock.release_exclusive.mpr ⟨hx, hjm⟩⟩⟩
  have hcommit : ∀ {mid : Db}, (mid.commit i).live j = true → mid.live j = true ∧ j ≠ i ∧
      ((mid.lock k).HeldBy j → ((mid.commit i).lock k).HeldBy j ∧
        (mid.commit i).committed k = mid.committed k ∧
        (mid.lock k = .exclusive j → (mid.commit i).lock k = .exclusive j)) := by
    intro mid hl
    by_cases hji : j = i
    · simp [LockedRows.commit, rollback, hji] at hl
    · refine ⟨by simpa [LockedRows.commit, rollback, hji] using hl, hji, fun hk => ?_⟩
      obtain ⟨hc, hl⟩ := commit_held hk hji
      exact ⟨hl, hc, fun hx => Lock.release_exclusive.mpr ⟨hx, hji⟩⟩
  have hauto : ∀ {mid : Db}, Works i (db.openTxn i) mid → (mid.commit i).live j = true →
      db.live j = true ∧ ((db.lock k).HeldBy j → ((mid.commit i).lock k).HeldBy j ∧
        (mid.commit i).committed k = db.committed k ∧
        (db.lock k = .exclusive j → (mid.commit i).lock k = .exclusive j)) := by
    intro mid hw hl
    obtain ⟨hmid, hji, hrest⟩ := hcommit hl
    rw [hw.live] at hmid
    refine ⟨by simpa [openTxn, hji] using hmid, fun hk => ?_⟩
    obtain ⟨h₁, h₂, h₃⟩ := hrest (hw.held k j hk)
    exact ⟨h₁, h₂.trans (congrFun hw.committed k), fun hx => h₃ (hw.kept k j hx)⟩
  cases e with
  | now | randomText | salt | nonce | newID | tick t =>
    obtain rfl := h
    exact hstay hlive
  | begin =>
    cases a with
    | ok _ =>
      obtain ⟨_, rfl⟩ := h
      have hji : j ≠ i := fun hji => hb hji.symm rfl
      exact ⟨by simpa [openTxn, hji] using hlive, fun hk => ⟨hk, rfl, id⟩⟩
    | error _ =>
      obtain rfl := h
      exact hstay hlive
  | stmt s =>
    cases a with
    | ok b =>
      obtain ⟨_, hw, _⟩ := h
      rw [hw.live] at hlive
      exact ⟨hlive, fun hk => ⟨hw.held k j hk, congrFun hw.committed k, hw.kept k j⟩⟩
    | error _ =>
      obtain rfl := h
      exact hroll i hlive
  | auto s =>
    cases a with
    | ok b =>
      obtain ⟨_, mid, hw, _, rfl⟩ := h
      exact hauto hw hlive
    | error _ =>
      obtain rfl | ⟨_, b, mid, hw, _, rfl⟩ := h
      · exact hstay hlive
      · exact hauto hw hlive
  | commit =>
    cases a with
    | ok _ =>
      obtain ⟨_, rfl⟩ := h
      obtain ⟨h₁, _, h₂⟩ := hcommit hlive
      exact ⟨h₁, h₂⟩
    | error _ =>
      obtain rfl | rfl | ⟨_, rfl⟩ := h
      · exact hstay hlive
      · exact hroll i hlive
      · obtain ⟨h₁, _, h₂⟩ := hcommit hlive
        exact ⟨h₁, h₂⟩
  | rollback =>
    obtain rfl := h
    exact hroll i hlive
  | disconnect m =>
    obtain rfl := h
    exact hroll m hlive

/-- What process `j` is writing no other process touches. -/
theorem Does.foreign (h : Does i now db db' e a) (hji : j ≠ i) (hj : db'.lock k = .exclusive j) :
    db.lock k = .exclusive j ∧ db'.pending k = db.pending k := by
  have hroll : ∀ {db : Db} {m : Nat}, (db.rollback m).lock k = .exclusive j →
      db.lock k = .exclusive j ∧ (db.rollback m).pending k = db.pending k :=
    fun hj => ⟨(Lock.release_exclusive.mp hj).1, rfl⟩
  have hwork : ∀ {mid : Db}, Works i db mid → mid.lock k = .exclusive j →
      db.lock k = .exclusive j ∧ mid.pending k = db.pending k := by
    intro mid hw hj
    have hold := hw.foreign k j hji hj
    exact ⟨hold, hw.others k j hji hold⟩
  have hauto : ∀ {mid : Db}, Works i (db.openTxn i) mid → (mid.commit i).lock k = .exclusive j →
      db.lock k = .exclusive j ∧ (mid.commit i).pending k = db.pending k := by
    intro mid hw hj
    have hmid := hroll hj
    have hold := hw.foreign k j hji hmid.1
    exact ⟨hold, hmid.2.trans (hw.others k j hji hold)⟩
  cases e with
  | now | randomText | salt | nonce | newID | tick t =>
    obtain rfl := h
    exact ⟨hj, rfl⟩
  | begin =>
    cases a with
    | ok _ =>
      obtain ⟨_, rfl⟩ := h
      exact ⟨hj, rfl⟩
    | error _ =>
      obtain rfl := h
      exact ⟨hj, rfl⟩
  | stmt s =>
    cases a with
    | ok b => exact hwork h.2.1 hj
    | error _ =>
      obtain rfl := h
      exact hroll hj
  | auto s =>
    cases a with
    | ok b =>
      obtain ⟨_, mid, hw, _, rfl⟩ := h
      exact hauto hw hj
    | error _ =>
      obtain rfl | ⟨_, b, mid, hw, _, rfl⟩ := h
      · exact ⟨hj, rfl⟩
      · exact hauto hw hj
  | commit =>
    cases a with
    | ok _ =>
      obtain ⟨_, rfl⟩ := h
      exact hroll hj
    | error _ =>
      obtain rfl | rfl | ⟨_, rfl⟩ := h
      · exact ⟨hj, rfl⟩
      · exact hroll hj
      · exact hroll hj
  | rollback | disconnect m =>
    obtain rfl := h
    exact hroll hj

end

/-- Nobody is connected yet. -/
structure World.Idle (w : World) : Prop where
  free : ∀ k, w.db.lock k = .free
  closed : ∀ i, w.db.live i = false

theorem World.Idle.tidy {w : World} (h : w.Idle) : w.db.Tidy := by
  intro k i hk
  rw [h.free k] at hk
  exact hk.elim

theorem World.Idle.within {w : World} (h : w.Idle) : w.db.Within R := by
  intro k i hk
  rw [h.free k] at hk
  cases hk

abbrev Event := Moment World Call Call.Answer

/-- What the statement of a moment, if it runs one, makes of the rows it sees is a change by `R`. -/
def Respects (R : Nat → (k : Row) → Option k.Value → Option k.Value → Prop) (y : Event) : Prop :=
  ∀ s, y.call.Issues (y.before.db.live y.actor) s → ∀ v' b,
    s.Effect y.before.clock (y.before.db.view y.actor) v' b →
    ∀ k, R y.actor k (y.before.db.view y.actor k) (v' k)

theorem respects_evolves {y : Event} : Respects (fun _ => Row.Evolves) y :=
  fun _ _ _ _ he k => he.evolves k

section
variable {requests : Nat → Request} {start : World → Prop} {w : World}
variable {h mid past : List Event} {x : Event}

theorem does_of_arises (ha : Arises act (fun i => (requests i).program) start x past) :
    Does x.actor x.before.clock x.before.db x.after.db x.call x.answer := by
  obtain ⟨c, hanswer, hafter⟩ := ha.acted
  rw [hanswer, hafter]
  exact act_does x.actor x.call c x.before

theorem Ran.does (hr : Ran requests start h w) (hx : x :: past <:+ h) :
    Does x.actor x.before.clock x.before.db x.after.db x.call x.answer :=
  does_of_arises (hr.arises hx)

variable (hidle : ∀ w, start w → w.Idle)
include hidle

theorem Ran.tidy (hr : Ran requests start h w) : w.db.Tidy :=
  hr.invariant (P := fun w => w.db.Tidy) (fun w hw => (hidle w hw).tidy)
    fun _ _ hy ht => (Ran.does hr hy).tidy ht

/-- What the statements of a whole run respect bounds what waits to be committed at any time. -/
theorem Ran.within (hrefl : ∀ i k a, R i k a a)
    (htrans : ∀ i k a b c, R i k a b → R i k b c → R i k a c) (hr : Ran requests start h w)
    (hR : ∀ y past, y :: past <:+ h → Respects R y) : w.db.Within R := by
  refine hr.invariant (P := fun w => w.db.Within R) (fun w hw => (hidle w hw).within) ?_
  intro y older hy hw
  exact ((Ran.does hr hy).within hrefl htrans (hR y older hy) hw).1

/-- What a moment makes of a committed row is a change by `R`. -/
theorem Ran.committed_step (hrefl : ∀ i k a, R i k a a)
    (htrans : ∀ i k a b c, R i k a b → R i k b c → R i k a c) (hr : Ran requests start h w)
    (hR : ∀ y past, y :: past <:+ h → Respects R y) (hx : x :: past <:+ h) (k : Row) :
    R x.actor k (x.before.db.committed k) (x.after.db.committed k) := by
  have hsuf : past <:+ h := (List.suffix_cons x past).trans hx
  have hbefore : x.before.db.Within R :=
    Ran.within hidle hrefl htrans (hr.arises hx).run fun z older hz => hR z older (hz.trans hsuf)
  exact ((Ran.does hr hx).within hrefl htrans (hR x past hx) hbefore).2 k

/-- What waits to be committed evolved from what is committed. -/
theorem Ran.evolving (hr : Ran requests start h w) : w.db.Within fun _ => Row.Evolves :=
  Ran.within hidle (fun _ => Row.Evolves.refl) (fun _ => Row.Evolves.trans) hr
    fun _ _ _ => respects_evolves

/-- Rows only evolve. -/
theorem Ran.evolves (hr : Ran requests start h w) (hx : x :: past <:+ h) (k : Row) :
    k.Evolves (x.before.db.committed k) (x.after.db.committed k) ∧
      k.Evolves (x.after.db.committed k) (w.db.committed k) := by
  have hstep : ∀ {y older}, y :: older <:+ h →
      k.Evolves (y.before.db.committed k) (y.after.db.committed k) := fun hy =>
    Ran.committed_step (R := fun _ => Row.Evolves) hidle (fun _ => Row.Evolves.refl)
      (fun _ => Row.Evolves.trans) hr (fun _ _ _ => respects_evolves) hy k
  refine ⟨hstep hx, ?_⟩
  obtain ⟨mid, rfl⟩ := hx
  refine hr.since (P := fun w => k.Evolves (x.after.db.committed k) (w.db.committed k))
    (Row.Evolves.refl k _) ?_
  intro y older _ hy hold
  exact Row.Evolves.trans k _ _ _ hold (hstep hy)

end

/-- A world in which nobody is connected. -/
def World.idle (rows : View) (clock : Instant) : World :=
  ⟨⟨rows, fun _ => .free, fun _ => none, fun _ => false⟩, clock⟩

theorem World.idle_idle (rows : View) (clock : Instant) : (World.idle rows clock).Idle :=
  ⟨fun _ => rfl, fun _ => rfl⟩

/-- Choices by which nothing fails. The random text is one character over and over. -/
def smooth (c : Char) (id : Uuid) : (e : Call) → e.Choice
  | .now | .rollback | .tick _ | .disconnect _ => ()
  | .randomText => some ⟨List.replicate 43 c, List.length_replicate⟩
  | .salt | .nonce => some 0
  | .newID => id
  | .begin => false
  | .commit => .none
  | .stmt _ | .auto _ => ⟨false, false, [id], false⟩

/-- What is played out has been answered. -/
theorem answered_of_result {requests : Nat → Request} {start : World → Prop}
    {p : Play World Call Call.Answer ((q : Request) × Except Err q.Result)}
    (hp : p.Sound act (fun i => (requests i).program) start)
    {test : (q : Request) × Except Err q.Result → Bool} (ha : (p.result i).any test = true) :
    ∃ r, Answered (requests i) i p.history r ∧ test ⟨requests i, r⟩ = true := by
  obtain ⟨a, hresult, htest⟩ := (Option.any_eq_true _ _).mp ha
  obtain ⟨r, rfl, hplayed⟩ := Request.answered (hp.played hresult)
  exact ⟨r, hplayed, htest⟩

namespace Sample

def tenant : Uuid := Uuid128.replicate 1
def policyID : Uuid := Uuid128.replicate 2
def service : Uuid := Uuid128.replicate 3
def key : Uuid := Uuid128.replicate 7
def model : Text := ['m']
def secret : Text := secretPrefix ++ List.replicate 43 'x'

def policy : PolicyRow := ⟨[model], 1, 0, 0, 1⟩

/-- A key as `Create` leaves it. -/
def row : KeyRow where
  name := ['n']
  keyPrefix := keyPrefix secret
  secretHash := hashSecret 0 secret
  expiresAt := none
  revokedAt := none
  createdBy := ['a']
  version := 1
  createIdempotencyKey := none
  rotationIdempotencyKey := none
  secretCiphertext :=
    some ⟨0, ⟨tenant.text, key.text, keyPrefix secret, hashSecret 0 secret⟩, secret⟩
  policyID := some policyID

/-- One published model and its policy, and some key. -/
def rows (existing : Option KeyRow) : View
  | .key t id => if t = tenant ∧ id = key then existing else none
  | .keyPrefix text => if text = keyPrefix secret then existing.map fun _ => (tenant, key) else none
  | .policy t id => if t = tenant ∧ id = policyID then some policy else none
  | .service t id => if t = tenant ∧ id = service then some false else none
  | .model name => if name = model then some [⟨tenant, service, 1, true⟩] else none
  | .createKey .. | .bucket .. => none

end Sample

end AniInference.Access
