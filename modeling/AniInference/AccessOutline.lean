import AniInference.AccessHistory
import AniInference.Lib.Outline

namespace AniInference.Access
open Lib LockedRows

section
variable {α β : Type} {Φ : List Exchange → Call → Prop}
variable {Θ : List Exchange → Except Err β → Prop} {es : List Exchange}

theorem walk_perform (hΦ : Φ es e) (hf : ∀ r, Walk Φ Θ (es ++ [⟨e, r⟩]) (f r).run) :
    Walk Φ Θ es (perform e >>= f).run :=
  ⟨hΦ, hf⟩

theorem walk_tryStmt (hΦ : Φ es (.stmt s)) (hf : ∀ r, Walk Φ Θ (es ++ [⟨.stmt s, r⟩]) (f r).run) :
    Walk Φ Θ es (tryStmt s >>= f).run :=
  ⟨hΦ, hf⟩

theorem walk_stmt (hΦ : Φ es (.stmt s))
    (herr : ∀ why, Θ (es ++ [⟨.stmt s, .error why⟩]) (.error (.database why)))
    (hf : ∀ a, Walk Φ Θ (es ++ [⟨.stmt s, .ok a⟩]) (f a).run) : Walk Φ Θ es (stmt s >>= f).run := by
  refine ⟨hΦ, fun r => ?_⟩
  cases r with
  | ok a => exact hf a
  | error why => exact herr why

theorem walk_auto (hΦ : Φ es (.auto s))
    (herr : ∀ why, Θ (es ++ [⟨.auto s, .error why⟩]) (.error (.database why)))
    (hf : ∀ a, Walk Φ Θ (es ++ [⟨.auto s, .ok a⟩]) (f a).run) : Walk Φ Θ es (auto s >>= f).run := by
  refine ⟨hΦ, fun r => ?_⟩
  cases r with
  | ok a => exact hf a
  | error why => exact herr why

theorem walk_commit (hΦ : Φ es .commit)
    (herr : ∀ why, Θ (es ++ [⟨.commit, .error why⟩]) (.error (.database why)))
    (hf : Walk Φ Θ (es ++ [⟨.commit, .ok ()⟩]) (f ()).run) : Walk Φ Θ es (commit >>= f).run := by
  refine ⟨hΦ, fun r => ?_⟩
  cases r with
  | ok a => exact hf
  | error why => exact herr why

theorem walk_parsed (herr : Uuid128.parse value = none → Θ es (.error (.invalidUUID label)))
    (hf : ∀ u, Uuid128.parse value = some u → Walk Φ Θ es (f u).run) :
    Walk Φ Θ es (parseUUID label value >>= f).run := by
  unfold parseUUID
  cases hu : Uuid128.parse value with
  | none => exact herr hu
  | some u => exact hf u hu

theorem walk_parseUUID (herr : Θ es (.error (.invalidUUID label)))
    (hf : ∀ u, Uuid128.parse value = some u → Walk Φ Θ es (f u).run) :
    Walk Φ Θ es (parseUUID label value >>= f).run :=
  walk_parsed (fun _ => herr) hf

theorem walk_encodeUUID (herr : Θ es (.error (.database .violated)))
    (hf : ∀ u, Walk Φ Θ es (f u).run) : Walk Φ Θ es (encodeUUID value >>= f).run := by
  unfold encodeUUID
  dsimp only
  split
  · exact hf _
  · exact herr

theorem walk_newSecret (hΦ : Φ es .randomText)
    (herr : Θ (es ++ [⟨.randomText, none⟩]) (.error .noRandomness))
    (hf : ∀ cs : RandomText, Walk Φ Θ (es ++ [⟨.randomText, some cs⟩])
      (f (secretPrefix ++ cs.1, keyPrefix (secretPrefix ++ cs.1))).run) :
    Walk Φ Θ es (newSecret >>= f).run := by
  refine ⟨hΦ, fun r => ?_⟩
  cases r with
  | none => exact herr
  | some cs => exact hf cs

theorem walk_newHash (hΦ : Φ es .salt) (herr : Θ (es ++ [⟨.salt, none⟩]) (.error .noRandomness))
    (hf : ∀ salt, Walk Φ Θ (es ++ [⟨.salt, some salt⟩]) (f (hashSecret salt secret)).run) :
    Walk Φ Θ es (newHash secret >>= f).run := by
  refine ⟨hΦ, fun r => ?_⟩
  cases r with
  | none => exact herr
  | some salt => exact hf salt

theorem walk_sealSecret (hΦ : Φ es .nonce)
    (herr : Θ (es ++ [⟨.nonce, none⟩]) (.error .noRandomness))
    (hf : ∀ nonce, Walk Φ Θ (es ++ [⟨.nonce, some nonce⟩]) (f ⟨nonce, aad, secret⟩).run) :
    Walk Φ Θ es (sealSecret aad secret >>= f).run := by
  refine ⟨hΦ, fun r => ?_⟩
  cases r with
  | none => exact herr
  | some nonce => exact hf nonce

/-- A secret that was just drawn, with its hash and its ciphertext. -/
def FreshSecret (aadTenant aadID secret p : Text) (hash : SecretHash) (c : Option Sealed) : Prop :=
  ∃ (cs : RandomText) (salt nonce : Nat), secret = secretPrefix ++ cs.1 ∧ p = keyPrefix secret ∧
    hash = hashSecret salt secret ∧ c = some ⟨nonce, ⟨aadTenant, aadID, p, hash⟩, secret⟩

theorem walk_replay {Θ : List Exchange → Except Err Persisted → Prop}
    {tenant id : Uuid} {row : KeyRow}
    (hcommit : Φ es .commit) (hdone : Θ (es ++ [⟨.commit, .ok ()⟩])
      (.ok ⟨accessKeyRecord tenant id row, true⟩))
    (herr : ∀ why, Θ (es ++ [⟨.commit, .error why⟩]) (.error (.database why))) :
    Walk Φ Θ es (Store.replay tenant id row).run :=
  walk_commit hcommit herr hdone

/-- A transaction ends with what its body ends with, the rollback behind it. -/
theorem walk_inTx (hbegin : Φ es .begin)
    (herr : ∀ why, Θ (es ++ [⟨.begin, .error why⟩]) (.error (.database why)))
    (hbody : Walk Φ (fun es r => Φ es .rollback ∧ Θ (es ++ [⟨.rollback, ()⟩]) r)
      (es ++ [⟨.begin, .ok ()⟩]) body.run) : Walk Φ Θ es (inTx body).run := by
  refine ⟨hbegin, fun r => ?_⟩
  cases r with
  | error why => exact herr why
  | ok _ =>
    apply walk_run_bind.mpr
    change Walk Φ Θ _ (ExceptT.lift body.run >>= _ : Service β).run
    refine walk_run_bind.mpr (walk_lift.mpr (hbody.mono fun es r hr => ⟨hr.1, fun _ => ?_⟩))
    cases r with
    | ok a | error e => exact hr.2

end

/-- No transaction has been committed among these calls. -/
def Uncommitted (es : List Exchange) : Prop := ∀ a ∈ es, a.1 ≠ .commit

theorem uncommitted_nil : Uncommitted [] := fun _ h => nomatch h

theorem Uncommitted.snoc (h : Uncommitted es) (he : e ≠ .commit) (r : e.Answer) :
    Uncommitted (es ++ [⟨e, r⟩]) := by
  intro a ha
  rcases List.mem_append.mp ha with ha | ha
  · exact h a ha
  · rw [List.mem_singleton.mp ha]
    exact he

/-- A call that failed. -/
def failed : Exchange → Bool
  | ⟨.randomText, none⟩ | ⟨.salt, none⟩ | ⟨.nonce, none⟩ => true
  | ⟨.begin, .error _⟩ | ⟨.stmt _, .error _⟩ | ⟨.commit, .error _⟩ => true
  | _ => false

theorem failing {e : Call} {r : e.Answer} (h : failed ⟨e, r⟩ = true) :
    ∃ a ∈ es ++ [⟨e, r⟩], failed a = true :=
  ⟨_, List.mem_append_right _ (List.mem_singleton_self _), h⟩

/-- The statements that change no row. -/
def Stmt.reads : Stmt → Bool
  | .keyByCreateIdempotency .. | .keyByPrefix .. | .getKey .. | .listKeys .. | .lockKey ..
  | .keyByRotationIdempotency .. | .markUsed .. | .policyForShare .. | .publishedModel ..
  | .serviceForShare .. | .appendAudit => true
  | _ => false

/-- The calls that change no row. -/
def Call.plain : Call → Bool
  | .stmt s => s.reads
  | .auto s => s.reads
  | .commit => false
  | _ => true

theorem Stmt.Effect.of_reads {s : Stmt} {now : Instant} {v v' : View} {a : s.Answer}
    (h : s.Effect now v v' a) (hs : s.reads = true) : v' = v := by
  cases s with
  | keyByCreateIdempotency | keyByPrefix | getKey | listKeys | lockKey | keyByRotationIdempotency
  | policyForShare | publishedModel | serviceForShare => exact h.1
  | markUsed | appendAudit => exact h
  | insertKey | rotateKey | revokeKey | bindPolicy | archiveSecret | insertPolicy | updatePolicy
  | deletePolicy | consumeBucket | setService | setModel => cases hs

/-- Process `i` has changed no row in its transaction. -/
def Clean (i : Nat) (db : Db) : Prop := ∀ k, db.view i k = db.committed k

theorem clean_of_tidy (h : db.Tidy) (hi : db.live i = false) : Clean i db := by
  intro k
  apply view_of_not_exclusive
  intro hk
  exact h.none hi k (by rw [hk]; rfl)

theorem Does.clean (h : Does i now db db' e a) (hji : j ≠ i) (hlive : db'.live j = true)
    (hc : Clean j db) : Clean j db' := by
  intro k
  by_cases hk : db'.lock k = .exclusive j
  · obtain ⟨hold, hpending⟩ := h.foreign hji hk
    have hheld := ((h.held (k := k) (fun hi => absurd hi.symm hji) hlive).2 (by rw [hold]; rfl)).2.1
    have hview := hc k
    rw [view_of_exclusive hold] at hview
    rw [view_of_exclusive hk, hpending, hview, hheld]
  · exact view_of_not_exclusive hk

/-- What a reading statement sees, in a transaction that has not written, is committed. -/
theorem Does.clean_read {i : Nat} {now : Instant} {db db' : Db} {s : Stmt} {a : s.Answer}
    (h : Does i now db db' (.stmt s) (.ok a)) (hs : s.reads = true) (hc : Clean i db) :
    Clean i db' ∧ db'.committed = db.committed ∧
      s.Effect now db.committed db.committed a ∧ s.Locks i db' a := by
  obtain ⟨_, hw, he, hl⟩ := h
  have hview := he.of_reads hs
  have hsame : db.view i = db.committed := funext hc
  refine ⟨fun k => ?_, hw.committed, ?_, hl⟩
  · rw [hview, hw.committed]
    exact hc k
  · rw [hview, hsame] at he
    exact he

section
variable (requests : Nat → Request) (start : World → Prop) (whole : List Event) (i : Nat)

abbrev Knows := Known act (fun i => (requests i).program) start whole i

/-- What is so as long as the transaction of `i` is open. -/
def Held (es : List Exchange) (A : List Event → World → Prop) : Prop :=
  Knows requests start whole i es fun h w => w.db.live i = true → A h w

/-- Nothing breaks it while `i` only makes statements in its open transaction. -/
def Firm (A : List Event → World → Prop) : Prop :=
  ∀ y past, y :: past <:+ whole → Arises act (fun i => (requests i).program) start y past →
    (y.actor = i → ∃ s b, y.seen = ⟨.stmt s, .ok b⟩) → y.after.db.live i = true →
    A past y.before → A (y :: past) y.after

variable {requests start whole i} {es : List Exchange} {A B : List Event → World → Prop}

theorem not_begin {y : Event} (h : y.actor = i → ∃ s b, y.seen = ⟨.stmt s, .ok b⟩) :
    y.actor = i → y.call ≠ .begin := by
  intro hi hb
  obtain ⟨s, b, hs⟩ := h hi
  have hcall : y.call = .stmt s := congrArg Sigma.fst hs
  rw [hb] at hcall
  cases hcall

theorem firm_of_lasting (h : Lasting act (fun i => (requests i).program) start whole A) :
    Firm requests start whole i A :=
  fun y past hy ha _ _ hA => h y past hy ha hA

theorem firm_const (p : Prop) : Firm requests start whole i fun _ _ => p :=
  fun _ _ _ _ _ _ h => h

theorem firm_seen (Q : Event → Prop) : Firm requests start whole i fun h _ => ∃ z ∈ h, Q z := by
  intro y past _ _ _ _ h
  obtain ⟨z, hz, hQ⟩ := h
  exact ⟨z, List.mem_cons_of_mem y hz, hQ⟩

theorem Firm.and (hA : Firm requests start whole i A) (hB : Firm requests start whole i B) :
    Firm requests start whole i fun h w => A h w ∧ B h w :=
  fun y past hy ha hown hl h => ⟨hA y past hy ha hown hl h.1, hB y past hy ha hown hl h.2⟩

theorem firm_held (k : Row) (v : Option k.Value) :
    Firm requests start whole i fun _ w => (w.db.lock k).HeldBy i ∧ w.db.committed k = v := by
  intro y past _ ha hown hl h
  obtain ⟨h₁, h₂, _⟩ := ((does_of_arises ha).held (k := k) (not_begin hown) hl).2 h.1
  exact ⟨h₁, h₂.trans h.2⟩

theorem firm_exclusive (k : Row) (v : Option k.Value) :
    Firm requests start whole i fun _ w => w.db.lock k = .exclusive i ∧ w.db.committed k = v := by
  intro y past _ ha hown hl h
  have hheld : (y.before.db.lock k).HeldBy i := by
    rw [h.1]
    rfl
  obtain ⟨_, h₂, h₃⟩ := ((does_of_arises ha).held (k := k) (not_begin hown) hl).2 hheld
  exact ⟨h₃ h.1, h₂.trans h.2⟩

/-- A row that `i` is writing has evolved further, whatever `i` wrote. -/
theorem firm_evolved (k : Row) (v : Option k.Value) :
    Firm requests start whole i fun _ w =>
      w.db.lock k = .exclusive i ∧ k.Evolves v (w.db.view i k) := by
  intro y past _ ha hown hl h
  have hd := does_of_arises ha
  have hheld : (y.before.db.lock k).HeldBy i := by
    rw [h.1]
    rfl
  have hlock := ((hd.held (k := k) (not_begin hown) hl).2 hheld).2.2 h.1
  refine ⟨hlock, ?_⟩
  by_cases hi : y.actor = i
  · obtain ⟨s, b, hs⟩ := hown hi
    obtain ⟨actor, call, answer, before, after⟩ := y
    cases hs
    obtain rfl : actor = i := hi
    exact Row.Evolves.trans k _ _ _ h.2 (hd.2.2.1.evolves k)
  · obtain ⟨hold, hpending⟩ := hd.foreign (Ne.symm hi) hlock
    rw [view_of_exclusive hlock, hpending, ← view_of_exclusive hold]
    exact h.2

/-- Rows evolve from what is once committed. -/
theorem lasting_evolves (hidle : ∀ w, start w → w.Idle) (k : Row) (v : Option k.Value) :
    Lasting act (fun i => (requests i).program) start whole
      fun _ w => k.Evolves v (w.db.committed k) := by
  intro y past _ ha hA
  have hstep := ((does_of_arises ha).within (fun _ => Row.Evolves.refl)
    (fun _ => Row.Evolves.trans) respects_evolves (Ran.evolving hidle ha.run)).2 k
  exact Row.Evolves.trans k _ _ _ hA hstep

theorem stable_of_others
    (h : ∀ y past, y :: past <:+ whole → Arises act (fun i => (requests i).program) start y past →
      y.actor ≠ i → y.after.db.live i = true → A past y.before → A (y :: past) y.after) :
    Stable act (fun i => (requests i).program) start whole i
      fun h w => w.db.live i = true → A h w := by
  intro y past hy ha hi hA hl
  have hlive := ((does_of_arises ha).held (k := .model []) (fun h => absurd h hi) hl).1
  exact h y past hy ha hi hl (hA hlive)

theorem Firm.stable (h : Firm requests start whole i A) :
    Stable act (fun i => (requests i).program) start whole i
      fun h w => w.db.live i = true → A h w :=
  stable_of_others fun y past hy ha hi hl => h y past hy ha (fun hi' => absurd hi' hi) hl

theorem Firm.stable_clean (h : Firm requests start whole i A) :
    Stable act (fun i => (requests i).program) start whole i
      fun h w => w.db.live i = true → A h w ∧ Clean i w.db :=
  stable_of_others fun y past hy ha hi hl hA =>
    ⟨h y past hy ha (fun hi' => absurd hi' hi) hl hA.1,
      (does_of_arises ha).clean (Ne.symm hi) hl hA.2⟩

theorem Held.mono (h : Held requests start whole i es A) (hAB : ∀ h w, A h w → B h w) :
    Held requests start whole i es B :=
  Known.mono h fun g w hA hl => hAB g w (hA hl)

variable (requests start whole i) in
/-- Process `i` has an open transaction in which this holds and goes on holding. -/
structure Holding (es : List Exchange) (A : List Event → World → Prop) : Prop where
  firm : Firm requests start whole i A
  held : Held requests start whole i es A

variable (requests start whole i) in
/-- The same of a transaction that has only read so far. -/
structure Reading (es : List Exchange) (A : List Event → World → Prop) : Prop where
  firm : Firm requests start whole i A
  held : Held requests start whole i es fun h w => A h w ∧ Clean i w.db

theorem Reading.holding (h : Reading requests start whole i es A) :
    Holding requests start whole i es A :=
  ⟨h.firm, h.held.mono fun _ _ h => h.1⟩

/-- A transaction begins with what is known. -/
theorem Reading.opened (hidle : ∀ w, start w → w.Idle) (h : Knows requests start whole i es A)
    (hA : Lasting act (fun i => (requests i).program) start whole A) :
    Reading requests start whole i (es ++ [⟨.begin, .ok ()⟩]) A := by
  refine ⟨firm_of_lasting hA, Known.call h (fun b a past hx ha hb _ => ⟨hA _ past hx ha hb, ?_⟩)
    (firm_of_lasting hA).stable_clean⟩
  obtain ⟨hclosed, hopen⟩ := does_of_arises ha
  have hclean : Clean i b.db := clean_of_tidy (Ran.tidy hidle ha.run) hclosed
  change Clean i a.db
  rw [hopen]
  exact hclean

theorem Holding.stmt (h : Holding requests start whole i es A) (s : Stmt) (r : s.Answer)
    (hB : Firm requests start whole i B)
    (own : ∀ past b a, (⟨i, .stmt s, .ok r, b, a⟩ : Event) :: past <:+ whole →
      Ran requests start past b → Does i b.clock b.db a.db (.stmt s) (.ok r) → A past b →
      B (⟨i, .stmt s, .ok r, b, a⟩ :: past) a) :
    Holding requests start whole i (es ++ [⟨.stmt s, .ok r⟩]) fun h w => A h w ∧ B h w := by
  refine ⟨h.firm.and hB, Known.call h.held (fun b a past hx ha hb hl => ?_) (h.firm.and hB).stable⟩
  have hd := does_of_arises ha
  have hA : A past b := hb hd.1
  exact ⟨h.firm _ past hx ha (fun _ => ⟨s, r, rfl⟩) hl hA, own past b a hx ha.run hd hA⟩

theorem Holding.keep (h : Holding requests start whole i es A) (s : Stmt) (r : s.Answer) :
    Holding requests start whole i (es ++ [⟨.stmt s, .ok r⟩]) A :=
  ⟨h.firm, (h.stmt s r (firm_const True) fun _ _ _ _ _ _ _ => trivial).held.mono
    fun _ _ h => h.1⟩

theorem Reading.stmt (h : Reading requests start whole i es A) (s : Stmt) (hs : s.reads = true)
    (r : s.Answer) (hB : Firm requests start whole i B)
    (own : ∀ past b a, (⟨i, .stmt s, .ok r, b, a⟩ : Event) :: past <:+ whole →
      a.db.committed = b.db.committed → s.Effect b.clock b.db.committed b.db.committed r →
      s.Locks i a.db r → A past b → B (⟨i, .stmt s, .ok r, b, a⟩ :: past) a) :
    Reading requests start whole i (es ++ [⟨.stmt s, .ok r⟩]) fun h w => A h w ∧ B h w := by
  refine ⟨h.firm.and hB, Known.call h.held (fun b a past hx ha hb hl => ?_)
    (h.firm.and hB).stable_clean⟩
  have hd := does_of_arises ha
  obtain ⟨hA, hclean⟩ := hb hd.1
  obtain ⟨hclean', hsame, he, hlocks⟩ := hd.clean_read hs hclean
  exact ⟨⟨h.firm _ past hx ha (fun _ => ⟨s, r, rfl⟩) hl hA, own past b a hx hsame he hlocks hA⟩,
    hclean'⟩

theorem Reading.keep (h : Reading requests start whole i es A) (s : Stmt) (hs : s.reads = true)
    (r : s.Answer) : Reading requests start whole i (es ++ [⟨.stmt s, .ok r⟩]) A :=
  ⟨h.firm, (h.stmt s hs r (firm_const True) fun _ _ _ _ _ _ _ _ => trivial).held.mono
    fun _ _ h => ⟨h.1.1, h.2⟩⟩

variable (requests start whole i) in
/-- Nothing breaks it while `i` only reads in its open transaction. -/
def Steady (A : List Event → World → Prop) : Prop :=
  ∀ y past, y :: past <:+ whole → Arises act (fun i => (requests i).program) start y past →
    (y.actor = i → ∃ s b, s.reads = true ∧ y.seen = ⟨.stmt s, .ok b⟩) → y.after.db.live i = true →
    A past y.before → A (y :: past) y.after

theorem Firm.steady (h : Firm requests start whole i A) : Steady requests start whole i A :=
  fun y past hy ha hown => h y past hy ha fun hi => by
    obtain ⟨s, b, _, hs⟩ := hown hi
    exact ⟨s, b, hs⟩

theorem Steady.and (hA : Steady requests start whole i A) (hB : Steady requests start whole i B) :
    Steady requests start whole i fun h w => A h w ∧ B h w :=
  fun y past hy ha hown hl h => ⟨hA y past hy ha hown hl h.1, hB y past hy ha hown hl h.2⟩

theorem Steady.stable (h : Steady requests start whole i A) :
    Stable act (fun i => (requests i).program) start whole i
      fun h w => w.db.live i = true → A h w :=
  stable_of_others fun y past hy ha hi hl => h y past hy ha (fun hi' => absurd hi' hi) hl

theorem exclusive_of_view_ne {db : Db} (h : db.view i k ≠ db.committed k) :
    db.lock k = .exclusive i := by
  by_contra hne
  exact h (view_of_not_exclusive hne)

/-- What `i` has made of a row. -/
theorem steady_view (k : Row) (v : Option k.Value) :
    Steady requests start whole i fun _ w => w.db.lock k = .exclusive i ∧ w.db.view i k = v := by
  intro y past _ ha hown hl h
  have hd := does_of_arises ha
  have hheld : (y.before.db.lock k).HeldBy i := by
    rw [h.1]
    rfl
  have hb : y.actor = i → y.call ≠ .begin := not_begin fun hi => by
    obtain ⟨s, b, _, hs⟩ := hown hi
    exact ⟨s, b, hs⟩
  have hlock := ((hd.held (k := k) hb hl).2 hheld).2.2 h.1
  refine ⟨hlock, ?_⟩
  by_cases hi : y.actor = i
  · obtain ⟨s, b, hreads, hs⟩ := hown hi
    obtain ⟨actor, call, answer, before, after⟩ := y
    cases hs
    obtain rfl : actor = i := hi
    have hview : after.db.view actor = before.db.view actor := hd.2.2.1.of_reads hreads
    change after.db.view actor k = v
    rw [hview]
    exact h.2
  · obtain ⟨hold, hpending⟩ := hd.foreign (Ne.symm hi) hlock
    rw [view_of_exclusive hlock, hpending, ← view_of_exclusive hold]
    exact h.2

variable (requests start whole i) in
/-- Process `i` has an open transaction in which this holds until it writes again. -/
structure Wrote (es : List Exchange) (A : List Event → World → Prop) : Prop where
  steady : Steady requests start whole i A
  held : Held requests start whole i es A

theorem Reading.write (h : Reading requests start whole i es A) (s : Stmt) (r : s.Answer)
    (hB : Steady requests start whole i B)
    (own : ∀ past b a, (⟨i, .stmt s, .ok r, b, a⟩ : Event) :: past <:+ whole →
      Does i b.clock b.db a.db (.stmt s) (.ok r) → Clean i b.db → A past b →
      B (⟨i, .stmt s, .ok r, b, a⟩ :: past) a) :
    Wrote requests start whole i (es ++ [⟨.stmt s, .ok r⟩]) B := by
  refine ⟨hB, Known.call h.held (fun b a past hx ha hb _ => ?_) hB.stable⟩
  have hd := does_of_arises ha
  obtain ⟨hA, hclean⟩ := hb hd.1
  exact own past b a hx hd hclean hA

theorem Wrote.keep (h : Wrote requests start whole i es A) (s : Stmt) (hs : s.reads = true)
    (r : s.Answer) : Wrote requests start whole i (es ++ [⟨.stmt s, .ok r⟩]) A := by
  refine ⟨h.steady, Known.call h.held (fun b a past hx ha hb hl => ?_) h.steady.stable⟩
  exact h.steady _ past hx ha (fun _ => ⟨s, r, hs, rfl⟩) hl (hb (does_of_arises ha).1)

/-- A statement that fails closes the transaction. -/
theorem closed_of_error :
    Knows requests start whole i (es ++ [⟨.stmt s, .error why⟩]) fun _ w =>
      w.db.live i = false := by
  refine Known.call (Q := fun _ _ => True) (fun _ _ _ _ _ => trivial) (fun b a past _ ha _ => ?_) ?_
  · have hroll : a.db = b.db.rollback i := does_of_arises ha
    simp [hroll, rollback]
  · intro y past _ ha hi hdead
    cases hl : y.after.db.live i with
    | false => rfl
    | true =>
      have hlive := ((does_of_arises ha).held (k := .model []) (fun h => absurd h hi) hl).1
      rw [hdead] at hlive
      cases hlive

/-- After that no statement succeeds. -/
theorem known_of_closed (h : Knows requests start whole i es fun _ w => w.db.live i = false) :
    Knows requests start whole i (es ++ [⟨.stmt s, .ok r⟩]) A := by
  refine Known.mono (P := fun _ _ => False) ?_ fun _ _ h => h.elim
  refine Known.call h (fun b a past _ ha hdead => ?_) fun _ _ _ _ _ h => h
  have hlive : b.db.live i = true := (does_of_arises ha).1
  rw [hdead] at hlive
  cases hlive

/-- What is held where a process commits is so when it does. -/
theorem Ran.committed_split (hr : Ran requests start h w)
    (ht : trace i h = es₁ ++ ⟨.commit, .ok ()⟩ :: es₂) (hA : Held requests start h i es₁ A) :
    ∃ new y past, h = new ++ y :: past ∧ trace i past = es₁ ∧ trace i new = es₂ ∧ y.actor = i ∧
      y.call = .commit ∧ A past y.before ∧ y.after.db = y.before.db.commit i := by
  obtain ⟨new, y, past, rfl, hi, hseen, hpast, hnew⟩ := trace_split ht
  obtain ⟨actor, call, answer, b, a⟩ := y
  obtain rfl : actor = i := hi
  cases hseen
  have hsuf := List.suffix_append new ((⟨actor, .commit, .ok (), b, a⟩ : Event) :: past)
  obtain ⟨hlive, hafter⟩ := Ran.does hr hsuf
  have hrun := (hr.arises hsuf).run
  exact ⟨new, _, past, rfl, hpast, hnew, rfl, rfl,
    hA past b ((List.suffix_cons _ _).trans hsuf) hrun hpast hlive, hafter⟩

theorem Ran.committed (hr : Ran requests start h w)
    (ht : trace i h = es₁ ++ ⟨.commit, .ok ()⟩ :: es₂) (hA : Held requests start h i es₁ A) :
    ∃ y past, y :: past <:+ h ∧ y.actor = i ∧ y.call = .commit ∧ A past y.before ∧
      y.after.db = y.before.db.commit i := by
  obtain ⟨new, y, past, rfl, _, _, hrest⟩ := Ran.committed_split hr ht hA
  exact ⟨y, past, List.suffix_append _ _, hrest⟩

end

end AniInference.Access
