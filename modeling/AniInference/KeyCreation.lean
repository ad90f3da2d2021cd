import AniInference.AccessWrites

namespace AniInference.Access
open Lib LockedRows Text

/-- Every key created under an idempotency key is in the index of those. -/
def Indexed (v : View) : Prop :=
  ∀ tenant id row k, v (.key tenant id) = some row → row.createIdempotencyKey = some k →
    v (.createKey tenant k) = some id

/-- What is committed is indexed, and what any process sees. -/
def AllIndexed (db : Db) : Prop := Indexed db.committed ∧ ∀ i, Indexed (db.view i)

theorem Stmt.Effect.indexed {s : Stmt} {now : Instant} {v v' : View} {a : s.Answer}
    (h : s.Effect now v v' a) (hv : Indexed v) : Indexed v' := by
  intro tenant id row k hrow hk
  have hstep := h.keyStep tenant id
  cases hold : v (.key tenant id) with
  | some old =>
    obtain ⟨row', hrow', hb⟩ := h.evolves (.key tenant id) old hold
    obtain rfl := Option.some.inj (hrow'.symm.trans hrow)
    rw [hb.fixed.2.2.2] at hk
    exact h.evolves (.createKey tenant k) id (hv tenant id old k hold hk)
  | none =>
    rw [hold, hrow] at hstep
    cases hstep with
    | inserted =>
      cases a with
      | none =>
        rw [h.1, hold] at hrow
        cases hrow
      | some a =>
        obtain ⟨_, _, _, _, rfl⟩ := h
        simp [View.inserted, View.entered, hk]

section
variable {i : Nat} {db db' : Db}

theorem AllIndexed.work {s : Stmt} {now : Instant} {a : s.Answer} (h : AllIndexed db)
    (hw : Works i db db') (he : s.Effect now (db.view i) (db'.view i) a) : AllIndexed db' := by
  refine ⟨by rw [hw.committed]; exact h.1, fun j => ?_⟩
  by_cases hji : j = i
  · subst hji
    exact he.indexed (h.2 j)
  · rw [funext (hw.view_other hji)]
    exact h.2 j

theorem AllIndexed.rollback (h : AllIndexed db) : AllIndexed (db.rollback i) := by
  refine ⟨h.1, fun j => ?_⟩
  by_cases hji : j = i
  · subst hji
    rw [funext view_rollback_self]
    exact h.1
  · rw [funext (view_rollback_other hji)]
    exact h.2 j

/-- An entry of the index that one process sees is seen by all after its commit. -/
theorem AllIndexed.commit (h : AllIndexed db) (hw : db.Within fun _ => Row.Evolves) :
    AllIndexed (db.commit i) := by
  have hseen := hw.view fun _ => Row.Evolves.refl
  refine ⟨h.2 i, fun j => ?_⟩
  by_cases hji : j = i
  · subst hji
    rw [funext view_commit_self]
    exact h.2 j
  intro tenant id row k hrow hk
  rw [view_commit_other hji] at hrow ⊢
  by_cases hlock : db.lock (.createKey tenant k) = .exclusive j
  · rw [if_pos hlock]
    split at hrow
    · exact h.2 j tenant id row k hrow hk
    · have hentry := h.2 i tenant id row k hrow hk
      have hother : db.lock (.createKey tenant k) ≠ .exclusive i := by
        rw [hlock]
        exact fun hsame => hji (Lock.exclusive.inj hsame)
      rw [view_of_not_exclusive hother] at hentry
      exact hseen j (.createKey tenant k) id hentry
  · rw [if_neg hlock]
    split at hrow
    · have hentry := h.2 j tenant id row k hrow hk
      rw [view_of_not_exclusive hlock] at hentry
      exact hseen i (.createKey tenant k) id hentry
    · exact h.2 i tenant id row k hrow hk

theorem Does.indexed {now : Instant} {e : Call} {a : e.Answer} (hd : Does i now db db' e a)
    (h : AllIndexed db) (hw : db.Within fun _ => Row.Evolves) : AllIndexed db' := by
  have hauto : ∀ {s : Stmt} {b : s.Answer} {mid : Db}, Works i (db.openTxn i) mid →
      s.Effect now (db.view i) (mid.view i) b → AllIndexed (mid.commit i) := by
    intro s b mid hwork he
    have hopen : AllIndexed (db.openTxn i) := h
    refine (hopen.work hwork he).commit ?_
    exact Within.work (s := db.openTxn i) (fun _ => Row.Evolves.refl) (fun _ => Row.Evolves.trans)
      hw hwork he.evolves
  cases e with
  | now | randomText | salt | nonce | newID | tick t => exact hd ▸ h
  | begin =>
    cases a with
    | ok _ => exact hd.2 ▸ h
    | error _ => exact hd ▸ h
  | stmt s =>
    cases a with
    | ok b => exact h.work hd.2.1 hd.2.2.1
    | error _ => exact hd ▸ h.rollback
  | auto s =>
    cases a with
    | ok b =>
      obtain ⟨_, mid, hwork, he, rfl⟩ := hd
      exact hauto hwork he
    | error _ =>
      obtain rfl | ⟨_, b, mid, hwork, he, rfl⟩ := hd
      · exact h
      · exact hauto hwork he
  | commit =>
    cases a with
    | ok _ => exact hd.2 ▸ h.commit hw
    | error _ =>
      obtain rfl | rfl | ⟨_, rfl⟩ := hd
      · exact h
      · exact h.rollback
      · exact h.commit hw
  | rollback | disconnect j => exact hd ▸ h.rollback

end

/-- The index stays complete. -/
theorem Ran.indexed {requests : Nat → Request} {start : World → Prop} {h : List Event} {w : World}
    (hidle : ∀ w, start w → w.Idle) (hstart : ∀ w, start w → Indexed w.db.committed)
    (hr : Ran requests start h w) : Indexed w.db.committed := by
  refine (hr.invariant (P := fun w => AllIndexed w.db) (fun w hw => ⟨hstart w hw, fun i => ?_⟩)
    fun y older hy hall => ?_).1
  · have hclean : w.db.view i = w.db.committed :=
      funext (clean_of_tidy (hidle w hw).tidy ((hidle w hw).closed i))
    rw [hclean]
    exact hstart w hw
  · exact (Ran.does hr hy).indexed hall (Ran.evolving hidle (hr.arises hy).run)

/-- What `Create` checks of its input, but for the time. -/
structure CreateInput.Accepted (given : CreateInput) (tenant policyID : Uuid) : Prop where
  tenant : Uuid128.parse given.trimmed.tenantID = some tenant
  name : given.trimmed.name ≠ []
  actor : given.trimmed.createdBy ≠ []
  policy : Uuid128.parse (trimSpace given.policyID) = some policyID
  nonzero : policyID ≠ Uuid128.replicate 0
  canonical : policyID.text = given.policyID
  services : given.allowedServiceIDs = []
  models : given.allowedModelNames = []
  perSecond : given.requestsPerSecond = 0
  perMinute : given.requestsPerMinute = 0
  perHour : given.requestsPerHour = 0

/-- The row a creation inserts. -/
structure Fresh (given : CreateInput) (tenant id : Uuid) (secret : Text) (row : KeyRow) : Prop where
  tenant : Uuid128.parse given.trimmed.tenantID = some tenant
  name : row.name = given.trimmed.name
  expiresAt : row.expiresAt = given.expiresAt.map timestamptz
  key : row.createIdempotencyKey = textParam given.trimmed.idempotencyKey
  policy : row.policyID = Uuid128.parse (trimSpace given.policyID)
  sealed : FreshSecret given.trimmed.tenantID id.text secret row.keyPrefix row.secretHash
    row.secretCiphertext

/-- What `Create` hands to the store. -/
structure Submits (given : CreateInput) (id policyID : Uuid) (secret : Text) (input : Record) :
    Prop where
  fresh : ∀ tenant, Uuid128.parse given.trimmed.tenantID = some tenant →
    Fresh given tenant id secret (input.row policyID)
  tenantID : input.tenantID = given.trimmed.tenantID
  id : input.id = id.text
  policyID : input.policyID = policyID.text
  key : input.createIdempotencyKey = given.trimmed.idempotencyKey

/-- Process `i` is about to commit a new key, the first under its idempotency key. -/
def Creating (i : Nat) (tenant id : Uuid) (row : KeyRow) (w : World) : Prop :=
  (w.db.lock (.key tenant id) = .exclusive i ∧ w.db.committed (.key tenant id) = none) ∧
    (w.db.lock (.key tenant id) = .exclusive i ∧ w.db.view i (.key tenant id) = some row) ∧
    ∀ k, row.createIdempotencyKey = some k →
      w.db.lock (.createKey tenant k) = .exclusive i ∧ w.db.committed (.createKey tenant k) = none

/-- What a creation knows before a call of it. -/
def CreateKnows (i : Nat) (given : CreateInput) : Call → List Event → World → Prop
  | .stmt (.keyByCreateIdempotency _ _), _, w => w.db.live i = true → Clean i w.db
  | .stmt (.insertKey tenant id row), _, w =>
    (∃ secret, Fresh given tenant id secret row) ∧ (w.db.live i = true → Clean i w.db)
  | _, _, _ => True

/-- The search for the key that was created under this idempotency key, and what it found. -/
abbrev lookup (tenant : Uuid) (k : Text) (found : Option (Uuid × KeyRow)) : Exchange :=
  ⟨.stmt (.keyByCreateIdempotency tenant k), .ok found⟩

/-- A creation that found no key found no policy either, or its insertion met a key and the next
search did not. -/
def Missed (tenant policyID : Uuid) (k : Text) (es : List Exchange) : Prop :=
  (lookup tenant k none ∈ es ∧ ⟨.stmt (.policyForShare tenant policyID), .ok none⟩ ∈ es) ∨
    ∃ es₁ es₂ id row, es = es₁ ++ ⟨.stmt (.insertKey tenant id row), .ok none⟩ :: es₂ ∧
      lookup tenant k none ∈ es₂

/-- Why the store fails a creation: a call failed, or it missed its key. -/
def StoreFails (input : Record) (tenant policyID : Uuid) (es : List Exchange) : Prop :=
  (∃ a ∈ es, failed a = true) ∨
    (input.createIdempotencyKey ≠ [] → Missed tenant policyID input.createIdempotencyKey es)

section
variable (requests : Nat → Request) (start : World → Prop) (whole : List Event) (i : Nat)

/-- How the store ends a creation that is not an error: with a commit. -/
def StoreCreates (input : Record) (tenant id policyID : Uuid) (es : List Exchange)
    (r : Persisted) : Prop :=
  ∃ es₁ es₂, es = es₁ ++ ⟨.commit, .ok ()⟩ :: es₂ ∧ Uncommitted es₁ ∧ Uncommitted es₂ ∧
    (r.replayed = true ∧ (∃ existing row, r.record = accessKeyRecord tenant existing row ∧
        lookup tenant input.createIdempotencyKey (some (existing, row)) ∈ es₁) ∧
        (Held requests start whole i es₁ fun _ w => Clean i w.db) ∨
      r.replayed = false ∧ ∃ row, r.record = accessKeyRecord tenant id row ∧
        Held requests start whole i es₁ fun _ w =>
          Creating i tenant id row w ∧ row = input.row policyID)

/-- How a creation ends. -/
def CreateEnds (given : CreateInput) (es : List Exchange) :
    Except Err Issued → Prop
  | .ok r => ∃ tenant id policyID secret input, Submits given id policyID secret input ∧
    Uuid128.parse given.trimmed.tenantID = some tenant ∧
    Uuid128.parse (trimSpace given.policyID) = some policyID ∧
    r.secret = (if r.replayed then [] else secret) ∧
    (r.replayed = true → r.record.name = given.trimmed.name ∧
      r.record.policyID = policyID.text ∧ r.record.expiresAt = given.expiresAt) ∧
    StoreCreates requests start whole i input tenant id policyID es ⟨r.record, r.replayed⟩
  | .error e => ∀ tenant policyID, given.Accepted tenant policyID →
    (∃ a ∈ es, failed a = true) ∨
    (∃ t now : Instant, given.expiresAt = some t ∧ ⟨.now, now⟩ ∈ es ∧ t ≤ now) ∨
    (given.trimmed.idempotencyKey ≠ [] → Missed tenant policyID given.trimmed.idempotencyKey es) ∨
    e = .idempotencyReplay ∧ ∃ existing row,
      lookup tenant given.trimmed.idempotencyKey (some (existing, row)) ∈ es ∧
      ¬(row.name = given.trimmed.name ∧ uuidValue row.policyID = policyID.text ∧
        row.expiresAt = given.expiresAt)

end

section
variable {requests : Nat → Request} {start : World → Prop} {whole : List Event} {i : Nat}
variable {es : List Exchange} {Θ : List Exchange → Except Err Persisted → Prop}
variable {given : CreateInput} {input : Record} {tenant id policyID : Uuid} {secret : Text}

theorem steady_creating (tenant id : Uuid) (row : KeyRow) (p : Prop) :
    Steady requests start whole i fun _ w => Creating i tenant id row w ∧ p := by
  have hentry : Steady requests start whole i fun _ w => ∀ k, row.createIdempotencyKey = some k →
      w.db.lock (.createKey tenant k) = .exclusive i ∧
        w.db.committed (.createKey tenant k) = none :=
    fun y past hy ha hown hl h k hk =>
      (firm_exclusive (.createKey tenant k) none).steady y past hy ha hown hl (h k hk)
  exact ((firm_exclusive _ _).steady.and ((steady_view _ _).and hentry)).and (firm_const p).steady

theorem steady_clean : Steady requests start whole i fun _ w => Clean i w.db := by
  intro y past _ ha hown hl hclean
  by_cases hi : y.actor = i
  · obtain ⟨s, b, hreads, hs⟩ := hown hi
    obtain ⟨actor, call, answer, before, after⟩ := y
    cases hs
    obtain rfl : actor = i := hi
    exact ((does_of_arises ha).clean_read hreads hclean).1
  · exact (does_of_arises ha).clean (Ne.symm hi) hl hclean

theorem StoreFails.failing {e : Call} {r : e.Answer} (h : failed ⟨e, r⟩ = true) :
    StoreFails input tenant policyID (es ++ [⟨e, r⟩]) :=
  .inl (Access.failing h)

theorem StoreFails.append (h : StoreFails input tenant policyID es)
    (es' : List Exchange) : StoreFails input tenant policyID (es ++ es') := by
  rcases h with ⟨a, ha, hfail⟩ | hmissed
  · exact .inl ⟨a, List.mem_append_left _ ha, hfail⟩
  · refine .inr fun hk => ?_
    rcases hmissed hk with ⟨hnone, hpolicy⟩ | ⟨es₁, es₂, id, row, rfl, hnone⟩
    · exact .inl ⟨List.mem_append_left _ hnone, List.mem_append_left _ hpolicy⟩
    · exact .inr ⟨es₁, es₂ ++ es', id, row, by simp, List.mem_append_left _ hnone⟩

theorem knows_trivial {e : Call} (he : ∀ h w, CreateKnows i given e h w) :
    Knows requests start whole i es (CreateKnows i given e) :=
  fun h w _ _ _ => he h w

/-- The insertion, after no key was found. -/
theorem walk_insert (hes : Uncommitted es)
    (hk : Reading requests start whole i es fun _ _ => True)
    (hnone : input.createIdempotencyKey ≠ [] → lookup tenant input.createIdempotencyKey none ∈ es)
    (hrow : Fresh given tenant id secret (input.row policyID))
    (hdone : ∀ es r, (∀ es₂, Uncommitted es₂ →
      StoreCreates requests start whole i input tenant id policyID (es ++ es₂) r) → Θ es (.ok r))
    (hfail : ∀ es e, StoreFails input tenant policyID es → Θ es (.error e)) :
    Walk (fun es e => Knows requests start whole i es (CreateKnows i given e)) Θ es
      (Store.insert input tenant id policyID).run := by
  refine walk_stmt (knows_trivial fun _ _ => trivial) (fun _ => hfail _ _ (.failing rfl))
    fun policy => ?_
  cases policy with
  | none => exact hfail _ _ (.inr fun hk => .inl ⟨by simp [hnone hk], by simp⟩)
  | some policy =>
    have hshare := hk.keep (.policyForShare tenant policyID) rfl (some policy)
    have n₁ := hes.snoc (e := .stmt (.policyForShare tenant policyID)) (by simp) (.ok (some policy))
    refine walk_stmt (Known.mono hshare.held fun _ _ h => ⟨⟨secret, hrow⟩, fun hl => (h hl).2⟩)
      (fun _ => hfail _ _ (.failing rfl)) fun created => ?_
    have n₂ := n₁.snoc (e := .stmt (.insertKey tenant id (input.row policyID))) (by simp)
      (.ok created)
    cases created with
    | some created =>
      have hwrote := hshare.write (.insertKey tenant id (input.row policyID)) (some created)
        (steady_creating tenant id created (created = input.row policyID))
        fun past b a _ hd hclean _ => by
          obtain ⟨_, hw, ⟨rfl, hnone, _, hentry, hview⟩, _⟩ := hd
          have hnew : a.db.view i (.key tenant id) = some (input.row policyID) := by
            rw [hview, View.inserted, Function.update_self]
          have hold : a.db.committed (.key tenant id) = none := by
            rw [hw.committed, ← hclean]
            exact hnone
          have hlock : a.db.lock (.key tenant id) = .exclusive i :=
            exclusive_of_view_ne (by simp [hnew, hold])
          refine ⟨⟨⟨hlock, hold⟩, ⟨hlock, hnew⟩, fun k hk => ?_⟩, rfl⟩
          have hfirst : a.db.committed (.createKey tenant k) = none := by
            rw [hw.committed, ← hclean]
            exact hentry k hk
          refine ⟨exclusive_of_view_ne ?_, hfirst⟩
          rw [hview, hfirst]
          simp [View.inserted, View.entered, hk]
      refine walk_stmt (knows_trivial fun _ _ => trivial) (fun _ => hfail _ _ (.failing rfl))
        fun u => ?_
      have hheld := (hwrote.keep .appendAudit rfl u).held
      refine walk_commit (knows_trivial fun _ _ => trivial) (fun _ => hfail _ _ (.failing rfl))
        (hdone _ _ fun es₂ hes₂ => ?_)
      exact ⟨_, es₂, by simp, n₂.snoc (by simp) _, hes₂, .inr ⟨rfl, created, rfl, hheld⟩⟩
    | none =>
      dsimp only
      split
      · next hempty => exact hfail _ _ (.inr fun hk => absurd hempty hk)
      · have hclean := hshare.write (.insertKey tenant id (input.row policyID)) none steady_clean
          fun past b a _ hd hclean _ => by
            obtain ⟨_, hw, ⟨hview, _⟩, _⟩ := hd
            intro k
            rw [hview, hw.committed]
            exact hclean k
        refine walk_stmt hclean.held (fun _ => hfail _ _ (.failing rfl)) fun existing => ?_
        have hheld := (hclean.keep (.keyByCreateIdempotency tenant input.createIdempotencyKey) rfl
          existing).held
        cases existing with
        | none =>
          exact hfail _ _ (.inr fun _ => .inr ⟨_, [_], id, input.row policyID,
            List.append_assoc _ _ _, List.mem_singleton_self _⟩)
        | some existing =>
          refine walk_replay (knows_trivial fun _ _ => trivial) (hdone _ _ fun es₂ hes₂ => ?_)
            fun _ => hfail _ _ (.failing rfl)
          exact ⟨_, es₂, by simp, n₂.snoc (by simp) _, hes₂, .inl ⟨rfl,
            ⟨existing.1, existing.2, rfl, by simp⟩, hheld⟩⟩

theorem parseUUID_text (label : String) (u : Uuid) : parseUUID label u.text = pure u := by
  simp [parseUUID, Uuid128.parse_text]

variable (requests whole i) in
theorem walk_storeCreate (hidle : ∀ w, start w → w.Idle) (hes : Uncommitted es)
    (hin : Submits given id policyID secret input)
    (hdone : ∀ es tenant r, Uuid128.parse given.trimmed.tenantID = some tenant →
      StoreCreates requests start whole i input tenant id policyID es r → Θ es (.ok r))
    (hfail : ∀ es e, (∀ tenant, Uuid128.parse given.trimmed.tenantID = some tenant →
      StoreFails input tenant policyID es) → Θ es (.error e)) :
    Walk (fun es e => Knows requests start whole i es (CreateKnows i given e)) Θ es
      (Store.create input).run := by
  unfold Store.create
  rw [hin.tenantID, hin.id, hin.policyID]
  refine walk_parsed (fun hnone => hfail _ _ fun _ h => by simp [hnone] at h) fun tenant ht => ?_
  simp only [parseUUID_text]
  have hwhy : ∀ {es}, StoreFails input tenant policyID es → ∀ t,
      Uuid128.parse given.trimmed.tenantID = some t → StoreFails input t policyID es := by
    intro es hf t ht'
    obtain rfl := Option.some.inj (ht.symm.trans ht')
    exact hf
  refine walk_inTx (knows_trivial fun _ _ => trivial)
    (fun _ => hfail _ _ (hwhy (.failing rfl))) ?_
  have hroll : ∀ es, Knows requests start whole i es (CreateKnows i given .rollback) :=
    fun es => knows_trivial fun _ _ => trivial
  have hend : ∀ es r, (∀ es₂, Uncommitted es₂ →
      StoreCreates requests start whole i input tenant id policyID (es ++ es₂) r) →
      Knows requests start whole i es (CreateKnows i given .rollback) ∧
        Θ (es ++ [⟨.rollback, ()⟩]) (.ok r) :=
    fun es r h => ⟨hroll es, hdone _ tenant r ht
      (h _ (uncommitted_nil.snoc (e := .rollback) (by simp) ()))⟩
  have hlose : ∀ es e, StoreFails input tenant policyID es →
      Knows requests start whole i es (CreateKnows i given .rollback) ∧
        Θ (es ++ [⟨.rollback, ()⟩]) (.error e) :=
    fun es e h => ⟨hroll es, hfail _ _ (hwhy (h.append _))⟩
  have hopen : Reading requests start whole i (es ++ [⟨.begin, .ok ()⟩]) fun _ _ => True :=
    .opened hidle (fun _ _ _ _ _ => trivial) fun _ _ _ _ _ => trivial
  have n₁ := hes.snoc (e := .begin) (by simp) (.ok ())
  split
  · next hempty =>
    exact walk_insert n₁ hopen (fun hk => absurd hempty hk) (hin.fresh tenant ht) hend hlose
  · refine walk_stmt (hopen.held.mono fun _ _ h => h.2) (fun _ => hlose _ _ (.failing rfl))
      fun existing => ?_
    have hread := hopen.keep (.keyByCreateIdempotency tenant input.createIdempotencyKey) rfl
      existing
    have n₂ := n₁.snoc
      (e := .stmt (.keyByCreateIdempotency tenant input.createIdempotencyKey)) (by simp)
      (.ok existing)
    cases existing with
    | some existing =>
      refine walk_replay (knows_trivial fun _ _ => trivial) (hend _ _ fun es₂ hes₂ => ?_)
        fun _ => hlose _ _ (.failing rfl)
      exact ⟨_, es₂, by simp, n₂, hes₂, .inl ⟨rfl, ⟨existing.1, existing.2, rfl, by simp⟩,
        hread.held.mono fun _ _ h => h.2⟩⟩
    | none =>
      exact walk_insert n₂ hread (fun _ => by simp) (hin.fresh tenant ht) hend hlose

/-- What is answered as a replay was found. -/
theorem StoreCreates.found {r : Persisted}
    (h : StoreCreates requests start whole i input tenant id policyID es r)
    (hr : r.replayed = true) : ∃ existing row, r.record = accessKeyRecord tenant existing row ∧
      lookup tenant input.createIdempotencyKey (some (existing, row)) ∈ es := by
  obtain ⟨es₁, es₂, rfl, _, _, ⟨_, ⟨existing, row, hrec, hmem⟩, _⟩ | ⟨hnot, _⟩⟩ := h
  · exact ⟨existing, row, hrec, List.mem_append_left _ hmem⟩
  · rw [hr] at hnot
    cases hnot

/-- Time is looked at only where there is an expiry. -/
theorem walk_requireFuture {β : Type} {Φ : List Exchange → Call → Prop}
    {Θ : List Exchange → Except Err β → Prop} {expiresAt : Option Instant}
    {f : Unit → Service β} (hnow : Φ es .now)
    (herr : ∀ t now e, expiresAt = some t → t ≤ now → Θ (es ++ [⟨.now, now⟩]) (.error e))
    (hes : Uncommitted es) (hf : ∀ es, Uncommitted es → Walk Φ Θ es (f ()).run) :
    Walk Φ Θ es (requireFuture expiresAt >>= f).run := by
  cases expiresAt with
  | none => exact hf es hes
  | some t =>
    refine walk_run_bind.mpr (walk_perform hnow fun (now : Instant) => ?_)
    split
    · exact hf _ (hes.snoc (by simp) _)
    · next hlate => exact herr t now _ rfl (Nat.le_of_not_lt hlate)

theorem lost {e : Call} {r : e.Answer} {err : Err} (h : failed ⟨e, r⟩ = true) :
    CreateEnds requests start whole i given (es ++ [⟨e, r⟩]) (.error err) :=
  fun _ _ _ => .inl (failing h)

theorem walk_create_knows (hidle : ∀ w, start w → w.Idle) :
    Walk (fun es e => Knows requests start whole i es (CreateKnows i given e))
      (CreateEnds requests start whole i given) [] (create given).run := by
  unfold create
  dsimp only
  split
  · next hempty =>
    intro tenant policyID hacc
    rcases hempty with h | h | h
    · have hparse := hacc.tenant
      rw [h] at hparse
      simp [Uuid128.parse, Uuid128.parseBytes, bytes] at hparse
    · exact absurd h hacc.name
    · exact absurd h hacc.actor
  · split
    · next hnone =>
      intro tenant policyID hacc
      exact absurd (hacc.policy.symm.trans hnone) (by simp)
    · next policyID hpolicy =>
      split
      · next hbad =>
        intro tenant policyID' hacc
        obtain rfl := Option.some.inj (hacc.policy.symm.trans hpolicy)
        rcases hbad with h | h | h | h | h | h | h
        · exact absurd h hacc.nonzero
        · exact absurd hacc.canonical h
        · exact absurd hacc.services h
        · exact absurd hacc.models h
        · exact absurd hacc.perSecond h
        · exact absurd hacc.perMinute h
        · exact absurd hacc.perHour h
      · refine walk_requireFuture (knows_trivial fun _ _ => trivial) ?_ uncommitted_nil
          fun es hes => ?_
        · intro t now e ht hle tenant policyID hacc
          exact .inr (.inl ⟨t, now, ht, by simp, hle⟩)
        refine walk_newSecret (knows_trivial fun _ _ => trivial) (lost rfl) fun cs =>
          walk_newHash (knows_trivial fun _ _ => trivial) (lost rfl) fun salt =>
          walk_perform (knows_trivial fun _ _ => trivial) fun (id : Uuid) =>
          walk_sealSecret (knows_trivial fun _ _ => trivial) (lost rfl) fun nonce =>
          walk_run_bind.mpr ?_
        obtain ⟨input, hinput, hin⟩ : ∃ input : Record, input =
            { tenantID := given.trimmed.tenantID, id := id.text, name := given.trimmed.name
              keyPrefix := keyPrefix (secretPrefix ++ cs.1)
              secretHash := hashSecret salt (secretPrefix ++ cs.1)
              policyID := policyID.text
              secretCiphertext := some ⟨nonce, ⟨given.trimmed.tenantID, id.text,
                keyPrefix (secretPrefix ++ cs.1), hashSecret salt (secretPrefix ++ cs.1)⟩,
                secretPrefix ++ cs.1⟩
              expiresAt := given.trimmed.expiresAt, revokedAt := none
              createdBy := given.trimmed.createdBy, version := 1
              createIdempotencyKey := given.trimmed.idempotencyKey, rotationIdempotency := [] } ∧
            Submits given id policyID (secretPrefix ++ cs.1) input := by
          refine ⟨_, rfl, fun tenant ht => ?_, rfl, rfl, rfl, rfl⟩
          exact ⟨ht, rfl, rfl, rfl, hpolicy.symm, cs, salt, nonce, rfl, rfl, rfl, rfl⟩
        rw [← hinput]
        have n := (((hes.snoc (e := .randomText) (by simp) (some cs)).snoc (e := .salt) (by simp)
          (some salt)).snoc (e := .newID) (by simp) id).snoc (e := .nonce) (by simp) (some nonce)
        refine walk_storeCreate requests whole i hidle n hin ?_ ?_
        · intro es tenant r ht hr
          obtain ⟨record, replayed⟩ := r
          cases replayed with
          | false =>
            change CreateEnds requests start whole i given es
              (.ok ⟨record, secretPrefix ++ cs.1, false⟩)
            refine ⟨tenant, id, policyID, _, input, hin, ht, hpolicy, rfl, fun h => ?_, hr⟩
            cases h
          | true =>
            dsimp only [Onward]
            rw [if_pos rfl]
            split
            · next hother =>
              intro tenant' policyID' hacc
              obtain rfl := Option.some.inj (hacc.tenant.symm.trans ht)
              obtain rfl := Option.some.inj (hacc.policy.symm.trans hpolicy)
              obtain ⟨existing, row, rfl, hmem⟩ := hr.found rfl
              rw [hin.key] at hmem
              refine .inr (.inr (.inr ⟨rfl, existing, row, hmem, ?_⟩))
              rintro ⟨h₁, h₂, h₃⟩
              rcases hother with h | h | h
              · exact h h₁
              · exact h h₂
              · exact h h₃
            · next hsame =>
              simp only [ne_eq, not_or, not_not] at hsame
              exact ⟨tenant, id, policyID, _, input, hin, ht, hpolicy, rfl, fun _ => hsame, hr⟩
        · intro es e hwhy tenant policyID' hacc
          obtain rfl := Option.some.inj (hacc.policy.symm.trans hpolicy)
          rcases hwhy tenant hacc.tenant with hf | hmissed
          · exact .inl hf
          · rw [hin.key] at hmissed
            exact .inr (.inr (.inl hmissed))

end

/-- The one asks for the same key under the same idempotency key as the other. -/
structure Repeats (first again : CreateInput) : Prop where
  tenant : Uuid128.parse again.trimmed.tenantID = Uuid128.parse first.trimmed.tenantID
  name : again.trimmed.name = first.trimmed.name
  policyID : again.policyID = first.policyID
  expiresAt : again.expiresAt = first.expiresAt
  key : again.trimmed.idempotencyKey = first.trimmed.idempotencyKey

/-- At this moment the key comes into being. -/
def Creates (tenant id : Uuid) (row : KeyRow) (y : Event) : Prop :=
  y.before.db.committed (.key tenant id) = none ∧ y.after.db.committed (.key tenant id) = some row

section
variable {requests : Nat → Request} {start : World → Prop} {h past : List Event} {w : World}
variable {i j : Nat} {given : CreateInput} {r : Issued} {tenant id : Uuid} {row : KeyRow}

section
variable (hidle : ∀ w, start w → w.Idle) (hr : Ran requests start h w)
include hidle hr

/-- A creation that is not a replay has created a key of its own with its secret. -/
theorem Ran.created (hanswer : Answered (.create given) i h (.ok r)) (hnew : r.replayed = false) :
    ∃ y past tenant id row, y :: past <:+ h ∧ y.actor = i ∧ Creates tenant id row y ∧
      r.record = accessKeyRecord tenant id row ∧ Fresh given tenant id r.secret row ∧
      y.call = .commit ∧ ∀ k, row.createIdempotencyKey = some k →
        y.before.db.committed (.createKey tenant k) = none := by
  obtain ⟨tenant, id, policyID, secret, input, hin, ht, _, hsecret, _, es₁, es₂, htrace, _, _,
    hcase⟩ : CreateEnds requests start h i given (trace i h) (.ok r) :=
    (walk_create_knows hidle).played hanswer
  rcases hcase with ⟨hreplayed, _⟩ | ⟨_, row, hrec, hheld⟩
  · rw [hnew] at hreplayed
    cases hreplayed
  · obtain ⟨y, past, hy, hi, hcall, ⟨⟨⟨_, hnone⟩, ⟨_, hview⟩, hfirst⟩, rfl⟩, hafter⟩ :=
      Ran.committed hr htrace hheld
    refine ⟨y, past, tenant, id, _, hy, hi, ⟨hnone, ?_⟩, hrec, ?_, hcall,
      fun k hk => (hfirst k hk).2⟩
    · rw [hafter]
      exact hview
    · rw [hsecret, hnew]
      exact hin.fresh tenant ht

/-- An entry of the index stays. -/
theorem Ran.entry_stays {x : Event} {k : Text} (hx : x :: past <:+ h)
    (hentry : x.before.db.committed (.createKey tenant k) = some id) :
    w.db.committed (.createKey tenant k) = some id :=
  have hstays := Ran.evolves hidle hr hx (.createKey tenant k)
  hstays.2 id (hstays.1 id hentry)

/-- A key comes into being once. -/
theorem Ran.created_once {x y : Event} {row' : KeyRow} {older : List Event} (hx : x :: past <:+ h)
    (hcx : Creates tenant id row x) (hy : y :: older <:+ h) (hcy : Creates tenant id row' y) :
    x = y := by
  have hlater : ∀ {x y : Event} {past older : List Event} {row : KeyRow}, y :: older <:+ h →
      x :: past <:+ older → x.after.db.committed (.key tenant id) = some row →
      y.before.db.committed (.key tenant id) ≠ none := by
    intro x y past older row hy hxy hrow hnone
    obtain ⟨row', hrow', _⟩ := (Ran.evolves hidle (hr.arises hy).run hxy
      (.key tenant id)).2 row hrow
    rw [hnone] at hrow'
    cases hrow'
  rcases List.suffix_or_suffix_of_suffix hx hy with hsuf | hsuf
  · rcases List.suffix_cons_iff.mp hsuf with heq | hsuf
    · injection heq
    · exact absurd hcy.1 (hlater hy hsuf hcx.2)
  · rcases List.suffix_cons_iff.mp hsuf with heq | hsuf
    · injection heq with heq
      exact heq.symm
    · exact absurd hcx.1 (hlater hx hsuf hcy.2)

/-- A repeat of a creation: the same request once more, at any time, with no call failing and the
expiry not passed. The key is bound to the policy asked for whenever the repeat looks, and where its
search comes before the key, the policy is there. -/
structure Repetition (requests : Nat → Request) (h : List Event) (i j : Nat)
    (first again : CreateInput) (r₀ : Issued) (tenant policyID : Uuid) : Prop where
  isFirst : requests i = .create first
  isAgain : requests j = .create again
  other : j ≠ i
  created : Answered (.create first) i h (.ok r₀)
  isNew : r₀.replayed = false
  accepted : again.Accepted tenant policyID
  same : Repeats first again
  key : again.trimmed.idempotencyKey ≠ []
  bound : ∀ x ∈ h, x.actor = j → ∀ id row, id.text = r₀.record.id →
    x.before.db.committed (.key tenant id) = some row → row.policyID = some policyID
  policy : lookup tenant again.trimmed.idempotencyKey none ∈ trace j h →
    ⟨.stmt (.policyForShare tenant policyID), .ok none⟩ ∉ trace j h
  smooth : ∀ a ∈ trace j h, failed a = false
  future : ∀ t now, again.expiresAt = some t → ⟨.now, now⟩ ∈ trace j h → now < t

/-- The answer is the record of the key that the other call created, as process `j` found it. -/
def ReplayOf (original : Record) (tenant : Uuid) (j : Nat) (h : List Event)
    (r : Except Err Issued) : Prop :=
  ∃ s x id row, r = .ok s ∧ s.replayed = true ∧ s.secret = [] ∧ x ∈ h ∧ x.actor = j ∧
    id.text = original.id ∧ tenant.text = original.tenantID ∧
    x.before.db.committed (.key tenant id) = some row ∧ s.record = accessKeyRecord tenant id row

/-- An insertion that meets a key under its idempotency key comes after the first of them. Where
every search that finds nothing comes before that, none follows the insertion. -/
theorem Ran.insert_found (hj : requests j = .create given) {y : Event} (hy : y :: past <:+ h)
    (hfirst : y.before.db.committed (.createKey tenant given.trimmed.idempotencyKey) = none)
    {es₁ es₂ : List Exchange} {id : Uuid} {row : KeyRow}
    (htrace : trace j h = es₁ ++ ⟨.stmt (.insertKey tenant id row), .ok none⟩ :: es₂)
    (hnone : lookup tenant given.trimmed.idempotencyKey none ∈ es₂)
    (hearly : ∀ {x older}, x :: older <:+ h → x.actor = j →
      x.seen = lookup tenant given.trimmed.idempotencyKey none → x :: older <:+ past) : False := by
  obtain ⟨new, z, before, rfl, hzj, hzseen, _, hnew⟩ := trace_split htrace
  rw [← hnew] at hnone
  obtain ⟨x, hx, hxj, hseen⟩ := mem_trace.mp hnone
  obtain ⟨new₁, new₂, rfl⟩ := List.append_of_mem hx
  have hpast : x :: (new₂ ++ z :: before) <:+ past := hearly ⟨new₁, by simp⟩ hxj hseen
  have hz : z :: before <:+ past := (List.suffix_append _ _).trans
    ((List.suffix_cons _ _).trans hpast)
  have hzh : z :: before <:+ new₁ ++ x :: new₂ ++ z :: before := List.suffix_append _ _
  have hd := Ran.does hr hzh
  subst hzj
  have hknows := Ran.knows_at hr hzh hj (walk_create_knows hidle)
  obtain ⟨actor, call, answer, b, a⟩ := z
  cases hzseen
  obtain ⟨hlive, _, ⟨_, k, existing, hkey, hentry⟩, _⟩ := hd
  obtain ⟨⟨_, hfresh⟩, hclean⟩ := hknows
  obtain rfl : given.trimmed.idempotencyKey = k := by
    rw [hfresh.key, textParam] at hkey
    split at hkey
    · cases hkey
    · exact Option.some.inj hkey
  rw [hclean hlive] at hentry
  have hlater := Ran.entry_stays hidle (hr.arises hy).run hz hentry
  rw [hfirst] at hlater
  cases hlater

variable (hstart : ∀ w, start w → Indexed w.db.committed)
include hstart

/-- A search before the key is there finds nothing, and one after it the key's row of that time. -/
theorem Ran.search (hj : requests j = .create given) {x y : Event} {older : List Event}
    (hy : y :: past <:+ h) (hcommit : y.call = .commit) {k : Text}
    (hfirst : y.before.db.committed (.createKey tenant k) = none)
    (hrow : y.after.db.committed (.key tenant id) = some row)
    (hk : row.createIdempotencyKey = some k) (hx : x :: older <:+ h) (hxj : x.actor = j)
    {found : Option (Uuid × KeyRow)} (hseen : x.seen = lookup tenant k found) :
    (found = none ∧ x :: older <:+ past) ∨
      ∃ row', found = some (id, row') ∧ x.before.db.committed (.key tenant id) = some row' ∧
        row.Becomes row' := by
  have hd := Ran.does hr hx
  subst hxj
  have hknows := Ran.knows_at hr hx hj (walk_create_knows hidle)
  have hrun := (hr.arises hx).run
  obtain ⟨actor, call, answer, b, a⟩ := x
  cases hseen
  obtain ⟨hlive, _, ⟨_, heq⟩, _⟩ := hd
  have hclean := hknows hlive
  rcases List.suffix_or_suffix_of_suffix hx hy with hsuf | hsuf
  · rcases List.suffix_cons_iff.mp hsuf with hsame | hsuf
    · injection hsame with hsame
      subst hsame
      cases hcommit
    · refine .inl ⟨?_, hsuf⟩
      have hnone : b.db.committed (.createKey tenant k) = none := by
        cases hentry : b.db.committed (.createKey tenant k) with
        | none => rfl
        | some other =>
          have hlater := Ran.entry_stays hidle (hr.arises hy).run hsuf hentry
          rw [hfirst] at hlater
          cases hlater
      rw [heq, hclean, hnone]
      rfl
  · rcases List.suffix_cons_iff.mp hsuf with hsame | hsuf
    · injection hsame with hsame
      subst hsame
      cases hcommit
    · obtain ⟨row', hrow', hbecomes⟩ := (Ran.evolves hidle hrun hsuf (.key tenant id)).2 row hrow
      have hentry := Ran.indexed hidle hstart hrun tenant id row' k hrow'
        (hbecomes.fixed.2.2.2.trans hk)
      refine .inr ⟨row', ?_, hrow', hbecomes⟩
      rw [heq, hclean, hentry, Option.bind_some, hclean, hrow']
      rfl

/-- Two calls that create a key under the same idempotency key are one. -/
theorem Ran.creator_unique {x y : Event} {older : List Event} {id' : Uuid} {row' : KeyRow}
    {k : Text} (hx : x :: older <:+ h) (hcx : Creates tenant id' row' x) (hy : y :: past <:+ h)
    (hcy : Creates tenant id row y) (hk' : row'.createIdempotencyKey = some k)
    (hk : row.createIdempotencyKey = some k) : x = y := by
  have entry : ∀ {z : Event} {past : List Event} {id : Uuid} {row : KeyRow}, z :: past <:+ h →
      Creates tenant id row z → row.createIdempotencyKey = some k →
      w.db.committed (.createKey tenant k) = some id := by
    intro z past id row hz hc hk
    obtain ⟨row', hrow', hb⟩ := (Ran.evolves hidle hr hz (.key tenant id)).2 row hc.2
    exact Ran.indexed hidle hstart hr tenant id row' k hrow' (hb.fixed.2.2.2.trans hk)
  obtain rfl := Option.some.inj ((entry hx hcx hk').symm.trans (entry hy hcy hk))
  exact Ran.created_once hidle hr hx hcx hy hcy

/-- A repeat finds nothing before the key is there, and after that the key, as it was created but
for what no repeat is compared with. -/
theorem Ran.finds {first again : CreateInput} {r₀ : Issued} {policyID : Uuid}
    (hrep : Repetition requests h i j first again r₀ tenant policyID) :
    ∃ y past id row, y :: past <:+ h ∧ y.actor = i ∧ Creates tenant id row y ∧
      r₀.record = accessKeyRecord tenant id row ∧
      row.createIdempotencyKey = some again.trimmed.idempotencyKey ∧
      y.before.db.committed (.createKey tenant again.trimmed.idempotencyKey) = none ∧
      (∀ {x older}, x :: older <:+ h → x.actor = j →
        x.seen = lookup tenant again.trimmed.idempotencyKey none → x :: older <:+ past) ∧
      ∀ {existing row'},
        lookup tenant again.trimmed.idempotencyKey (some (existing, row')) ∈ trace j h →
        existing = id ∧ ∃ x ∈ h, x.actor = j ∧ x.before.db.committed (.key tenant id) = some row' ∧
          row'.name = again.trimmed.name ∧ uuidValue row'.policyID = policyID.text ∧
          row'.expiresAt = again.expiresAt.map timestamptz := by
  obtain ⟨y, past, tenant', id, row, hy, hyi, hcreates, hrec, hfresh, hcommit, hfirst⟩ :=
    Ran.created hidle hr hrep.created hrep.isNew
  have hsame := hrep.same
  obtain rfl : tenant' = tenant := by
    have ht := hrep.accepted.tenant
    rw [hsame.tenant, hfresh.tenant] at ht
    exact Option.some.inj ht
  have hk : row.createIdempotencyKey = some again.trimmed.idempotencyKey := by
    have hne := hrep.key
    rw [hfresh.key, ← hsame.key]
    exact if_neg hne
  refine ⟨y, past, id, row, hy, hyi, hcreates, hrec, hk, hfirst _ hk, ?_, ?_⟩
  · intro x older hx hxj hseen
    rcases Ran.search hidle hr hstart hrep.isAgain hy hcommit (hfirst _ hk) hcreates.2 hk hx hxj
      hseen with ⟨_, hbefore⟩ | ⟨_, hsome, _⟩
    · exact hbefore
    · cases hsome
  · intro existing row' hmem
    obtain ⟨x, hx, hxj, hseen⟩ := mem_trace.mp hmem
    obtain ⟨new, older, hsplit⟩ := List.append_of_mem hx
    rcases Ran.search hidle hr hstart hrep.isAgain hy hcommit (hfirst _ hk) hcreates.2 hk
      ⟨new, hsplit.symm⟩ hxj hseen with ⟨hnone, _⟩ | ⟨row'', heq, hrow', hb⟩
    · cases hnone
    · cases heq
      refine ⟨rfl, x, hx, hxj, hrow', ?_⟩
      rw [hb.fixed.1, hb.fixed.2.1, hfresh.name, hfresh.expiresAt, hsame.name, hsame.expiresAt,
        hrep.bound x hx hxj id row' (by rw [hrec]; rfl) hrow']
      exact ⟨rfl, rfl, rfl⟩

/-- A repeat is answered with the key if its expiry is the one that was stored, and refused
otherwise. -/
theorem Ran.repeats {first again : CreateInput} {r₀ : Issued} {policyID : Uuid}
    (hrep : Repetition requests h i j first again r₀ tenant policyID)
    {r : Except Err Issued} (hanswer : Answered (.create again) j h r) :
    (again.expiresAt.map timestamptz = again.expiresAt ∧ ReplayOf r₀.record tenant j h r) ∨
      again.expiresAt.map timestamptz ≠ again.expiresAt ∧ r = .error .idempotencyReplay := by
  obtain ⟨y, past, id, row, hy, hyi, hcreates, hrec, hk, hfirst, hearly, hfinds⟩ :=
    Ran.finds hidle hr hstart hrep
  have hends : CreateEnds requests start h j again (trace j h) r :=
    (walk_create_knows hidle).played hanswer
  cases r with
  | ok s =>
    cases hreplayed : s.replayed with
    | false =>
      -- A second key under the same idempotency key is never committed.
      obtain ⟨x, older, tenant, id', row', hx, hxj, hcreates', _, hfresh', _⟩ :=
        Ran.created hidle hr hanswer hreplayed
      obtain rfl := Option.some.inj (hfresh'.tenant.symm.trans hrep.accepted.tenant)
      have hk' : row'.createIdempotencyKey = some again.trimmed.idempotencyKey := by
        rw [hfresh'.key]
        exact if_neg hrep.key
      have hone := Ran.creator_unique hidle hr hstart hx hcreates' hy hcreates hk' hk
      exact absurd (hxj.symm.trans ((congrArg Moment.actor hone).trans hyi)) hrep.other
    | true =>
      obtain ⟨tenant, _, policyID', secret, input, hin, ht, hp, hsecret, hagree, hstore⟩ := hends
      obtain rfl := Option.some.inj (ht.symm.trans hrep.accepted.tenant)
      obtain ⟨existing, row', hs, hmem⟩ := hstore.found hreplayed
      rw [hin.key] at hmem
      obtain ⟨rfl, x, hx, hxj, hrow', _, _, hexp⟩ := hfinds hmem
      have hasked := (hagree hreplayed).2.2
      change s.record = _ at hs
      rw [hs] at hasked
      refine .inl ⟨hexp.symm.trans hasked, s, x, existing, row', rfl, hreplayed, ?_, hx, hxj,
        by rw [hrec]; rfl, by rw [hrec]; rfl, hrow', hs⟩
      rw [hsecret]
      exact if_pos hreplayed
  | error e =>
    rcases hends tenant policyID hrep.accepted with ⟨a, ha, hf⟩ | ⟨t, now, ht, hmem, hle⟩ |
      hmissed |
      ⟨rfl, existing, row', hmem, hother⟩
    · rw [hrep.smooth a ha] at hf
      cases hf
    · exact absurd hle (Nat.not_le.mpr (hrep.future t now ht hmem))
    · rcases hmissed hrep.key with ⟨hnone, hpolicy⟩ | ⟨es₁, es₂, id', row', htrace, hnone⟩
      · exact absurd hpolicy (hrep.policy hnone)
      · exact (Ran.insert_found hidle hr hrep.isAgain hy hfirst htrace hnone hearly).elim
    · obtain ⟨rfl, x, hx, hxj, hrow', hname, hpol, hexp⟩ := hfinds hmem
      exact .inr ⟨fun heq => hother ⟨hname, hpol, hexp.trans heq⟩, rfl⟩

end

end

namespace Sample

/-- A key that expires at this time, under the idempotency key `k`. -/
def asked (expiresAt : Instant) : CreateInput where
  tenantID := tenant.text
  name := ['n']
  policyID := policyID.text
  allowedServiceIDs := []
  allowedModelNames := []
  requestsPerSecond := 0
  requestsPerMinute := 0
  requestsPerHour := 0
  expiresAt := some expiresAt
  createdBy := ['a']
  idempotencyKey := ['k']

/-- Nobody is connected, and the keys are indexed. -/
def Ready (w : World) : Prop := w.Idle ∧ Indexed w.db.committed

theorem ready : Ready (World.idle (rows none) 0) := by
  refine ⟨World.idle_idle _ _, fun t id row k hrow _ => ?_⟩
  have hnone : rows none (.key t id) = none := by simp [rows]
  rw [show (World.idle (rows none) 0).db.committed = rows none from rfl, hnone] at hrow
  cases hrow

def refused : (q : Request) × Except Err q.Result → Bool
  | ⟨.create _, .error .idempotencyReplay⟩ => true
  | _ => false

/-- The time read at this call, if it reads one, is before `t`. -/
def before (t : Instant) : Exchange → Bool
  | ⟨.now, now⟩ => (show Instant from now) < t
  | _ => true

theorem accepted (t : Instant) : (asked t).Accepted tenant policyID := by
  have htenant : Uuid128.parse (trimSpace tenant.text) = some tenant := by decide +kernel
  have hpolicy : Uuid128.parse (trimSpace policyID.text) = some policyID := by decide +kernel
  have hname : trimSpace ['n'] ≠ [] := by decide
  have hactor : trimSpace ['a'] ≠ [] := by decide
  exact ⟨htenant, hname, hactor, hpolicy, by decide, rfl, rfl, rfl, rfl, rfl, rfl⟩

end Sample

end AniInference.Access
