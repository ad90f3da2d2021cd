import AniInference.AccessWrites

namespace AniInference.Access
open Lib LockedRows Text

/-- Process `i` has the key locked and has written nothing: its last rotation was this one. -/
def Replaying (i : Nat) (tenant id : Uuid) (k : Text) (row : KeyRow) (w : World) : Prop :=
  (w.db.lock (.key tenant id) = .exclusive i ∧ w.db.committed (.key tenant id) = some row) ∧
    row.rotationIdempotencyKey = some k ∧ Clean i w.db

/-- Process `i` has the key locked: its last rotation was not this one. -/
def Current (i : Nat) (tenant id : Uuid) (k : Text) (row : KeyRow) (w : World) : Prop :=
  (w.db.lock (.key tenant id) = .exclusive i ∧ w.db.committed (.key tenant id) = some row) ∧
    (k ≠ [] → row.rotationIdempotencyKey ≠ some k)

/-- The row a rotation makes of another. -/
def RotateInput.apply (input : RotateInput) (row : KeyRow) : KeyRow :=
  row.rotate input.keyPrefix input.secretHash (textParam input.idempotency) input.secretCiphertext

/-- Process `i` is about to commit a rotation. -/
def Rotating (i : Nat) (tenant id : Uuid) (input : RotateInput) (row new : KeyRow) (w : World) :
    Prop :=
  (Current i tenant id input.idempotency row w ∧ new = input.apply row) ∧
    w.db.lock (.key tenant id) = .exclusive i ∧ w.db.view i (.key tenant id) = some new

section
variable {requests : Nat → Request} {start : World → Prop} {whole : List Event} {i : Nat}
variable {es : List Exchange}

theorem firm_current (tenant id : Uuid) (k : Text) (row : KeyRow) :
    Firm requests start whole i fun _ w => Current i tenant id k row w :=
  (firm_exclusive _ _).and (firm_const _)

theorem steady_rotating (tenant id : Uuid) (input : RotateInput) (row new : KeyRow) :
    Steady requests start whole i fun _ w => Rotating i tenant id input row new w :=
  ((firm_current tenant id _ row).and (firm_const _)).steady.and (steady_view _ _)

/-- What a rotation knows before a call of it. -/
def RotateKnows (i : Nat) (tenantID id idempotencyKey : Text) : Call → List Event → World → Prop
  | .stmt (.rotateKey tenant keyID p hash x c), _, _ =>
    Uuid128.parse (trimSpace tenantID) = some tenant ∧ Uuid128.parse (trimSpace id) = some keyID ∧
      x = textParam (trimSpace idempotencyKey) ∧
      ∃ secret, FreshSecret (trimSpace tenantID) (trimSpace id) secret p hash c
  | .commit, _, w => w.db.live i = true → ∃ tenant keyID row,
    Uuid128.parse (trimSpace tenantID) = some tenant ∧ Uuid128.parse (trimSpace id) = some keyID ∧
      (Replaying i tenant keyID (trimSpace idempotencyKey) row w ∨
        ∃ input new, input.idempotency = trimSpace idempotencyKey ∧
          Rotating i tenant keyID input row new w)
  | _, _, _ => True

variable (requests start whole i) in
/-- A rotation that has written nothing reads the key, or the key if this was its last rotation,
and finds none. -/
def Unfound (tenant keyID : Uuid) (k : Text) (es : List Exchange) : Prop :=
  ∃ es₁ a es₂, es = es₁ ++ a :: es₂ ∧ (Held requests start whole i es₁ fun _ w => Clean i w.db) ∧
    (a = ⟨.stmt (.lockKey tenant keyID), .ok none⟩ ∨
      a = ⟨.stmt (.keyByRotationIdempotency tenant keyID k), .ok none⟩)

variable (requests start whole i) in
/-- Why a rotation fails: a call failed, or nothing was found. -/
def RotateFails (tenant keyID : Uuid) (k : Text) (es : List Exchange) : Prop :=
  (∃ a ∈ es, failed a = true) ∨ (k ≠ [] → Unfound requests start whole i tenant keyID k es)

variable (requests start whole i) in
/-- How a rotation of the store ends that is not an error: with a commit. -/
def StoreRotates (tenant keyID : Uuid) (input : RotateInput) (es : List Exchange)
    (r : Persisted) : Prop :=
  ∃ es₁ es₂ row, es = es₁ ++ ⟨.commit, .ok ()⟩ :: es₂ ∧ Uncommitted es₁ ∧ Uncommitted es₂ ∧
    r.record = accessKeyRecord tenant keyID row ∧
    (r.replayed = true ∧ (Held requests start whole i es₁ fun _ w =>
        Replaying i tenant keyID input.idempotency row w) ∨
      r.replayed = false ∧
        (input.idempotency ≠ [] →
          Unfound requests start whole i tenant keyID input.idempotency es) ∧
        ∃ old, Held requests start whole i es₁ fun _ w => Rotating i tenant keyID input old row w)

section
variable {es' : List Exchange} {tenant keyID : Uuid} {k : Text}

theorem Unfound.mono (h : Unfound requests start whole i tenant keyID k es) (hes : es <+: es') :
    Unfound requests start whole i tenant keyID k es' := by
  obtain ⟨es₁, a, es₂, rfl, hrest⟩ := h
  obtain ⟨es₃, rfl⟩ := hes
  exact ⟨es₁, a, es₂ ++ es₃, by simp, hrest⟩

theorem RotateFails.mono (h : RotateFails requests start whole i tenant keyID k es)
    (hes : es <+: es') : RotateFails requests start whole i tenant keyID k es' :=
  h.imp (fun ⟨a, ha, hf⟩ => ⟨a, hes.subset ha, hf⟩) fun h hk => (h hk).mono hes

end

section
variable {Φ : List Exchange → Call → Prop} {Θ : List Exchange → Except Err Persisted → Prop}
variable {input : RotateInput} {tenant keyID : Uuid} {row : KeyRow}

variable (hread : ∀ es s, s.reads = true → Φ es (.stmt s))
variable (hrotate : ∀ es, Φ es (.stmt (.rotateKey tenant keyID input.keyPrefix input.secretHash
  (textParam input.idempotency) input.secretCiphertext)))
variable (hreplay : ∀ es row, (Held requests start whole i es fun _ w =>
  Replaying i tenant keyID input.idempotency row w) → Φ es .commit)
variable (hcommit : ∀ es row new, (Held requests start whole i es fun _ w =>
  Rotating i tenant keyID input row new w) → Φ es .commit)
include hread hrotate hreplay hcommit

/-- The rotation itself, under the lock on the key. -/
theorem walk_change (hes : Uncommitted es)
    (hmiss : input.idempotency ≠ [] →
      Unfound requests start whole i tenant keyID input.idempotency es)
    (hk : Reading requests start whole i es fun _ w =>
      Current i tenant keyID input.idempotency row w)
    (hdone : ∀ es r, (∀ es₂, Uncommitted es₂ →
      StoreRotates requests start whole i tenant keyID input (es ++ es₂) r) → Θ es (.ok r))
    (herr : ∀ es e, RotateFails requests start whole i tenant keyID input.idempotency es →
      Θ es (.error e)) :
    Walk Φ Θ es (Store.change input tenant keyID row).run := by
  have hlost : ∀ es' e, es <+: es' → Θ es' (.error e) :=
    fun es' e hes => herr es' e (.inr fun hk => (hmiss hk).mono hes)
  unfold Store.change
  split
  · exact hlost _ _ (by simp)
  · refine walk_tryStmt (hrotate es) fun rotated => ?_
    rcases rotated with why | _ | rotated
    · dsimp only
      split
      · exact hlost _ _ (by simp)
      · refine walk_tryStmt (hread _ _ rfl) fun existing => ?_
        rcases existing with why' | _ | existing
        · exact hlost _ _ (by simp)
        · exact hlost _ _ (by simp)
        · -- The failed statement has ended the transaction, so this answer does not come.
          have hheld : Held requests start whole i (es ++ [⟨.stmt (.rotateKey tenant keyID
              input.keyPrefix input.secretHash (textParam input.idempotency)
              input.secretCiphertext), .error why⟩] ++
              [⟨.stmt (.keyByRotationIdempotency tenant keyID input.idempotency),
                .ok (some existing)⟩]) fun _ w =>
              Replaying i tenant keyID input.idempotency existing w :=
            known_of_closed closed_of_error
          refine walk_replay (hreplay _ existing hheld) (hdone _ _ fun es₂ hes₂ => ?_)
            fun _ => hlost _ _ (by simp)
          exact ⟨_, es₂, existing, by simp, (hes.snoc (by simp) _).snoc (by simp) _, hes₂, rfl,
            .inl ⟨rfl, hheld⟩⟩
    · refine walk_tryStmt (hread _ _ rfl) fun found => ?_
      rcases found with why | _ | found <;> exact hlost _ _ (by simp)
    · have hwrote := hk.write (.rotateKey tenant keyID input.keyPrefix input.secretHash
          (textParam input.idempotency) input.secretCiphertext) (some rotated)
        (steady_rotating tenant keyID input row rotated)
        fun past b a _ hd hclean hA => by
          obtain ⟨_, hw, ⟨old, hold, _, _, rfl, hview⟩, hlock⟩ := hd
          obtain rfl := Option.some.inj ((hold.symm.trans (hclean _)).trans hA.1.2)
          refine ⟨⟨⟨⟨hlock, ?_⟩, hA.2⟩, rfl⟩, hlock, ?_⟩
          · rw [hw.committed]
            exact hA.1.2
          · rw [hview, View.rotated, Function.update_self]
      refine walk_stmt (hread _ _ rfl) (fun _ => hlost _ _ (by simp)) fun u => ?_
      have hheld := (hwrote.keep .appendAudit rfl u).held
      refine walk_commit (hcommit _ row rotated hheld) (fun _ => hlost _ _ (by simp))
        (hdone _ _ fun es₂ hes₂ => ?_)
      exact ⟨_, es₂, rotated, by simp, (hes.snoc (by simp) _).snoc (by simp) _, hes₂, rfl,
        .inr ⟨rfl, fun hk => (hmiss hk).mono (by simp), row, hheld⟩⟩

variable (requests whole i) in
theorem walk_storeRotate (hidle : ∀ w, start w → w.Idle) {tenantID id : Text}
    (ht : Uuid128.parse tenantID = some tenant) (hid : Uuid128.parse id = some keyID)
    (hes : Uncommitted es) (hbegin : ∀ es, Φ es .begin) (hroll : ∀ es, Φ es .rollback)
    (hdone : ∀ es r, StoreRotates requests start whole i tenant keyID input es r → Θ es (.ok r))
    (herr : ∀ es e, RotateFails requests start whole i tenant keyID input.idempotency es →
      Θ es (.error e)) :
    Walk Φ Θ es (Store.rotate tenantID id input).run := by
  refine walk_parsed (fun hnone => by simp [hnone] at ht) fun tenant' ht' =>
    walk_parsed (fun hnone => by simp [hnone] at hid) fun keyID' hid' => ?_
  obtain rfl := Option.some.inj (ht.symm.trans ht')
  obtain rfl := Option.some.inj (hid.symm.trans hid')
  refine walk_inTx (hbegin es) (fun _ => herr _ _ (.inl (failing rfl))) ?_
  have hfail : ∀ es e, RotateFails requests start whole i tenant keyID input.idempotency es →
      Φ es .rollback ∧ Θ (es ++ [⟨.rollback, ()⟩]) (.error e) :=
    fun es e h => ⟨hroll es, herr _ _ (h.mono (List.prefix_append _ _))⟩
  have hend : ∀ es r, (∀ es₂, Uncommitted es₂ →
      StoreRotates requests start whole i tenant keyID input (es ++ es₂) r) →
      Φ es .rollback ∧ Θ (es ++ [⟨.rollback, ()⟩]) (.ok r) :=
    fun es r h => ⟨hroll es, hdone _ r (h _ (uncommitted_nil.snoc (e := .rollback) (by simp) ()))⟩
  have hopen : Reading requests start whole i (es ++ [⟨.begin, .ok ()⟩]) fun _ _ => True :=
    .opened hidle (fun _ _ _ _ _ => trivial) fun _ _ _ _ _ => trivial
  refine walk_stmt (hread _ _ rfl) (fun _ => hfail _ _ (.inl (failing rfl))) fun current => ?_
  have n₁ := (hes.snoc (e := .begin) (by simp) (.ok ())).snoc (e := .stmt (.lockKey tenant keyID))
    (by simp) (.ok current)
  cases current with
  | none =>
    exact hfail _ _ (.inr fun _ => ⟨_, _, [], rfl, hopen.held.mono fun _ _ h => h.2, .inl rfl⟩)
  | some row =>
    have hlocked := hopen.stmt (.lockKey tenant keyID) rfl (some row)
      (firm_exclusive (.key tenant keyID) (some row)) fun past b a _ hsame he hlock _ =>
        ⟨hlock, by rw [hsame, ← he.2]⟩
    dsimp only
    split
    · next hempty =>
      refine walk_change hread hrotate hreplay hcommit n₁ (fun hne => absurd hempty hne)
        ⟨firm_current tenant keyID _ row, ?_⟩ hend hfail
      exact hlocked.held.mono fun _ _ hA => ⟨⟨hA.1.2, fun hne => absurd hempty hne⟩, hA.2⟩
    · refine walk_stmt (hread _ _ rfl) (fun _ => hfail _ _ (.inl (failing rfl)))
        fun existing => ?_
      have n₂ := n₁.snoc (e := .stmt (.keyByRotationIdempotency tenant keyID input.idempotency))
        (by simp) (.ok existing)
      cases existing with
      | some existing =>
        have hfound := hlocked.stmt (.keyByRotationIdempotency tenant keyID input.idempotency) rfl
          (some existing) ((firm_const (existing = row)).and (firm_const
            (existing.rotationIdempotencyKey = some input.idempotency)))
          fun past b a _ _ he _ hA => by
            obtain ⟨hb, hkey⟩ := Option.filter_eq_some_iff.mp he.2.symm
            exact ⟨Option.some.inj (hb.symm.trans hA.2.2), of_decide_eq_true hkey⟩
        have hheld : Held requests start whole i _ fun _ w =>
            Replaying i tenant keyID input.idempotency existing w :=
          hfound.held.mono fun _ w hA => by
            obtain ⟨⟨⟨_, hlock⟩, rfl, hkey⟩, hclean⟩ := hA
            exact ⟨hlock, hkey, hclean⟩
        refine walk_replay (hreplay _ existing hheld)
          (hend _ _ fun es₂ hes₂ => ?_) fun _ => hfail _ _ (.inl (failing rfl))
        exact ⟨_, es₂, existing, by simp, n₂, hes₂, rfl, .inl ⟨rfl, hheld⟩⟩
      | none =>
        have hnone := hlocked.stmt (.keyByRotationIdempotency tenant keyID input.idempotency) rfl
          none (firm_const (row.rotationIdempotencyKey ≠ some input.idempotency))
          fun past b a _ _ he _ hA hkey => by
            have hfilter := Option.filter_eq_none_iff.mp he.2.symm row hA.2.2
            simp [hkey] at hfilter
        refine walk_change hread hrotate hreplay hcommit n₂
          (fun _ => ⟨_, _, [], rfl, hlocked.held.mono fun _ _ h => h.2, .inr rfl⟩)
          ⟨firm_current tenant keyID _ row, ?_⟩ hend hfail
        exact hnone.held.mono fun _ _ hA => ⟨⟨hA.1.1.2, fun _ => hA.1.2⟩, hA.2⟩

end

variable (requests start whole i) in
/-- How a rotation ends. -/
def RotateEnds (tenantID id idempotencyKey : Text) (es : List Exchange) :
    Except Err Issued → Prop
  | .error _ => ∀ tenant keyID, Uuid128.parse (trimSpace tenantID) = some tenant →
    Uuid128.parse (trimSpace id) = some keyID →
    RotateFails requests start whole i tenant keyID (trimSpace idempotencyKey) es
  | .ok r => ∃ tenant keyID input secret, Uuid128.parse (trimSpace tenantID) = some tenant ∧
    Uuid128.parse (trimSpace id) = some keyID ∧ input.idempotency = trimSpace idempotencyKey ∧
    FreshSecret (trimSpace tenantID) (trimSpace id) secret input.keyPrefix input.secretHash
      input.secretCiphertext ∧
    r.secret = (if r.replayed then [] else secret) ∧
    StoreRotates requests start whole i tenant keyID input es ⟨r.record, r.replayed⟩

theorem rotateKnows_plain {tenantID id idempotencyKey : Text} {e : Call} (he : e.plain = true)
    (h : List Event) (w : World) : RotateKnows i tenantID id idempotencyKey e h w := by
  cases e with
  | stmt s =>
    cases s with
    | rotateKey => cases he
    | _ => trivial
  | commit => cases he
  | _ => trivial

theorem walk_rotate_knows (hidle : ∀ w, start w → w.Idle) {tenantID id idempotencyKey : Text} :
    Walk (fun es e => Knows requests start whole i es (RotateKnows i tenantID id idempotencyKey e))
      (RotateEnds requests start whole i tenantID id idempotencyKey) []
      (rotate tenantID id idempotencyKey).run := by
  have hplain : ∀ es e, e.plain = true →
      Knows requests start whole i es (RotateKnows i tenantID id idempotencyKey e) :=
    fun es e he h w _ _ _ => rotateKnows_plain he h w
  have hlost : ∀ {es e} {r : e.Answer} {err}, failed ⟨e, r⟩ = true →
      RotateEnds requests start whole i tenantID id idempotencyKey (es ++ [⟨e, r⟩]) (.error err) :=
    fun h _ _ _ _ => .inl (failing h)
  refine walk_newSecret (hplain _ _ rfl) (hlost rfl) fun cs => walk_newHash (hplain _ _ rfl)
    (hlost rfl) fun salt => walk_sealSecret (hplain _ _ rfl) (hlost rfl) fun nonce =>
      walk_run_bind.mpr ?_
  obtain ⟨input, hinput, hkey, hfresh⟩ : ∃ input : RotateInput,
      input = ⟨keyPrefix (secretPrefix ++ cs.1), hashSecret salt (secretPrefix ++ cs.1),
        some ⟨nonce, ⟨trimSpace tenantID, trimSpace id, keyPrefix (secretPrefix ++ cs.1),
          hashSecret salt (secretPrefix ++ cs.1)⟩, secretPrefix ++ cs.1⟩,
        trimSpace idempotencyKey⟩ ∧ input.idempotency = trimSpace idempotencyKey ∧
      FreshSecret (trimSpace tenantID) (trimSpace id) (secretPrefix ++ cs.1) input.keyPrefix
        input.secretHash input.secretCiphertext :=
    ⟨_, rfl, rfl, cs, salt, nonce, rfl, rfl, rfl, rfl⟩
  rw [← hinput]
  have hes : Uncommitted ([] ++ [⟨.randomText, some cs⟩] ++ [⟨.salt, some salt⟩] ++
      [⟨.nonce, some nonce⟩]) :=
    ((uncommitted_nil.snoc (by simp) _).snoc (by simp) _).snoc (by simp) _
  cases ht : Uuid128.parse (trimSpace tenantID) with
  | none =>
    exact walk_parsed (fun _ _ _ h => by simp [ht] at h) fun _ h => by simp [ht] at h
  | some tenant =>
  cases hid : Uuid128.parse (trimSpace id) with
  | none =>
    exact walk_parseUUID (fun _ _ _ h => by simp [hid] at h) fun _ _ =>
      walk_parsed (fun _ _ _ _ h => by simp [hid] at h) fun _ h => by simp [hid] at h
  | some keyID =>
  refine walk_storeRotate requests whole i (fun es s hs => hplain es (.stmt s) hs) ?_ ?_ ?_ hidle
    ht hid hes
    (fun es => hplain es _ rfl) (fun es => hplain es _ rfl) ?_ ?_
  · intro es h w _ _ _
    exact ⟨ht, hid, by rw [hkey], _, hfresh⟩
  · intro es row hheld
    rw [hkey] at hheld
    exact Known.mono hheld fun h w hA hl => ⟨tenant, keyID, row, ht, hid, .inl (hA hl)⟩
  · intro es row new hheld
    exact Known.mono hheld fun h w hA hl =>
      ⟨tenant, keyID, row, ht, hid, .inr ⟨input, new, hkey, hA hl⟩⟩
  · intro es r hr
    obtain ⟨record, replayed⟩ := r
    cases replayed with
    | true =>
      change RotateEnds requests start whole i tenantID id idempotencyKey es
        (.ok ⟨record, [], true⟩)
      exact ⟨tenant, keyID, input, _, ht, hid, hkey, hfresh, rfl, hr⟩
    | false =>
      change RotateEnds requests start whole i tenantID id idempotencyKey es
        (.ok ⟨record, secretPrefix ++ cs.1, false⟩)
      exact ⟨tenant, keyID, input, _, ht, hid, hkey, hfresh, rfl, hr⟩
  · intro es e hwhy tenant' keyID' ht' hid'
    obtain rfl := Option.some.inj (ht.symm.trans ht')
    obtain rfl := Option.some.inj (hid.symm.trans hid')
    exact hkey ▸ hwhy

end

/-- The request rotates this key under this idempotency key. -/
def Rotation (q : Request) (tenant id : Uuid) (k : Text) : Prop :=
  ∃ tenantID keyID idempotencyKey, q = .rotate tenantID keyID idempotencyKey ∧
    Uuid128.parse (trimSpace tenantID) = some tenant ∧ Uuid128.parse (trimSpace keyID) = some id ∧
    trimSpace idempotencyKey = k

/-- A rotation under this idempotency key changes the key. -/
def RotatesAt (requests : Nat → Request) (tenant id : Uuid) (k : Text) (x : Event) : Prop :=
  Rotation (requests x.actor) tenant id k ∧
    x.after.db.committed (.key tenant id) ≠ x.before.db.committed (.key tenant id)

/-- What process `i` may make of the rotation idempotency key of a row. -/
def RotationKept (requests : Nat → Request) (i : Nat) :
    (k : Row) → Option k.Value → Option k.Value → Prop
  | .key tenant id, a, b => ∀ r, a = some r → ∃ r', b = some r' ∧
    (r'.rotationIdempotencyKey = r.rotationIdempotencyKey ∨
      ∃ k, Rotation (requests i) tenant id k ∧ r'.rotationIdempotencyKey = textParam k)
  | _, _, _ => True

section
variable {requests : Nat → Request} {start : World → Prop} {h past : List Event} {w : World}
variable {x : Event} {tenant id : Uuid} {k : Text}

theorem rotationKept_refl (i : Nat) (k : Row) (a : Option k.Value) :
    RotationKept requests i k a a := by
  cases k with
  | key t id => exact fun r hr => ⟨r, hr, .inl rfl⟩
  | createKey | keyPrefix | policy | bucket | service | model => trivial

theorem rotationKept_trans (i : Nat) (k : Row) (a b c : Option k.Value)
    (h : RotationKept requests i k a b) (h' : RotationKept requests i k b c) :
    RotationKept requests i k a c := by
  cases k with
  | key t id =>
    intro r hr
    obtain ⟨r', hr', hkey⟩ := h r hr
    obtain ⟨r'', hr'', hkey'⟩ := h' r' hr'
    refine ⟨r'', hr'', ?_⟩
    rcases hkey' with heq | hnew
    · rw [heq]
      exact hkey
    · exact .inr hnew
  | createKey | keyPrefix | policy | bucket | service | model => trivial

section
variable (hidle : ∀ w, start w → w.Idle) (hr : Ran requests start h w) (hx : x :: past <:+ h)
include hidle hr hx

theorem Ran.rotate_knows {tenantID id idempotencyKey : Text}
    (hq : requests x.actor = .rotate tenantID id idempotencyKey) :
    RotateKnows x.actor tenantID id idempotencyKey x.call past x.before :=
  Ran.knows_at hr hx hq (walk_rotate_knows hidle)

/-- Only a rotation changes what the row remembers of the last rotation. -/
theorem Ran.respects_rotationKept : Respects (RotationKept requests) x := by
  intro s hs v' b he row
  cases row with
  | key tenant id =>
    intro r hrow
    have hstep := he.keyStep tenant id
    rw [hrow] at hstep
    generalize hv' : v' (.key tenant id) = after at hstep
    cases hstep with
    | kept => exact ⟨r, rfl, .inl rfl⟩
    | revoked | bound | archived => exact ⟨_, rfl, .inl rfl⟩
    | rotated _ p hash key c active =>
      refine ⟨_, rfl, .inr ?_⟩
      rcases Ran.issued hr hx hs rfl with ⟨hcall, hwrites⟩ | ⟨_, hsaves⟩
      · cases hq : requests x.actor with
        | rotate tenantID keyID idempotencyKey =>
          have hk := Ran.rotate_knows hidle hr hx hq
          rw [hcall] at hk
          obtain ⟨ht, hid, hkey, _⟩ := hk
          exact ⟨_, ⟨tenantID, keyID, idempotencyKey, rfl, ht, hid, rfl⟩, hkey⟩
        | _ => simp [hq, Request.writes] at hwrites
      · cases hq : requests x.actor <;> simp [hq, Request.saves] at hsaves
  | createKey | keyPrefix | policy | bucket | service | model => trivial

/-- A rotation that changes the key was not the last one before, and is the last one then. -/
theorem Ran.rotates_at (hrot : RotatesAt requests tenant id k x) :
    ∃ row new, x.before.db.committed (.key tenant id) = some row ∧
      (k ≠ [] → row.rotationIdempotencyKey ≠ some k) ∧
      x.after.db.committed (.key tenant id) = some new ∧
      new.rotationIdempotencyKey = textParam k := by
  obtain ⟨⟨tenantID, keyID, idempotencyKey, hq, ht, hid, rfl⟩, hne⟩ := hrot
  rcases Ran.changes hidle hr hx hne with ⟨hcall, hlive, hafter⟩ | ⟨s, b, _, hsaves, _⟩
  · have hk := Ran.rotate_knows hidle hr hx hq
    rw [hcall] at hk
    obtain ⟨tenant', id', row, ht', hid', hcase⟩ := hk hlive
    obtain rfl := Option.some.inj (ht'.symm.trans ht)
    obtain rfl := Option.some.inj (hid'.symm.trans hid)
    have hview : x.after.db.committed (.key tenant' id') =
        x.before.db.view x.actor (.key tenant' id') := by
      rw [hafter]
      rfl
    rcases hcase with ⟨_, _, hclean⟩ | ⟨input, new, hkey, ⟨⟨⟨_, hrow⟩, hother⟩, rfl⟩, _, hnew⟩
    · exact absurd (hview.trans (hclean _)) hne
    · rw [hkey] at hother
      refine ⟨row, _, hrow, hother, hview.trans hnew, ?_⟩
      rw [← hkey]
      rfl
  · rw [hq] at hsaves
    cases hsaves

end

theorem textParam_of_ne (hk : k ≠ []) : textParam k = some k := if_neg hk

/-- Until another rotation changes the key, it remembers this one. -/
theorem Ran.remembers (hidle : ∀ w, start w → w.Idle) (hk : k ≠ [])
    (hr : Ran requests start (mid ++ x :: past) w) (hrot : RotatesAt requests tenant id k x)
    (hnone : ∀ z ∈ mid, ∀ k', RotatesAt requests tenant id k' z → k' = k) :
    ∃ row, w.db.committed (.key tenant id) = some row ∧ row.rotationIdempotencyKey = some k := by
  refine hr.since (P := fun w => ∃ row, w.db.committed (.key tenant id) = some row ∧
    row.rotationIdempotencyKey = some k) ?_ ?_
  · obtain ⟨_, new, _, _, hnew, hkey⟩ := Ran.rotates_at hidle hr (List.suffix_append _ _) hrot
    exact ⟨new, hnew, hkey.trans (textParam_of_ne hk)⟩
  · intro z older hz hsuf ⟨row, hrow, hkey⟩
    obtain ⟨row', hrow', hcase⟩ := Ran.committed_step hidle rotationKept_refl rotationKept_trans hr
      (fun y older hy => Ran.respects_rotationKept hidle hr hy) hsuf (.key tenant id) row hrow
    refine ⟨row', hrow', ?_⟩
    rcases hcase with heq | ⟨k', hq, hkey'⟩
    · exact heq.trans hkey
    · by_cases hsame : z.after.db.committed (.key tenant id) =
        z.before.db.committed (.key tenant id)
      · obtain rfl := Option.some.inj ((hrow'.symm.trans hsame).trans hrow)
        exact hkey
      · obtain rfl := hnone z hz k' ⟨hq, hsame⟩
        exact hkey'.trans (textParam_of_ne hk)

/-- Where the key does not remember a rotation, it was rotated under another idempotency key. -/
theorem Ran.replaced (hidle : ∀ w, start w → w.Idle) (hk : k ≠ [])
    (hr : Ran requests start (mid ++ x :: past) w) (hrot : RotatesAt requests tenant id k x)
    (hnot : ∀ row, w.db.committed (.key tenant id) = some row →
      row.rotationIdempotencyKey ≠ some k) :
    ∃ z ∈ mid, ∃ k', k' ≠ k ∧ RotatesAt requests tenant id k' z := by
  by_contra hnone
  obtain ⟨row, hrow, hkey⟩ := Ran.remembers hidle hk hr hrot fun z hz k' hz' => by
    by_contra hne
    exact hnone ⟨z, hz, k', hne, hz'⟩
  exact hnot row hrow hkey

/-- What a rotation did not find, was not there. -/
theorem Unfound.not_remembered (hr : Ran requests start h w)
    (hu : Unfound requests start h j tenant id k (trace j h)) :
    ∃ y past, y :: past <:+ h ∧ y.actor = j ∧
      (y.call = .stmt (.lockKey tenant id) ∨
        y.call = .stmt (.keyByRotationIdempotency tenant id k)) ∧
      ∀ row, y.before.db.committed (.key tenant id) = some row →
        row.rotationIdempotencyKey ≠ some k := by
  obtain ⟨es₁, a, es₂, htrace, hheld, ha⟩ := hu
  obtain ⟨new, y, past, rfl, hi, hseen, hpast, _⟩ := trace_split htrace
  have hsuf : y :: past <:+ new ++ y :: past := List.suffix_append _ _
  have hd := Ran.does hr hsuf
  have hrun := (hr.arises hsuf).run
  obtain ⟨actor, call, answer, b, after⟩ := y
  obtain rfl : actor = j := hi
  have hclean := hheld past b ((List.suffix_cons _ _).trans hsuf) hrun hpast
  refine ⟨_, past, hsuf, rfl, ?_⟩
  rcases ha with rfl | rfl
  · cases hseen
    obtain ⟨hlive, _, ⟨_, heq⟩, _⟩ := hd
    refine ⟨.inl rfl, fun row hrow => ?_⟩
    rw [hclean hlive, hrow] at heq
    cases heq
  · cases hseen
    obtain ⟨hlive, _, ⟨_, heq⟩, _⟩ := hd
    refine ⟨.inr rfl, fun row hrow hkey => ?_⟩
    rw [hclean hlive, hrow] at heq
    have hfilter := Option.filter_eq_none_iff.mp heq.symm row rfl
    simp [hkey] at hfilter

/-- Between two rotations under one idempotency key the key was rotated under another. A call
is answered as a replay where the last rotation was under its key, and a replay changes nothing;
so it is a replay if no rotation under another key came after the one under its own. A call of
which no statement fails is answered as a replay, unless the last rotation was another one when it
looked. -/
theorem rotation_replays (hidle : ∀ w, start w → w.Idle) (hr : Ran requests start h w)
    (tenant id : Uuid) (k : Text) (hk : k ≠ []) :
    (∀ new y mid x past, h = new ++ y :: (mid ++ x :: past) → RotatesAt requests tenant id k x →
      RotatesAt requests tenant id k y → ∃ z ∈ mid, ∃ k', k' ≠ k ∧
        RotatesAt requests tenant id k' z) ∧
    (∀ j tenantID keyID idempotencyKey r, requests j = .rotate tenantID keyID idempotencyKey →
      Uuid128.parse (trimSpace tenantID) = some tenant → Uuid128.parse (trimSpace keyID) = some id →
      trimSpace idempotencyKey = k → Answered (.rotate tenantID keyID idempotencyKey) j h (.ok r) →
      ∃ y past, y :: past <:+ h ∧ y.actor = j ∧ y.call = .commit ∧
        (r.replayed = true ↔ ∃ row, y.before.db.committed (.key tenant id) = some row ∧
          row.rotationIdempotencyKey = some k) ∧
        (r.replayed = true → r.secret = [] ∧ ∀ x ∈ h, x.actor = j →
          x.after.db.committed (.key tenant id) = x.before.db.committed (.key tenant id)) ∧
        ∀ mid x older, past = mid ++ x :: older → RotatesAt requests tenant id k x →
          (∀ z ∈ mid, ∀ k', RotatesAt requests tenant id k' z → k' = k) → r.replayed = true) ∧
    ∀ j tenantID keyID idempotencyKey r, requests j = .rotate tenantID keyID idempotencyKey →
      Uuid128.parse (trimSpace tenantID) = some tenant → Uuid128.parse (trimSpace keyID) = some id →
      trimSpace idempotencyKey = k → Answered (.rotate tenantID keyID idempotencyKey) j h r →
      (∀ a ∈ trace j h, failed a = false) →
      (∃ issued, r = .ok issued ∧ issued.replayed = true) ∨
        ∃ y past, y :: past <:+ h ∧ y.actor = j ∧
          (y.call = .stmt (.lockKey tenant id) ∨
            y.call = .stmt (.keyByRotationIdempotency tenant id k)) ∧
          (∀ row, y.before.db.committed (.key tenant id) = some row →
            row.rotationIdempotencyKey ≠ some k) ∧
          ∀ mid x older, past = mid ++ x :: older → RotatesAt requests tenant id k x →
            ∃ z ∈ mid, ∃ k', k' ≠ k ∧ RotatesAt requests tenant id k' z := by
  refine ⟨?_, ?_, ?_⟩
  · rintro new y mid x past rfl hrx hry
    have hy : y :: (mid ++ x :: past) <:+ new ++ y :: (mid ++ x :: past) := List.suffix_append _ _
    refine Ran.replaced hidle hk (hr.arises hy).run hrx fun row hrow => ?_
    obtain ⟨row', _, hrow', hother, _⟩ := Ran.rotates_at hidle hr hy hry
    obtain rfl := Option.some.inj (hrow'.symm.trans hrow)
    exact hother hk
  · intro j tenantID keyID idempotencyKey r hq ht hid hkey hanswer
    obtain ⟨tenant', id', input, secret, ht', hid', hinput, _, hsecret, es₁, es₂, row, htrace,
      hpast, hnew, _, hcase⟩ :
        RotateEnds requests start h j tenantID keyID idempotencyKey (trace j h) (.ok r) :=
      (walk_rotate_knows hidle).played hanswer
    obtain rfl := Option.some.inj (ht'.symm.trans ht)
    obtain rfl := Option.some.inj (hid'.symm.trans hid)
    rw [hkey] at hinput
    rcases hcase with ⟨hreplayed, hheld⟩ | ⟨hreplayed, _, old, hheld⟩
    · obtain ⟨new, y, past, rfl, htp, htn, rfl, hcall, ⟨⟨_, hrow⟩, hrk, hclean⟩, _⟩ :=
        Ran.committed_split hr htrace hheld
      rw [hinput] at hrk
      refine ⟨y, past, List.suffix_append _ _, rfl, hcall, ⟨fun _ => ⟨row, hrow, hrk⟩, fun _ => ?_⟩,
        fun _ => ⟨?_, fun x hx hi => ?_⟩, fun _ _ _ _ _ _ => ?_⟩
      · exact hreplayed
      · rw [hsecret]
        exact if_pos hreplayed
      · have hsaves : ∀ s, (requests y.actor).saves s = false := by
          intro s
          rw [hq]
          rfl
        exact Ran.clean_keeps hidle hr hsaves (htp ▸ hpast) (htn ▸ hnew) hclean hx hi _
      · exact hreplayed
    · obtain ⟨y, past, hy, rfl, hcall, ⟨⟨⟨⟨_, hrow⟩, hother⟩, _⟩, _⟩, _⟩ :=
        Ran.committed hr htrace hheld
      rw [hinput] at hother
      have hnot : ∀ row, y.before.db.committed (.key tenant' id') = some row →
          row.rotationIdempotencyKey ≠ some k := by
        intro row' hrow'
        obtain rfl := Option.some.inj (hrow.symm.trans hrow')
        exact hother hk
      have hfalse : r.replayed ≠ true := by
        change r.replayed = false at hreplayed
        simp [hreplayed]
      refine ⟨y, past, hy, rfl, hcall, ⟨fun h => absurd h hfalse, fun ⟨row, hrow, hkey⟩ => ?_⟩,
        fun h => absurd h hfalse, fun mid x older hsplit hrx hnone => ?_⟩
      · exact absurd hkey (hnot row hrow)
      · have hrun := (hr.arises hy).run
        rw [hsplit] at hrun
        obtain ⟨z, hz, k', hne, hz'⟩ := Ran.replaced hidle hk hrun hrx hnot
        exact absurd (hnone z hz k' hz') hne
  · intro j tenantID keyID idempotencyKey r hq ht hid hkey hanswer hsmooth
    have hends : RotateEnds requests start h j tenantID keyID idempotencyKey (trace j h) r :=
      (walk_rotate_knows hidle).played hanswer
    have hcase : (∃ issued, r = .ok issued ∧ issued.replayed = true) ∨
        Unfound requests start h j tenant id k (trace j h) := by
      cases r with
      | error e =>
        rcases hends tenant id ht hid with ⟨a, ha, hf⟩ | hu
        · rw [hsmooth a ha] at hf
          cases hf
        · rw [hkey] at hu
          exact .inr (hu hk)
      | ok issued =>
        obtain ⟨tenant', id', input, secret, ht', hid', hinput, _, _, es₁, es₂, row, _, _, _, _,
          ⟨hreplayed, _⟩ | ⟨_, hu, _⟩⟩ := hends
        · exact .inl ⟨issued, rfl, hreplayed⟩
        · obtain rfl := Option.some.inj (ht'.symm.trans ht)
          obtain rfl := Option.some.inj (hid'.symm.trans hid)
          rw [hinput, hkey] at hu
          exact .inr (hu hk)
    refine hcase.imp_right fun hu => ?_
    obtain ⟨y, past, hy, hi, hcall, hnot⟩ := hu.not_remembered hr
    refine ⟨y, past, hy, hi, hcall, hnot, fun mid x older hsplit hrx => ?_⟩
    have hrun := (hr.arises hy).run
    rw [hsplit] at hrun
    exact Ran.replaced hidle hk hrun hrx hnot

end

namespace Sample

/-- Rotations under `A`, `B` and `A` again. -/
def rotations : Nat → Request
  | 1 => .rotate tenant.text key.text ['B']
  | _ => .rotate tenant.text key.text ['A']

/-- All three, one after the other. -/
def threeRotations : Play World Call Call.Answer ((q : Request) × Except Err q.Result) :=
  play act (fun i => (rotations i).program) (World.idle (rows (some row)) 0)
    (List.replicate 10 (0, smooth 'a' key) ++ List.replicate 10 (1, smooth 'b' key) ++
      List.replicate 10 (2, smooth 'c' key))

/-- Those under `A` only. -/
def twoRotations : Play World Call Call.Answer ((q : Request) × Except Err q.Result) :=
  play act (fun i => (rotations i).program) (World.idle (rows (some row)) 0)
    (List.replicate 10 (0, smooth 'a' key) ++ List.replicate 8 (2, smooth 'c' key))

def rotatedTo (replayed : Bool) (version : Nat) : (q : Request) × Except Err q.Result → Bool
  | ⟨.rotate .., .ok r⟩ => r.replayed = replayed ∧ r.record.version = version
  | _ => false

theorem answered_rotation {p : Play World Call Call.Answer ((q : Request) × Except Err q.Result)}
    (hp : p.Sound act (fun i => (rotations i).program) start) (hi : i ≠ 1)
    (ha : (p.result i).any (rotatedTo replayed version) = true) :
    ∃ r, Answered (.rotate tenant.text key.text ['A']) i p.history (.ok r) ∧
      r.replayed = replayed ∧ r.record.version = version := by
  obtain ⟨r, hplayed, htest⟩ := answered_of_result hp ha
  have hq : rotations i = .rotate tenant.text key.text ['A'] := by
    unfold rotations
    split
    · exact absurd rfl hi
    · rfl
  generalize rotations i = q at hq r hplayed htest
  subst hq
  cases r with
  | error e => cases htest
  | ok r => exact ⟨r, hplayed, of_decide_eq_true htest⟩

set_option maxRecDepth 100000 in
theorem rotations_facts : (threeRotations.result 0).any (rotatedTo false 2) = true ∧
    (threeRotations.result 2).any (rotatedTo false 4) = true ∧
    (twoRotations.result 2).any (rotatedTo true 2) = true := by
  decide +kernel

end Sample

open Sample in
/-- One idempotency key rotates twice, with another between. -/
theorem rotation_key_rotates_again :
    ∃ (requests : Nat → Request) (h : List Event) (w : World) (r₀ r₂ : Issued),
      Ran requests World.Idle h w ∧ requests 0 = .rotate tenant.text key.text ['A'] ∧
      requests 2 = .rotate tenant.text key.text ['A'] ∧
      Answered (.rotate tenant.text key.text ['A']) 0 h (.ok r₀) ∧
      Answered (.rotate tenant.text key.text ['A']) 2 h (.ok r₂) ∧
      (r₀.replayed = false ∧ r₀.record.version = 2) ∧
      r₂.replayed = false ∧ r₂.record.version = 4 := by
  have hsound : threeRotations.Sound act (fun i => (rotations i).program) World.Idle :=
    play_sound (World.idle_idle _ _) _
  obtain ⟨h₀, h₂, _⟩ := rotations_facts
  obtain ⟨r₀, ha₀, hr₀⟩ := answered_rotation hsound (by decide) h₀
  obtain ⟨r₂, ha₂, hr₂⟩ := answered_rotation hsound (by decide) h₂
  exact ⟨rotations, _, _, r₀, r₂, hsound.run, rfl, rfl, ha₀, ha₂, hr₀, hr₂⟩

open Sample in
theorem rotation_replays_second : ∃ r,
    Answered (.rotate tenant.text key.text ['A']) 2 twoRotations.history (.ok r) ∧
      r.replayed = true ∧ r.secret = [] ∧ ∀ x ∈ twoRotations.history, x.actor = 2 →
        x.after.db.committed (.key tenant key) = x.before.db.committed (.key tenant key) := by
  have hsound : twoRotations.Sound act (fun i => (rotations i).program) World.Idle :=
    play_sound (World.idle_idle _ _) _
  obtain ⟨r, ha, hreplayed, _⟩ := answered_rotation hsound (by decide) rotations_facts.2.2
  have hall := (rotation_replays (fun _ h => h) hsound.run tenant key ['A'] (by decide)).2.1 2
    tenant.text key.text ['A'] r rfl (by decide +kernel) (by decide +kernel) (by decide) ha
  obtain ⟨_, _, _, _, _, _, hkept, _⟩ := hall
  exact ⟨r, ha, hreplayed, hkept hreplayed⟩

end AniInference.Access
