import AniInference.KeyRotation
import AniInference.KeyCreation
import AniInference.AccessGrants

namespace AniInference.Access
open Lib LockedRows Text

/-- The secret of a row can be had back: what its hash accepts has the form of a secret, and its
ciphertext was sealed for the record that is made of it. -/
structure KeyRow.Recoverable (tenant id : Uuid) (row : KeyRow) : Prop where
  shape : ∀ s, verifySecret s row.secretHash = true →
    s.length = 47 ∧ Access.keyPrefix s = row.keyPrefix ∧ secretPrefix.isPrefixOf s = true
  opens : ∀ c, row.secretCiphertext = some c →
    c.aad = secretAAD (accessKeyRecord tenant id row) ∧ verifySecret c.plain row.secretHash = true

namespace KeyRow.Recoverable
variable {tenant id : Uuid} {row : KeyRow}

theorem of_fresh
    (h : FreshSecret tenant.text id.text secret row.keyPrefix row.secretHash row.secretCiphertext) :
    row.Recoverable tenant id := by
  obtain ⟨cs, salt, nonce, rfl, hp, hhash, hc⟩ := h
  refine ⟨fun s hs => ?_, fun c hc' => ?_⟩
  · rw [hhash] at hs
    obtain rfl : secretPrefix ++ cs.1 = s := of_decide_eq_true hs
    exact ⟨by simp [secretPrefix, cs.2], hp.symm, by simp [secretPrefix]⟩
  · obtain rfl := Option.some.inj (hc.symm.trans hc')
    refine ⟨rfl, ?_⟩
    rw [hhash]
    exact decide_eq_true rfl

theorem revoke (h : row.Recoverable tenant id) (now : Instant) :
    (row.revoke now).Recoverable tenant id :=
  ⟨h.shape, h.opens⟩

theorem bindPolicy (h : row.Recoverable tenant id) (policy : Uuid) :
    (row.bindPolicy policy).Recoverable tenant id :=
  ⟨h.shape, h.opens⟩

/-- The ciphertext that a check archives was sealed for a row with the same version. -/
theorem archive (hold : old.Recoverable tenant id)
    (hsecret : verifySecret secret row.secretHash = true) (hb : row.Becomes old)
    (hversion : row.version = old.version) :
    (old.archive ⟨nonce, secretAAD (accessKeyRecord tenant id row), secret⟩).Recoverable
      tenant id := by
  obtain ⟨hhash, hprefix, _⟩ := hb.same hversion
  refine ⟨hold.shape, fun c hc => ?_⟩
  obtain rfl := Option.some.inj hc
  constructor
  · simp only [secretAAD, accessKeyRecord, KeyRow.archive, hhash, hprefix]
  · change verifySecret secret old.secretHash = true
    rw [hhash]
    exact hsecret

/-- Then the ciphertext opens to the secret of the row. -/
theorem opened (h : row.Recoverable tenant id) (hc : row.secretCiphertext = some c) :
    openSecret (accessKeyRecord tenant id row) = .ok c.plain ∧
      verifySecret c.plain row.secretHash = true := by
  obtain ⟨haad, hverify⟩ := h.opens c hc
  obtain ⟨hlength, hprefix, hstart⟩ := h.shape c.plain hverify
  refine ⟨?_, hverify⟩
  have hcipher : (accessKeyRecord tenant id row).secretCiphertext = some c := hc
  have hkey : Access.keyPrefix c.plain = (accessKeyRecord tenant id row).keyPrefix := hprefix
  simp [openSecret, hcipher, haad, hlength, hkey, hstart]

theorem revealed (h : row.Recoverable tenant id) :
    ∃ s, Access.revealed (accessKeyRecord tenant id row) =
      .ok (accessKeyRecord tenant id row, s) := by
  cases hc : row.secretCiphertext with
  | none =>
    have hnone : (accessKeyRecord tenant id row).secretCiphertext = none := hc
    exact ⟨[], by simp [Access.revealed, hnone]; rfl⟩
  | some c =>
    have hcipher : (accessKeyRecord tenant id row).secretCiphertext = some c := hc
    exact ⟨c.plain, by simp [Access.revealed, hcipher, (h.opened hc).1]⟩

end KeyRow.Recoverable

/-- Every key of these rows can be had back. -/
def View.Recoverable (v : View) : Prop :=
  ∀ tenant id row, v (.key tenant id) = some row → row.Recoverable tenant id

/-- A row that can be had back stays one. -/
def RecoverableKept : (k : Row) → Option k.Value → Option k.Value → Prop
  | .key tenant id, a, b => (∀ row, a = some row → row.Recoverable tenant id) →
    ∀ row, b = some row → row.Recoverable tenant id
  | _, _, _ => True

/-- An id as `uuid.UUID.String` writes it, if it is one at all. -/
def Canonical (text : Text) : Prop := ∀ u, Uuid128.parse text = some u → u.text = text

/-- The ids that a secret is sealed with are spelled as the database gives them back. -/
def Request.Canonical : Request → Prop
  | .create input => Access.Canonical input.trimmed.tenantID
  | .rotate tenantID id _ => Access.Canonical (trimSpace tenantID) ∧ Access.Canonical (trimSpace id)
  | _ => True

theorem recoverableKept_refl (k : Row) (a : Option k.Value) : RecoverableKept k a a := by
  cases k with
  | key t id => exact fun h => h
  | createKey | keyPrefix | policy | bucket | service | model => trivial

theorem recoverableKept_trans (k : Row) (a b c : Option k.Value) (h : RecoverableKept k a b)
    (h' : RecoverableKept k b c) : RecoverableKept k a c := by
  cases k with
  | key t id => exact fun ha => h' (h ha)
  | createKey | keyPrefix | policy | bucket | service | model => trivial

section
variable {requests : Nat → Request} {start : World → Prop} {h past : List Event} {w : World}
variable {x : Event}

/-- A statement of a request with canonical ids leaves what it writes recoverable. -/
theorem Ran.respects_recoverable (hidle : ∀ w, start w → w.Idle) (hr : Ran requests start h w)
    (hids : ∀ i, (requests i).Canonical) (hx : x :: past <:+ h) :
    Respects (fun _ => RecoverableKept) x := by
  intro s hs v' b he k
  cases k with
  | key tenant id =>
    intro hgood row hrow
    have hstep := he.keyStep tenant id
    rw [hrow] at hstep
    generalize hold : x.before.db.view x.actor (.key tenant id) = old at hstep hgood
    have hids := hids x.actor
    cases hstep with
    | kept => exact hgood row rfl
    | revoked old => exact (hgood old rfl).revoke _
    | bound old policy => exact (hgood old rfl).bindPolicy policy
    | inserted =>
      rcases Ran.issued hr hx hs rfl with ⟨hcall, hwrites⟩ | ⟨hcall, hsaves⟩
      · cases hq : requests x.actor with
        | create given =>
          have hk := Ran.knows_at hr hx hq (walk_create_knows hidle)
          rw [hcall] at hk
          rw [hq] at hids
          obtain ⟨⟨secret, hfresh⟩, _⟩ := hk
          have hsealed := hfresh.sealed
          rw [← hids tenant hfresh.tenant] at hsealed
          exact .of_fresh hsealed
        | _ => simp [hq, Request.writes] at hwrites
      · cases hq : requests x.actor <;> simp [hq, Request.saves] at hsaves
    | rotated old p hash key c =>
      rcases Ran.issued hr hx hs rfl with ⟨hcall, hwrites⟩ | ⟨hcall, hsaves⟩
      · cases hq : requests x.actor with
        | rotate tenantID keyID idempotencyKey =>
          have hk := Ran.rotate_knows hidle hr hx hq
          rw [hcall] at hk
          rw [hq] at hids
          obtain ⟨ht, hid, _, secret, hsealed⟩ := hk
          rw [← hids.1 tenant ht, ← hids.2 id hid] at hsealed
          exact .of_fresh hsealed
        | _ => simp [hq, Request.writes] at hwrites
      · cases hq : requests x.actor <;> simp [hq, Request.saves] at hsaves
    | archived old version hash c harch =>
      rcases Ran.issued hr hx hs rfl with ⟨hcall, hwrites⟩ | ⟨hcall, hsaves⟩
      · cases hq : requests x.actor <;> simp [hq, Request.writes] at hwrites
      · cases hq : requests x.actor with
        | check given serviceID model cost =>
          have hk := Ran.check_knows hidle hr hx hq
          rw [hcall] at hk
          obtain ⟨row, nonce, hsecret, _, rfl, rfl, rfl, _, hevolves⟩ := hk
          have hview := (Ran.evolving hidle (hr.arises hx).run).view
            (fun _ => Row.Evolves.refl) x.actor (.key tenant id)
          have hall := Row.Evolves.trans _ _ _ _ hevolves hview
          rw [hold] at hall
          obtain ⟨old', hold', hb⟩ := hall row rfl
          obtain rfl := Option.some.inj hold'
          have hversion := (of_decide_eq_true harch).1
          exact (hgood old rfl).archive hsecret hb hversion.symm
        | _ => simp [hq, Request.saves] at hsaves
  | createKey | keyPrefix | policy | bucket | service | model => trivial

/-- In a run of requests with canonical ids, every key can be had back all the time. -/
theorem Ran.recoverable (hidle : ∀ w, start w → w.Idle)
    (hstart : ∀ w, start w → View.Recoverable w.db.committed) (hids : ∀ i, (requests i).Canonical)
    (hr : Ran requests start h w) : View.Recoverable w.db.committed := by
  refine hr.invariant (P := fun w => View.Recoverable w.db.committed) hstart ?_
  intro y past hy hbefore tenant id
  exact Ran.committed_step (R := fun _ => RecoverableKept) hidle (fun _ => recoverableKept_refl)
    (fun _ => recoverableKept_trans) hr (fun z older hz =>
      Ran.respects_recoverable hidle hr hids hz)
    hy (.key tenant id) (hbefore tenant id)

end

/-- The rows that a call has read outside a transaction. -/
def readBy : Exchange → List (Uuid × Uuid × KeyRow)
  | ⟨.auto (.listKeys tenant), .ok rows⟩ => List.map (fun p => (tenant, p.1, p.2)) rows
  | ⟨.auto (.getKey tenant id), .ok (some row)⟩ => [(tenant, id, row)]
  | _ => []

/-- Every row among those read can be had back. -/
def AllRecoverable (es : List Exchange) : Prop :=
  ∀ a ∈ es, ∀ p ∈ readBy a, p.2.2.Recoverable p.1 p.2.1

section
variable {α β : Type} {Φ : List Exchange → Call → Prop} {es : List Exchange}

theorem walk_liftExcept (h : Θ es x) : Walk Φ Θ es (liftExcept x).run := by
  cases x <;> exact h

theorem mapM_ok (f : α → Except Err β) (xs : List α) (h : ∀ x ∈ xs, ∃ y, f x = .ok y) :
    ∃ ys, xs.mapM f = .ok ys := by
  induction xs with
  | nil => exact ⟨[], rfl⟩
  | cons x xs ih =>
    obtain ⟨y, hy⟩ := h x List.mem_cons_self
    obtain ⟨ys, hys⟩ := ih fun z hz => h z (List.mem_cons_of_mem x hz)
    exact ⟨y :: ys, by simp [List.mapM_cons, hy, hys]; rfl⟩

/-- `List` finds every secret of the rows it reads, if they can be had back. -/
theorem walk_list_opens :
    Walk (fun _ _ => True) (fun es r => AllRecoverable es → r ≠ .error .secretUnavailable) []
      (list tenantID).run := by
  refine walk_parseUUID (fun _ => nofun) fun tenant _ =>
    walk_auto trivial (fun _ _ => nofun) fun rows => walk_liftExcept fun hall => ?_
  obtain ⟨ys, hys⟩ := mapM_ok (fun p => revealed (accessKeyRecord tenant p.1 p.2)) rows
    fun p hp => by
    have hrow := hall ⟨.auto (.listKeys tenant), .ok rows⟩ (by simp) (tenant, p.1, p.2)
      (List.mem_map_of_mem hp)
    obtain ⟨s, hs⟩ := hrow.revealed
    exact ⟨_, hs⟩
  rw [hys]
  exact nofun

theorem walk_get_opens {tenantID id : Text} :
    Walk (fun _ _ => True) (fun es r => AllRecoverable es → r ≠ .error .secretUnavailable) []
      (getRecord tenantID id).run := by
  refine walk_parseUUID (fun _ => nofun) fun tenant _ => walk_parseUUID (fun _ => nofun)
    fun keyID _ => walk_auto trivial (fun _ _ => nofun) fun found => ?_
  cases found with
  | none => exact fun _ => nofun
  | some row =>
    refine walk_liftExcept fun hall => ?_
    have hrow := hall ⟨.auto (.getKey tenant keyID), .ok (some row)⟩ (by simp) (tenant, keyID, row)
      (List.mem_singleton_self _)
    obtain ⟨s, hs⟩ := hrow.revealed
    rw [hs]
    exact nofun

end

section
variable {requests : Nat → Request} {start : World → Prop} {h : List Event} {w : World}

/-- What is read outside transactions was committed. -/
theorem Ran.reads_recoverable (hidle : ∀ w, start w → w.Idle)
    (hstart : ∀ w, start w → View.Recoverable w.db.committed) (hids : ∀ i, (requests i).Canonical)
    (hr : Ran requests start h w) (i : Nat) : AllRecoverable (trace i h) := by
  intro a ha p hp
  obtain ⟨x, hx, _, rfl⟩ := mem_trace.mp ha
  obtain ⟨past, hsuf, harises⟩ := hr.mem_arises hx
  have hgood := Ran.recoverable hidle hstart hids harises.run
  obtain ⟨actor, call, answer, b, a⟩ := x
  unfold Moment.seen readBy at hp
  split at hp
  · next tenant rows heq =>
    cases heq
    obtain ⟨q, hq, rfl⟩ := List.mem_map.mp hp
    exact hgood tenant q.1 q.2 ((auto_committed hidle rfl harises).2 q hq)
  · next tenant id row heq =>
    cases heq
    obtain rfl := List.mem_singleton.mp hp
    exact hgood tenant id row (auto_committed hidle rfl harises).2.symm
  · cases hp

/-- In a run whose creations and rotations spell the ids canonically, every stored ciphertext
opens at any time to the secret whose hash is stored with it, and neither `List` nor `Get` fails
because of a stored key. -/
theorem secrets_recoverable (hidle : ∀ w, start w → w.Idle)
    (hstart : ∀ w, start w → View.Recoverable w.db.committed) (hids : ∀ i, (requests i).Canonical)
    (hr : Ran requests start h w) :
    (∀ tenant id row c, w.db.committed (.key tenant id) = some row → row.secretCiphertext = some c →
      ∃ secret, openSecret (accessKeyRecord tenant id row) = .ok secret ∧
        verifySecret secret row.secretHash = true) ∧
    (∀ i tenantID r, Answered (.list tenantID) i h r → r ≠ .error .secretUnavailable) ∧
    ∀ i tenantID id r, Answered (.get tenantID id) i h r → r ≠ .error .secretUnavailable := by
  refine ⟨fun tenant id row c hrow hc => ?_, fun i tenantID r hanswer => ?_,
    fun i tenantID id r hanswer => ?_⟩
  · have hgood := Ran.recoverable hidle hstart hids hr tenant id row hrow
    exact ⟨c.plain, hgood.opened hc⟩
  · exact walk_list_opens.played hanswer (Ran.reads_recoverable hidle hstart hids hr i)
  · exact walk_get_opens.played hanswer (Ran.reads_recoverable hidle hstart hids hr i)

end

namespace Sample

theorem rows_recoverable : View.Recoverable (rows (some row)) := by
  intro t id r hr
  have hcases : (t = tenant ∧ id = key) ∧ row = r := by simpa [rows] using hr
  obtain ⟨⟨rfl, rfl⟩, rfl⟩ := hcases
  exact .of_fresh ⟨⟨List.replicate 43 'x', List.length_replicate⟩, 0, 0, rfl, rfl, rfl, rfl⟩

/-- The id of the key without dashes. -/
def undashed : Text := List.replicate 32 '7'

/-- A rotation that spells the id of the key like this, and a request for the key. -/
def rotateThenGet (id : Text) : Nat → Request
  | 0 => .rotate tenant.text id ['A']
  | _ => .get tenant.text key.text

def rotatedThenGot (id : Text) : Play World Call Call.Answer
    ((q : Request) × Except Err q.Result) :=
  play act (fun i => (rotateThenGet id i).program) (World.idle (rows (some row)) 0)
    (List.replicate 10 (0, smooth 'a' key) ++ [(1, smooth 'a' key)])

def rotatedOk : (q : Request) × Except Err q.Result → Bool
  | ⟨.rotate .., .ok r⟩ => r.replayed = false
  | _ => false

def unavailable : (q : Request) × Except Err q.Result → Bool
  | ⟨.get .., .error .secretUnavailable⟩ => true
  | _ => false

set_option maxRecDepth 100000 in
theorem undashed_unavailable : ((rotatedThenGot undashed).result 0).any rotatedOk = true ∧
    ((rotatedThenGot undashed).result 1).any unavailable = true := by
  decide +kernel

set_option maxRecDepth 100000 in
theorem dashed_answered : ((rotatedThenGot key.text).result 0).any rotatedOk = true ∧
    ((rotatedThenGot key.text).result 1).isSome = true := by
  decide +kernel

theorem canonical_text (u : Uuid) : Canonical u.text := by
  intro v hv
  obtain rfl := Option.some.inj ((Uuid128.parse_text u).symm.trans hv)
  rfl

theorem rotateThenGet_canonical (i : Nat) : (rotateThenGet key.text i).Canonical := by
  have htenant : trimSpace tenant.text = tenant.text := by decide +kernel
  have hkey : trimSpace key.text = key.text := by decide +kernel
  unfold rotateThenGet
  split
  · exact ⟨htenant ▸ canonical_text tenant, hkey ▸ canonical_text key⟩
  · trivial

end Sample

open Sample in
/-- After a rotation that names the key without dashes, which is accepted, its secret cannot be
had back. -/
theorem rotation_loses_secret :
    ∃ (h : List Event) (w : World) (r : Issued),
      Ran (rotateThenGet undashed) (fun w => w.Idle ∧ View.Recoverable w.db.committed) h w ∧
      Answered (.rotate tenant.text undashed ['A']) 0 h (.ok r) ∧
      Answered (.get tenant.text key.text) 1 h (.error .secretUnavailable) := by
  have hsound : (rotatedThenGot undashed).Sound act (fun i => (rotateThenGet undashed i).program)
      (fun w => w.Idle ∧ View.Recoverable w.db.committed) :=
    play_sound ⟨World.idle_idle _ _, rows_recoverable⟩ _
  obtain ⟨h₀, h₁⟩ := undashed_unavailable
  obtain ⟨r₀, ha₀, ht₀⟩ := answered_of_result hsound h₀
  obtain ⟨r₁, ha₁, ht₁⟩ := answered_of_result hsound h₁
  cases r₀ with
  | error e => cases ht₀
  | ok r =>
    refine ⟨_, _, r, hsound.run, ha₀, ?_⟩
    cases r₁ with
    | ok a => cases ht₁
    | error e =>
      cases e with
      | secretUnavailable => exact ha₁
      | _ => cases ht₁

open Sample in
theorem secrets_recoverable_after_rotation : ∃ r,
    Answered (.get tenant.text key.text) 1 (rotatedThenGot key.text).history r ∧
      r ≠ .error .secretUnavailable := by
  have hsound : (rotatedThenGot key.text).Sound act (fun i => (rotateThenGet key.text i).program)
      (fun w => w.Idle ∧ View.Recoverable w.db.committed) :=
    play_sound ⟨World.idle_idle _ _, rows_recoverable⟩ _
  obtain ⟨a, ha⟩ := Option.isSome_iff_exists.mp dashed_answered.2
  obtain ⟨r, _, hanswer⟩ := Request.answered (hsound.played ha)
  refine ⟨r, hanswer, ?_⟩
  exact (secrets_recoverable (fun _ h => h.1) (fun _ h => h.2) rotateThenGet_canonical
    hsound.run).2.2 1 tenant.text key.text r hanswer

end AniInference.Access
