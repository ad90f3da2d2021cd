import AniInference.Lib.RowLocks
import AniInference.Lib.UuidText
import AniInference.Lib.Runs

namespace AniInference.Access
open Lib

abbrev Uuid := Uuid128

/-- Nanoseconds since the zero time. -/
abbrev Instant := Nat

/-- What a `timestamptz` column keeps of an instant: its microseconds. -/
def timestamptz (t : Instant) : Instant := t - t % 1000

/-- An encoded hash. Argon2id is taken to be without collisions, so it tells the secret. -/
inductive SecretHash
  | argon2id (salt : Nat) (secret : Text)
  | foreign (encoded : Text)
deriving DecidableEq

def hashSecret (salt : Nat) (secret : Text) : SecretHash := .argon2id salt secret

def verifySecret (secret : Text) : SecretHash → Bool
  | .argon2id _ s => s = secret
  | .foreign _ => false

/-- `secretAAD`: the parts it joins. -/
structure Aad where
  tenantID : Text
  id : Text
  keyPrefix : Text
  secretHash : SecretHash
deriving DecidableEq

/-- A ciphertext of a correct AEAD. It opens under the data it was sealed with and no other. -/
structure Sealed where
  nonce : Nat
  aad : Aad
  plain : Text
deriving DecidableEq

/-- `inference_access_keys`, without its primary key. -/
structure KeyRow where
  name : Text
  keyPrefix : Text
  secretHash : SecretHash
  expiresAt : Option Instant
  revokedAt : Option Instant
  createdBy : Text
  version : Nat
  createIdempotencyKey : Option Text
  rotationIdempotencyKey : Option Text
  secretCiphertext : Option Sealed
  policyID : Option Uuid
deriving DecidableEq

/-- `RotateInferenceAccessKey`, of a row that is not revoked. -/
def KeyRow.rotate (keyPrefix : Text) (secretHash : SecretHash) (idempotency : Option Text)
    (secretCiphertext : Option Sealed) (row : KeyRow) : KeyRow :=
  { row with
    keyPrefix := keyPrefix, secretHash := secretHash, revokedAt := none
    rotationIdempotencyKey := idempotency, secretCiphertext := secretCiphertext
    version := row.version + 1 }

/-- `RevokeInferenceAccessKey`. -/
def KeyRow.revoke (now : Instant) (row : KeyRow) : KeyRow :=
  { row with revokedAt := some (row.revokedAt.getD (timestamptz now)), version := row.version + 1 }

def KeyRow.bindPolicy (policy : Uuid) (row : KeyRow) : KeyRow :=
  { row with policyID := some policy, version := row.version + 1 }

/-- The rows `ArchiveInferenceAccessKeySecret` changes. -/
def KeyRow.archivable (version : Nat) (secretHash : SecretHash) (row : KeyRow) : Bool :=
  row.version = version ∧ row.secretHash = secretHash ∧ row.secretCiphertext = none ∧
    row.revokedAt = none

def KeyRow.archive (secretCiphertext : Sealed) (row : KeyRow) : KeyRow :=
  { row with secretCiphertext := some secretCiphertext }

/-- `inference_access_policies`, without its primary key and its name. -/
structure PolicyRow where
  allowedModelNames : List Text
  requestsPerSecond : Nat
  requestsPerMinute : Nat
  requestsPerHour : Nat
  version : Nat
deriving DecidableEq

/-- `ResolvePublishedModelRow`. -/
structure PublishedRow where
  tenant : Uuid
  service : Uuid
  generation : Int
  effective : Bool
deriving DecidableEq

inductive Window
  | second | minute | hour
deriving DecidableEq, Repr

def Window.duration : Window → Nat
  | .second => 1000000000
  | .minute => 60000000000
  | .hour => 3600000000000

/-- `Truncate`. -/
def Window.start (w : Window) (now : Instant) : Instant := now - now % w.duration

/-- A row, or the entry of a unique index. What the access check reads of services and
publications is one row a service and one a served model. -/
inductive Row
  | key (tenant id : Uuid)
  | createKey (tenant : Uuid) (idempotency : Text)
  | keyPrefix (text : Text)
  | policy (tenant id : Uuid)
  | bucket (tenant key : Uuid) (window : Window) (start : Instant)
  | service (tenant id : Uuid)
  | model (name : Text)
deriving DecidableEq

@[reducible] def Row.Value : Row → Type
  | .key .. => KeyRow
  | .createKey .. => Uuid
  | .keyPrefix .. => Uuid × Uuid
  | .policy .. => PolicyRow
  | .bucket .. => Nat
  | .service .. => Bool
  | .model .. => List PublishedRow

abbrev Db := LockedRows Row Row.Value

/-- The statements, each of which sees what is committed when it runs. -/
inductive Stmt
  | keyByCreateIdempotency (tenant : Uuid) (idempotency : Text)
  | keyByPrefix (text : Text)
  | getKey (tenant id : Uuid)
  | listKeys (tenant : Uuid)
  | lockKey (tenant id : Uuid)
  | keyByRotationIdempotency (tenant id : Uuid) (idempotency : Text)
  | insertKey (tenant id : Uuid) (row : KeyRow)
  | rotateKey (tenant id : Uuid) (keyPrefix : Text) (secretHash : SecretHash)
      (idempotency : Option Text) (secretCiphertext : Option Sealed)
  | revokeKey (tenant id : Uuid)
  | bindPolicy (tenant id policy : Uuid)
  | markUsed (tenant id : Uuid)
  | archiveSecret (tenant id : Uuid) (version : Nat) (secretHash : SecretHash)
      (secretCiphertext : Sealed)
  | policyForShare (tenant id : Uuid)
  | insertPolicy (tenant id : Uuid) (row : PolicyRow)
  | updatePolicy (tenant id : Uuid) (row : PolicyRow)
  | deletePolicy (tenant id : Uuid)
  | publishedModel (name : Text)
  | serviceForShare (tenant id : Uuid)
  | consumeBucket (tenant key : Uuid) (window : Window) (start : Instant) (cost max : Nat)
  | appendAudit
  | setService (tenant id : Uuid) (deleted : Bool)
  | setModel (name : Text) (rows : List PublishedRow)

@[reducible] def Stmt.Answer : Stmt → Type
  | .keyByCreateIdempotency .. => Option (Uuid × KeyRow)
  | .keyByPrefix .. => Option (Uuid × Uuid × KeyRow)
  | .listKeys .. => List (Uuid × KeyRow)
  | .getKey .. | .lockKey .. | .keyByRotationIdempotency .. | .insertKey .. | .rotateKey ..
  | .revokeKey .. => Option KeyRow
  | .policyForShare .. | .updatePolicy .. | .deletePolicy .. => Option PolicyRow
  | .insertPolicy .. | .bindPolicy .. | .markUsed .. | .appendAudit | .setService ..
  | .setModel .. => Unit
  | .archiveSecret .. | .serviceForShare .. => Bool
  | .publishedModel .. => List PublishedRow
  | .consumeBucket .. => Option Nat

/-- What the outside decides about a statement: whether it fails, whether its answer is lost
after it took effect, which keys a page shows, and whether a key still refers to a policy. -/
structure Luck where
  fails : Bool
  unanswered : Bool
  page : List Uuid
  referenced : Bool

/-- `UPDATE inference_access_keys ... WHERE tenant_id AND id AND c RETURNING`. -/
def updateKey (i : Nat) (tenant id : Uuid) (c : KeyRow → Bool) (f : KeyRow → KeyRow) :
    Txn Db Refusal (Option KeyRow) := do
  match ← LockedRows.readForUpdate i (Row.key tenant id) with
  | none => return none
  | some row =>
    if c row then do
      LockedRows.write i (Row.key tenant id) (some (f row))
      return some (f row)
    else return none

/-- The entry of a unique index that a row is about to get. -/
def claimIndex (i : Nat) (k : Row) (v : k.Value) : Txn Db Refusal Unit := do
  match ← LockedRows.read i k with
  | some _ => throw .violated
  | none => LockedRows.write i k (some v)

/-- The entry in the unique index on the idempotency key that a new row would repeat. -/
def createKeyEntry (i : Nat) (tenant : Uuid) : Option Text → Txn Db Refusal (Option Uuid)
  | none => pure none
  | some idempotency => LockedRows.read i (Row.createKey tenant idempotency)

def enterCreateKey (i : Nat) (tenant id : Uuid) : Option Text → Txn Db Refusal Unit
  | none => pure ()
  | some idempotency => LockedRows.write i (Row.createKey tenant idempotency) (some id)

def replacePrefix (i : Nat) (tenant id : Uuid) (old new : Text) : Txn Db Refusal Unit :=
  if new = old then pure ()
  else do
    claimIndex i (Row.keyPrefix new) (tenant, id)
    LockedRows.write i (Row.keyPrefix old) none

def Stmt.run (i : Nat) (now : Instant) (luck : Luck) : (s : Stmt) → Txn Db Refusal s.Answer
  | .keyByCreateIdempotency tenant idempotency => do
    match ← LockedRows.read i (Row.createKey tenant idempotency) with
    | none => return none
    | some id => return (← LockedRows.read i (Row.key tenant id)).map fun row => (id, row)
  | .keyByPrefix text => do
    match ← LockedRows.read i (Row.keyPrefix text) with
    | none => return none
    | some (tenant, id) =>
      return (← LockedRows.read i (Row.key tenant id)).map fun row => (tenant, id, row)
  | .getKey tenant id => LockedRows.read i (Row.key tenant id)
  | .listKeys tenant => do
    let db ← get
    return luck.page.filterMap fun id => (db.view i (Row.key tenant id)).map fun row => (id, row)
  | .lockKey tenant id => LockedRows.readForUpdate i (Row.key tenant id)
  | .keyByRotationIdempotency tenant id idempotency => do
    let row ← LockedRows.read i (Row.key tenant id)
    return row.filter fun row => row.rotationIdempotencyKey = some idempotency
  | .insertKey tenant id row => do
    -- ON CONFLICT (tenant_id, create_idempotency_key) DO NOTHING
    if (← createKeyEntry i tenant row.createIdempotencyKey).isSome then return none
    else do
      enterCreateKey i tenant id row.createIdempotencyKey
      claimIndex i (Row.keyPrefix row.keyPrefix) (tenant, id)
      claimIndex i (Row.key tenant id) row
      return some row
  | .rotateKey tenant id keyPrefix secretHash idempotency secretCiphertext => do
    match ← LockedRows.readForUpdate i (Row.key tenant id) with
    | none => return none
    | some row =>
      if row.revokedAt.isSome then return none
      else do
        replacePrefix i tenant id row.keyPrefix keyPrefix
        let rotated := row.rotate keyPrefix secretHash idempotency secretCiphertext
        LockedRows.write i (Row.key tenant id) (some rotated)
        return some rotated
  | .revokeKey tenant id =>
    updateKey i tenant id (fun _ => true) (KeyRow.revoke now)
  | .bindPolicy tenant id policy => do
    let _ ← updateKey i tenant id (fun _ => true) (KeyRow.bindPolicy policy)
  | .markUsed tenant id => do
    -- last_used_at is not modelled.
    let _ ← updateKey i tenant id (fun _ => true) (fun row => row)
  | .archiveSecret tenant id version secretHash secretCiphertext => do
    let row ← updateKey i tenant id (KeyRow.archivable version secretHash)
      (KeyRow.archive secretCiphertext)
    return row.isSome
  | .policyForShare tenant id => LockedRows.readForShare i (Row.policy tenant id)
  | .insertPolicy tenant id row => claimIndex i (Row.policy tenant id) row
  | .updatePolicy tenant id row => do
    match ← LockedRows.readForUpdate i (Row.policy tenant id) with
    | none => return none
    | some old => do
      LockedRows.write i (Row.policy tenant id) (some { row with version := old.version + 1 })
      return some { row with version := old.version + 1 }
  | .deletePolicy tenant id => do
    match ← LockedRows.readForUpdate i (Row.policy tenant id) with
    | none => return none
    | some old =>
      -- The foreign key of inference_access_keys.
      if luck.referenced then throw .violated
      else do
        LockedRows.write i (Row.policy tenant id) none
        return some old
  | .publishedModel name => do
    return (← LockedRows.read i (Row.model name)).getD []
  | .serviceForShare tenant id => do
    match ← LockedRows.read i (Row.service tenant id) with
    | some false => do
      LockedRows.share i (Row.service tenant id)
      return true
    | _ => return false
  | .consumeBucket tenant key window start cost max =>
    if cost ≤ max then do
      LockedRows.acquire i (Row.bucket tenant key window start)
      match ← LockedRows.read i (Row.bucket tenant key window start) with
      | none => do
        LockedRows.write i (Row.bucket tenant key window start) (some cost)
        return some cost
      | some count =>
        if count ≤ max - cost then do
          LockedRows.write i (Row.bucket tenant key window start) (some (count + cost))
          return some (count + cost)
        else return none
    else return none
  | .appendAudit => pure ()
  | .setService tenant id deleted => LockedRows.write i (Row.service tenant id) (some deleted)
  | .setModel name rows => LockedRows.write i (Row.model name) (some rows)

/-- The shared state: the database and the time of day. -/
structure World where
  db : Db
  clock : Instant

/-- 43 characters, as many as 32 bytes give in base64. -/
abbrev RandomText := { cs : Text // cs.length = 43 }

/-- What a request does outside its own code. -/
inductive Call
  | now
  | randomText
  | salt
  | nonce
  | newID
  | begin
  | stmt (s : Stmt)
  | auto (s : Stmt)
  | commit
  | rollback
  | tick (t : Instant)
  | disconnect (i : Nat)

@[reducible] def Call.Answer : Call → Type
  | .now => Instant
  | .randomText => Option RandomText
  | .salt | .nonce => Option Nat
  | .newID => Uuid
  | .begin | .commit => Except Refusal Unit
  | .stmt s | .auto s => Except Refusal s.Answer
  | .rollback | .tick _ | .disconnect _ => Unit

/-- A call and what it was answered. -/
abbrev Exchange := Σ e : Call, e.Answer

@[reducible] def Call.Choice : Call → Type
  | .now | .rollback | .tick _ | .disconnect _ => Unit
  | .randomText => Option RandomText
  | .salt | .nonce => Option Nat
  | .newID => Uuid
  | .begin => Bool
  | .commit => Fault
  | .stmt _ | .auto _ => Luck

/-- One call of the request `i`, which has at most one transaction open. A statement that fails
ends the transaction, and so does the loss of the connection. -/
def act (i : Nat) : (e : Call) → e.Choice → World → e.Answer × World
  | .now, _, w => (w.clock, w)
  | .randomText, c, w => (c, w)
  | .salt, c, w => (c, w)
  | .nonce, c, w => (c, w)
  | .newID, c, w => (c, w)
  | .begin, fails, w =>
    if fails ∨ w.db.live i then (.error .closed, w)
    else (.ok (), { w with db := w.db.openTxn i })
  | .stmt s, luck, w =>
    if luck.fails ∨ ¬w.db.live i then (.error .closed, { w with db := w.db.rollback i })
    else
      match s.run i w.clock luck w.db with
      | .ok (a, db) => (.ok a, { w with db := db })
      | .error r => (.error r, { w with db := w.db.rollback i })
  | .auto s, luck, w =>
    if luck.fails ∨ w.db.live i then (.error .closed, w)
    else
      match s.run i w.clock luck (w.db.openTxn i) with
      | .ok (a, db) =>
        (if luck.unanswered then .error .closed else .ok a, { w with db := db.commit i })
      | .error r => (.error r, w)
  | .commit, fault, w =>
    if w.db.live i then
      match fault with
      | .none => (.ok (), { w with db := w.db.commit i })
      | .lost => (.error .closed, { w with db := w.db.rollback i })
      | .unanswered => (.error .closed, { w with db := w.db.commit i })
    else (.error .closed, w)
  | .rollback, _, w => ((), { w with db := w.db.rollback i })
  | .tick t, _, w => ((), { w with clock := t })
  | .disconnect j, _, w => ((), { w with db := w.db.rollback j })

end AniInference.Access
