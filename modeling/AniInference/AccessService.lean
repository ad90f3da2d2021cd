import AniInference.AccessKeys
import AniInference.Lib.Walk

namespace AniInference.Access
open Lib Text

/-- Why a request fails. -/
inductive Err
  | invalidInput (why : String)
  | notFound
  | alreadyRevoked
  | idempotencyReplay
  | secretUnavailable
  | invalidUUID (label : String)
  | policyNotFound
  | policyInUse
  | noRows
  | noRandomness
  | database (why : Refusal)
deriving DecidableEq, Repr

abbrev Service := ExceptT Err (Prog Call Call.Answer)

def liftExcept {α : Type} : Except Err α → Service α
  | .ok a => pure a
  | .error e => throw e

def perform (e : Call) : Service e.Answer := ExceptT.lift (Prog.perform e)

/-- A statement whose failure the code looks at. -/
def tryStmt (s : Stmt) : Service (Except Refusal s.Answer) := perform (.stmt s)

def orFail {α : Type} : Except Refusal α → Service α
  | .ok a => pure a
  | .error why => throw (.database why)

def stmt (s : Stmt) : Service s.Answer := do orFail (← tryStmt s)

/-- A statement outside a transaction. -/
def auto (s : Stmt) : Service s.Answer := do
  let r : Except Refusal s.Answer ← perform (.auto s)
  orFail r

def commit : Service Unit := do
  let r : Except Refusal Unit ← perform .commit
  orFail r

/-- `BeginTx`, the body, and the deferred `Rollback`. -/
def inTx {α : Type} (body : Service α) : Service α := do
  let r : Except Refusal Unit ← perform .begin
  orFail r
  let result ← ExceptT.lift body.run
  perform .rollback
  match result with
  | .ok a => pure a
  | .error e => throw e

/-- `accesskey.Record`. -/
structure Record where
  tenantID : Text
  id : Text
  name : Text
  keyPrefix : Text
  secretHash : SecretHash
  policyID : Text
  secretCiphertext : Option Sealed
  expiresAt : Option Instant
  revokedAt : Option Instant
  createdBy : Text
  version : Nat
  createIdempotencyKey : Text
  rotationIdempotency : Text
deriving DecidableEq

def textParam (value : Text) : Option Text := if value = [] then none else some value

def textValue (value : Option Text) : Text := value.getD []

def uuidValue : Option Uuid → Text
  | some u => u.text
  | none => []

def accessKeyRecord (tenant id : Uuid) (row : KeyRow) : Record where
  tenantID := tenant.text
  id := id.text
  name := row.name
  keyPrefix := row.keyPrefix
  secretHash := row.secretHash
  policyID := uuidValue row.policyID
  secretCiphertext := row.secretCiphertext
  expiresAt := row.expiresAt
  revokedAt := row.revokedAt
  createdBy := row.createdBy
  version := row.version
  createIdempotencyKey := textValue row.createIdempotencyKey
  rotationIdempotency := textValue row.rotationIdempotencyKey

def parseUUID (label : String) (value : Text) : Service Uuid :=
  match Uuid128.parse value with
  | some u => pure u
  | none => throw (.invalidUUID label)

/-- The digits of a UUID as the database reads it: after every fourth of them, `n` so far, one
dash may stand. -/
def ungroup (n : Nat) (mayDash : Bool) : Text → Text
  | [] => []
  | c :: cs =>
    if c = '-' ∧ mayDash ∧ n % 4 = 0 ∧ 0 < n ∧ n < 32 then ungroup n false cs
    else c :: ungroup (n + 1) true cs

/-- A text that a statement passes where the column is a UUID. -/
def encodeUUID (value : Text) : Service Uuid :=
  let inner := if value.head? = some '{' ∧ value.getLast? = some '}' then
    value.tail.dropLast else value
  match Uuid128.ofHex (ungroup 0 true inner) with
  | some u => pure u
  | none => throw (.database .violated)

def secretPrefix : Text := ['i', 'a', 'k', '_']

def keyPrefix (secret : Text) : Text := secret.take 16

def newSecret : Service (Text × Text) := do
  let r : Option RandomText ← perform .randomText
  match r with
  | some cs => return (secretPrefix ++ cs.1, keyPrefix (secretPrefix ++ cs.1))
  | none => throw .noRandomness

def newHash (secret : Text) : Service SecretHash := do
  let r : Option Nat ← perform .salt
  match r with
  | some salt => return hashSecret salt secret
  | none => throw .noRandomness

def secretAAD (record : Record) : Aad :=
  ⟨record.tenantID, record.id, record.keyPrefix, record.secretHash⟩

/-- `SecretCipher.seal`, of the parts of the record it reads. -/
def sealSecret (aad : Aad) (secret : Text) : Service Sealed := do
  let r : Option Nat ← perform .nonce
  match r with
  | some nonce => return ⟨nonce, aad, secret⟩
  | none => throw .noRandomness

/-- `SecretCipher.open`. -/
def openSecret (record : Record) : Except Err Text :=
  match record.secretCiphertext with
  | none => .error .secretUnavailable
  | some c =>
    if c.aad ≠ secretAAD record then .error .secretUnavailable
    else if c.plain.length ≠ 47 ∨ keyPrefix c.plain ≠ record.keyPrefix ∨
        ¬secretPrefix.isPrefixOf c.plain then .error .secretUnavailable
    else .ok c.plain

structure CreateInput where
  tenantID : Text
  name : Text
  policyID : Text
  allowedServiceIDs : List Text
  allowedModelNames : List Text
  requestsPerSecond : Int
  requestsPerMinute : Int
  requestsPerHour : Int
  expiresAt : Option Instant
  createdBy : Text
  idempotencyKey : Text

/-- `PersistResult`. -/
structure Persisted where
  record : Record
  replayed : Bool

/-- A row that is there already is the answer. -/
def Store.replay (tenant id : Uuid) (row : KeyRow) : Service Persisted := do
  commit
  return ⟨accessKeyRecord tenant id row, true⟩

/-- The row `Create` inserts. -/
def Record.row (input : Record) (policyID : Uuid) : KeyRow where
  name := input.name
  keyPrefix := input.keyPrefix
  secretHash := input.secretHash
  expiresAt := input.expiresAt.map timestamptz
  revokedAt := none
  createdBy := input.createdBy
  version := 1
  createIdempotencyKey := textParam input.createIdempotencyKey
  rotationIdempotencyKey := none
  secretCiphertext := input.secretCiphertext
  policyID := some policyID

/-- `Create` after no row with its idempotency key was found. -/
def Store.insert (input : Record) (tenant id policyID : Uuid) : Service Persisted := do
  match ← stmt (.policyForShare tenant policyID) with
  | none => throw .notFound
  | some _ =>
    match ← stmt (.insertKey tenant id (input.row policyID)) with
    | some created => do
      stmt .appendAudit
      commit
      return ⟨accessKeyRecord tenant id created, false⟩
    | none =>
      if input.createIdempotencyKey = [] then throw .noRows
      else
        match ← stmt (.keyByCreateIdempotency tenant input.createIdempotencyKey) with
        | some (existing, row) => Store.replay tenant existing row
        | none => throw .noRows

def Store.create (input : Record) : Service Persisted := do
  let tenant ← parseUUID "tenant_id" input.tenantID
  let id ← parseUUID "id" input.id
  let policyID ← parseUUID "policy_id" input.policyID
  inTx do
    if input.createIdempotencyKey = [] then Store.insert input tenant id policyID
    else
      match ← stmt (.keyByCreateIdempotency tenant input.createIdempotencyKey) with
      | some (existing, row) => Store.replay tenant existing row
      | none => Store.insert input tenant id policyID

/-- `CreateResult` and `RotateResult`. -/
structure Issued where
  record : Record
  secret : Text
  replayed : Bool

/-- `CreateInput` with what `Create` trims trimmed. -/
def CreateInput.trimmed (input : CreateInput) : CreateInput :=
  { input with
    name := trimSpace input.name, tenantID := trimSpace input.tenantID
    createdBy := trimSpace input.createdBy, idempotencyKey := trimSpace input.idempotencyKey }

def requireFuture (expiresAt : Option Instant) : Service Unit := do
  match expiresAt with
  | none => pure ()
  | some t => do
    let now : Instant ← perform .now
    if now < t then pure ()
    else throw (.invalidInput "a policy ID is required; scope and limits belong to the policy")

def create (given : CreateInput) : Service Issued := do
  let input := given.trimmed
  if input.tenantID = [] ∨ input.name = [] ∨ input.createdBy = [] then
    throw (.invalidInput "tenant, name and actor are required")
  else
    match Uuid128.parse (trimSpace input.policyID) with
    | none => throw (.invalidInput "a policy ID is required; scope and limits belong to the policy")
    | some policyID =>
      if policyID = Uuid128.replicate 0 ∨ policyID.text ≠ input.policyID ∨
          input.allowedServiceIDs ≠ [] ∨ input.allowedModelNames ≠ [] ∨
          input.requestsPerSecond ≠ 0 ∨ input.requestsPerMinute ≠ 0 ∨ input.requestsPerHour ≠ 0 then
        throw (.invalidInput "a policy ID is required; scope and limits belong to the policy")
      else do
        requireFuture input.expiresAt
        let (secret, keyPrefix) ← newSecret
        let secretHash ← newHash secret
        let id : Uuid ← perform .newID
        let c ← sealSecret ⟨input.tenantID, id.text, keyPrefix, secretHash⟩ secret
        let created ← Store.create {
          tenantID := input.tenantID, id := id.text, name := input.name, keyPrefix := keyPrefix
          secretHash := secretHash, policyID := policyID.text, secretCiphertext := some c
          expiresAt := input.expiresAt, revokedAt := none, createdBy := input.createdBy
          version := 1, createIdempotencyKey := input.idempotencyKey, rotationIdempotency := [] }
        if created.replayed then
          if created.record.name ≠ input.name ∨ created.record.policyID ≠ policyID.text ∨
              created.record.expiresAt ≠ input.expiresAt then throw .idempotencyReplay
          else return ⟨created.record, [], true⟩
        else return ⟨created.record, secret, false⟩

/-- `RotatePersistInput`. -/
structure RotateInput where
  keyPrefix : Text
  secretHash : SecretHash
  secretCiphertext : Option Sealed
  idempotency : Text

/-- `Rotate` after no rotation with its idempotency key was found. -/
def Store.change (input : RotateInput) (tenant keyID : Uuid) (current : KeyRow) :
    Service Persisted :=
  if current.revokedAt.isSome then throw .alreadyRevoked
  else do
    match ← tryStmt (.rotateKey tenant keyID input.keyPrefix input.secretHash
        (textParam input.idempotency) input.secretCiphertext) with
    | .ok (some rotated) => do
      stmt .appendAudit
      commit
      return ⟨accessKeyRecord tenant keyID rotated, false⟩
    | .ok none => do
      match ← tryStmt (.getKey tenant keyID) with
      | .ok none => throw .notFound
      | _ => throw .alreadyRevoked
    | .error why =>
      if input.idempotency = [] then throw (.database why)
      else
        match ← tryStmt (.keyByRotationIdempotency tenant keyID input.idempotency) with
        | .ok (some existing) => Store.replay tenant keyID existing
        | _ => throw (.database why)

def Store.rotate (tenantID id : Text) (input : RotateInput) : Service Persisted := do
  let tenant ← parseUUID "tenant_id" tenantID
  let keyID ← parseUUID "id" id
  inTx do
    match ← stmt (.lockKey tenant keyID) with
    | none => throw .notFound
    | some current =>
      if input.idempotency = [] then Store.change input tenant keyID current
      else
        match ← stmt (.keyByRotationIdempotency tenant keyID input.idempotency) with
        | some existing => Store.replay tenant keyID existing
        | none => Store.change input tenant keyID current

def rotate (tenantID id idempotencyKey : Text) : Service Issued := do
  let (secret, keyPrefix) ← newSecret
  let secretHash ← newHash secret
  let c ← sealSecret ⟨trimSpace tenantID, trimSpace id, keyPrefix, secretHash⟩ secret
  let result ← Store.rotate (trimSpace tenantID) (trimSpace id)
    ⟨keyPrefix, secretHash, some c, trimSpace idempotencyKey⟩
  if result.replayed then return ⟨result.record, [], true⟩
  else return ⟨result.record, secret, false⟩

def revoke (tenantID id : Text) : Service Record := do
  let tenant ← parseUUID "tenant_id" (trimSpace tenantID)
  let keyID ← parseUUID "id" (trimSpace id)
  inTx do
    match ← stmt (.lockKey tenant keyID) with
    | none => throw .notFound
    | some current =>
      if current.revokedAt.isSome then do
        commit
        return accessKeyRecord tenant keyID current
      else
        match ← stmt (.revokeKey tenant keyID) with
        | none => throw .notFound
        | some row => do
          stmt .appendAudit
          commit
          return accessKeyRecord tenant keyID row

/-- `BindAccessPolicy`. -/
def bindPolicy (tenantID keyID policyID : Text) : Service Record := do
  let tenantUUID ← parseUUID "tenant_id" tenantID
  let keyUUID ← parseUUID "id" keyID
  inTx do
    let tenant ← encodeUUID tenantID
    let key ← encodeUUID keyID
    match ← stmt (.lockKey tenant key) with
    | none => throw .notFound
    | some _ => do
      let policy ← encodeUUID policyID
      match ← stmt (.policyForShare tenant policy) with
      | none => throw .policyNotFound
      | some _ => do
        stmt (.bindPolicy tenant key policy)
        stmt .appendAudit
        match ← stmt (.getKey tenantUUID keyUUID) with
        | none => throw .noRows
        | some row => do
          commit
          return accessKeyRecord tenantUUID keyUUID row

def createPolicy (tenantID : Text) (policy : PolicyRow) : Service Unit := do
  inTx do
    let tenant ← encodeUUID tenantID
    let id : Uuid ← perform .newID
    stmt (.insertPolicy tenant id { policy with version := 1 })
    stmt .appendAudit
    commit

def updatePolicy (tenantID id : Text) (policy : PolicyRow) : Service PolicyRow := do
  inTx do
    let tenant ← encodeUUID tenantID
    let id ← encodeUUID id
    match ← stmt (.updatePolicy tenant id policy) with
    | none => throw .policyNotFound
    | some row => do
      stmt .appendAudit
      commit
      return row

def deletePolicy (tenantID id : Text) : Service Unit := do
  inTx do
    let tenant ← encodeUUID tenantID
    let id ← encodeUUID id
    match ← tryStmt (.deletePolicy tenant id) with
    | .error .violated => throw .policyInUse
    | .error why => throw (.database why)
    | .ok none => throw .policyNotFound
    | .ok (some _) => do
      stmt .appendAudit
      commit

/-- The record of a row and its secret, which an old row does not have. -/
def revealed (record : Record) : Except Err (Record × Text) := do
  if record.secretCiphertext.isNone then return (record, [])
  else return (record, ← openSecret record)

/-- `List`: the records of one page and their secrets. -/
def list (tenantID : Text) : Service (List (Record × Text)) := do
  let tenant ← parseUUID "tenant_id" (trimSpace tenantID)
  let rows ← auto (.listKeys tenant)
  liftExcept (rows.mapM fun (id, row) => revealed (accessKeyRecord tenant id row))

def getRecord (tenantID id : Text) : Service (Record × Text) := do
  let tenant ← parseUUID "tenant_id" (trimSpace tenantID)
  let keyID ← parseUUID "id" (trimSpace id)
  match ← auto (.getKey tenant keyID) with
  | none => throw .notFound
  | some row => liftExcept (revealed (accessKeyRecord tenant keyID row))

inductive Denial
  | invalidKey | revoked | expired | scopeDenied | rateLimited
deriving DecidableEq, Repr

/-- `CheckResult`. -/
structure CheckResult where
  record : Option Record
  allowed : Bool
  denial : Option Denial
  retryAfter : Nat
  policyVersion : Nat

/-- The loop of `lookupPublishedModel`. No row stands for the zero row, which the first row is not
compared with. -/
def lookupLoop (resolved : Option PublishedRow) (effective : Bool) :
    List PublishedRow → Option PublishedRow × Bool
  | [] => (resolved, effective)
  | row :: rows =>
    if resolved.any fun r => row.tenant ≠ r.tenant ∨ row.service ≠ r.service then (none, false)
    else lookupLoop (some row) (effective || row.effective) rows

def lookupRows (rows : List PublishedRow) : Option PublishedRow × Bool := lookupLoop none false rows

/-- `lookupPublishedModel`: the tenant and service of the row, if it is reported as effective. -/
def lookupPublishedModel (rows : List PublishedRow) : Option (Uuid × Uuid) :=
  match lookupRows rows with
  | (some row, true) => some (row.tenant, row.service)
  | _ => none

def PolicyRow.limit (policy : PolicyRow) : Window → Nat
  | .second => policy.requestsPerSecond
  | .minute => policy.requestsPerMinute
  | .hour => policy.requestsPerHour

/-- The loop of `consumeKeyBuckets`. The answer is how long to wait, if a bucket is full. -/
def consumeWindows (tenant key : Uuid) (limit : Window → Nat) (now : Instant) (cost : Nat) :
    List Window → Service (Option Nat)
  | [] => do
    stmt (.markUsed tenant key)
    return none
  | w :: ws =>
    if limit w = 0 then consumeWindows tenant key limit now cost ws
    else do
      match ← stmt (.consumeBucket tenant key w (w.start now) cost (limit w)) with
      | none => return some (w.start now + w.duration - now)
      | some _ => consumeWindows tenant key limit now cost ws

def consumeKeyBuckets (tenant key : Uuid) (limit : Window → Nat) (now : Instant) (cost : Nat) :
    Service (Option Nat) :=
  consumeWindows tenant key limit now cost [.second, .minute, .hour]

/-- `Repository.Consume`. -/
def consume (tenantID id : Text) (limit : Window → Nat) (now : Instant) (cost : Nat) :
    Service Bool := do
  let tenant ← parseUUID "tenant_id" tenantID
  let keyID ← parseUUID "id" id
  inTx do
    match ← consumeKeyBuckets tenant keyID limit now cost with
    | some _ => return false
    | none => do
      commit
      return true

/-- The answer of `ConsumeAccess` unless it is another. -/
def Record.denied (record : Record) : CheckResult :=
  ⟨some record, false, some .scopeDenied, 0, record.version⟩

/-- `ConsumeAccess` from the lock on the key on. -/
def consumeLatest (record : Record) (tenant key : Uuid) (model : Text) (now : Instant)
    (cost : Nat) : Service CheckResult := do
  match ← stmt (.lockKey tenant key) with
  | none => return record.denied
  | some latest =>
    if latest.version ≠ record.version then
      return { record.denied with denial := some .invalidKey }
    else if latest.revokedAt.isSome then
      return { record.denied with denial := some .revoked }
    else if latest.expiresAt.any (· ≤ now) then
      return { record.denied with denial := some .expired }
    else
      match latest.policyID with
      | none => return record.denied
      | some policyID => do
        match ← stmt (.policyForShare tenant policyID) with
        | none => return record.denied
        | some policy =>
          let denied := { record.denied with policyVersion := policy.version }
          if model ∉ policy.allowedModelNames then return denied
          else
            match ← consumeKeyBuckets tenant key policy.limit now cost with
            | some retry =>
              return { denied with denial := some .rateLimited, retryAfter := retry }
            | none => do
              commit
              return ⟨some record, true, none, 0, policy.version⟩

/-- `Repository.ConsumeAccess`. -/
def consumeAccess (record : Record) (service model : Text) (now : Instant) (cost : Nat) :
    Service CheckResult := do
  inTx do
    match lookupPublishedModel (← stmt (.publishedModel model)) with
    | none => return record.denied
    | some (pt, ps) =>
      if ps.text ≠ service ∨ pt.text ≠ record.tenantID then return record.denied
      else do
        if ← stmt (.serviceForShare pt ps) then
          if lookupPublishedModel (← stmt (.publishedModel model)) ≠ some (pt, ps) then
            return record.denied
          else do
            let tenant ← parseUUID "tenant_id" record.tenantID
            let key ← parseUUID "key_id" record.id
            consumeLatest record tenant key model now cost
        else return record.denied

/-- What a check costs. -/
def chargedCost (cost : Int) : Nat := if cost < 1 then 1 else cost.toNat

def archive (record : Record) (ciphertext : Sealed) : Service Unit := do
  let tenant ← parseUUID "tenant_id" record.tenantID
  let id ← parseUUID "id" record.id
  let _ ← auto (.archiveSecret tenant id record.version record.secretHash ciphertext)

def check (given serviceID model : Text) (cost : Int) : Service CheckResult := do
  let apiKey := trimSpace given
  if apiKey = [] ∨ ¬secretPrefix.isPrefixOf apiKey then
    return ⟨none, false, some .invalidKey, 0, 0⟩
  else
    match ← auto (.keyByPrefix (keyPrefix apiKey)) with
    | none => return ⟨none, false, some .invalidKey, 0, 0⟩
    | some (tenant, id, row) =>
      let record := accessKeyRecord tenant id row
      if ¬verifySecret apiKey record.secretHash then return ⟨none, false, some .invalidKey, 0, 0⟩
      else do
        let now : Instant ← perform .now
        if record.revokedAt.isSome then
          return ⟨some record, false, some .revoked, 0, record.version⟩
        else if record.expiresAt.any (· ≤ now) then
          return ⟨some record, false, some .expired, 0, record.version⟩
        else
          match lookupPublishedModel (← auto (.publishedModel (trimSpace model))) with
          | none => return ⟨some record, false, some .scopeDenied, 0, record.version⟩
          | some (_, service) =>
            if trimSpace serviceID ≠ [] ∧ trimSpace serviceID ≠ service.text then
              return ⟨some record, false, some .scopeDenied, 0, record.version⟩
            else do
              let result ← consumeAccess record service.text (trimSpace model) now
                (chargedCost cost)
              if ¬result.allowed then return result
              else do
                if record.secretCiphertext.isNone then do
                  archive record (← sealSecret (secretAAD record) apiKey)
                else pure ()
                return result

/-- What happens beside the requests of this service: the control plane changes services and
publications, time goes by, and connections are lost. -/
inductive Outside
  | setService (tenant id : Uuid) (deleted : Bool)
  | setModel (name : Text) (rows : List PublishedRow)
  | tick (t : Instant)
  | disconnect (i : Nat)

def Outside.call : Outside → Call
  | .setService tenant id deleted => .auto (.setService tenant id deleted)
  | .setModel name rows => .auto (.setModel name rows)
  | .tick t => .tick t
  | .disconnect i => .disconnect i

inductive Request
  | create (input : CreateInput)
  | rotate (tenantID id idempotencyKey : Text)
  | revoke (tenantID id : Text)
  | bindPolicy (tenantID keyID policyID : Text)
  | createPolicy (tenantID : Text) (policy : PolicyRow)
  | updatePolicy (tenantID id : Text) (policy : PolicyRow)
  | deletePolicy (tenantID id : Text)
  | list (tenantID : Text)
  | get (tenantID id : Text)
  | check (apiKey serviceID model : Text) (cost : Int)
  | consume (tenantID id : Text) (limit : Window → Nat) (now : Instant) (cost : Nat)
  | outside (what : List Outside)

@[reducible] def Request.Result : Request → Type
  | .create _ | .rotate .. => Issued
  | .revoke .. | .bindPolicy .. => Record
  | .updatePolicy .. => PolicyRow
  | .list _ => List (Record × Text)
  | .get .. => Record × Text
  | .check .. => CheckResult
  | .consume .. => Bool
  | .createPolicy .. | .deletePolicy .. | .outside _ => Unit

def Request.service : (q : Request) → Service q.Result
  | .create input => Access.create input
  | .rotate tenantID id idempotencyKey => Access.rotate tenantID id idempotencyKey
  | .revoke tenantID id => Access.revoke tenantID id
  | .bindPolicy tenantID keyID policyID => Access.bindPolicy tenantID keyID policyID
  | .createPolicy tenantID policy => Access.createPolicy tenantID policy
  | .updatePolicy tenantID id policy => Access.updatePolicy tenantID id policy
  | .deletePolicy tenantID id => Access.deletePolicy tenantID id
  | .list tenantID => Access.list tenantID
  | .get tenantID id => getRecord tenantID id
  | .check apiKey serviceID model cost => Access.check apiKey serviceID model cost
  | .consume tenantID id limit now cost => Access.consume tenantID id limit now cost
  | .outside what => what.forM fun o => do let _ ← perform o.call

/-- The process of a request, which ends with its answer. -/
def Request.program (q : Request) :
    Prog Call Call.Answer ((q : Request) × Except Err q.Result) := do
  let r ← q.service.run
  return ⟨q, r⟩

/-- The histories of these requests, one process each, from such a world. -/
abbrev Ran (requests : Nat → Request) (start : World → Prop) :=
  Run act (fun i => (requests i).program) start

/-- The request has been answered. -/
def Answered (q : Request) (i : Nat) (h : List (Moment World Call Call.Answer))
    (r : Except Err q.Result) : Prop :=
  Prog.Played q.service.run (trace i h) r

theorem Request.answered {q : Request} (h : Prog.Played q.program es a) :
    ∃ r, a = ⟨q, r⟩ ∧ Prog.Played q.service.run es r := by
  obtain ⟨r, es₁, es₂, rfl, hr, hret⟩ := Prog.played_bind.mp h
  obtain ⟨rfl, rfl⟩ := Prog.played_ret.mp hret
  exact ⟨r, rfl, by simpa using hr⟩

end AniInference.Access
