import AniInference.Managed
import AniInference.Lib.Interleaving

namespace AniInference
open Lib

/-- The single statements a worker reads with. -/
inductive Read
  | leasedOperation (tenant token : Uuid)
  | leasedDesired (tenant service token : Uuid)
  | managedResource (tenant resource : Uuid)
  | releaseScope (tenant service operation : Uuid)
  | spec (tenant service : Uuid) (generation : Generation)
  | latestSpec (tenant service : Uuid) (generation : Generation)
  | auditContext (tenant operation : Uuid)
  | activeReservation (tenant service : Uuid) (generation : Generation)
  | previousReservation (tenant service : Uuid) (generation : Generation)
  | publication (tenant service : Uuid) (generation : Generation)
  | latestPublication (tenant service : Uuid) (generation : Generation)
  | refundContext (tenant resource create : Uuid)
  | managedCommand (tenant operation : Uuid)
  | closeTenants

@[reducible] def Read.Result : Read → Type
  | .leasedOperation .. => Option (Uuid × OperationRow)
  | .leasedDesired .. => Option Generation
  | .managedResource .. => Option ManagedResource
  | .releaseScope .. => Option ReleaseScope
  | .spec .. | .latestSpec .. => Option Spec
  | .auditContext .. => Option (String × String)
  | .activeReservation .. | .previousReservation .. => Option (Uuid × ReservationRow)
  | .publication .. | .latestPublication .. => Option (Generation × PublicationRow)
  | .refundContext .. => Option RefundContext
  | .managedCommand .. => Option ManagedCommandRow
  | .closeTenants => List Uuid

def Read.tx (now : Time) : (r : Read) → Tx r.Result
  | .leasedOperation tenant token => Sql.getLeasedOperation now tenant token
  | .leasedDesired tenant service token => Sql.getLeasedDesired now tenant service token
  | .managedResource tenant resource => Sql.getManagedResource tenant resource
  | .releaseScope tenant service operation => Sql.getReleaseScope tenant service operation
  | .spec tenant service generation => Sql.getSpec tenant service generation
  | .latestSpec tenant service generation => Sql.getLatestSpec tenant service generation
  | .auditContext tenant operation => Sql.getOperationAuditContext tenant operation
  | .activeReservation tenant service generation =>
    Sql.getActiveQuotaReservation tenant service generation
  | .previousReservation tenant service generation =>
    Sql.getPreviousQuotaReservation tenant service generation
  | .publication tenant service generation => Sql.getPublication tenant service generation
  | .latestPublication tenant service generation =>
    Sql.getLatestPublication tenant service generation
  | .refundContext tenant resource create => Sql.getRefundContext tenant resource create
  | .managedCommand tenant operation => Sql.getManagedCommand tenant operation
  | .closeTenants => Sql.listManagedCloseTenants

/-- The transactions a worker writes with. -/
inductive Write
  | advance (t : StepTransition) (event : AuditEvent)
  | retry (t : StepTransition) (after : Nat) (event : AuditEvent)
  | quota (r : Reservation)
  | publication (p : Publication)
  | runtimeObservation (op : OperationContext) (fact : RuntimeObservation)
  | observation (item : Item) (o : Observation)
  | modelObservation (op : OperationContext) (fact : ModelObservation)
  | modelMaterializing (op : OperationContext)
  | gpuSnapshot (op : OperationContext) (plan : Gpu.Snapshot)
  | releaseScope (op : OperationContext) (scope : ReleaseScope)
  | releaseReport (original : RefundContext) (proof : ReleaseProof) (n : ReleaseNotification)
      (token : Uuid)

def Write.tx (now : Time) : Write → Tx Unit
  | .advance t event => Store.stepWithAudit now t event none
  | .retry t after event => Store.stepWithAudit now t event (some after)
  | .quota r => Store.saveQuotaReservation now r
  | .publication p => Store.savePublication now p
  | .runtimeObservation op fact => Store.saveRuntimeObservation now op fact
  | .observation item o => Store.saveObservationForWork now item o
  | .modelObservation op fact => Store.saveModelObservation now op fact
  | .modelMaterializing op => Store.markModelMaterializing now op
  | .gpuSnapshot op plan => Store.saveGPUSnapshot now op plan
  | .releaseScope op scope =>
    Sql.upsertReleaseScope op.tenantID op.serviceID op.scopeOperation scope
  | .releaseReport original proof n token =>
    Store.saveManagedReleaseReport now original proof n token

/-- The commands callers send, one local transaction each. -/
inductive Request
  | command (input : CommandInput)
  | update (input : UpdateInput)
  | create (input : CreateInput)
  | prepareCreate (c : ManagedCommand)
  | managedDelete (input : ManagedDeleteInput)

@[reducible] def Request.Result : Request → Type
  | .command _ | .update _ | .managedDelete _ => Response
  | .create _ => CreateResult
  | .prepareCreate _ => Option Response

def Request.tx (now : Time) (fresh : Fresh) : (r : Request) → Tx r.Result
  | .command input => Commands.command now fresh input
  | .update input => Commands.update now fresh input
  | .create input => Managed.createService now fresh input
  | .prepareCreate c => Managed.prepareCreate c
  | .managedDelete input => Managed.acceptManagedDelete now fresh input

/-- A delete that came before its create, claimed by the close scanner. -/
structure CloseItem where
  tenantID : Uuid
  operationID : Uuid
  resourceID : Uuid
  createOperationID : Uuid
  leaseToken : Uuid
deriving DecidableEq

/-- The durable work queue. -/
inductive Work
  | claim (tenant : Uuid)
  | commit (item : Item)
  | retry (item : Item) (cause : Err)
  | notify (tenant service : Uuid) (dirty : Nat)
  | repair (tenant service : Uuid) (dirty : Nat)
  | claimClose (tenant : Uuid)
  | retryClose (item : CloseItem)
  | completeClose (item : CloseItem)

@[reducible] def Work.Result : Work → Type
  | .claim _ => Option Item
  | .claimClose _ => Option CloseItem
  | _ => Unit

structure WorkOptions where
  leaseSeconds : Nat
  observeSeconds : Nat
  retrySeconds : Nat

/-- `NewWorkStore` without options. -/
def WorkOptions.default : WorkOptions := ⟨30, 30, 5⟩

/-- `workErrorCode`, up to the text of an ordinary error. -/
def workErrorCode : Err → String
  | .staleGeneration => "stale_generation"
  | _ => "error"

def Work.tx (opts : WorkOptions) (now : Time) (token candidate : Uuid) : (k : Work) → Tx k.Result
  | .claim tenant => do
    let row ← Sql.claimResourceWork now tenant token opts.leaseSeconds candidate
    return row.map fun r => ⟨tenant, candidate, r.2, r.1, token⟩
  | .commit item => do
    let rows ← Sql.commitResourceWork now item.tenantID item.serviceID item.generation
      item.leaseToken item.dirtyVersion opts.observeSeconds
    Txn.exactlyOne rows .leaseLost
  | .retry item cause => do
    let rows ← Sql.retryResourceWork now item.tenantID item.serviceID item.generation
      item.leaseToken opts.retrySeconds (workErrorCode cause)
    Txn.exactlyOne rows .leaseLost
  | .notify tenant service dirty => Sql.upsertResourceWork now tenant service dirty
  | .repair tenant service dirty => Sql.ensureResourceWork now tenant service dirty
  | .claimClose tenant => do
    let row ← Sql.claimManagedClose now tenant token candidate
    return row.map fun c => ⟨tenant, candidate, c.resourceID, c.createOperationID, token⟩
  | .retryClose item => do
    discard (Sql.retryManagedClose now item.tenantID item.operationID item.leaseToken)
  | .completeClose item => do
    let rows ← Sql.completeManagedClose now item.tenantID item.operationID item.leaseToken
    Txn.exactlyOne rows .generationConflict

/-- The ports of the runner and of the observer. -/
inductive Provider
  | admission (op : OperationContext)
  | ensureModel (op : OperationContext)
  | cleanupModel (op : OperationContext)
  | resolveGPU (op : OperationContext)
  | quotaGet (tenant : Uuid) (id : Option ReservationID)
  | quotaReserve (r : Reservation)
  | quotaConfirm (r : Reservation)
  | quotaRelease (r : Reservation)
  | withdraw (p : Publication)
  | confirmWithdrawn (p : Publication)
  | publish (p : Publication)
  | confirmPublished (p : Publication)
  | endpoint (p : Publication)
  | applyCR (op : OperationContext)
  | applyRuntime (op : OperationContext)
  | observeRuntime (op : OperationContext)
  | deleteRuntime (op : OperationContext)
  | observeAbsence (op : OperationContext)
  | deleteCR (op : OperationContext)
  | releaseManagedGPU (op : OperationContext)
  | reportReleased (n : ReleaseNotification)
  | ensureRuntime (item : Item)

@[reducible] def Provider.Result : Provider → Type
  | .ensureModel _ => ModelObservation
  | .resolveGPU _ => Option Gpu.Snapshot
  | .quotaGet .. | .quotaReserve _ => Reservation
  | .confirmWithdrawn _ | .confirmPublished _ => Bool
  | .endpoint _ => String
  | .observeRuntime _ | .observeAbsence _ => RuntimeObservation
  | .ensureRuntime _ => Observation
  | _ => Unit

inductive Call
  | read (r : Read)
  | write (w : Write)
  | request (r : Request)
  | work (k : Work)
  | provider (p : Provider)
  | clock
  | tick

@[reducible] def Call.Answer : Call → Type
  | .read r => Except Err r.Result
  | .write _ => Except Err Unit
  | .request r => Except Err r.Result
  | .work k => Except Err k.Result
  | .provider p => Except Err p.Result
  | .clock => Time
  | .tick => Unit

/-- A call and what it was answered. -/
abbrev Exchange := Σ c, Call.Answer c

/-- What the outside decides about a call. -/
@[reducible] def Call.Choice : Call → Type
  | .read _ | .write _ => Fault
  | .request _ => Fault × Fresh
  | .work _ => Fault × Uuid
  | .provider p => Except Err p.Result
  | .clock => Unit
  | .tick => Nat

/-- One call that was made, what it was answered, and the database on both sides of it. -/
structure Entry where
  call : Call
  answer : call.Answer
  before : Db
  after : Db
  time : Time

structure World where
  db : Db
  now : Time
  nextToken : Uuid
  history : List Entry

/-- The database a call leaves behind, and its answer. -/
def Call.perform (opts : WorkOptions) : (c : Call) → c.Choice → World → c.Answer × Db
  | .read r, fault, w => (r.tx w.now).settle .connection fault w.db
  | .write x, fault, w => (x.tx w.now).settle .connection fault w.db
  | .request r, (fault, fresh), w => (r.tx w.now fresh).settle .connection fault w.db
  | .work k, (fault, candidate), w => (k.tx opts w.now w.nextToken candidate).settle
    .connection fault w.db
  | .provider _, answer, w => (answer, w.db)
  | .clock, _, w => (w.now, w.db)
  | .tick, _, w => ((), w.db)

def Call.delay : (c : Call) → c.Choice → Nat
  | .tick, n => n
  | _, _ => 0

/-- Every call takes a lease token that was never used before, whether it needs one or not. -/
def exec (opts : WorkOptions) (c : Call) (choice : c.Choice) (w : World) : c.Answer × World :=
  let r := c.perform opts choice w
  (r.1, { db := r.2, now := w.now + c.delay choice, nextToken := w.nextToken + 1,
          history := ⟨c, r.1, w.db, r.2, w.now⟩ :: w.history })

end AniInference
