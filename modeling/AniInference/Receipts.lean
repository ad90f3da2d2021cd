import AniInference.Delivery
import AniInference.Schedule

namespace AniInference
open Lib Txn

section
variable {db db₁ db' : Db}

theorem ReceiptsKept.of_eq (h : db'.managedCommands = db.managedCommands) :
    ReceiptsKept db db' := by
  intro k row hrow
  exact ⟨row, by rw [h, hrow], rfl, rfl⟩

theorem ReceiptsKept.insert (hnone : db.managedCommands.lookup key = none)
    (h : db'.managedCommands = db.managedCommands.insert key row) : ReceiptsKept db db' := by
  intro k old hold
  refine ⟨old, ?_, rfl, rfl⟩
  have hne : k ≠ key := by
    rintro rfl
    rw [hnone] at hold
    cases hold
  rw [h, Table.lookup_insert_ite, if_neg hne, hold]

end

namespace Managed
variable {now : Time} {fresh : Fresh} {db db' : Db} {c : ManagedCommand}

/-- Accepting a create writes no receipt yet. -/
theorem commands_acceptCreate
    (h : Runs (acceptCreate now event service operation input) db result db') :
    db'.managedCommands = db.managedCommands := by
  simp only [acceptCreate, runs_bind, runs_onlyIf] at h
  obtain ⟨_, db₁, h₁, _, db₂, h₂, _, db₃, h₃, _, db₄, h₄, _, db₅, h₅, _, db₆, h₆, _, db₇, h₇, _,
    db₈, h₈, _, db₉, h₉, h₁₀⟩ := h
  obtain ⟨_, _, rfl⟩ := Sql.runs_insertService.mp h₁
  obtain ⟨_, _, _, rfl⟩ := Sql.runs_insertOperation.mp h₂
  obtain rfl := Sql.runs_setCurrentOperation.mp h₃
  obtain ⟨_, _, rfl⟩ := Sql.runs_insertSpec.mp h₄
  obtain ⟨_, rfl⟩ := Sql.runs_insertRuntime h₅
  have hquota : db₆.managedCommands = db.managedCommands := by
    rcases h₆ with ⟨_, h₆⟩ | ⟨_, rfl⟩
    · rw [(Sql.runs_insertQuotaReservation h₆).2]
    · rfl
  have hwork : db₇.managedCommands = db₆.managedCommands := by
    obtain ⟨_, rfl, _⟩ := Sql.runs_upsertResourceWork h₇
    rfl
  have hkey : db₈.managedCommands = db₇.managedCommands := by
    rcases h₈ with ⟨_, h₈⟩ | ⟨_, rfl⟩
    · obtain ⟨n, h₈, _⟩ := runs_map.mp h₈
      obtain ⟨_, rfl⟩ := Sql.runs_putIdempotency h₈
      rfl
    · rfl
  obtain ⟨_, haudit⟩ := Sql.runs_appendAuditEvent h₉
  obtain ⟨_, rfl⟩ := runs_pure.mp h₁₀
  rw [haudit]
  exact hkey.trans (hwork.trans hquota)

/-- A command is recorded once, with its payload and the answer it is given. -/
theorem receipt_persistManagedCommand
    (h : Runs (persistManagedCommand c kind operation intent response) db u db') :
    db.managedCommands.lookup (c.context.tenantID, operation) = none ∧
      ∃ row, db'.managedCommands =
        db.managedCommands.insert (c.context.tenantID, operation) row ∧
        row.payloadHash = c.payload := by
  simp only [persistManagedCommand, runs_bind, runs_onlyIf] at h
  obtain ⟨_, db₁, h₁, _, db₂, h₂, h₃⟩ := h
  have hclosing : db₁.managedCommands = db.managedCommands := by
    rcases h₁ with ⟨_, h₁⟩ | ⟨_, rfl⟩
    · simp only [Sql.setManagedClosing, runs_get_bind, runs_set] at h₁
      rw [h₁]
    · rfl
  have hcreate : db₂.managedCommands = db₁.managedCommands := by
    rcases h₂ with ⟨_, h₂⟩ | ⟨_, rfl⟩
    · simp only [Sql.saveManagedCreate, runs_get_bind, runs_set] at h₂
      rw [h₂]
    · rfl
  obtain ⟨hnone, _, hdb⟩ := Sql.runs_insertManagedCommand h₃
  rw [hcreate, hclosing] at hnone hdb
  exact ⟨hnone, _, congrArg Db.managedCommands hdb, rfl⟩

end Managed

namespace Delivery
open Managed Model
open Prog (Played)

/-- What a delivery's transaction does to the receipt of its command: it is there already, it is
written now, or nothing happens. -/
inductive Receipted (c : ManagedCommand) (db db' : Db) : Prop
  | there (row : ManagedCommandRow) (found : db.managedCommands.lookup (receiptKey c) = some row)
      (same : db' = db)
  | written (row : ManagedCommandRow) (first : db.managedCommands.lookup (receiptKey c) = none)
      (commands : db'.managedCommands = db.managedCommands.insert (receiptKey c) row)
      (payload : row.payloadHash = c.payload)
  | untouched (commands : db'.managedCommands = db.managedCommands)

section
variable {now : Time} {fresh : Fresh} {db db' : Db} {c : ManagedCommand}

theorem Receipted.kept (h : Receipted c db db') : ReceiptsKept db db' := by
  cases h with
  | there row found same => exact .of_eq (by rw [same])
  | written row first commands _ => exact .insert first commands
  | untouched commands => exact .of_eq commands

/-- A receipt that was not there before is of this payload. -/
theorem Receipted.payload_of_new (h : Receipted c db db')
    (hnone : db.managedCommands.lookup (receiptKey c) = none)
    (hrow : db'.managedCommands.lookup (receiptKey c) = some row) :
    row.payloadHash = c.payload := by
  cases h with
  | there _ _ same | untouched same =>
    rw [same, hnone] at hrow
    cases hrow
  | written row' _ commands payload =>
    rw [commands, Table.lookup_insert_ite, if_pos rfl] at hrow
    cases hrow
    exact payload

theorem receipted_blockCreate
    (h : Runs (blockCreate c c.context.originalCreateOperationID) db result db') :
    Receipted c db db' := by
  simp only [blockCreate, runs_bind, runs_pure] at h
  obtain ⟨_, _, h, _, rfl⟩ := h
  obtain ⟨first, row, commands, payload⟩ := receipt_persistManagedCommand h
  exact .written row first commands payload

/-- The writes of a create that is new, whatever the intake recorded of its resource. -/
theorem receipted_fresh (h : Runs (do
      let result ← acceptCreate now fresh.event service c.context.originalCreateOperationID input
      persistManagedCommand c .create c.context.originalCreateOperationID .createPending
        (createResponse service c.context.originalCreateOperationID)
      return result) db₁ r db') (hsame : db₁.managedCommands = db.managedCommands) :
    Receipted c db db' := by
  simp only [runs_bind, runs_pure] at h
  obtain ⟨_, db₂, haccept, _, _, hpersist, _, rfl⟩ := h
  have hcommands := (commands_acceptCreate haccept).trans hsame
  obtain ⟨first, row, commands, payload⟩ := receipt_persistManagedCommand hpersist
  exact .written row (hcommands ▸ first) (hcommands ▸ commands) payload

theorem receipted_createService (hc : input.managed = some c)
    (h : Runs (Managed.createService now fresh input) db r db') : Receipted c db db' := by
  simp only [Managed.createService, hc, runs_bind, runs_reject] at h
  obtain ⟨_, _, ⟨_, _, rfl⟩, intake, db₁, hprepare, h⟩ := h
  cases runs_prepareManagedCommand hprepare with
  | replay row found same =>
    obtain ⟨_, rfl⟩ := runs_pure.mp h
    exact .there row found rfl
  | blocked => exact receipted_blockCreate h
  | delete _ _ _ _ delete => cases delete
  | again saved first found identity create =>
    rw [create rfl] at h
    exact receipted_fresh h rfl
  | record => exact receipted_fresh h rfl

theorem receipted_prepareCreate (h : Runs (Managed.prepareCreate c) db out db') :
    Receipted c db db' := by
  simp only [Managed.prepareCreate, runs_get_bind] at h
  obtain ⟨intake, db₁, hprepare, h⟩ := runs_bind.mp h
  cases runs_prepareManagedCommand hprepare with
  | replay row found same =>
    obtain ⟨_, rfl⟩ := runs_pure.mp h
    exact .there row found rfl
  | blocked =>
    simp only [runs_bind, runs_pure] at h
    obtain ⟨_, _, h, _, rfl⟩ := h
    exact receipted_blockCreate h
  | delete _ _ _ _ delete => cases delete
  | again saved first found identity create =>
    simp only [create rfl, Intake.ofClosing, Option.isSome_none, Bool.false_eq_true, if_false,
      runs_bind, runs_set, runs_pure] at h
    obtain ⟨_, _, rfl, _, rfl⟩ := h
    exact .untouched rfl
  | record =>
    simp only [runs_bind, runs_set, runs_pure] at h
    obtain ⟨_, _, rfl, _, rfl⟩ := h
    exact .untouched rfl

theorem kept_createService (h : Runs (Managed.createService now fresh input) db r db') :
    ReceiptsKept db db' := by
  cases hc : input.managed with
  | some c => exact (receipted_createService hc h).kept
  | none =>
    simp only [Managed.createService, hc, runs_bind] at h
    obtain ⟨replayed, db₁, hreplay, h⟩ := h
    obtain rfl := runs_replayedCreate hreplay
    cases replayed with
    | some result =>
      obtain ⟨_, rfl⟩ := runs_pure.mp h
      exact .of_eq rfl
    | none => exact .of_eq (commands_acceptCreate h)

/-- What the store requires of a Governance create before it looks for a receipt. -/
def Sound (c : ManagedCommand) (input : CreateInput) : Prop :=
  c.context.tenantID = input.tenantID ∧ ¬(c.resourceClass = .gpu ∧ input.gpuPlan.isNone)

theorem sound_of_createService (hc : input.managed = some c)
    (h : Runs (Managed.createService now fresh input) db r db') : Sound c input := by
  simp only [Managed.createService, hc, runs_bind, runs_reject] at h
  obtain ⟨_, _, ⟨hsound, _, _⟩, _⟩ := h
  simpa [Sound, not_or] using hsound

variable {row : ManagedCommandRow}

theorem prepareManagedCommand_receipt (hrow : db.managedCommands.lookup (receiptKey c) = some row)
    (hpayload : row.payloadHash = c.payload) :
    Runs (prepareManagedCommand c kind c.context.originalCreateOperationID) db
      (.replay row.responseSnapshot) db := by
  unfold receiptKey at hrow
  simp [prepareManagedCommand, runs_bind, hrow, hpayload]

/-- With a receipt the first look answers. -/
theorem runs_prepareCreate_receipt (hrow : db.managedCommands.lookup (receiptKey c) = some row)
    (hpayload : row.payloadHash = c.payload) :
    Runs (Managed.prepareCreate c) db (some row.responseSnapshot) db := by
  simp only [Managed.prepareCreate, runs_get_bind]
  exact runs_bind.mpr ⟨_, _, prepareManagedCommand_receipt hrow hpayload, runs_pure.mpr ⟨rfl, rfl⟩⟩

/-- With a receipt the store replays. -/
theorem runs_createService_receipt (hc : input.managed = some c) (hsound : Sound c input)
    (hrow : db.managedCommands.lookup (receiptKey c) = some row)
    (hpayload : row.payloadHash = c.payload) :
    Runs (Managed.createService now fresh input) db
      ⟨c.context.resourceID, c.context.originalCreateOperationID, true,
        some row.responseSnapshot⟩ db := by
  simp only [Managed.createService, hc, runs_bind, runs_reject]
  refine ⟨(), db, ⟨?_, rfl⟩, _, _, prepareManagedCommand_receipt hrow hpayload,
    runs_pure.mpr ⟨rfl, rfl⟩⟩
  simpa [Sound, not_or] using hsound

end

/-- A call of the database once the receipt is there: it is answered with it, or not heard. -/
def Replays (stored : Response) : Seen → Prop
  | ⟨.prepareCreate _, answer⟩ => answer = .ok (some stored) ∨ answer = .error .connection
  | ⟨.createService _, answer⟩ =>
    (∃ result, answer = .ok result ∧ result.response = some stored) ∨ answer = .error .connection
  | _ => True

/-- The last call of a provider, and the calls after it. -/
def sinceProvider : List Seen → Option (Seen × List Seen)
  | [] => none
  | a :: es =>
    match sinceProvider es with
    | some p => some p
    | none => if a.1.provider then some (a, es) else none

theorem sinceProvider_provider (ha : a.1.provider = true) (es : List Seen) :
    sinceProvider (es ++ [a]) = some (a, []) := by
  induction es with
  | nil => simp [sinceProvider, ha]
  | cons b es ih => simp [sinceProvider, ih]

theorem sinceProvider_database (ha : a.1.provider = false) (es : List Seen) :
    sinceProvider (es ++ [a]) = (sinceProvider es).map fun p => (p.1, p.2 ++ [a]) := by
  induction es with
  | nil => simp [sinceProvider, ha]
  | cons b es ih =>
    simp only [List.cons_append, sinceProvider, ih]
    cases sinceProvider es with
    | some p => rfl
    | none => by_cases hb : b.1.provider = true <;> simp [hb]

theorem sinceProvider_split (hx : x.1.provider = true) (hafter : ∀ b ∈ after, b.1.provider = false)
    (before : List Seen) : sinceProvider (before ++ x :: after) = some (x, after) := by
  have hnone : sinceProvider after = none := by
    induction after with
    | nil => rfl
    | cons b after ih =>
      simp [sinceProvider, ih fun b hb => hafter b (List.mem_cons_of_mem _ hb),
        hafter b List.mem_cons_self]
  induction before with
  | nil => simp [sinceProvider, hnone, hx]
  | cons b before ih => simp [sinceProvider, ih]

/-- What is to be shown of a delivery that ended with `r`, if the receipt was there when the last
provider answered: it ends with the receipt exactly if that answer was no rejection of the version
and the database was heard, and with a provider's words exactly if it was one. -/
def Decided (d : Request) (stored : Response) (es : List Seen)
    (r : Except Failure Response) : Prop :=
  ∀ x after, sinceProvider es = some (x, after) → (∀ b ∈ after, Replays stored b) →
    (r = .ok stored ↔ Rejects d.create.content x = false ∧ ∀ b ∈ after, Unheard b = false) ∧
    ((∃ f, r = .error f ∧ f.ofProvider = true) ↔ Rejects d.create.content x = true)

/-- The receipt was not there when the last provider answered. -/
def Unreceipted (stored : Response) (es : List Seen) : Prop :=
  ∀ x after, sinceProvider es = some (x, after) → ¬∀ b ∈ after, Replays stored b

/-- If it was there, the provider has only just answered, and did not reject the version. -/
def Clear (d : Request) (stored : Response) (es : List Seen) : Prop :=
  ∀ x after, sinceProvider es = some (x, after) → (∀ b ∈ after, Replays stored b) →
    after = [] ∧ Rejects d.create.content x = false

/-- The calls a delivery of `d` makes on the database are about its own command. -/
def Asked (d : Request) : Call → Prop
  | .prepareCreate c => d.create.managed = some c
  | .createService input => input.managed = d.create.managed ∧
      input.tenantID = d.create.tenantID ∧ input.gpuPlan = d.create.gpuPlan
  | _ => True

/-- What no layer changes of a request. -/
structure Same (d input : Request) : Prop where
  managed : input.create.managed = d.create.managed
  tenant : input.create.tenantID = d.create.tenantID
  plan : input.create.gpuPlan = d.create.gpuPlan
  artifactRef : input.create.content.artifactRef = d.create.content.artifactRef
  artifactSHA256 : input.create.content.artifactSHA256 = d.create.content.artifactSHA256

section
variable {d input : Request} {stored : Response} {es : List Seen} {c : ManagedCommand}

theorem Unreceipted.decided (h : Unreceipted stored es) (r : Except Failure Response) :
    Decided d stored es r := fun x after hx hafter => absurd hafter (h x after hx)

theorem Unreceipted.clear (h : Unreceipted stored es) : Clear d stored es :=
  fun x after hx hafter => absurd hafter (h x after hx)

theorem clear_of_provider (ha : a.1.provider = true) (hr : Rejects d.create.content a = false)
    (es : List Seen) : Clear d stored (es ++ [a]) := by
  intro x after hx _
  rw [sinceProvider_provider ha] at hx
  cases hx
  exact ⟨rfl, hr⟩

/-- A call of the database decides: what it replays is the receipt. -/
theorem Clear.decided (h : Clear d stored es) (hb : b.1.provider = false)
    (hr : Replays stored b → (r = .ok stored ↔ Unheard b = false) ∧
      ∀ f, r = .error f → f.ofProvider = false) : Decided d stored (es ++ [b]) r := by
  intro x after hx hafter
  rw [sinceProvider_database hb] at hx
  obtain ⟨⟨y, older⟩, hy, heq⟩ := Option.map_eq_some_iff.mp hx
  cases heq
  obtain ⟨rfl, hclear⟩ := h y older hy fun a ha => hafter a (List.mem_append_left _ ha)
  obtain ⟨hok, hfail⟩ := hr (hafter b (by simp))
  constructor
  · simp [hclear, hok]
  · rw [hclear]
    constructor
    · rintro ⟨f, hf, hprovider⟩
      rw [hfail f hf] at hprovider
      cases hprovider
    · intro hfalse
      cases hfalse

/-- Every layer begins by looking for the receipt; where it goes on, there was none. -/
theorem walk_prepared (hc : d.create.managed = some c) (hsame : Same d input)
    (hclear : Clear d stored es)
    (hk : ∀ es, Unreceipted stored es → Walk (fun _ => Asked d) (Decided d stored) es k.run) :
    Walk (fun _ => Asked d) (Decided d stored) es (do
      match ← prepareCreate input with
      | some out => return out
      | none => k : Flow Response).run := by
  have hmanaged := hsame.managed.trans hc
  simp only [prepareCreate, hmanaged]
  refine walk_lift_bind hc fun answer => ?_
  cases answer with
  | error e =>
    refine walk_throw.mpr (hclear.decided rfl fun hreplays => ?_)
    rcases hreplays with heq | heq
    · cases heq
    · cases heq
      simp [Unheard, Failure.ofProvider, Except.isOk, Except.toBool]
  | ok out =>
    cases out with
    | some out =>
      refine walk_pure.mpr (hclear.decided rfl fun hreplays => ?_)
      rcases hreplays with heq | heq
      · cases heq
        simp [Unheard, Except.isOk, Except.toBool]
      · cases heq
    | none =>
      refine hk _ ?_
      intro x after hx hafter
      rw [sinceProvider_database rfl] at hx
      obtain ⟨⟨y, older⟩, _, heq⟩ := Option.map_eq_some_iff.mp hx
      cases heq
      rcases hafter _ (List.mem_append_right _ (List.mem_singleton.mpr rfl)) with heq | heq
      · cases heq
      · cases heq

theorem walk_recheck (hc : d.create.managed = some c) (hsame : Same d input)
    (hclear : Clear d stored es) (failure : Failure) :
    Walk (fun _ => Asked d) (Decided d stored) es (recheck input failure).run :=
  walk_prepared hc hsame hclear fun _ h => walk_throw.mpr (h.decided _)

theorem walk_storeCreate (hasked : Asked d (.createService input.create))
    (hclear : Clear d stored es) :
    Walk (fun _ => Asked d) (Decided d stored) es (storeCreate input).run := by
  refine walk_lift_bind hasked fun answer => ?_
  cases answer with
  | error e =>
    refine walk_throw.mpr (hclear.decided rfl fun hreplays => ?_)
    rcases hreplays with ⟨_, heq, _⟩ | heq
    · cases heq
    · simp [Unheard, Failure.ofProvider, Except.isOk, Except.toBool]
  | ok result =>
    refine walk_pure.mpr (hclear.decided rfl fun hreplays => ?_)
    rcases hreplays with ⟨_, heq, hresponse⟩ | heq
    · cases heq
      simp [Unheard, Except.isOk, Except.toBool, hresponse]
    · cases heq

/-- The version is rejected or not by what no layer changes of the request. -/
theorem Same.checkVersion (hsame : Same d input) (answer : Except Rejection Snapshot) :
    checkVersion input.create.content answer = Delivery.checkVersion d.create.content answer := by
  cases answer with
  | error r => rfl
  | ok v =>
    have hagrees : artifactAgrees input.create.content v = artifactAgrees d.create.content v := by
      unfold artifactAgrees
      rw [hsame.artifactRef, hsame.artifactSHA256]
    simp only [Delivery.checkVersion, hagrees]

theorem ofProvider_of_checkVersion {failure : Failure}
    (h : checkVersion content answer = .error failure) : failure.ofProvider = true := by
  cases answer with
  | error r =>
    cases h
    rfl
  | ok v =>
    simp only [checkVersion] at h
    split at h
    · cases h
    · cases h
      rfl

/-- A rejected version ends the delivery, receipt or not. -/
theorem decided_of_rejected {tenant : Uuid} {version : Option Uuid}
    {answer : Except Rejection Snapshot} {failure : Failure}
    (h : checkVersion d.create.content answer = .error failure) (es : List Seen) :
    Decided d stored (es ++ [⟨.getReadyVersion tenant version, answer⟩]) (.error failure) := by
  intro x after hx _
  rw [sinceProvider_provider rfl] at hx
  cases hx
  have hrejects : Rejects d.create.content ⟨.getReadyVersion tenant version, answer⟩ = true := by
    simp [Rejects, h, Except.isOk, Except.toBool]
  rw [hrejects]
  exact ⟨by simp, fun _ => rfl, fun _ => ⟨failure, rfl, ofProvider_of_checkVersion h⟩⟩

theorem walk_modelCreate (hc : d.create.managed = some c) (hsame : Same d input)
    (hclear : Clear d stored es) :
    Walk (fun _ => Asked d) (Decided d stored) es (modelCreate input).run := by
  refine walk_prepared hc hsame hclear fun es hes => ?_
  split
  · refine walk_lift_bind trivial fun answer => ?_
    cases hv : checkVersion input.create.content answer with
    | error failure =>
      exact walk_throw.mpr (decided_of_rejected ((hsame.checkVersion answer).symm.trans hv) es)
    | ok v =>
      have hv := (hsame.checkVersion answer).symm.trans hv
      exact walk_storeCreate ⟨hsame.managed, hsame.tenant, hsame.plan⟩
        (clear_of_provider rfl (by simp [Rejects, hv, Except.isOk, Except.toBool]) es)
  · exact walk_throw.mpr (hes.decided _)

theorem walk_imageCreate (cfg : Config) (hc : d.create.managed = some c) (hsame : Same d input)
    (hclear : Clear d stored es) :
    Walk (fun _ => Asked d) (Decided d stored) es (imageCreate cfg input).run := by
  refine walk_prepared hc hsame hclear fun es hes => ?_
  split
  · split
    · exact walk_throw.mpr (hes.decided _)
    · exact walk_modelCreate hc hsame hes.clear
  · refine walk_lift_bind trivial fun answer => ?_
    cases answer with
    | error r => exact walk_recheck hc hsame (clear_of_provider rfl rfl es) _
    | ok image =>
      exact walk_modelCreate hc
        ⟨hsame.managed, hsame.tenant, hsame.plan, hsame.artifactRef, hsame.artifactSHA256⟩
        (clear_of_provider rfl rfl es)

theorem Same.withNamespace (hsame : Same d input) (ns : Namespace) :
    Same d (input.withNamespace ns) :=
  ⟨hsame.managed, hsame.tenant, hsame.plan, hsame.artifactRef, hsame.artifactSHA256⟩

theorem walk_createIn (cfg : Config) (hc : d.create.managed = some c) (hsame : Same d input)
    (hclear : Clear d stored es) (ns : Namespace) :
    Walk (fun _ => Asked d) (Decided d stored) es (createIn cfg input ns).run := by
  unfold createIn
  split
  · refine walk_lift_bind trivial fun answer => ?_
    cases answer with
    | error r => exact walk_recheck hc hsame (clear_of_provider rfl rfl es) _
    | ok _ => exact walk_imageCreate cfg hc (hsame.withNamespace ns) (clear_of_provider rfl rfl es)
  · exact walk_imageCreate cfg hc (hsame.withNamespace ns) hclear

theorem walk_deliver (stored : Response) (cfg : Config) (hc : d.create.managed = some c) :
    Walk (fun _ => Asked d) (Decided d stored) [] (deliver cfg d).run := by
  have hsame : Same d d := ⟨rfl, rfl, rfl, rfl, rfl⟩
  refine walk_prepared hc hsame (fun _ _ hx => by cases hx) fun es _ => ?_
  refine walk_lift_bind trivial fun answer => ?_
  cases answer with
  | error r => exact walk_recheck hc hsame (clear_of_provider rfl rfl es) _
  | ok ns => exact walk_createIn cfg hc hsame (clear_of_provider rfl rfl es) ns

end

/-- The event accepts the command: a delivery's create writes the receipt. -/
structure Accepts (c : ManagedCommand) (y : DeliveryMoment) (row : ManagedCommandRow) : Prop where
  stores : ∃ input, y.call = .createService input
  first : y.before.managedCommands.lookup (receiptKey c) = none
  receipt : y.after.managedCommands.lookup (receiptKey c) = some row

/-- The command is answered: a receipt of its payload says `stored`. -/
def Answered (c : ManagedCommand) (stored : Response) (db : Db) : Prop :=
  ∃ row, db.managedCommands.lookup (receiptKey c) = some row ∧ row.payloadHash = c.payload ∧
    row.responseSnapshot = stored

section
variable {parties : Nat → Party} {h past : List DeliveryMoment} {s db : Db} {d : Request}
variable {cfg : Config} {c : ManagedCommand} {stored : Response}

theorem Answered.kept (h : Answered c stored db) (hkept : ReceiptsKept db s) :
    Answered c stored s := by
  obtain ⟨row, hrow, hpayload, hresponse⟩ := h
  obtain ⟨row', hrow', hpayload', hresponse'⟩ := hkept _ _ hrow
  exact ⟨row', hrow', hpayload'.trans hpayload, hresponse'.trans hresponse⟩

theorem kept_settle {α : Type} {x : Tx α} (hx : ∀ a db', Runs x db a db' → ReceiptsKept db db')
    (fault : Fault) : ReceiptsKept db (x.settle .connection fault db).2 := by
  rcases settle_state x .connection fault db with heq | ⟨a, ha⟩
  · exact .of_eq (by rw [heq])
  · exact hx a _ ha

theorem kept_act (i : Nat) (e : Call) (choice : e.Choice) (db : Db) :
    ReceiptsKept db (act i e choice db).2 := by
  cases e with
  | prepareCreate c => exact kept_settle (fun _ _ h => (receipted_prepareCreate h).kept) choice
  | createService input => exact kept_settle (fun _ _ h => kept_createService h) choice.2.2
  | other tx => exact tx.2 db
  | resolveNamespace | checkPrerequisites | resolveInNamespace | getReadyVersion => exact .of_eq rfl

/-- From its acceptance on, a command is answered. -/
theorem answered_since (hr : DeliveryRun parties past s) (hy : y ∈ past)
    (hanswered : Answered c stored y.after) : Answered c stored s := by
  obtain ⟨mid, older, rfl⟩ := List.append_of_mem hy
  refine hr.since hanswered fun z _ _ hz hbefore => ?_
  obtain ⟨choice, _, hafter⟩ := (hr.arises hz).acted
  rw [hafter]
  exact hbefore.kept (kept_act _ _ choice _)

theorem answer_settle {α : Type} {x : Tx α} {a : α} {db' : Db} (hx : Runs x db a db')
    (fault : Fault) : (x.settle .connection fault db).1 = .ok a ∨
      (x.settle .connection fault db).1 = .error .connection := by
  unfold Runs at hx
  cases fault <;> simp [settle, hx]

/-- An answered command is answered again, by the first look and by the store. -/
theorem replays_act (hc : d.create.managed = some c) (hsound : Sound c d.create)
    (hanswered : Answered c stored db) (hasked : Asked d e) (i : Nat) (choice : e.Choice) :
    Replays stored ⟨e, (act i e choice db).1⟩ := by
  obtain ⟨row, hrow, hpayload, rfl⟩ := hanswered
  cases e with
  | prepareCreate c' =>
    obtain rfl := Option.some.inj (hc.symm.trans hasked)
    exact answer_settle (runs_prepareCreate_receipt hrow hpayload) choice
  | createService input =>
    obtain ⟨hmanaged, htenant, hplan⟩ := hasked
    have hsound : Sound c input := by
      unfold Sound
      rw [htenant, hplan]
      exact hsound
    have hruns : Runs (Managed.createService choice.1 choice.2.1 input) db _ db :=
      runs_createService_receipt (hmanaged.trans hc) hsound hrow hpayload
    rcases answer_settle hruns choice.2.2 with heq | heq
    · exact .inl ⟨_, heq, rfl⟩
    · exact .inr heq
  | other | resolveNamespace | checkPrerequisites | resolveInNamespace | getReadyVersion => trivial

theorem asked_of_arises (hc : d.create.managed = some c) (hx : parties x.actor = .delivery cfg d)
    (hmade : Arises act (fun i => (parties i).program) (fun _ => True) x past) :
    Asked d x.call := by
  have hasks := hmade.asks
  rw [hx] at hasks
  exact (walk_deliver (createResponse 0 0) cfg hc).asks hasks

/-- What an acceptance leaves: the answer, and that the request was one the store takes. -/
theorem Accepts.answered (ha : Accepts c y row) (hc : d.create.managed = some c)
    (hy : parties y.actor = .delivery cfg d)
    (hmade : Arises act (fun i => (parties i).program) (fun _ => True) y past) :
    Answered c row.responseSnapshot y.after ∧ Sound c d.create := by
  obtain ⟨⟨input, hcall⟩, first, receipt⟩ := ha
  have hasked := asked_of_arises hc hy hmade
  obtain ⟨choice, _, hafter⟩ := hmade.acted
  obtain ⟨actor, call, answer, before, after⟩ := y
  dsimp only at hcall hasked hafter first receipt choice ⊢
  subst hcall
  obtain ⟨hmanaged, htenant, hplan⟩ := hasked
  obtain ⟨r, hruns⟩ : ∃ r, Runs (Managed.createService choice.1 choice.2.1 input)
    before r after := by
    rcases settle_state (Managed.createService choice.1 choice.2.1 input) .connection choice.2.2
      before with heq | ⟨r, hruns⟩
    · rw [hafter.trans heq, first] at receipt
      cases receipt
    · exact ⟨r, hafter ▸ hruns⟩
  have hpayload :=
    (receipted_createService (hmanaged.trans hc) hruns).payload_of_new first receipt
  have hsound := sound_of_createService (hmanaged.trans hc) hruns
  unfold Sound at hsound ⊢
  rw [htenant, hplan] at hsound
  exact ⟨⟨row, receipt, hpayload, rfl⟩, hsound⟩

/-- Two deliveries of one Governance create, the receipt of one written before the last provider
answers the other. The other ends with the receipt exactly if that answer is not the Model
service's rejection of the version and the database is heard from then on; with that rejection it
ends in the provider's words. -/
theorem receipt_wins {i j : Nat} {cfg' : Config} (hr : DeliveryRun parties h s)
    (hi : parties i = .delivery cfg d) (hj : parties j = .delivery cfg' d)
    (hc : d.create.managed = some c) {later : List DeliveryMoment} {x y : DeliveryMoment}
    {row : ManagedCommandRow} {r : Except Failure Response}
    (hplayed : Played (deliver cfg d).run (trace i h) r)
    (hh : h = later ++ x :: past) (hx : x.actor = i) (hprovider : x.call.provider = true)
    (hlast : ∀ z ∈ later, z.actor = i → z.call.provider = false)
    (hy : y ∈ past) (hyj : y.actor = j) (haccepts : Accepts c y row) :
    (r = .ok row.responseSnapshot ↔ Rejects d.create.content x.seen = false ∧
      ∀ z ∈ later, z.actor = i → Unheard z.seen = false) ∧
    ((∃ f, r = .error f ∧ f.ofProvider = true) ↔ Rejects d.create.content x.seen = true) := by
  subst hh hx hyj
  obtain ⟨older, hysuf, hymade⟩ := hr.mem_arises
    (List.mem_append_right later (List.mem_cons_of_mem x hy))
  obtain ⟨hanswered, hsound⟩ := haccepts.answered hc hj hymade
  have htrace : trace x.actor (later ++ x :: past) =
      trace x.actor past ++ x.seen :: trace x.actor later := by
    rw [trace_append, trace_cons, if_pos rfl, List.append_assoc]
    rfl
  have hdatabase : ∀ b ∈ trace x.actor later,
      b.1.provider = false ∧ Replays row.responseSnapshot b := by
    intro b hb
    obtain ⟨z, hz, hzi, rfl⟩ := mem_trace.mp hb
    refine ⟨hlast z hz hzi, ?_⟩
    obtain ⟨mid, newer, rfl⟩ := List.append_of_mem hz
    have hmade : Arises _ _ _ z (newer ++ x :: past) := hr.arises ⟨mid, by simp⟩
    have hbefore := answered_since hmade.run
      (List.mem_append_right newer (List.mem_cons_of_mem x hy)) hanswered
    have hasked := asked_of_arises hc (hzi ▸ hi) hmade
    obtain ⟨choice, hanswer, _⟩ := hmade.acted
    have hreplays := replays_act hc hsound hbefore hasked z.actor choice
    rw [← hanswer] at hreplays
    exact hreplays
  have hdecided := (walk_deliver row.responseSnapshot cfg hc).played hplayed
  rw [List.nil_append, htrace] at hdecided
  obtain ⟨hok, hrejected⟩ := hdecided x.seen (trace x.actor later)
    (sinceProvider_split hprovider (fun b hb => (hdatabase b hb).1) _)
    fun b hb => (hdatabase b hb).2
  refine ⟨hok.trans (and_congr_right fun _ => ⟨fun hall z hz hzi => ?_, fun hall b hb => ?_⟩),
    hrejected⟩
  · exact hall _ (mem_trace.mpr ⟨z, hz, hzi, rfl⟩)
  · obtain ⟨z, hz, hzi, rfl⟩ := mem_trace.mp hb
    exact hall z hz hzi

end

namespace Sample

def cfg : Config := ⟨true, "inference", true⟩

def command : ManagedCommand :=
  { context := AniInference.Sample.managedContext, resourceClass := .gpu, payload := "create"
    business := "business", businessDigest := "business", requestHash := "hash" }

/-- Governance creates a service whose image is chosen from the catalog. -/
def request : Request :=
  { create := { AniInference.Sample.managedCreate with
      managed := some command
      content := { AniInference.Sample.content with
        engineRuntime := "vllm", commandArgv := "serve"
        gpuRequest := some AniInference.Sample.gpuRequest } }
    runtimeNamespace := "", runtimeNamespaceUID := "", imageID := "image", imageScope := "tenant"
    imageSelection := none, modelCapabilities := none }

/-- Every party is a delivery of the one request. -/
def parties (_ : Nat) : Party := .delivery cfg request

/-- Everything goes well, except that the Model service may say this about the version. -/
def goes (version : Except Rejection Snapshot) : (e : Call) → e.Choice
  | .prepareCreate _ => Fault.none
  | .createService _ => (0, ⟨7, 8, 9⟩, Fault.none)
  | .other _ => ()
  | .resolveNamespace _ => .ok ⟨"tenant-1", "uid"⟩
  | .checkPrerequisites _ => .ok ()
  | .resolveInNamespace .. => .ok ⟨"registry/image", "image"⟩
  | .getReadyVersion .. => version

def version : Snapshot := ⟨"models/1", "sha", []⟩

/-- The second delivery waits for the Model service while the first is accepted. -/
def overtaken (answer : Except Rejection Snapshot) (calls : Nat) :=
  play act (fun i => (parties i).program) Db.empty
    (List.replicate 6 (1, goes (.ok version)) ++ List.replicate 8 (0, goes (.ok version)) ++
      List.replicate calls (1, goes answer))

def isCreate : Call → Bool
  | .createService _ => true
  | _ => false

theorem exists_of_isCreate (h : isCreate e = true) : ∃ input, e = .createService input := by
  cases e with
  | createService input => exact ⟨input, rfl⟩
  | prepareCreate | other | resolveNamespace | checkPrerequisites | resolveInNamespace
  | getReadyVersion => cases h

/-- The event accepts the command. -/
def accepts (y : DeliveryMoment) : Bool :=
  y.actor = 0 && isCreate y.call &&
  (y.before.managedCommands.lookup (receiptKey command)).isNone &&
  (y.after.managedCommands.lookup (receiptKey command)).isSome

theorem accepts_of_accepts (h : accepts y = true) : y.actor = 0 ∧ ∃ row, Accepts command y row := by
  simp only [accepts, Bool.and_eq_true, decide_eq_true_eq, Option.isNone_iff_eq_none,
    Option.isSome_iff_exists] at h
  obtain ⟨⟨⟨hactor, hcreate⟩, first⟩, row, receipt⟩ := h
  exact ⟨hactor, row, exists_of_isCreate hcreate, first, receipt⟩

/-- The second delivery is at a provider. -/
def waits (x : DeliveryMoment) : Bool := x.actor = 1 && x.call.provider

/-- The history ends with the acceptance, the provider's answer and what follows it. -/
def servedLate : List DeliveryMoment → Bool
  | z :: x :: y :: _ => !z.call.provider && !Unheard z.seen && waits x &&
      !Rejects request.create.content x.seen && accepts y
  | _ => false

/-- The history ends with the acceptance and the provider's answer. -/
def answeredLate : List DeliveryMoment → Bool
  | x :: y :: _ => waits x && accepts y
  | _ => false

/-- A provider's refusal is the result. -/
def refused : Option (Except Failure Response) → Bool
  | some (.error f) => f.ofProvider
  | _ => false

end Sample

set_option maxRecDepth 100000 in
theorem receipt_wins_overtaken :
    ∃ h s x y z past row, DeliveryRun Sample.parties h s ∧
      Played (deliver Sample.cfg Sample.request).run (trace 1 h) (.ok row.responseSnapshot) ∧
      h = [z] ++ x :: past ∧ x.actor = 1 ∧ x.call.provider = true ∧ y ∈ past ∧ y.actor = 0 ∧
      Accepts Sample.command y row := by
  have hsound : (Sample.overtaken (.ok Sample.version) 2).Sound act
      (fun i => (Sample.parties i).program) (fun _ => True) := play_sound trivial _
  have hrun : ((Sample.overtaken (.ok Sample.version) 2).result 1).isSome = true ∧
      Sample.servedLate (Sample.overtaken (.ok Sample.version) 2).history = true := by
    decide +kernel
  obtain ⟨hresult, hmoments⟩ := hrun
  obtain ⟨r, hr⟩ := Option.isSome_iff_exists.mp hresult
  unfold Sample.servedLate at hmoments
  split at hmoments
  case h_2 => cases hmoments
  case h_1 z x y past hhistory =>
    simp only [Bool.and_eq_true, Bool.not_eq_true', Sample.waits, decide_eq_true_eq] at hmoments
    obtain ⟨⟨⟨⟨hz, hheard⟩, hx, hprovider⟩, hrejects⟩, haccepts⟩ := hmoments
    obtain ⟨hy, row, haccepts⟩ := Sample.accepts_of_accepts haccepts
    have hplayed := hsound.played hr
    have hsplit : _ = [z] ++ x :: (y :: past) := hhistory
    have hwins := (receipt_wins hsound.run rfl rfl rfl hplayed hsplit hx hprovider
      (fun w hw _ => by simpa [List.mem_singleton.mp hw] using hz) List.mem_cons_self hy
        haccepts).1.mpr
      ⟨hrejects, fun w hw _ => by simpa [List.mem_singleton.mp hw] using hheard⟩
    subst hwins
    exact ⟨_, _, x, y, z, y :: past, row, hsound.run, hplayed, hhistory, hx, hprovider,
      List.mem_cons_self, hy, haccepts⟩

set_option maxRecDepth 100000 in
/-- The Model service answers that the version is not ready after the other delivery has been
accepted: the delivery ends with that answer and not with the receipt. -/
theorem model_rejection_hides_receipt :
    ∃ h s x y past row r, DeliveryRun Sample.parties h s ∧
      Played (deliver Sample.cfg Sample.request).run (trace 1 h) r ∧
      h = x :: past ∧ x.actor = 1 ∧ x.call.provider = true ∧ y ∈ past ∧ y.actor = 0 ∧
      Accepts Sample.command y row ∧ r ≠ .ok row.responseSnapshot ∧
      ∃ f, r = .error f ∧ f.ofProvider = true := by
  have hsound : (Sample.overtaken (.error ⟨"Model version is not ready", ""⟩) 1).Sound act
      (fun i => (Sample.parties i).program) (fun _ => True) := play_sound trivial _
  have hrun : Sample.refused
        ((Sample.overtaken (.error ⟨"Model version is not ready", ""⟩) 1).result 1) = true ∧
      Sample.answeredLate
        (Sample.overtaken (.error ⟨"Model version is not ready", ""⟩) 1).history = true := by
    decide +kernel
  obtain ⟨hresult, hmoments⟩ := hrun
  unfold Sample.refused at hresult
  unfold Sample.answeredLate at hmoments
  split at hresult
  case h_2 => cases hresult
  case h_1 f hr =>
    split at hmoments
    case h_2 => cases hmoments
    case h_1 x y past hhistory =>
      simp only [Bool.and_eq_true, Sample.waits, decide_eq_true_eq] at hmoments
      obtain ⟨⟨hx, hprovider⟩, haccepts⟩ := hmoments
      obtain ⟨hy, row, haccepts⟩ := Sample.accepts_of_accepts haccepts
      exact ⟨_, _, x, y, y :: past, row, .error f, hsound.run, hsound.played hr, hhistory, hx,
        hprovider, List.mem_cons_self, hy, haccepts, nofun, f, rfl, hresult⟩

end Delivery
end AniInference
