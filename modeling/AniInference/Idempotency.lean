import AniInference.Authorship

namespace AniInference
open Lib Txn

namespace Request

/-- The digest a request carries. -/
def requestHash : Request → String
  | .command input => input.requestHash
  | .update input => input.requestHash
  | .create input => input.requestHash
  | .managedDelete input => input.requestHash
  | .prepareCreate c => c.requestHash

/-- The operation an answer names. -/
def names : (q : Request) → q.Result → Option Uuid
  | .command _, response | .update _, response | .managedDelete _, response =>
    some response.operationID
  | .create _, result => some result.operationID
  | .prepareCreate _, response => response.map (·.operationID)

/-- What the API hands on: `acceptCommand` and the update handler check the generation. -/
def WellFormed : Request → Prop
  | .command input => input.kind ≠ .create ∧ input.kind ≠ .update ∧
      (input.kind = .delete ∨ 1 ≤ input.expectedGeneration)
  | .update input => 1 ≤ input.expectedGeneration
  | _ => True

/-- A delete that was accepted while its digest still named the generation it expected. -/
def Legacy (row : IdempotencyRow) (o : OperationRow) : Request → Prop
  | .command input => input.kind = .delete ∧
      row.payloadHash = input.legacyHash (o.targetGeneration - 1)
  | _ => False

end Request

/-- The call makes the operation `id` for the request `q`. -/
structure Entry.Accepts (e : Entry) (q : Request) (tenant id : Uuid) : Prop where
  call : e.call = .request q
  unused : e.before.operations.lookup (tenant, id) = none
  made : e.after.operations.lookup (tenant, id) ≠ none

section
variable {now : Time} {token : Uuid} {fresh : Fresh} {db db' : Db} {k : Uuid × String × String}
variable {row : IdempotencyRow} {o : OperationRow} {hash : String}

theorem Booked.entered
    (h : Booked now key hash kind reserve tenant service operation target db db')
    (hk : key = some k) :
    db.idempotency.lookup k = none ∧ db'.idempotency.lookup k = some ⟨hash, operation⟩ := by
  subst hk
  refine ⟨h.unused k rfl, ?_⟩
  rw [h.idempotency]
  exact AList.lookup_insert _

theorem Booked.key_kept
    (h : Booked now key hash kind reserve tenant service operation target db db')
    (hrow : db.idempotency.lookup k = some row) : db'.idempotency.lookup k = some row := by
  rw [h.idempotency]
  cases key with
  | none => exact hrow
  | some k' =>
    have hne : k ≠ k' := by
      intro heq
      have hunused := h.unused k' rfl
      rw [← heq, hrow] at hunused
      cases hunused
    change (db.idempotency.insert k' _).lookup k = _
    rw [Table.lookup_insert_ite, if_neg hne, hrow]

/-- A key that was entered stays, with its digest and its operation. -/
theorem Effect.key_kept (h : Effect now token db c db')
    (hrow : db.idempotency.lookup k = some row) : db'.idempotency.lookup k = some row := by
  have moved : ∀ {w : Work} {db' : Db}, Work.Moves now token db w db' →
      db'.idempotency.lookup k = some row := by
    intro w db' hm
    cases hm <;> exact hrow
  have observed : ∀ {item : Item} {db' : Db}, Store.Observed now item db db' →
      db'.idempotency.lookup k = some row := by
    intro item db' ho
    obtain ⟨_, _, hrest⟩ := ho.rest
    rw [hrest]
    exact hrow
  cases h with
  | same => exact hrow
  | aside _ l | closed _ l | advanced _ l | retried _ l => exact l.idempotency ▸ hrow
  | accepted _ l | created _ l => exact l.key_kept hrow
  | claimed _ l | queued _ l | committed _ l | requeued _ l => exact moved l
  | runtimeObserved ho | observed ho => exact observed ho
  | planned hp =>
    obtain ⟨_, _, _, _, rfl⟩ := hp.specs
    exact hrow
  | reported _ l =>
    obtain ⟨_, rfl⟩ := l
    exact hrow
  | quota | publication | modelObserved | materializing | scopeSaved => exact hrow

/-- An operation made for a request with a key enters the key, which was free. -/
theorem Request.enters {q : Request} {a : q.Result} (h : Runs (q.tx now fresh) db a db')
    (hkey : q.replayKey = some k) {id : Uuid} (hunused : db.operations.lookup (k.1, id) = none)
    (hmade : db'.operations.lookup (k.1, id) ≠ none) :
    db.idempotency.lookup k = none ∧ db'.idempotency.lookup k = some ⟨q.requestHash, id⟩ ∧
      ∃ o, db'.operations.lookup (k.1, id) = some o ∧
        ∀ input, q = .command input → o.serviceID = input.serviceID := by
  have accepted : ∀ {tenant service operation : Uuid} {kind : Kind} {hash : String} {s : Service}
      {reserve : Prop}, Accepted now tenant service operation kind hash s db db' →
      Booked now (some k) hash kind reserve tenant service operation (s.desiredGeneration + 1) db
        db' →
      db.idempotency.lookup k = none ∧ db'.idempotency.lookup k = some ⟨hash, id⟩ ∧
        ∃ o, db'.operations.lookup (k.1, id) = some o ∧ o.serviceID = service := by
    intro tenant service operation kind hash s reserve ha hb
    have hrow := ha.operations (k.1, id)
    split at hrow
    · next heq =>
      obtain ⟨hfree, hentered⟩ := hb.entered rfl
      injection heq with _ hid
      exact ⟨hfree, hid ▸ hentered, _, hrow, rfl⟩
    · rw [hunused] at hrow
      exact absurd hrow hmade
  cases q with
  | command input =>
    rcases Commands.runs_command h with rfl | ⟨s, ha, hb⟩
    · exact absurd hunused hmade
    · obtain ⟨hfree, hentered, o, ho, hservice⟩ := accepted ha (hkey ▸ hb)
      refine ⟨hfree, hentered, o, ho, fun input' heq => ?_⟩
      injection heq with heq
      exact heq ▸ hservice
  | update input =>
    rcases Commands.runs_update h with rfl | ⟨s, ha, hb⟩
    · exact absurd hunused hmade
    · obtain ⟨hfree, hentered, o, ho, _⟩ := accepted ha (hkey ▸ hb)
      exact ⟨hfree, hentered, o, ho, fun _ heq => by cases heq⟩
  | create input =>
    rcases Managed.runs_createService h with ⟨ha, _⟩ | ⟨service, operation, hc, hb⟩
    · rw [ha.operations] at hmade
      exact absurd hunused hmade
    · rw [hc.operations, Table.lookup_insert_ite] at hmade ⊢
      split at hmade
      · next heq =>
        obtain ⟨hfree, hentered⟩ := hb.entered hkey
        rw [if_pos heq]
        injection heq with _ hid
        exact ⟨hfree, hid ▸ hentered, _, rfl, fun _ heq => by cases heq⟩
      · exact absurd hunused hmade
  | prepareCreate | managedDelete => cases hkey

namespace Sql

theorem getIdempotency_found (h : db.idempotency.lookup (tenant, method, key) = some row) :
    getIdempotency tenant method key db = .ok (some row, db) := by
  rw [← h]
  rfl

theorem getOperation_found {tenant id : Uuid} (h : db.operations.lookup (tenant, id) = some o) :
    getOperation tenant id db = .ok (some o, db) := by
  rw [← h]
  rfl

end Sql

namespace Commands

theorem replayed_taken {input : CommandInput} (hid : input.requestID ≠ "")
    (hrow : db.idempotency.lookup (input.tenantID, "InferenceService/" ++ input.kind.text,
      input.requestID) = some row)
    (ho : db.operations.lookup (input.tenantID, row.operationID) = some o) :
    replayed input db =
      if row.payloadHash ≠ input.requestHash ∧ (input.kind ≠ .delete ∨ o.kind ≠ .delete ∨
        o.targetGeneration < 2 ∨ row.payloadHash ≠ input.legacyHash (o.targetGeneration - 1)) then
        .error .idempotencyConflict
      else .ok (some (commandResponseFromRow row.operationID o), db) := by
  rw [replayed, bind_of_ok (Sql.getIdempotency_found hrow)]
  simp only [if_neg hid]
  rw [bind_of_ok (Sql.getOperation_found ho), require_bind, reject_bind]
  rfl

theorem updateResponseFromOperation_names (o : OperationRow) (snapshot : Option Response)
    {operation : Uuid} : (updateResponseFromOperation operation o snapshot).operationID =
      operation := by
  unfold updateResponseFromOperation
  split
  · split
    · next hsame => exact hsame.1
    · rfl
  · rfl

theorem replayedUpdate_taken {input : UpdateInput} (hdirect : input.managedOperationID = none)
    (hid : input.requestID ≠ "")
    (hrow : db.idempotency.lookup (input.tenantID, "InferenceService/update", input.requestID) =
      some row)
    (ho : db.operations.lookup (input.tenantID, row.operationID) = some o) :
    replayedUpdate input db =
      if row.payloadHash ≠ input.requestHash then .error .idempotencyConflict
      else .ok (some (acknowledge false (updateResponseFromOperation row.operationID o
        (db.resultSnapshots.lookup (input.tenantID, row.operationID)))), db) := by
  have hmanaged : managedOperation input db = .ok (none, db) := by
    simp only [managedOperation, hdirect]
    rfl
  rw [replayedUpdate, bind_of_ok hmanaged]
  simp only [hdirect]
  rw [bind_of_ok (Sql.getIdempotency_found hrow)]
  simp only [if_neg hid]
  rw [reject_bind, bind_of_ok (Sql.getOperation_found ho), require_bind]
  rfl

end Commands

theorem Managed.replayedCreate_taken {input : CreateInput} (hid : input.requestID ≠ "")
    (hrow : db.idempotency.lookup (input.tenantID, "CreateInferenceService", input.requestID) =
      some row)
    (ho : db.operations.lookup (input.tenantID, row.operationID) = some o) :
    replayedCreate input db =
      if row.payloadHash ≠ input.requestHash then .error .idempotencyConflict
      else .ok (some ⟨o.serviceID, row.operationID, true, none⟩, db) := by
  rw [replayedCreate, bind_of_ok (Sql.getIdempotency_found hrow)]
  simp only [if_neg hid]
  rw [reject_bind, bind_of_ok (Sql.getOperation_found ho), require_bind]
  rfl

/-- A request whose key is taken is answered from the row, or refused, and changes nothing. -/
theorem Request.repeats (now : Time) (fresh : Fresh) {q : Request} (hkey : q.replayKey = some k)
    (hdirect : q.unmanaged = true) (hformed : q.WellFormed)
    (hrow : db.idempotency.lookup k = some row)
    (ho : db.operations.lookup (k.1, row.operationID) = some o) :
    (∃ reply, q.tx now fresh db = .ok (reply, db) ∧ q.names reply = some row.operationID ∧
      (row.payloadHash = q.requestHash ∨ q.Legacy row o)) ∨
    (q.tx now fresh db = .error .idempotencyConflict ∧ row.payloadHash ≠ q.requestHash) := by
  cases q with
  | command input =>
    obtain ⟨hcreate, hupdate, hgeneration⟩ := hformed
    simp only [Request.replayKey, Option.ite_none_left_eq_some, Option.some.injEq] at hkey
    obtain ⟨hid, rfl⟩ := hkey
    have hbad : ¬(input.kind ≠ .delete ∧ input.expectedGeneration < 1) := by
      intro hbad
      rcases hgeneration with hdelete | hpositive
      · exact hbad.1 hdelete
      · exact absurd hbad.2 (Nat.not_lt.mpr hpositive)
    have hreplayed := Commands.replayed_taken hid hrow ho
    simp only [Request.tx, Commands.command, reject_bind, if_neg hbad,
      if_neg (not_or.mpr ⟨hcreate, hupdate⟩)]
    split at hreplayed
    · next hconflict => exact .inr ⟨bind_of_error hreplayed, hconflict.1⟩
    · next hfine =>
      refine .inl ⟨_, bind_of_ok hreplayed, rfl, ?_⟩
      by_cases hsame : row.payloadHash = input.requestHash
      · exact .inl hsame
      · have hlegacy : ¬(input.kind ≠ .delete ∨ o.kind ≠ .delete ∨ o.targetGeneration < 2 ∨
            row.payloadHash ≠ input.legacyHash (o.targetGeneration - 1)) :=
          fun h => hfine ⟨hsame, h⟩
        simp only [not_or, not_not] at hlegacy
        exact .inr ⟨hlegacy.1, hlegacy.2.2.2⟩
  | update input =>
    simp only [Request.replayKey, Option.ite_none_left_eq_some, Option.some.injEq] at hkey
    obtain ⟨hid, rfl⟩ := hkey
    have hreplayed := Commands.replayedUpdate_taken
      (Option.isNone_iff_eq_none.mp hdirect) hid hrow ho
    simp only [Request.tx, Commands.update, reject_bind, if_neg (Nat.not_lt.mpr hformed)]
    split at hreplayed
    · next hconflict => exact .inr ⟨bind_of_error hreplayed, hconflict⟩
    · next hsame =>
      exact .inl ⟨_, bind_of_ok hreplayed, congrArg some
        (Commands.updateResponseFromOperation_names o _), .inl (not_not.mp hsame)⟩
  | create input =>
    have hnone : input.managed = none := Option.isNone_iff_eq_none.mp hdirect
    simp only [Request.replayKey, hnone, Option.isSome_none, Bool.false_eq_true, false_or,
      Option.ite_none_left_eq_some, Option.some.injEq] at hkey
    obtain ⟨hid, rfl⟩ := hkey
    have hreplayed := Managed.replayedCreate_taken hid hrow ho
    simp only [Request.tx, Managed.createService, hnone]
    split at hreplayed
    · next hconflict => exact .inr ⟨bind_of_error hreplayed, hconflict⟩
    · next hsame => exact .inl ⟨_, bind_of_ok hreplayed, rfl, .inl (not_not.mp hsame)⟩
  | prepareCreate | managedDelete => cases hkey

end

section
variable {opts : WorkOptions} {r : Runner} {history : List Entry} {e : Entry}

/-- A call of a run does one of the things `Effect` lists. -/
theorem Explained.effect (h : Explained opts r history) (he : e ∈ history) :
    ∃ token, Effect e.time token e.before e.call e.after := by
  obtain ⟨newer, past, hsplit⟩ := List.append_of_mem he
  obtain ⟨c, choice, w, _, _, _, rfl⟩ := h e past ⟨newer, hsplit.symm⟩
  exact ⟨w.nextToken, exec_effect opts c choice w⟩

/-- A request of a run is a transaction, whose answer may be lost. -/
theorem Explained.request (h : Explained opts r history) (he : e ∈ history)
    (hcall : e.call = .request q) :
    ∃ fault fresh,
      e.seen = ⟨.request q, ((q.tx e.time fresh).settle .connection fault e.before).1⟩ ∧
      e.after = ((q.tx e.time fresh).settle .connection fault e.before).2 := by
  obtain ⟨newer, past, hsplit⟩ := List.append_of_mem he
  obtain ⟨c, choice, w, _, _, _, rfl⟩ := h e past ⟨newer, hsplit.symm⟩
  obtain rfl : c = .request q := hcall
  exact ⟨choice.1, choice.2, rfl, rfl⟩

theorem Explained.entered (h : Explained opts r history) (he : e ∈ history) {q : Request}
    {k : Uuid × String × String} {id : Uuid} (hkey : q.replayKey = some k)
    (haccepts : e.Accepts q k.1 id) :
    e.before.idempotency.lookup k = none ∧
      e.after.idempotency.lookup k = some ⟨q.requestHash, id⟩ ∧
      ∃ o, e.after.operations.lookup (k.1, id) = some o ∧
        ∀ input, q = .command input → o.serviceID = input.serviceID := by
  obtain ⟨fault, fresh, _, hafter⟩ := h.request he haccepts.call
  have hmade := haccepts.made
  rw [hafter] at hmade ⊢
  rcases settle_state (q.tx e.time fresh) .connection fault e.before with hsame | ⟨a, hrun⟩
  · rw [hsame] at hmade
    exact absurd haccepts.unused hmade
  · exact Request.enters hrun hkey haccepts.unused hmade

/-- Commands for different services have different digests, also in the form that still named the
generation. -/
def Digested (history : List Entry) : Prop :=
  ∀ e ∈ history, ∀ e' ∈ history, ∀ input input', e.call = .request (.command input) →
    e'.call = .request (.command input') →
    (input'.requestHash = input.requestHash ∨
      ∃ generation, input'.requestHash = input.legacyHash generation) →
    input'.serviceID = input.serviceID

/-- What becomes of a request `q` once the operation `id` was made under its key for `q'`. -/
structure Entry.Repeats (e : Entry) (q q' : Request) (tenant id : Uuid) : Prop where
  unchanged : e.after = e.before
  answered : ∀ a, e.seen = ⟨.request q, a⟩ → a = .error .connection ∨
    (a = .error .idempotencyConflict ∧ q'.requestHash ≠ q.requestHash) ∨
    ∃ reply, a = .ok reply ∧ q.names reply = some id ∧
      (q'.requestHash = q.requestHash ∨ q.kind = .delete) ∧
      ∀ input, q = .command input → ∃ o,
        e.before.operations.lookup (tenant, id) = some o ∧ o.serviceID = input.serviceID

/-- Only a command has the key of a command. -/
theorem Request.command_of_key {q : Request} {input : CommandInput}
    (hkey : (Request.command input).replayKey = some k) (hformed : input.kind ≠ .update)
    (hkey' : q.replayKey = some k) : ∃ input', q = .command input' := by
  simp only [Request.replayKey, Option.ite_none_left_eq_some, Option.some.injEq] at hkey
  obtain ⟨_, rfl⟩ := hkey
  cases q with
  | command input' => exact ⟨input', rfl⟩
  | update input' | create input' =>
    simp only [Request.replayKey, Option.ite_none_left_eq_some, Option.some.injEq,
      Prod.mk.injEq] at hkey'
    have hmethod := hkey'.2.2.1
    exfalso
    revert hmethod hformed
    cases input.kind <;> decide
  | prepareCreate | managedDelete => cases hkey'

/-- In every run a replay key stands for one operation. A request that comes again under it makes
none and changes nothing: it is answered with that operation if its digest is the same, and refused
as a conflict if it is another. Only a delete may also be answered under its earlier digest, and no
command is answered with the operation of another service. -/
theorem requests_idempotent {s : Pool World Call Call.Answer} (hr : Running opts r s)
    (hdigested : Digested s.world.history) {e e' : Entry} {past old : List Entry} {q q' : Request}
    {k : Uuid × String × String} {id : Uuid}
    (hsuf : e :: past <:+ s.world.history) (hsuf' : e' :: old <:+ past)
    (hcall : e.call = .request q) (hkey : q.replayKey = some k) (hkey' : q'.replayKey = some k)
    (hfirst : e'.Accepts q' k.1 id) :
    (∀ id', ¬e.Accepts q k.1 id') ∧
      (q.unmanaged = true → q.WellFormed → e.Repeats q q' k.1 id) := by
  have hall := hr.explained
  have hpast := hall.suffix ((List.suffix_cons _ _).trans hsuf)
  have he : e ∈ s.world.history := hsuf.subset List.mem_cons_self
  have he' : e' ∈ past := hsuf'.subset List.mem_cons_self
  obtain ⟨_, hentered, o', ho', hservice'⟩ := hpast.entered he' hkey' hfirst
  -- The key and the operation are still there when the request comes again.
  obtain ⟨hrow, o, ho, hservice⟩ := (hr.linked.suffix hsuf).later (Q := fun db =>
    db.idempotency.lookup k = some ⟨q'.requestHash, id⟩ ∧
      ∃ o, db.operations.lookup (k.1, id) = some o ∧ o.serviceID = o'.serviceID)
    (by
      rintro z hz ⟨hrow, o, ho, hservice⟩
      obtain ⟨token, heffect⟩ := hpast.effect hz
      obtain ⟨o₁, ho₁, haim⟩ := heffect.aim ho
      exact ⟨heffect.key_kept hrow, o₁, ho₁, (congrArg Prod.fst haim).trans hservice⟩)
    hsuf' ⟨hentered, o', ho', rfl⟩
  refine ⟨fun id' haccepts => ?_, fun hdirect hformed => ?_⟩
  · have hfree := (hall.entered he hkey haccepts).1
    rw [hrow] at hfree
    cases hfree
  obtain ⟨fault, fresh, hseen, hafter⟩ := hall.request he hcall
  have settled : ∀ {a : Except Err q.Result}, q.tx e.time fresh e.before = a.map (·, e.before) →
      e.after = e.before ∧ ∀ a', e.seen = ⟨.request q, a'⟩ → a' = a ∨ a' = .error .connection := by
    intro a htx
    rw [hseen, hafter]
    rcases settle_of_same fault htx with hsettle | hsettle
    · rw [hsettle]
      exact ⟨rfl, fun a' ha => .inl (eq_of_heq (Sigma.mk.inj ha).2).symm⟩
    · rw [hsettle]
      exact ⟨rfl, fun a' ha => .inr (eq_of_heq (Sigma.mk.inj ha).2).symm⟩
  rcases Request.repeats e.time fresh hkey hdirect hformed hrow ho with
    ⟨reply, htx, hnames, hwhy⟩ | ⟨htx, hother⟩
  · obtain ⟨hsame, hanswer⟩ := settled (a := .ok reply) htx
    refine ⟨hsame, fun a ha => ?_⟩
    rcases hanswer a ha with rfl | rfl
    · refine .inr (.inr ⟨reply, rfl, hnames, hwhy.imp_right fun hlegacy => ?_, fun input hq => ?_⟩)
      · cases q with
        | command input => exact hlegacy.1
        | update | create | managedDelete | prepareCreate => exact hlegacy.elim
      · subst hq
        obtain ⟨input', rfl⟩ := Request.command_of_key hkey hformed.2.1 hkey'
        refine ⟨o, ho, hservice.trans ((hservice' input' rfl).trans ?_)⟩
        apply hdigested e he e' (hsuf.subset (List.mem_cons_of_mem _ he')) input input' hcall
          hfirst.call
        exact hwhy.imp_right fun hlegacy => ⟨_, hlegacy.2⟩
    · exact .inl rfl
  · obtain ⟨hsame, hanswer⟩ := settled (a := .error .idempotencyConflict) htx
    refine ⟨hsame, fun a ha => ?_⟩
    rcases hanswer a ha with rfl | rfl
    · exact .inr (.inl ⟨rfl, hother⟩)
    · exact .inl rfl

end

/-- The delete of the sample, as it is digested since it names no generation. -/
def Sample.deleteAgain : CommandInput :=
  { Sample.command .delete 1 with requestHash := "again", legacyHash := fun _ => "delete" }

/-- A delete is accepted under its earlier digest, and comes again. -/
def repeatedDelete : List Event :=
  oneByOne 0 [(.request (.create Sample.create), 1, Sample.outside),
    (.request (.command (Sample.command .delete 1)), 1,
      { Sample.outside with fresh := ⟨7, 20, 21⟩ }),
    (.request (.command Sample.deleteAgain), 1, { Sample.outside with fresh := ⟨7, 22, 23⟩ })]

theorem requests_idempotent_repeatedDelete :
    ∃ e e' e'', (played .default .configured repeatedDelete).world.history = [e, e', e''] ∧
      e'.Accepts (.command (Sample.command .delete 1)) 1 20 ∧
      e.Repeats (.command Sample.deleteAgain) (.command (Sample.command .delete 1)) 1 20 := by
  refine ⟨_, _, _, rfl, ⟨rfl, by decide +kernel, by decide +kernel⟩, ?_⟩
  refine (requests_idempotent (running_played .default .configured repeatedDelete) ?_
    (List.suffix_refl _) (List.suffix_refl _) rfl rfl rfl
    ⟨rfl, by decide +kernel, by decide +kernel⟩).2 rfl ⟨by decide, by decide, .inl rfl⟩
  -- All the commands of the run name one service.
  have hservice : ∀ e ∈ (played .default .configured repeatedDelete).world.history, ∀ input,
      e.call = .request (.command input) → input.serviceID = 7 := by
    intro e he input hcall
    have hmem : e.call ∈ [Call.request (.command Sample.deleteAgain),
        .request (.command (Sample.command .delete 1)), .request (.create Sample.create)] :=
      List.mem_map_of_mem he
    rw [hcall] at hmem
    simp only [List.mem_cons, Call.request.injEq, Request.command.injEq, reduceCtorEq, or_false,
      List.not_mem_nil] at hmem
    rcases hmem with rfl | rfl
    · rfl
    · rfl
  intro e he e' he' input input' hcall hcall' _
  rw [hservice e he input hcall, hservice e' he' input' hcall']

end AniInference
