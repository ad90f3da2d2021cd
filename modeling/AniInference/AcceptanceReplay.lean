import AniInference.Transactions

namespace AniInference.Accept
open Lib
open Prog (Asks Played Only only_of_forall)

abbrev Seen := Σ e : Call, RowCall.Answer e

namespace Acceptance

def tenant : Acceptance → Spelling
  | .create call => call.tenant
  | .command call => call.tenant
  | .delete call => call.tenant
  | .update call => call.tenant

/-- The idempotency row the call looks at and enters. -/
def address : Acceptance → Option (Uuid × String × String)
  | .create call =>
    if call.managed.isSome ∨ call.given.requestID = "" then none
    else some (call.tenant.id, createMethod, call.given.requestID)
  | .command call =>
    if call.given.requestID = "" then none
    else some (call.tenant.id, commandMethod call.given.kind, call.given.requestID)
  | .delete _ => none
  | .update call =>
    if call.given.requestID = "" then none
    else some (call.tenant.id, updateMethod, call.given.requestID)

/-- The lock it takes for it. -/
def keyLock (call : Acceptance) (method key : String) : Row :=
  .advisory (lockKey call.tenant.text method key)

end Acceptance

/-- The row was read and not there, and no idempotency row has occurred since. -/
def Looked (row : Row) (es : List Seen) : Prop :=
  ∃ es₁ es₂, es = es₁ ++ ⟨.stmt (.read row), .ok (none : Option row.Value)⟩ :: es₂ ∧
    ∀ a ∈ es₂, keyless a.1 = true

/-- A statement on an idempotency row is on the row of the call, its lock has been taken, and
before the row is entered it was looked for. -/
def Guarded (call : Acceptance) (es : List Seen) : Call → Prop
  | .stmt q => q.key.isIdempotency = true → ∃ t m k, call.address = some (t, m, k) ∧
    q.key = .idempotency t m k ∧ ⟨.stmt (.lock (call.keyLock m k)), .ok ()⟩ ∈ es ∧
    (q.reads = false → Looked (.idempotency t m k) es)
  | _ => True

/-- Of the rows an acceptance makes, the call writes none. -/
def quiet : Call → Prop
  | .stmt q => q.key.accepted = true → q.reads = true
  | _ => True

/-- Nor does it look at a service. -/
def calm : Call → Prop
  | .stmt q => q.key.accepted = true → q.reads = true ∧ q.key.isService = false
  | _ => True

def Quiet (es : List Seen) : Prop := ∀ a ∈ es, quiet a.1

/-- An idempotency row was found entered when it was to be. -/
def Conflict (es : List Seen) : Prop :=
  ∃ t m k v, ⟨.stmt (.insertNew (.idempotency t m k) v), .ok false⟩ ∈ es

/-- How a call comes to be answered as a replay. -/
def Accounted (es : List Seen) : Except Err Reply → Prop
  | .ok reply => reply.replayed = true → Quiet es ∨ Conflict es
  | .error _ => True

section
variable {α : Type} {call : Acceptance} {es : List Seen}
variable {Θ : List Seen → Except Err α → Prop}

theorem guarded_of_keyless (h : keyless e = true) : Guarded call es e := by
  cases e with
  | stmt q =>
    intro hkey
    simp [keyless, hkey] at h
  | commit | rollback | disconnect => exact trivial

theorem Plain.only {P : Call → Prop} {x : Plain α}
    (h : x.run.Only fun e => P e.1) : x.body.run.Only fun e => keyless e = true ∧ P e :=
  Only.hoist (h.mono fun e he => ⟨e.2, he⟩)

theorem Plain.keyless (x : Plain α) : x.body.run.Only fun e => keyless e = true :=
  Only.hoist (only_of_forall (fun e => e.2) x.run)

theorem Quiet.snoc (h : Quiet es) (he : quiet e) (r : RowCall.Answer e) :
    Quiet (es ++ [⟨e, r⟩]) := by
  intro a ha
  rcases List.mem_append.mp ha with ha | ha
  · exact h a ha
  · rw [List.mem_singleton.mp ha]
    exact he

/-- A plain part keeps what statements on other rows keep. -/
theorem walk_plain {I : List Seen → Prop} (x : Plain α)
    (hI : ∀ es e r, keyless e = true → I es → I (es ++ [⟨e, r⟩])) (h : I es) :
    Walk (Guarded call) (fun es _ => I es) es x.body.run :=
  Walk.of_only x.keyless (fun _ _ _ he => guarded_of_keyless he) hI h

/-- And what it does not write stays unwritten. -/
theorem walk_quiet {x : Plain α} (hx : x.run.Only fun e => quiet e.1) (h : Quiet es) :
    Walk (Guarded call) (fun es _ => Quiet es) es x.body.run :=
  Walk.of_only (Plain.only hx) (fun _ _ _ he => guarded_of_keyless he.1)
    (fun _ _ r he hq => hq.snoc he.2 r) h

theorem walk_keyStmt {q : Stmt} {Θ : List Seen → Except Err q.Answer → Prop} :
    Walk (Guarded call) Θ es (keyStmt q).run ↔ Guarded call es (.stmt q) ∧
      ∀ r : Except Refusal q.Answer, Θ (es ++ [⟨.stmt q, r⟩]) (orFail r) :=
  Iff.rfl

theorem walk_stmt {q : Stmt} {h : q.key.isIdempotency = false}
    {Θ : List Seen → Except Err q.Answer → Prop} :
    Walk (Guarded call) Θ es (stmt q h).body.run ↔ Guarded call es (.stmt q) ∧
      ∀ r : Except Refusal q.Answer, Θ (es ++ [⟨.stmt q, r⟩]) (orFail r) :=
  Iff.rfl

/-- The two parts of a body. -/
theorem walk_seq {β : Type} {Φ : List Seen → Call → Prop} {x : Body β} {f : β → Body α}
    {Q : List Seen → Except Err β → Prop} (hx : Walk Φ Q es x.run)
    (hok : ∀ es b, Q es (.ok b) → Walk Φ Θ es (f b).run)
    (herr : ∀ es e, Θ es (.error e)) : Walk Φ Θ es (x >>= f).run := by
  refine walk_run_bind.mpr (hx.mono fun es r hr => ?_)
  cases r with
  | ok b => exact hok es b hr
  | error e => exact herr es e

/-- The deferred rollback changes nothing about how the body came to its answer. -/
theorem walk_inTx (h : Walk (Guarded call) Accounted es body.run) :
    Walk (Guarded call) Accounted es (inTx body).run := by
  unfold inTx
  refine walk_run_bind.mpr (walk_lift.mpr (h.mono fun es r hr => ?_))
  refine ⟨trivial, fun _ => ?_⟩
  cases r with
  | error e => exact trivial
  | ok reply =>
    intro hreplayed
    rcases hr hreplayed with hquiet | ⟨t, m, k, v, hmem⟩
    · exact .inl (hquiet.snoc (e := .rollback) trivial ())
    · exact .inr ⟨t, m, k, v, List.mem_append_left _ hmem⟩

/-- A part that ends with an answer of its own. -/
theorem walk_fresh (hx : Walk (Guarded call) (fun _ _ => True) es x.run)
    (hends : Ends x fun reply => reply.replayed = false) :
    Walk (Guarded call) Accounted es x.run := by
  refine hx.of_played fun es' r hplayed _ => ?_
  cases r with
  | error e => exact trivial
  | ok reply =>
    intro hreplayed
    rw [hends es' reply hplayed] at hreplayed
    cases hreplayed

/-- The call has its lock and found no row. -/
structure Entering (call : Acceptance) (t : Uuid) (m k : String) (es : List Seen) : Prop where
  address : call.address = some (t, m, k)
  locked : ⟨.stmt (.lock (call.keyLock m k)), .ok ()⟩ ∈ es
  looked : Looked (.idempotency t m k) es

variable {t : Uuid} {m k : String}

theorem Entering.snoc (h : Entering call t m k es) (he : keyless e = true) (r : RowCall.Answer e) :
    Entering call t m k (es ++ [⟨e, r⟩]) := by
  obtain ⟨es₁, es₂, rfl, hes₂⟩ := h.looked
  refine ⟨h.address, List.mem_append_left _ h.locked, es₁, es₂ ++ [⟨e, r⟩], by simp, ?_⟩
  intro a ha
  rcases List.mem_append.mp ha with ha | ha
  · exact hes₂ a ha
  · rw [List.mem_singleton.mp ha]
    exact he

/-- The lock and the first look at the row. -/
theorem walk_look {f : Option IdempotencyRow → Body α} (haddress : call.address = some (t, m, k))
    (hquiet : Quiet es) (hsome : ∀ es row, Quiet es → Walk (Guarded call) Θ es (f (some row)).run)
    (hnone : ∀ es, Entering call t m k es → Walk (Guarded call) Θ es (f none).run)
    (herr : ∀ es e, Θ es (.error e)) :
    Walk (Guarded call) Θ es
      ((lockIdempotency call.tenant.text m k).body >>= fun _ =>
        getIdempotency t m k >>= f).run := by
  refine walk_run_bind.mpr (walk_stmt.mpr ⟨guarded_of_keyless rfl, fun r => ?_⟩)
  cases r with
  | error e => cases e <;> exact herr _ _
  | ok _ =>
    refine walk_run_bind.mpr (walk_keyStmt.mpr ⟨fun _ => ?_, fun r => ?_⟩)
    · exact ⟨t, m, k, haddress, rfl, List.mem_append_right _ (List.mem_singleton.mpr rfl),
        fun h => by cases h⟩
    · cases r with
      | error e => cases e <;> exact herr _ _
      | ok found =>
        have hquiet' := (hquiet.snoc (e := .stmt (.lock (call.keyLock m k))) (fun _ => rfl)
          (.ok ())).snoc
          (e := .stmt (.read (.idempotency t m k))) (fun _ => rfl) (.ok found)
        cases found with
        | some row => exact hsome _ row hquiet'
        | none =>
          refine hnone _ ⟨haddress, ?_, _, [], rfl, fun a ha => by cases ha⟩
          exact List.mem_append_left _ (List.mem_append_right _ (List.mem_singleton.mpr rfl))

/-- The row is entered, or found entered. -/
theorem walk_put {hash : String} {operation : Uuid} {f : Bool → Body α}
    (h : Entering call t m k es)
    (hput : ∀ es, ⟨.stmt (.lock (call.keyLock m k)), .ok ()⟩ ∈ es →
      Walk (Guarded call) Θ es (f true).run)
    (hconflict : ∀ es, ⟨.stmt (.lock (call.keyLock m k)), .ok ()⟩ ∈ es → Conflict es →
      Walk (Guarded call) Θ es (f false).run)
    (herr : ∀ es e, Θ es (.error e)) :
    Walk (Guarded call) Θ es (putIdempotency t m k hash operation >>= f).run := by
  refine walk_run_bind.mpr (walk_keyStmt.mpr ⟨fun _ => ?_, fun r => ?_⟩)
  · exact ⟨t, m, k, h.address, rfl, h.locked, fun _ => h.looked⟩
  · have hlocked := List.mem_append_left
      [⟨.stmt (.insertNew (.idempotency t m k) ⟨hash, operation⟩), r⟩] h.locked
    cases r with
    | error e => cases e <;> exact herr _ _
    | ok entered =>
      cases entered with
      | true => exact hput _ hlocked
      | false => exact hconflict _ hlocked ⟨t, m, k, _, List.mem_append_right _ List.mem_cons_self⟩

end

section Plain
variable {α β : Type} {call : Acceptance} {es : List Seen}

theorem body_bind (x : Plain α) (f : α → Plain β) :
    (x >>= f).body = x.body >>= fun a => (f a).body := by
  change (ExceptT.mk ((x >>= f).run.hoist _ _) : Body β) = ExceptT.mk (x.body >>= _).run
  rw [ExceptT.run_bind, ExceptT.run_bind, Prog.hoist_bind]
  congr 1
  congr 1
  funext r
  cases r <;> rfl

theorem ends_body {x : Plain α} (h : Ends x P) : Ends x.body P := by
  intro es a hplayed
  obtain ⟨es', hplayed'⟩ := Played.of_hoist hplayed
  exact h es' a hplayed'

/-- A plain part that ends with an answer of its own. -/
theorem walk_own {x : Plain Reply} (h : Ends x fun reply => reply.replayed = false) :
    Walk (Guarded call) Accounted es x.body.run :=
  walk_fresh (walk_plain (I := fun _ => True) x (fun _ _ _ _ _ => trivial) trivial) (ends_body h)

/-- Every call of a plain part is of the kind `P`. -/
def Plain.Makes (P : Call → Prop) (x : Plain α) : Prop := x.run.Only fun e => P e.1

variable {P : Call → Prop}

theorem makes_bind {x : Plain α} {f : α → Plain β} (hx : x.Makes P) (hf : ∀ a, (f a).Makes P) :
    (x >>= f).Makes P :=
  only_run_bind hx hf

theorem makes_pure (a : α) : (pure a : Plain α).Makes P := trivial

theorem makes_stmt (hq : P (.stmt q)) : (stmt q h).Makes P :=
  ⟨hq, fun _ => trivial⟩

theorem makes_commit (h : P .commit) : commit.Makes P := ⟨h, fun _ => trivial⟩

theorem makes_reject [Decidable c] : (reject c e).Makes P := by
  unfold reject
  split <;> exact trivial

theorem makes_require : (require o e).Makes P := by
  cases o <;> exact trivial

theorem Plain.Makes.quiet {x : Plain α} (h : x.Makes calm) : x.Makes quiet := by
  refine Only.mono h fun e he => ?_
  obtain ⟨e, _⟩ := e
  cases e with
  | stmt q => exact fun hq => (he hq).1
  | commit | rollback | disconnect => exact trivial

theorem walk_answer {x : Plain Reply} (hx : x.Makes quiet) (h : Quiet es) :
    Walk (Guarded call) Accounted es x.body.run := by
  refine (walk_quiet hx h).mono fun es r hes => ?_
  cases r with
  | error e => exact trivial
  | ok reply => exact fun _ => .inl hes

end Plain

theorem Conflict.snoc (h : Conflict es) (e : Call) (r : RowCall.Answer e) :
    Conflict (es ++ [⟨e, r⟩]) := by
  obtain ⟨t, m, k, v, hmem⟩ := h
  exact ⟨t, m, k, v, List.mem_append_left _ hmem⟩

theorem walk_conflict (x : Plain Reply) (h : Conflict es) :
    Walk (Guarded call) Accounted es x.body.run := by
  refine (walk_plain x (fun _ e r _ h => h.snoc e r) h).mono fun es r hes => ?_
  cases r with
  | error e => exact trivial
  | ok reply => exact fun _ => .inr hes

/-- What the look for an earlier request has come to. -/
def Replaying (call : Acceptance) (es : List Seen) : Except Err (Option Reply) → Prop
  | .ok (some _) => Quiet es
  | .ok none => ∀ t m k, call.address = some (t, m, k) → Entering call t m k es
  | .error _ => True

theorem Entering.replaying (h : Entering call t m k es) : Replaying call es (.ok none) := by
  intro t' m' k' haddress
  obtain ⟨rfl, rfl, rfl⟩ : t = t' ∧ m = m' ∧ k = k' := by
    simpa using h.address.symm.trans haddress
  exact h

theorem Replaying.snoc (h : Replaying call es (.ok none)) (he : keyless e = true)
    (r : RowCall.Answer e) : Replaying call (es ++ [⟨e, r⟩]) (.ok none) :=
  fun t m k haddress => (h t m k haddress).snoc he r

theorem replaying_of_keyless (h : call.address = none) : Replaying call es (.ok none) := by
  intro t m k haddress
  rw [h] at haddress
  cases haddress

theorem walk_replaying {α : Type} (x : Plain α) (h : Replaying call es (.ok none)) :
    Walk (Guarded call) (fun es _ => Replaying call es (.ok none)) es x.body.run :=
  walk_plain (I := fun es => Replaying call es (.ok none)) x (fun _ _ r he h => h.snoc he r) h

theorem walk_enterKey {call : Acceptance} {es : List Seen} {t : Uuid} {m k hash : String}
    {operation : Uuid} {f : Unit → Body Reply} (h : k ≠ "" → Entering call t m k es)
    (hf : ∀ es, Walk (Guarded call) Accounted es (f ()).run) :
    Walk (Guarded call) Accounted es (enterKey t m k hash operation >>= f).run := by
  refine walk_seq (Q := fun _ _ => True) ?_ (fun es _ _ => hf es) fun _ _ => trivial
  unfold enterKey
  split
  · exact trivial
  · next hkey =>
    exact walk_put (h hkey) (fun _ _ => trivial) (fun _ _ _ => trivial) fun _ _ => trivial

theorem calm_answerFrom (call : CreateCall) (existing : IdempotencyRow) :
    (answerFrom call existing).Makes calm :=
  makes_bind makes_reject fun _ => makes_bind (makes_stmt fun _ => ⟨rfl, rfl⟩) fun _ =>
    makes_bind makes_require fun _ => makes_bind (makes_commit trivial) fun _ => makes_pure _

theorem calm_answerCommand (call : CommandCall) (existing : IdempotencyRow) :
    (answerCommand call existing).Makes calm :=
  makes_bind (makes_stmt fun _ => ⟨rfl, rfl⟩) fun _ => makes_bind makes_require fun _ =>
    makes_bind makes_reject fun _ => makes_bind (makes_commit trivial) fun _ => makes_pure _

theorem calm_answerUpdate (call : UpdateCall) (existing : IdempotencyRow) :
    (answerUpdate call existing).Makes calm :=
  makes_bind makes_reject fun _ => makes_bind (makes_stmt fun _ => ⟨rfl, rfl⟩) fun _ =>
    makes_bind makes_require fun _ => makes_bind (makes_stmt fun _ => ⟨rfl, rfl⟩) fun _ =>
      makes_bind (makes_commit trivial) fun _ => makes_pure _

theorem quiet_prepareRecorded (c : ManagedCommand) (kind : Kind) (operation : Uuid)
    (saved : ManagedResource) : (prepareRecorded c kind operation saved).Makes quiet := by
  refine makes_bind makes_reject fun _ => ?_
  split
  · exact makes_pure _
  · split
    · exact makes_bind makes_reject fun _ => makes_bind makes_reject fun _ => makes_pure _
    · exact makes_bind makes_reject fun _ => makes_bind makes_reject fun _ => makes_pure _

theorem quiet_prepareManagedCommand (tenant : Text) (m : ManagedCall) (c : ManagedCommand)
    (kind : Kind) : (prepareManagedCommand tenant m c kind).Makes quiet := by
  refine makes_bind (makes_stmt fun _ => rfl) fun _ => makes_bind (makes_stmt fun _ => rfl) fun _ =>
    makes_bind (makes_stmt fun _ => rfl) fun existing => ?_
  cases existing with
  | some existing => exact makes_bind makes_reject fun _ => makes_pure _
  | none =>
    refine makes_bind (makes_stmt fun _ => rfl) fun saved => ?_
    cases saved with
    | some saved => exact quiet_prepareRecorded c kind m.operation.id saved
    | none =>
      refine makes_bind (makes_bind (makes_stmt fun _ => rfl) fun _ => makes_pure _) fun _ =>
        makes_bind makes_reject fun _ => makes_bind ?_ fun _ => makes_pure _
      -- the rows of the managed resource are not among those an acceptance makes
      exact makes_bind (makes_stmt fun h => by cases h) fun _ => makes_stmt fun h => by cases h

theorem calm_replayedOperation (call : UpdateCall) (operation : Spelling) :
    (replayedOperation call operation).Makes calm := by
  refine makes_bind (makes_stmt fun _ => ⟨rfl, rfl⟩) fun _ =>
    makes_bind (makes_stmt fun _ => ⟨rfl, rfl⟩) fun o => ?_
  cases o with
  | none => exact makes_pure _
  | some o =>
    exact makes_bind makes_reject fun _ => makes_bind (makes_stmt fun _ => ⟨rfl, rfl⟩) fun _ =>
      makes_bind (makes_commit trivial) fun _ => makes_pure _

theorem calm_replayedManaged (call : UpdateCall) : (replayedManaged call).Makes calm := by
  unfold replayedManaged
  split
  · exact makes_pure _
  · exact calm_replayedOperation call _

section Walks
variable (now : Time) (fresh : Fresh)

theorem walk_createDirect (call : CreateCall) (hdirect : call.managed = none) :
    Walk (Guarded (.create call)) Accounted [] (createDirect now fresh call).run := by
  unfold createDirect
  split
  · exact walk_own (ends_bind fun _ => ends_bind fun _ => ends_bind fun _ => ends_pure rfl)
  · next hkey =>
    have haddress : (Acceptance.create call).address =
        some (call.tenant.id, createMethod, call.given.requestID) := by
      simp [Acceptance.address, hdirect, hkey]
    refine walk_look haddress (fun _ ha => by cases ha) ?_ ?_ fun _ _ => trivial
    · intro es existing hquiet
      exact walk_answer (calm_answerFrom call existing).quiet hquiet
    · intro es hentering
      refine walk_seq (walk_plain _ (fun _ _ r he h => h.snoc he r) hentering) ?_ fun _ _ => trivial
      intro es _ hentering
      refine walk_put hentering ?_ ?_ fun _ _ => trivial
      · intro es _
        exact walk_own (ends_bind fun _ => ends_bind fun _ => ends_pure rfl)
      · intro es hlocked hconflict
        refine walk_run_bind.mpr (walk_keyStmt.mpr ⟨fun _ => ?_, fun r => ?_⟩)
        · exact ⟨_, _, _, haddress, rfl, hlocked, fun h => by cases h⟩
        · have hconflict' := hconflict.snoc (.stmt (.read (.idempotency call.tenant.id createMethod
            call.given.requestID))) r
          cases r with
          | error e => cases e <;> exact trivial
          | ok existing =>
            refine walk_seq (walk_plain _ (fun _ _ r _ h => h.snoc _ r) hconflict') ?_
              fun _ _ => trivial
            intro es existing hconflict
            exact walk_conflict (answerFrom call existing) hconflict

theorem walk_createManaged (call : CreateCall) (m : ManagedCall) :
    Walk (Guarded (.create call)) Accounted [] (createManaged now fresh call m).body.run := by
  unfold createManaged
  rw [body_bind]
  refine walk_seq (walk_quiet makes_reject (fun _ ha => by cases ha)) ?_ fun _ _ => trivial
  intro es _ hquiet
  rw [body_bind]
  refine walk_seq (walk_quiet (quiet_prepareManagedCommand _ _ _ _) hquiet) ?_ fun _ _ => trivial
  intro es intake hquiet
  cases intake with
  | replay response => exact walk_answer (makes_pure _) hquiet
  | closing c => exact walk_own (ends_bind fun _ => ends_bind fun _ => ends_pure rfl)
  | fresh c =>
    exact walk_own (ends_bind fun _ => ends_bind fun _ => ends_bind fun _ => ends_bind fun _ =>
      ends_pure rfl)

theorem walk_createService (call : CreateCall) :
    Walk (Guarded (.create call)) Accounted [] (createService now fresh call).run := by
  unfold createService
  cases hmanaged : call.managed with
  | none => exact walk_inTx (walk_createDirect now fresh call hmanaged)
  | some m => exact walk_inTx (walk_createManaged now fresh call m)

theorem walk_replayedCommand (call : CommandCall) (hquiet : Quiet es) :
    Walk (Guarded (.command call)) (Replaying (.command call)) es (replayedCommand call).run := by
  unfold replayedCommand
  split
  · next hkey => exact replaying_of_keyless (if_pos hkey)
  · next hkey =>
    refine walk_look (if_neg hkey) hquiet ?_ (fun es h => h.replaying) fun _ _ => trivial
    intro es existing hquiet
    exact walk_seq (walk_quiet (calm_answerCommand call existing).quiet hquiet) (fun _ _ h => h)
      fun _ _ => trivial

theorem walk_command (call : CommandCall) :
    Walk (Guarded (.command call)) Accounted [] (command now fresh call).run := by
  unfold command
  refine walk_seq (walk_quiet makes_reject (fun _ ha => by cases ha)) ?_ fun _ _ => trivial
  intro es _ hquiet
  refine walk_seq (walk_quiet makes_reject hquiet) ?_ fun _ _ => trivial
  intro es _ hquiet
  refine walk_inTx (walk_seq (walk_replayedCommand call hquiet) ?_ fun _ _ => trivial)
  intro es reply hreply
  cases reply with
  | some reply => exact fun _ => .inl hreply
  | none =>
    refine walk_seq (walk_replaying _ hreply) ?_ fun _ _ => trivial
    intro es admitted hreply
    refine walk_seq (walk_replaying _ hreply) ?_ fun _ _ => trivial
    intro es _ hreply
    refine walk_enterKey (fun hkey => hreply _ _ _ (if_neg hkey)) fun es => ?_
    exact walk_own (ends_bind fun _ => ends_bind fun _ => ends_pure rfl)

theorem walk_replayedKey (call : UpdateCall) (hquiet : Quiet es) :
    Walk (Guarded (.update call)) (Replaying (.update call)) es (replayedKey call).run := by
  unfold replayedKey
  split
  · next hkey => exact replaying_of_keyless (if_pos hkey)
  · next hkey =>
    refine walk_look (if_neg hkey) hquiet ?_ (fun es h => h.replaying) fun _ _ => trivial
    intro es existing hquiet
    exact walk_seq (walk_quiet (calm_answerUpdate call existing).quiet hquiet) (fun _ _ h => h)
      fun _ _ => trivial

theorem walk_update (call : UpdateCall) :
    Walk (Guarded (.update call)) Accounted [] (update now fresh call).run := by
  unfold update
  refine walk_seq (walk_quiet makes_reject (fun _ ha => by cases ha)) ?_ fun _ _ => trivial
  intro es _ hquiet
  refine walk_inTx (walk_seq (walk_quiet (calm_replayedManaged call).quiet hquiet) ?_
    fun _ _ => trivial)
  intro es managed hquiet
  cases managed with
  | some reply => exact fun _ => .inl hquiet
  | none =>
    refine walk_seq (walk_replayedKey call hquiet) ?_ fun _ _ => trivial
    intro es reply hreply
    cases reply with
    | some reply => exact fun _ => .inl hreply
    | none =>
      refine walk_seq (walk_replaying _ hreply) ?_ fun _ _ => trivial
      intro es target hreply
      refine walk_enterKey (fun hkey => hreply _ _ _ (if_neg hkey)) fun es => ?_
      exact walk_own (ends_bind fun _ => ends_bind fun _ => ends_bind fun _ => ends_bind fun _ =>
        ends_pure rfl)

theorem ends_deleteOrClose (call : DeleteCall) (c : ManagedCommand) (operation : Uuid) :
    Ends (deleteOrClose now fresh call c operation) fun reply => reply.replayed = false := by
  refine ends_bind fun current => ?_
  cases current with
  | none =>
    exact ends_bind fun _ => ends_bind fun _ => ends_bind fun _ => ends_bind fun _ =>
      ends_bind fun _ => ends_pure rfl
  | some current =>
    exact ends_bind fun _ => ends_bind fun _ => ends_bind fun _ => ends_bind fun _ =>
      ends_bind fun _ => ends_bind fun _ => ends_bind fun _ => ends_bind fun _ => ends_bind fun _ =>
        ends_bind fun _ => ends_pure rfl

theorem walk_delete (call : DeleteCall) :
    Walk (Guarded (.delete call)) Accounted [] (acceptManagedDelete now fresh call).run := by
  refine walk_inTx (walk_seq (walk_quiet (quiet_prepareManagedCommand _ _ _ _)
    (fun _ ha => by cases ha)) ?_ fun _ _ => trivial)
  intro es intake hquiet
  cases intake with
  | replay response => exact fun _ => .inl hquiet
  | closing c | fresh c => exact walk_own (ends_deleteOrClose now fresh call c _)

/-- Every call keeps to its own row under its own lock, and a replay is accounted for. -/
theorem walk_body (call : Acceptance) :
    Walk (Guarded call) Accounted [] (call.body now fresh).run := by
  cases call with
  | create call => exact walk_createService now fresh call
  | command call => exact walk_command now fresh call
  | delete call => exact walk_delete now fresh call
  | update call => exact walk_update now fresh call

end Walks

namespace Acceptance

/-- The service the call names. -/
def service : Acceptance → Option Spelling
  | .create call => call.managed.map (·.resource)
  | .command call => some call.service
  | .delete call => some call.managed.resource
  | .update call => some call.service

/-- The locks under which the call sees its service. -/
def serviceLocks : Acceptance → List Row
  | .create call =>
    match call.managed with
    | none => []
    | some m => [.advisory (resourceKey call.tenant.text m.resource.text)]
  | .command call => [.service call.tenant.id call.service.id]
  | .delete call => [.advisory (resourceKey call.tenant.text call.managed.resource.text)]
  | .update call => [.advisory (resourceKey call.tenant.text call.service.text),
      .service call.tenant.id call.service.id]

end Acceptance

/-- A statement on a service comes after the lock `g`, or is the read that gets it. -/
def Seeing (g : Row) (es : List Seen) : Call → Prop
  | .stmt q => q.key.isService = true → (∃ a ∈ es, Gets g a) ∨ q = .readForUpdate g
  | _ => True

/-- The calls that do not look at a service. -/
def blind : Call → Prop
  | .stmt q => q.key.isService = false
  | _ => True

section Services
variable {α : Type} {g : Row} {es : List Seen}

/-- The lock has been got, if the part before succeeded. -/
def Got (g : Row) (es : List Seen) : Except Err α → Prop
  | .ok _ => ∃ a ∈ es, Gets g a
  | .error _ => True

theorem seeing_of_blind (h : blind e) : Seeing g es e := by
  cases e with
  | stmt q =>
    intro hq
    rw [show q.key.isService = false from h] at hq
    cases hq
  | commit | rollback | disconnect => exact trivial

theorem walk_blind {x : Body α} (hx : x.run.Only blind) :
    Walk (Seeing g) (fun _ _ => True) es x.run :=
  Walk.of_only (I := fun _ => True) hx (fun _ _ _ he => seeing_of_blind he)
    (fun _ _ _ _ _ => trivial) trivial

/-- With the lock anything may follow. -/
theorem walk_got (x : Body α) (h : ∃ a ∈ es, Gets g a) : Walk (Seeing g) (Got g) es x.run := by
  have hwalk : Walk (Seeing g) (fun es _ => ∃ a ∈ es, Gets g a) es x.run := by
    refine Walk.of_only (P := fun _ => True) (only_of_forall (fun _ => trivial) x.run) ?_ ?_ h
    · intro es e hgot _
      cases e with
      | stmt q => exact fun _ => .inl hgot
      | commit | rollback | disconnect => exact trivial
    · intro es e r _ hgot
      obtain ⟨a, ha, hget⟩ := hgot
      exact ⟨a, List.mem_append_left _ ha, hget⟩
  refine hwalk.mono fun es r hgot => ?_
  cases r with
  | ok a => exact hgot
  | error e => exact trivial

theorem walk_done (x : Body α) (h : ∃ a ∈ es, Gets g a) :
    Walk (Seeing g) (fun _ _ => True) es x.run :=
  (walk_got x h).mono fun _ _ _ => trivial

/-- An advisory lock, and what follows. -/
theorem walk_lock :
    Walk (Seeing (.advisory key)) (Got (.advisory key)) es
      ((lockManagedGPUKey key).body >>= f).run := by
  refine walk_run_bind.mpr ⟨seeing_of_blind rfl, fun r => ?_⟩
  cases r with
  | error e => cases e <;> exact trivial
  | ok _ => exact walk_got (f ()) ⟨_, List.mem_append_right _ List.mem_cons_self, .lock⟩

/-- The locking read of the service, and what follows where it is there. -/
theorem walk_found {t id : Uuid} {e : Err} {f : Service → Plain α} :
    Walk (Seeing (.service t id)) (Got (.service t id)) es
      ((getServiceForUpdate t id) >>= fun row => require row e >>= f : Plain α).body.run := by
  rw [body_bind]
  refine walk_run_bind.mpr ⟨fun _ => .inr rfl, fun r => ?_⟩
  cases r with
  | error e => cases e <;> exact trivial
  | ok row =>
    cases row with
    | none => exact trivial
    | some s =>
      exact walk_got (require (some s) e >>= f).body
        ⟨_, List.mem_append_right _ List.mem_cons_self, .found s⟩

theorem walk_seeing_inTx (h : Walk (Seeing g) (fun _ _ => True) es body.run) :
    Walk (Seeing g) (fun _ _ => True) es (inTx body).run := by
  unfold inTx
  refine walk_run_bind.mpr (walk_lift.mpr (h.mono fun es r _ => ?_))
  refine ⟨trivial, fun _ => ?_⟩
  cases r <;> exact trivial

theorem Plain.Makes.blind {x : Plain α} (h : x.Makes calm) : x.body.run.Only blind := by
  refine Only.hoist (h.mono fun e he => ?_)
  obtain ⟨e, _⟩ := e
  cases e with
  | stmt q =>
    cases hq : q.key with
    | service => exact (he (by rw [hq]; rfl)).2
    | _ => simp [Accept.blind, hq, Row.isService]
  | commit | rollback | disconnect => exact trivial

theorem walk_prepare (tenant : Text) (m : ManagedCall) (c : ManagedCommand) (kind : Kind) :
    Walk (Seeing (.advisory (resourceKey tenant m.resource.text)))
      (Got (.advisory (resourceKey tenant m.resource.text))) es
      (prepareManagedCommand tenant m c kind).body.run := by
  unfold prepareManagedCommand
  rw [body_bind]
  refine walk_seq (Q := fun _ _ => True) ?_ ?_ fun _ _ => trivial
  · exact ⟨seeing_of_blind rfl, fun _ => trivial⟩
  · intro es _ _
    rw [body_bind]
    exact walk_lock

end Services

section
variable (now : Time) (fresh : Fresh)

theorem blind_replayedCommand (call : CommandCall) : (replayedCommand call).run.Only blind := by
  unfold replayedCommand
  split
  · exact trivial
  · refine only_run_bind ⟨rfl, fun _ => trivial⟩ fun _ =>
      only_run_bind ⟨rfl, fun _ => trivial⟩ fun existing => ?_
    cases existing with
    | none => exact trivial
    | some existing =>
      exact only_run_bind (calm_answerCommand call existing).blind fun _ => trivial

theorem blind_replayedKey (call : UpdateCall) : (replayedKey call).run.Only blind := by
  unfold replayedKey
  split
  · exact trivial
  · refine only_run_bind ⟨rfl, fun _ => trivial⟩ fun _ =>
      only_run_bind ⟨rfl, fun _ => trivial⟩ fun existing => ?_
    cases existing with
    | none => exact trivial
    | some existing =>
      exact only_run_bind (calm_answerUpdate call existing).blind fun _ => trivial

/-- A command or an update sees its service under the lock of its row. -/
theorem walk_seeing_command (call : CommandCall) :
    Walk (Seeing (.service call.tenant.id call.service.id)) (fun _ _ => True) []
      (command now fresh call).run := by
  unfold command
  refine walk_seq (walk_blind makes_reject.blind) ?_ fun _ _ => trivial
  intro es _ _
  refine walk_seq (walk_blind makes_reject.blind) ?_ fun _ _ => trivial
  intro es _ _
  refine walk_seeing_inTx (walk_seq (walk_blind (blind_replayedCommand call)) ?_ fun _ _ => trivial)
  intro es reply _
  cases reply with
  | some reply => exact trivial
  | none =>
    refine walk_seq (Q := Got _) walk_found ?_ fun _ _ => trivial
    intro es admitted hgot
    exact walk_done _ hgot

/-- What an update does before it looks at its service. -/
theorem walk_seeing_update (call : UpdateCall)
    (h : ∀ es, Walk (Seeing g) (Got g) es (moveUpdate now call
      (call.input.managedOperationID.getD fresh.operation)).body.run) :
    Walk (Seeing g) (fun _ _ => True) [] (update now fresh call).run := by
  unfold update
  refine walk_seq (walk_blind makes_reject.blind) ?_ fun _ _ => trivial
  intro es _ _
  refine walk_seeing_inTx (walk_seq (walk_blind (calm_replayedManaged call).blind) ?_
    fun _ _ => trivial)
  intro es managed _
  cases managed with
  | some reply => exact trivial
  | none =>
    refine walk_seq (walk_blind (blind_replayedKey call)) ?_ fun _ _ => trivial
    intro es reply _
    cases reply with
    | some reply => exact trivial
    | none =>
      refine walk_seq (h es) ?_ fun _ _ => trivial
      intro es target hgot
      exact walk_done _ hgot

/-- An update sees its service under both its locks. -/
theorem walk_moveUpdate (call : UpdateCall) (operation : Uuid)
    (hg : g ∈ (Acceptance.update call).serviceLocks) :
    Walk (Seeing g) (Got g) es (moveUpdate now call operation).body.run := by
  have hadmit : Walk (Seeing g) (Got g) es (admitUpdate call).body.run := by
    unfold admitUpdate
    rw [body_bind]
    rcases List.mem_cons.mp hg with rfl | hg
    · exact walk_lock
    · rw [List.mem_singleton.mp hg]
      refine walk_seq (Q := fun _ _ => True) ?_ (fun es _ _ => walk_found) fun _ _ => trivial
      exact ⟨seeing_of_blind rfl, fun _ => trivial⟩
  unfold moveUpdate
  rw [body_bind]
  exact walk_seq hadmit (fun es _ hgot => walk_got _ hgot) fun _ _ => trivial

/-- A create by Governance sees its service under the lock of the resource. -/
theorem walk_seeing_createManaged (call : CreateCall) (m : ManagedCall) :
    Walk (Seeing (.advisory (resourceKey call.tenant.text m.resource.text))) (fun _ _ => True) []
      (createManaged now fresh call m).body.run := by
  unfold createManaged
  rw [body_bind]
  refine walk_seq (walk_blind makes_reject.blind) ?_ fun _ _ => trivial
  intro es _ _
  rw [body_bind]
  exact walk_seq (walk_prepare _ _ _ _) (fun es _ hgot => walk_done _ hgot) fun _ _ => trivial

theorem walk_seeing_body (call : Acceptance) (hg : g ∈ call.serviceLocks) :
    Walk (Seeing g) (fun _ _ => True) [] (call.body now fresh).run := by
  cases call with
  | create call =>
    change Walk _ _ _ (createService now fresh call).run
    unfold createService
    unfold Acceptance.serviceLocks at hg
    cases hmanaged : call.managed with
    | none => simp [hmanaged] at hg
    | some m =>
      simp only [hmanaged, List.mem_singleton] at hg
      rw [hg]
      exact walk_seeing_inTx (walk_seeing_createManaged now fresh call m)
  | command call =>
    rw [List.mem_singleton.mp hg]
    exact walk_seeing_command now fresh call
  | delete call =>
    rw [List.mem_singleton.mp hg]
    refine walk_seeing_inTx (walk_seq (walk_prepare _ _ _ _) ?_ fun _ _ => trivial)
    exact fun es _ hgot => walk_done _ hgot
  | update call =>
    exact walk_seeing_update now fresh call fun es => walk_moveUpdate now call _ hg

end

end AniInference.Accept
