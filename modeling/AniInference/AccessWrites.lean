import AniInference.AccessOutline

namespace AniInference.Access
open Lib

/-- The statements that change rows in transactions, by the requests that make them. -/
def Request.writes : Request → Stmt → Bool
  | .create _, .insertKey .. => true
  | .rotate .., .rotateKey .. => true
  | .revoke .., .revokeKey .. => true
  | .bindPolicy .., .bindPolicy .. => true
  | .createPolicy .., .insertPolicy .. => true
  | .updatePolicy .., .updatePolicy .. => true
  | .deletePolicy .., .deletePolicy .. => true
  | .check .., .consumeBucket .. => true
  | .consume .., .consumeBucket .. => true
  | _, _ => false

/-- Those outside transactions. -/
def Request.saves : Request → Stmt → Bool
  | .check .., .archiveSecret .. => true
  | .outside _, .setService .. => true
  | .outside _, .setModel .. => true
  | _, _ => false

def Request.may (q : Request) : Call → Bool
  | .stmt s => s.reads || q.writes s
  | .auto s => s.reads || q.saves s
  | _ => true

/-- Whatever it is answered, the program only makes calls that satisfy `P`. -/
abbrev Makes {α : Type} (P : Call → Bool) (es : List Exchange) (x : Service α) : Prop :=
  Walk (fun _ e => P e = true) (fun _ _ => True) es x.run

section
variable {α : Type} {es : List Exchange} {P : Call → Bool}

theorem makes_inTx (hbegin : P .begin = true) (hroll : P .rollback = true)
    (h : Makes P (es ++ [⟨.begin, .ok ()⟩]) body) : Makes P es (inTx body) :=
  walk_inTx hbegin (fun _ => trivial) (h.mono fun _ _ _ => ⟨hroll, trivial⟩)

theorem makes_bind {β : Type} {x : Service α} {f : α → Service β} (hx : Makes P es x)
    (hf : ∀ es a, Makes P es (f a)) : Makes P es (x >>= f) := by
  refine walk_run_bind.mpr (hx.mono fun es r _ => ?_)
  cases r with
  | ok a => exact hf es a
  | error e => trivial

theorem makes_commit (h : P .commit = true) : Makes P es commit := by
  refine walk_perform h fun r => ?_
  cases r <;> trivial

theorem makes_replay {tenant id : Uuid} {row : KeyRow} (h : P .commit = true) :
    Makes P es (Store.replay tenant id row) :=
  walk_commit h (fun _ => trivial) trivial

theorem makes_storeInsert {input : Record} {tenant id policyID : Uuid} {given : CreateInput} :
    Makes (Request.create given).may es (Store.insert input tenant id policyID) := by
  refine walk_stmt rfl (fun _ => trivial) fun policy => ?_
  cases policy with
  | none => trivial
  | some policy =>
    refine walk_stmt rfl (fun _ => trivial) fun created => ?_
    cases created with
    | some created =>
      exact walk_stmt rfl (fun _ => trivial) fun _ => walk_commit rfl (fun _ => trivial) trivial
    | none =>
      dsimp only
      split
      · trivial
      · refine walk_stmt rfl (fun _ => trivial) fun existing => ?_
        cases existing with
        | none => trivial
        | some existing => exact makes_replay rfl

theorem makes_storeCreate {input : Record} {given : CreateInput} :
    Makes (Request.create given).may es (Store.create input) := by
  refine walk_parseUUID trivial fun tenant _ => walk_parseUUID trivial fun id _ =>
    walk_parseUUID trivial fun policyID _ => makes_inTx rfl rfl ?_
  split
  · exact makes_storeInsert
  · refine walk_stmt rfl (fun _ => trivial) fun existing => ?_
    cases existing with
    | none => exact makes_storeInsert
    | some existing => exact makes_replay rfl

theorem makes_requireFuture {expiresAt : Option Instant} (h : P .now = true) :
    Makes P es (requireFuture expiresAt) := by
  cases expiresAt with
  | none => trivial
  | some t =>
    refine walk_perform h fun now => ?_
    split <;> trivial

theorem makes_create {given : CreateInput} :
    Makes (Request.create given).may es (create given) := by
  unfold create
  dsimp only
  split
  · trivial
  · split
    · trivial
    · split
      · trivial
      · refine makes_bind (makes_requireFuture rfl) fun es _ => ?_
        refine walk_newSecret rfl trivial fun cs => walk_newHash rfl trivial fun salt => ?_
        refine walk_perform rfl fun id => walk_sealSecret rfl trivial fun nonce => ?_
        refine makes_bind makes_storeCreate fun es created => ?_
        split
        · split <;> trivial
        · trivial

section
variable {tenantID id idempotencyKey : Text}

theorem makes_storeChange {input : RotateInput} {tenant keyID : Uuid} {current : KeyRow} :
    Makes (Request.rotate tenantID id idempotencyKey).may es
      (Store.change input tenant keyID current) := by
  unfold Store.change
  split
  · trivial
  · refine walk_tryStmt rfl fun rotated => ?_
    rcases rotated with why | _ | rotated
    · dsimp only
      split
      · trivial
      · refine walk_tryStmt rfl fun existing => ?_
        rcases existing with why | _ | existing
        · trivial
        · trivial
        · exact makes_replay rfl
    · refine walk_tryStmt rfl fun row => ?_
      rcases row with why | _ | row <;> trivial
    · exact walk_stmt rfl (fun _ => trivial) fun _ => walk_commit rfl (fun _ => trivial) trivial

theorem makes_storeRotate {input : RotateInput} {tenantID' id' : Text} :
    Makes (Request.rotate tenantID id idempotencyKey).may es
      (Store.rotate tenantID' id' input) := by
  refine walk_parseUUID trivial fun tenant _ => walk_parseUUID trivial fun keyID _ =>
    makes_inTx rfl rfl ?_
  refine walk_stmt rfl (fun _ => trivial) fun current => ?_
  cases current with
  | none => trivial
  | some current =>
    dsimp only
    split
    · exact makes_storeChange
    · refine walk_stmt rfl (fun _ => trivial) fun existing => ?_
      cases existing with
      | none => exact makes_storeChange
      | some existing => exact makes_replay rfl

theorem makes_rotate :
    Makes (Request.rotate tenantID id idempotencyKey).may es
      (rotate tenantID id idempotencyKey) := by
  refine walk_newSecret rfl trivial fun cs => walk_newHash rfl trivial fun salt => ?_
  refine walk_sealSecret rfl trivial fun nonce => ?_
  refine makes_bind makes_storeRotate fun es result => ?_
  split <;> trivial

theorem makes_revoke : Makes (Request.revoke tenantID id).may es (revoke tenantID id) := by
  refine walk_parseUUID trivial fun tenant _ => walk_parseUUID trivial fun keyID _ =>
    makes_inTx rfl rfl ?_
  refine walk_stmt rfl (fun _ => trivial) fun current => ?_
  cases current with
  | none => trivial
  | some current =>
    dsimp only
    split
    · exact walk_commit rfl (fun _ => trivial) trivial
    · refine walk_stmt rfl (fun _ => trivial) fun row => ?_
      cases row with
      | none => trivial
      | some row =>
        exact walk_stmt rfl (fun _ => trivial) fun _ => walk_commit rfl (fun _ => trivial) trivial

end

theorem makes_bindPolicy :
    Makes (Request.bindPolicy tenantID keyID policyID).may es
      (bindPolicy tenantID keyID policyID) := by
  refine walk_parseUUID trivial fun tenantUUID _ => walk_parseUUID trivial fun keyUUID _ =>
    makes_inTx rfl rfl ?_
  refine walk_encodeUUID trivial fun tenant => walk_encodeUUID trivial fun key => ?_
  refine walk_stmt rfl (fun _ => trivial) fun current => ?_
  cases current with
  | none => trivial
  | some current =>
    refine walk_encodeUUID trivial fun policy => ?_
    refine walk_stmt rfl (fun _ => trivial) fun row => ?_
    cases row with
    | none => trivial
    | some row =>
      refine walk_stmt rfl (fun _ => trivial) fun _ => walk_stmt rfl (fun _ => trivial) fun _ => ?_
      refine walk_stmt rfl (fun _ => trivial) fun row => ?_
      cases row with
      | none => trivial
      | some row => exact walk_commit rfl (fun _ => trivial) trivial

theorem makes_createPolicy :
    Makes (Request.createPolicy tenantID policy).may es (createPolicy tenantID policy) := by
  refine makes_inTx rfl rfl (walk_encodeUUID trivial fun tenant => walk_perform rfl fun id => ?_)
  exact walk_stmt rfl (fun _ => trivial) fun _ => walk_stmt rfl (fun _ => trivial) fun _ =>
    makes_commit rfl

theorem makes_updatePolicy {tenantID id : Text} {policy : PolicyRow} :
    Makes (Request.updatePolicy tenantID id policy).may es (updatePolicy tenantID id policy) := by
  refine makes_inTx rfl rfl (walk_encodeUUID trivial fun tenant =>
    walk_encodeUUID trivial fun id => ?_)
  refine walk_stmt rfl (fun _ => trivial) fun row => ?_
  cases row with
  | none => trivial
  | some row =>
    exact walk_stmt rfl (fun _ => trivial) fun _ => walk_commit rfl (fun _ => trivial) trivial

theorem makes_deletePolicy {tenantID id : Text} :
    Makes (Request.deletePolicy tenantID id).may es (deletePolicy tenantID id) := by
  refine makes_inTx rfl rfl (walk_encodeUUID trivial fun tenant =>
    walk_encodeUUID trivial fun id => ?_)
  refine walk_tryStmt rfl fun row => ?_
  rcases row with why | _ | row
  · cases why <;> trivial
  · trivial
  · exact walk_stmt rfl (fun _ => trivial) fun _ => makes_commit rfl

theorem makes_liftExcept : Makes P es (liftExcept x) := by
  cases x <;> trivial

theorem makes_list : Makes (Request.list tenantID).may es (list tenantID) :=
  walk_parseUUID trivial fun _ _ => walk_auto rfl (fun _ => trivial) fun _ => makes_liftExcept

theorem makes_getRecord {tenantID id : Text} :
    Makes (Request.get tenantID id).may es (getRecord tenantID id) := by
  refine walk_parseUUID trivial fun tenant _ => walk_parseUUID trivial fun keyID _ =>
    walk_auto rfl (fun _ => trivial) fun row => ?_
  cases row with
  | none => trivial
  | some row => exact makes_liftExcept

theorem makes_consumeWindows {q : Request} {tenant key : Uuid} {limit : Window → Nat}
    {now : Instant} {cost : Nat} {ws : List Window}
    (hq : ∀ w start max, q.may (.stmt (.consumeBucket tenant key w start cost max)) = true) :
    Makes q.may es (consumeWindows tenant key limit now cost ws) := by
  induction ws generalizing es with
  | nil => exact walk_stmt rfl (fun _ => trivial) fun _ => trivial
  | cons w ws ih =>
    unfold consumeWindows
    split
    · exact ih
    · refine walk_stmt (hq _ _ _) (fun _ => trivial) fun count => ?_
      cases count with
      | none => trivial
      | some count => exact ih

theorem makes_consume {tenantID id : Text} {limit : Window → Nat} {now : Instant} {cost : Nat} :
    Makes (Request.consume tenantID id limit now cost).may es
      (consume tenantID id limit now cost) := by
  refine walk_parseUUID trivial fun tenant _ => walk_parseUUID trivial fun keyID _ =>
    makes_inTx rfl rfl ?_
  refine makes_bind (makes_consumeWindows fun _ _ _ => rfl) fun es retry => ?_
  cases retry with
  | some retry => trivial
  | none => exact walk_commit rfl (fun _ => trivial) trivial

section
variable {apiKey serviceID name : Text} {total : Int}

theorem makes_consumeLatest {record : Record} {tenant key : Uuid} {model : Text} {now : Instant}
    {cost : Nat} :
    Makes (Request.check apiKey serviceID name total).may es
      (consumeLatest record tenant key model now cost) := by
  refine walk_stmt rfl (fun _ => trivial) fun latest => ?_
  cases latest with
  | none => trivial
  | some latest =>
    dsimp only
    split
    · trivial
    split
    · trivial
    split
    · trivial
    split
    · trivial
    · refine walk_stmt rfl (fun _ => trivial) fun policy => ?_
      cases policy with
      | none => trivial
      | some policy =>
        dsimp only
        split
        · trivial
        · refine makes_bind (makes_consumeWindows fun _ _ _ => rfl) fun es retry => ?_
          cases retry with
          | some retry => trivial
          | none => exact walk_commit rfl (fun _ => trivial) trivial

theorem makes_consumeAccess {record : Record} {service model : Text} {now : Instant} {cost : Nat} :
    Makes (Request.check apiKey serviceID name total).may es
      (consumeAccess record service model now cost) := by
  refine makes_inTx rfl rfl ?_
  refine walk_stmt rfl (fun _ => trivial) fun rows => ?_
  split
  · trivial
  · split
    · trivial
    · refine walk_stmt rfl (fun _ => trivial) fun shared => ?_
      split
      · refine walk_stmt rfl (fun _ => trivial) fun again => ?_
        split
        · trivial
        · exact walk_parseUUID trivial fun tenant _ => walk_parseUUID trivial fun key _ =>
            makes_consumeLatest
      · trivial

theorem makes_archive :
    Makes (Request.check apiKey serviceID name total).may es (archive record c) :=
  walk_parseUUID trivial fun _ _ => walk_parseUUID trivial fun _ _ =>
    walk_auto rfl (fun _ => trivial) fun _ => trivial

theorem makes_check :
    Makes (Request.check apiKey serviceID name total).may es
      (check apiKey serviceID name total) := by
  unfold check
  dsimp only
  split
  · trivial
  · refine walk_auto rfl (fun _ => trivial) fun found => ?_
    rcases found with _ | ⟨tenant, id, row⟩
    · trivial
    · dsimp only
      split
      · trivial
      · refine walk_perform rfl fun now => ?_
        split
        · trivial
        split
        · trivial
        · refine walk_auto rfl (fun _ => trivial) fun rows => ?_
          split
          · trivial
          · split
            · trivial
            · refine makes_bind makes_consumeAccess fun es result => ?_
              split
              · trivial
              · split
                · exact walk_sealSecret rfl trivial fun nonce =>
                    makes_bind makes_archive fun es _ => trivial
                · trivial

end

theorem makes_outside {what : List Outside} :
    Makes (Request.outside what).may es (what.forM fun o => do let _ ← perform o.call) := by
  have key : ∀ (os : List Outside) es, Makes (Request.outside what).may es
      (os.forM fun o => do let _ ← perform o.call) := by
    intro os
    induction os with
    | nil => exact fun _ => trivial
    | cons o os ih =>
      intro es
      refine makes_bind (walk_perform ?_ fun _ => trivial) fun es _ => ih es
      cases o <;> rfl
  exact key what es

/-- A request makes no other statements than those. -/
theorem Request.makes (q : Request) : Makes q.may [] q.service := by
  cases q with
  | create input => exact makes_create
  | rotate tenantID id idempotencyKey => exact makes_rotate
  | revoke tenantID id => exact makes_revoke
  | bindPolicy tenantID keyID policyID => exact makes_bindPolicy
  | createPolicy tenantID policy => exact makes_createPolicy
  | updatePolicy tenantID id policy => exact makes_updatePolicy
  | deletePolicy tenantID id => exact makes_deletePolicy
  | list tenantID => exact makes_list
  | get tenantID id => exact makes_getRecord
  | check apiKey serviceID model cost => exact makes_check
  | consume tenantID id limit now cost => exact makes_consume
  | outside what => exact makes_outside

end

/-- A walk down what a request does is one down its process. -/
theorem walk_program {q : Request} (h : Walk Φ (fun _ _ => True) es q.service.run) :
    Walk Φ (fun _ _ => True) es q.program :=
  walk_bind.mpr h

section
variable {requests : Nat → Request} {start : World → Prop} {w : World} {h past : List Event}
variable {x : Event}

/-- A call of a request satisfies what a walk down its program says of it. -/
theorem Ran.walked {q : Request} {Φ : List Exchange → Call → Prop}
    {Θ : List Exchange → Except Err q.Result → Prop} (hr : Ran requests start h w)
    (hx : x :: past <:+ h) (hq : requests x.actor = q) (hwalk : Walk Φ Θ [] q.service.run) :
    Φ (trace x.actor past) x.call := by
  subst hq
  exact (walk_program (hwalk.mono fun _ _ _ => trivial)).asks (hr.arises hx).asks

/-- What a request knows before each of its calls is so when it makes them. -/
theorem Ran.knows_at {q : Request} {pre : Call → List Event → World → Prop}
    {Θ : List Exchange → Except Err q.Result → Prop} (hr : Ran requests start h w)
    (hx : x :: past <:+ h) (hq : requests x.actor = q)
    (hwalk : Walk (fun es e => Knows requests start h x.actor es (pre e)) Θ [] q.service.run) :
    pre x.call past x.before :=
  Ran.walked hr hx hq hwalk past x.before ((List.suffix_cons _ _).trans hx) (hr.arises hx).run rfl

/-- A statement in a transaction reads, or is one that its request writes with. -/
theorem Ran.wrote (hr : Ran requests start h w) (hx : x :: past <:+ h) {s : Stmt}
    (hs : x.call = .stmt s) : s.reads = true ∨ (requests x.actor).writes s = true := by
  have hmay := Ran.walked hr hx rfl (requests x.actor).makes
  rw [hs] at hmay
  exact Bool.or_eq_true_iff.mp hmay

theorem Ran.saved (hr : Ran requests start h w) (hx : x :: past <:+ h) {s : Stmt}
    (hs : x.call = .auto s) : s.reads = true ∨ (requests x.actor).saves s = true := by
  have hmay := Ran.walked hr hx rfl (requests x.actor).makes
  rw [hs] at hmay
  exact Bool.or_eq_true_iff.mp hmay

theorem Ran.issued (hr : Ran requests start h w) (hx : x :: past <:+ h) {s : Stmt}
    (hs : x.call.Issues (x.before.db.live x.actor) s) (hreads : s.reads = false) :
    (x.call = .stmt s ∧ (requests x.actor).writes s = true) ∨
      x.call = .auto s ∧ (requests x.actor).saves s = true := by
  rcases hs with ⟨hcall, _⟩ | hcall
  · exact .inl ⟨hcall, (Ran.wrote hr hx hcall).resolve_left (by simp [hreads])⟩
  · exact .inr ⟨hcall, (Ran.saved hr hx hcall).resolve_left (by simp [hreads])⟩

/-- A committed row changes where its writer commits, or by a statement outside a transaction
that its request saves with. -/
theorem Ran.changes (hidle : ∀ w, start w → w.Idle) (hr : Ran requests start h w)
    (hx : x :: past <:+ h) (hne : x.after.db.committed k ≠ x.before.db.committed k) :
    (x.call = .commit ∧ x.before.db.live x.actor = true ∧
        x.after.db = x.before.db.commit x.actor) ∨
      ∃ s b, x.call = .auto s ∧ (requests x.actor).saves s = true ∧
        s.Effect x.before.clock x.before.db.committed x.after.db.committed b := by
  have hd := Ran.does hr hx
  have hsaved := fun s => Ran.saved hr hx (s := s)
  have htidy := Ran.tidy hidle (hr.arises hx).run
  obtain ⟨actor, call, answer, b, a⟩ := x
  dsimp only at *
  have hauto : ∀ {s : Stmt} {r : s.Answer} {mid : Db}, call = .auto s → b.db.live actor = false →
      s.Effect b.clock (b.db.view actor) (mid.view actor) r → a.db = mid.commit actor →
      (requests actor).saves s = true ∧ s.Effect b.clock b.db.committed a.db.committed r := by
    intro s r mid hs hclosed he hafter
    have hclean : b.db.view actor = b.db.committed := funext (clean_of_tidy htidy hclosed)
    have hview : a.db.committed = mid.view actor := by
      rw [hafter]
      rfl
    rw [hclean] at he
    rcases hsaved s hs with hreads | hsaves
    · exact absurd (by rw [hview, he.of_reads hreads]) hne
    · exact ⟨hsaves, by rwa [hview]⟩
  cases call with
  | now | randomText | salt | nonce | newID | tick t => exact absurd (by rw [hd]) hne
  | rollback | disconnect j => exact absurd (by rw [hd]; rfl) hne
  | begin =>
    cases answer with
    | ok _ => exact absurd (by rw [hd.2]; rfl) hne
    | error _ => exact absurd (by rw [hd]) hne
  | stmt s =>
    cases answer with
    | ok r => exact absurd (by rw [hd.2.1.committed]) hne
    | error _ => exact absurd (by rw [hd]; rfl) hne
  | auto s =>
    cases answer with
    | ok r =>
      obtain ⟨hclosed, mid, _, he, hafter⟩ := hd
      exact .inr ⟨s, r, rfl, hauto rfl hclosed he hafter⟩
    | error _ =>
      rcases hd with hafter | ⟨hclosed, r, mid, _, he, hafter⟩
      · exact absurd (by rw [hafter]) hne
      · exact .inr ⟨s, r, rfl, hauto rfl hclosed he hafter⟩
  | commit =>
    cases answer with
    | ok _ => exact .inl ⟨rfl, hd.1, hd.2⟩
    | error _ =>
      rcases hd with hafter | hafter | ⟨hlive, hafter⟩
      · exact absurd (by rw [hafter]) hne
      · exact absurd (by rw [hafter]; rfl) hne
      · exact .inl ⟨rfl, hlive, hafter⟩

/-- A request that commits only once, with nothing written, changes no row. -/
theorem Ran.clean_keeps (hidle : ∀ w, start w → w.Idle)
    (hr : Ran requests start (new ++ y :: past) w)
    (hsaves : ∀ s, (requests y.actor).saves s = false) (hpast : Uncommitted (trace y.actor past))
    (hnew : Uncommitted (trace y.actor new)) (hclean : Clean y.actor y.before.db)
    (hx : x ∈ new ++ y :: past) (hi : x.actor = y.actor) (k : Row) :
    x.after.db.committed k = x.before.db.committed k := by
  by_contra hne
  obtain ⟨older, hsuf, _⟩ := hr.mem_arises hx
  rcases Ran.changes hidle hr hsuf hne with ⟨hcall, _, hafter⟩ | ⟨s, b, _, hs, _⟩
  · rcases List.mem_append.mp hx with hx | hx
    · exact hnew x.seen (mem_trace.mpr ⟨x, hx, hi, rfl⟩) hcall
    · rcases List.mem_cons.mp hx with rfl | hx
      · refine hne ?_
        rw [hafter]
        exact hclean _
      · exact hpast x.seen (mem_trace.mpr ⟨x, hx, hi, rfl⟩) hcall
  · rw [hi, hsaves s] at hs
    cases hs

end

end AniInference.Access
