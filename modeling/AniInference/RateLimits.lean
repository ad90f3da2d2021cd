import AniInference.AccessGrants

namespace AniInference.Access
open Lib LockedRows

/-- A bucket changes by nothing but a consumption, which leaves it within its maximum. -/
theorem Stmt.Effect.bucket {s : Stmt} {now : Instant} {v v' : View} {a : s.Answer}
    (h : s.Effect now v v' a) (tenant key : Uuid) (win : Window) (since : Instant) :
    v' (.bucket tenant key win since) = v (.bucket tenant key win since) ∨
      ∃ cost max n, s = .consumeBucket tenant key win since cost max ∧
        v' (.bucket tenant key win since) = some n ∧ n ≤ max := by
  have hsame : v' = v → v' (.bucket tenant key win since) = v (.bucket tenant key win since) :=
    fun h => by rw [h]
  cases s with
  | keyByCreateIdempotency | keyByPrefix | getKey | listKeys | lockKey | keyByRotationIdempotency
  | policyForShare | publishedModel | serviceForShare => exact .inl (hsame h.1)
  | markUsed | appendAudit => exact .inl (hsame h)
  | insertKey t id row =>
    cases a with
    | none => exact .inl (hsame h.1)
    | some a =>
      obtain ⟨_, _, _, _, rfl⟩ := h
      left
      cases hk : row.createIdempotencyKey <;> simp [View.inserted, View.entered, hk]
  | rotateKey t id p hash x c =>
    cases a with
    | none => exact .inl (hsame h.1)
    | some a =>
      obtain ⟨row, _, _, _, rfl, rfl⟩ := h
      left
      simp only [View.rotated, View.reprefixed]
      split <;> simp
  | revokeKey t id | insertPolicy t id row | updatePolicy t id row | deletePolicy t id =>
    obtain ⟨_, rfl⟩ := h
    exact .inl (by simp)
  | bindPolicy t id policy | setService t id deleted | setModel name rows =>
    obtain rfl := h
    exact .inl (by simp)
  | archiveSecret t id version hash c =>
    cases a with
    | false => exact .inl (hsame h.1)
    | true =>
      obtain ⟨row, _, _, rfl⟩ := h
      exact .inl (by simp)
  | consumeBucket t k win' start cost max =>
    cases a with
    | none => exact .inl (hsame h.1)
    | some n =>
      obtain ⟨_, hmax, rfl⟩ := h
      by_cases heq : Row.bucket tenant key win since = .bucket t k win' start
      · injection heq with h₁ h₂ h₃ h₄
        subst h₁ h₂ h₃ h₄
        exact .inr ⟨cost, max, n, rfl, by simp, hmax⟩
      · exact .inl (Function.update_of_ne heq _ _)

/-- A bucket changed only to what is within `n`. -/
def Row.Capped (bucket : Row) (n : Nat) : (k : Row) → Option k.Value → Option k.Value → Prop
  | .bucket t k win since, a, b =>
    Row.bucket t k win since = bucket → b = a ∨ (b.getD 0 : Nat) ≤ n
  | _, _, _ => True

namespace Row.Capped
variable {bucket : Row} {n : Nat}

theorem refl (k : Row) (a : Option k.Value) : Row.Capped bucket n k a a := by
  cases k with
  | bucket => exact fun _ => .inl rfl
  | key | createKey | keyPrefix | policy | service | model => trivial

theorem trans (k : Row) (a b c : Option k.Value) (h : Row.Capped bucket n k a b)
    (h' : Row.Capped bucket n k b c) : Row.Capped bucket n k a c := by
  cases k with
  | bucket t id win since =>
    intro heq
    rcases h' heq with rfl | hle
    · exact h heq
    · exact .inr hle
  | key | createKey | keyPrefix | policy | service | model => trivial

end Row.Capped

/-- The policy bound to the key, where there is one, is this one, with these limits. -/
def FixedPolicy (tenant key policyID : Uuid) (limit : Window → Nat) (h : List Event) : Prop :=
  ∀ x ∈ h, (∀ row, x.before.db.committed (.key tenant key) = some row →
      row.policyID = some policyID) ∧
    ∀ policy, x.before.db.committed (.policy tenant policyID) = some policy → policy.limit = limit

/-- `Consume` is called for the key with the limits of the policy. -/
def SameLimits (tenant key : Uuid) (limit : Window → Nat) (q : Request) : Prop :=
  ∀ tenantID id given now cost, q = .consume tenantID id given now cost →
    Uuid128.parse tenantID = some tenant → Uuid128.parse id = some key → given = limit

/-- Where the maximum of a consumption comes from. -/
def MaxFrom (q : Request) (w : World) (tenant key : Uuid) (win : Window) (max : Nat) : Prop :=
  (∃ row p policy, w.db.committed (.key tenant key) = some row ∧ row.policyID = some p ∧
      w.db.committed (.policy tenant p) = some policy ∧ max = policy.limit win) ∨
    ∃ tenantID id limit now cost, q = .consume tenantID id limit now cost ∧
      Uuid128.parse tenantID = some tenant ∧ Uuid128.parse id = some key ∧ max = limit win

/-- A request was let in: when, on which key and at what cost. -/
def Admitted (requests : Nat → Request) (h : List Event) (i : Nat) (tenant key : Uuid)
    (now : Instant) (cost : Nat) : Prop :=
  (∃ apiKey serviceID model given r row, requests i = .check apiKey serviceID model given ∧
      Answered (.check apiKey serviceID model given) i h (.ok r) ∧ r.allowed = true ∧
      r.record = some (accessKeyRecord tenant key row) ∧ timeOf (trace i h) = some now ∧
      cost = chargedCost given) ∨
    ∃ tenantID id limit, requests i = .consume tenantID id limit now cost ∧
      Answered (.consume tenantID id limit now cost) i h (.ok true) ∧
      Uuid128.parse tenantID = some tenant ∧ Uuid128.parse id = some key

/-- A request was not let in. -/
def Denied (requests : Nat → Request) (h : List Event) (i : Nat) : Prop :=
  (∃ apiKey serviceID model cost r, requests i = .check apiKey serviceID model cost ∧
      Answered (.check apiKey serviceID model cost) i h (.ok r) ∧ r.allowed = false) ∨
    ∃ tenantID id limit now cost, requests i = .consume tenantID id limit now cost ∧
      Answered (.consume tenantID id limit now cost) i h (.ok false)

section
variable {requests : Nat → Request} {start : World → Prop} {whole h past : List Event}
variable {w : World} {i : Nat} {x : Event} {tenantID id : Text} {limit : Window → Nat}
variable {now : Instant} {cost : Nat}

/-- What `Consume` consumes. -/
def ConsumeKnows (tenantID id : Text) (limit : Window → Nat) : Call → Prop
  | .stmt (.consumeBucket tenant key win _ _ max) =>
    Uuid128.parse tenantID = some tenant ∧ Uuid128.parse id = some key ∧ max = limit win
  | _ => True

variable (requests start whole i) in
/-- How `Consume` ends: with a commit that pays, or without one. -/
def ConsumeEnds (tenantID id : Text) (limit : Window → Nat) (now : Instant) (cost : Nat)
    (es : List Exchange) : Except Err Bool → Prop
  | .error _ => True
  | .ok false => Uncommitted es
  | .ok true => ∃ es₁ es₂ tenant key, es = es₁ ++ ⟨.commit, .ok ()⟩ :: es₂ ∧
    Uuid128.parse tenantID = some tenant ∧ Uuid128.parse id = some key ∧
    Held requests start whole i es₁ fun _ w =>
      ∀ win, limit win ≠ 0 → Paid i tenant key now cost win w

variable (requests whole i) in
theorem walk_consume (hidle : ∀ w, start w → w.Idle) :
    Walk (fun _ e => ConsumeKnows tenantID id limit e)
      (ConsumeEnds requests start whole i tenantID id limit now cost) []
      (consume tenantID id limit now cost).run := by
  refine walk_parseUUID trivial fun tenant ht => walk_parseUUID trivial fun key hkey => ?_
  refine walk_inTx trivial (fun _ => trivial) ?_
  have hopen : Reading requests start whole i ([] ++ [⟨.begin, .ok ()⟩]) fun _ _ => True :=
    .opened hidle (fun _ _ _ _ _ => trivial) fun _ _ _ _ _ => trivial
  have hend : ∀ es, Uncommitted es → True ∧ Uncommitted (es ++ [⟨.rollback, ()⟩]) :=
    fun es hes => ⟨trivial, hes.snoc (by simp) _⟩
  refine walk_run_bind.mpr (walk_consumeWindows (N := Uncommitted) hidle (firm_const True)
    [.second, .minute, .hour] [] (hopen.holding.held.mono fun _ _ h => ⟨h, by simp⟩)
    (fun es s r hes => hes.snoc (by simp) r) (uncommitted_nil.snoc (by simp) _)
    (fun _ => trivial) (fun es win _ => ⟨ht, hkey, rfl⟩) (fun es hes hpaid => ?_)
    (fun es t hes => hend es hes) fun _ _ => ⟨trivial, trivial⟩)
  dsimp only [Onward]
  refine walk_commit trivial (fun _ => ⟨trivial, trivial⟩) (walk_pure.mpr ⟨trivial, ?_⟩)
  refine ⟨es, [⟨.rollback, ()⟩], tenant, key, by simp, ht, hkey, ?_⟩
  exact hpaid.mono fun h w hA win => hA.2 win (window_mem win)

theorem Ran.consume_knows (hr : Ran requests start h w) (hx : x :: past <:+ h)
    (hidle : ∀ w, start w → w.Idle) (hq : requests x.actor = .consume tenantID id limit now cost) :
    ConsumeKnows tenantID id limit x.call :=
  Ran.walked hr hx hq (walk_consume requests h x.actor hidle)

/-- The maximum of a consumption that takes place is a limit of the policy, or one given. -/
theorem Ran.max_from (hidle : ∀ w, start w → w.Idle) (hr : Ran requests start h w)
    (hx : x :: past <:+ h) {tenant key : Uuid} {win : Window} {since : Instant} {c max : Nat}
    (hcall : x.call = .stmt (.consumeBucket tenant key win since c max))
    (hlive : x.before.db.live x.actor = true) :
    MaxFrom (requests x.actor) x.before tenant key win max := by
  rcases Ran.wrote hr hx hcall with hreads | hwrites
  · cases hreads
  · cases hq : requests x.actor with
    | check given serviceID model cost =>
      have hk := Ran.check_knows hidle hr hx hq
      rw [hcall] at hk
      obtain ⟨service, row, latest, p, policy, model, now, hg, rfl⟩ := hk hlive
      exact .inl ⟨latest, p, policy, hg.key.2, hg.entitled.bound, hg.binding.2, rfl⟩
    | consume tenantID id limit now cost =>
      have hk := Ran.consume_knows hr hx hidle hq
      rw [hcall] at hk
      exact .inr ⟨tenantID, id, limit, now, cost, rfl, hk⟩
    | _ => simp [hq, Request.writes] at hwrites

end

section
variable {requests : Nat → Request} {start : World → Prop} {h past : List Event}
variable {w : World} {tenant key policyID : Uuid} {limit : Window → Nat}

/-- While the policy is fixed, a bucket of the key changes only to what is within its limit. -/
theorem Ran.respects_capped (hidle : ∀ w, start w → w.Idle) (hr : Ran requests start h w)
    (hfixed : FixedPolicy tenant key policyID limit h)
    (hsame : ∀ i, SameLimits tenant key limit (requests i)) (win : Window) (since : Instant)
    {y : Event} (hy : y :: past <:+ h) :
    Respects (fun _ => Row.Capped (.bucket tenant key win since) (limit win)) y := by
  intro s hs v' b he k
  cases k with
  | bucket t id win' since' =>
    intro heq
    injection heq with h₁ h₂ h₃ h₄
    subst h₁ h₂ h₃ h₄
    rcases he.bucket t id win' since' with hsame' | ⟨cost, max, n, rfl, hn, hmax⟩
    · exact .inl hsame'
    · right
      rw [hn]
      refine Nat.le_trans hmax ?_
      rcases hs with ⟨hcall, hlive⟩ | hcall
      · rcases Ran.max_from hidle hr hy hcall hlive with
          ⟨row, p, policy, hrow, hp, hpolicy, rfl⟩ | ⟨tenantID, id', given, now, cost',
            hq, ht, hk, rfl⟩
        · obtain ⟨hkey, hlimit⟩ := hfixed y (hy.subset List.mem_cons_self)
          obtain rfl := Option.some.inj (hp.symm.trans (hkey row hrow))
          rw [hlimit policy hpolicy]
        · rw [hsame y.actor tenantID id' given now cost' hq ht hk]
      · rcases Ran.saved hr hy hcall with hreads | hsaves
        · cases hreads
        · cases hq : requests y.actor <;> simp [hq, Request.saves] at hsaves
  | key | createKey | keyPrefix | policy | service | model => trivial

/-- The count of a bucket. -/
def count (bucket : Uuid × Uuid × Window × Instant) (w : World) : Nat :=
  (w.db.committed (.bucket bucket.1 bucket.2.1 bucket.2.2.1 bucket.2.2.2)).getD 0

theorem Ran.count_step (hidle : ∀ w, start w → w.Idle) (hr : Ran requests start h w)
    (hfixed : FixedPolicy tenant key policyID limit h)
    (hsame : ∀ i, SameLimits tenant key limit (requests i)) (win : Window) (since : Instant)
    (hx : x :: past <:+ h) :
    count (tenant, key, win, since) x.after = count (tenant, key, win, since) x.before ∨
      count (tenant, key, win, since) x.before ≤ count (tenant, key, win, since) x.after ∧
        count (tenant, key, win, since) x.after ≤ limit win := by
  have hgrow := (Ran.evolves hidle hr hx (.bucket tenant key win since)).1
  have hcap := Ran.committed_step hidle (fun _ => Row.Capped.refl) (fun _ => Row.Capped.trans) hr
    (fun y older hy => Ran.respects_capped hidle hr hfixed hsame win since hy) hx
    (.bucket tenant key win since) rfl
  rcases hcap with hkept | hle
  · left
    unfold count
    rw [hkept]
  · exact .inr ⟨hgrow, hle⟩

/-- A commit that pays raises the count by what it pays. -/
theorem paid_gain {y : Event} {win : Window} (hafter : y.after.db = y.before.db.commit i)
    (hp : Paid i tenant key now cost win y.before) :
    cost ≤ count (tenant, key, win, win.start now) y.after -
      count (tenant, key, win, win.start now) y.before := by
  have hcommit : count (tenant, key, win, win.start now) y.after =
      (y.before.db.view i (.bucket tenant key win (win.start now))).getD 0 := by
    unfold count
    rw [hafter]
    rfl
  have hpaid : count (tenant, key, win, win.start now) y.before + cost ≤
      (y.before.db.view i (.bucket tenant key win (win.start now))).getD 0 := hp.2
  omega

theorem accessKeyRecord_inj {tenant tenant' id id' : Uuid} {row row' : KeyRow}
    (h : accessKeyRecord tenant id row = accessKeyRecord tenant' id' row') :
    tenant = tenant' ∧ id = id' :=
  ⟨Uuid128.text_inj (congrArg Record.tenantID h), Uuid128.text_inj (congrArg Record.id h)⟩

/-- Whoever is let in has raised the count of each limited bucket of its time by its cost. -/
theorem Ran.admitted_gain (hidle : ∀ w, start w → w.Idle) (hr : Ran requests start h w)
    (hfixed : FixedPolicy tenant key policyID limit h)
    (hsame : ∀ i, SameLimits tenant key limit (requests i)) {i : Nat} {now : Instant} {cost : Nat}
    (ha : Admitted requests h i tenant key now cost) {win : Window} (hpos : limit win ≠ 0) :
    cost ≤ gain (count (tenant, key, win, win.start now)) i h := by
  have hgain : ∀ {y : Event} {past : List Event}, y :: past <:+ h → y.actor = i →
      y.after.db = y.before.db.commit i → Paid i tenant key now cost win y.before →
      cost ≤ gain (count (tenant, key, win, win.start now)) i h := by
    intro y past hy hi hafter hp
    exact Nat.le_trans (paid_gain hafter hp) (le_gain (hy.subset List.mem_cons_self) hi)
  rcases ha with ⟨apiKey, serviceID, model, given, r, row, hq, hanswer, hallowed,
    hrecord, htime, rfl⟩ |
    ⟨tenantID, id, given, hq, hanswer, ht, hk⟩
  · rcases check_ends requests hidle hanswer with ⟨hdenied, _⟩ |
      ⟨_, es₁, es₂, tenant', id', service, row', latest, p, policy, now', htrace, htime', hrecord',
        _, hheld⟩
    · simp [hallowed] at hdenied
    · obtain ⟨rfl, rfl⟩ := accessKeyRecord_inj (Option.some.inj (hrecord'.symm.trans hrecord))
      rw [htrace, timeOf_append htime'] at htime
      obtain rfl := Option.some.inj htime
      obtain ⟨y, past, hy, hi, _, ⟨hg, hpaid⟩, hafter⟩ := Ran.committed hr htrace hheld
      obtain ⟨hkey, hlimit⟩ := hfixed y (hy.subset List.mem_cons_self)
      obtain rfl := Option.some.inj (hg.entitled.bound.symm.trans (hkey latest hg.key.2))
      refine hgain hy hi hafter (hpaid win ?_)
      rw [hlimit policy hg.binding.2]
      exact hpos
  · obtain rfl := hsame i tenantID id given now cost hq ht hk
    obtain ⟨es₁, es₂, tenant', key', htrace, ht', hk', hheld⟩ :=
      (walk_consume requests h i hidle).played hanswer
    obtain rfl := Option.some.inj (ht'.symm.trans ht)
    obtain rfl := Option.some.inj (hk'.symm.trans hk)
    obtain ⟨y, past, hy, hi, _, hpaid, hafter⟩ := Ran.committed hr htrace hheld
    exact hgain hy hi hafter (hpaid win hpos)

theorem Ran.denied_uncommitted (hidle : ∀ w, start w → w.Idle) (hd : Denied requests h i) :
    Uncommitted (trace i h) := by
  rcases hd with ⟨apiKey, serviceID, model, cost, r, _, hanswer, hdenied⟩ |
    ⟨tenantID, id, limit, now, cost, _, hanswer⟩
  · rcases check_ends requests hidle hanswer with ⟨_, hnone⟩ | ⟨hallowed, _⟩
    · exact hnone
    · simp [hdenied] at hallowed
  · exact (walk_consume requests h i hidle).played hanswer

/-- While one policy is bound to a key, all that is let in during one aligned window costs no more
than its limit. Whoever is not let in leaves every bucket as it was. -/
theorem rate_limits_hold (hidle : ∀ w, start w → w.Idle) (hr : Ran requests start h w) :
    (∀ tenant key policyID limit, FixedPolicy tenant key policyID limit h →
      (∀ i, SameLimits tenant key limit (requests i)) →
      ∀ (win : Window) (since : Instant) (is : Finset Nat) (cost : Nat → Nat), 0 < limit win →
        (∀ i ∈ is, ∃ now, Admitted requests h i tenant key now (cost i) ∧ win.start now = since) →
        ∑ i ∈ is, cost i ≤ limit win) ∧
      ∀ i, Denied requests h i → ∀ x ∈ h, x.actor = i → ∀ tenant key win since,
        x.after.db.committed (.bucket tenant key win since) =
          x.before.db.committed (.bucket tenant key win since) := by
  refine ⟨fun tenant key policyID limit hfixed hsame win since is cost hpos hadmitted => ?_,
    fun i hd x hx hi tenant key win since => ?_⟩
  · calc ∑ i ∈ is, cost i
        ≤ ∑ i ∈ is, gain (count (tenant, key, win, since)) i h := by
          refine Finset.sum_le_sum fun i hmem => ?_
          obtain ⟨now, ha, rfl⟩ := hadmitted i hmem
          exact Ran.admitted_gain hidle hr hfixed hsame ha (Nat.ne_of_gt hpos)
      _ ≤ limit win := hr.gains_le
          (fun x past hx => Ran.count_step hidle hr hfixed hsame win since hx) is
  · obtain ⟨past, hsuf, _⟩ := hr.mem_arises hx
    by_contra hne
    rcases Ran.changes hidle hr hsuf hne with ⟨hcommit, _⟩ | ⟨s, b, _, hsaves, he⟩
    · exact Ran.denied_uncommitted hidle hd x.seen (mem_trace.mpr ⟨x, hx, hi, rfl⟩) hcommit
    · rcases he.bucket tenant key win since with hsame | ⟨cost, max, n, rfl, _⟩
      · exact hne hsame
      · cases hq : requests x.actor <;> simp [hq, Request.saves] at hsaves

end

namespace Sample

/-- Two checks of one key. -/
def checks (_ : Nat) : Request := .check secret [] model 1

def twoChecks : Play World Call Call.Answer ((q : Request) × Except Err q.Result) :=
  play act (fun i => (checks i).program) (World.idle (rows (some row)) 5000000123)
    (List.replicate 2 (1, smooth 'y' key) ++ List.replicate 13 (0, smooth 'y' key) ++
      List.replicate 9 (1, smooth 'y' key))

def answeredWith (allowed : Bool) : (q : Request) × Except Err q.Result → Bool
  | ⟨.check .., .ok r⟩ => r.allowed = allowed ∧ r.record = some (accessKeyRecord tenant key row)
  | _ => false

theorem answered_check {p : Play World Call Call.Answer ((q : Request) × Except Err q.Result)}
    (hp : p.Sound act (fun i => (checks i).program) start)
    (ha : (p.result i).any (answeredWith allowed) = true) :
    ∃ r, Answered (.check secret [] model 1) i p.history (.ok r) ∧ r.allowed = allowed ∧
      r.record = some (accessKeyRecord tenant key row) := by
  obtain ⟨r, hplayed, htest⟩ := answered_of_result hp ha
  cases r with
  | error e => cases htest
  | ok r => exact ⟨r, hplayed, of_decide_eq_true htest⟩

set_option maxRecDepth 100000 in
theorem twoChecks_facts : (twoChecks.result 0).any (answeredWith true) = true ∧
    (twoChecks.result 1).any (answeredWith false) = true ∧
    timeOf (trace 0 twoChecks.history) = some 5000000123 ∧
    (twoChecks.history.all fun x => x.before.db.committed (.key tenant key) = some row ∧
      x.before.db.committed (.policy tenant policyID) = some policy) = true := by
  decide +kernel

end Sample

open Sample in
theorem rate_limits_hold_two_checks :
    Admitted checks twoChecks.history 0 tenant key 5000000123 1 ∧
      Denied checks twoChecks.history 1 ∧ ∑ _i ∈ ({0} : Finset Nat), 1 ≤ policy.limit .second ∧
      ∀ x ∈ twoChecks.history, x.actor = 1 → ∀ t k win since,
        x.after.db.committed (.bucket t k win since) =
          x.before.db.committed (.bucket t k win since) := by
  have hsound : twoChecks.Sound act (fun i => (checks i).program)
      (Eq (World.idle (rows (some row)) 5000000123)) := play_sound rfl _
  obtain ⟨h₀, h₁, htime, hall⟩ := twoChecks_facts
  obtain ⟨r₀, ha₀, hallowed, hrecord⟩ := answered_check hsound h₀
  obtain ⟨r₁, ha₁, hdenied, _⟩ := answered_check hsound h₁
  have hadmitted : Admitted checks twoChecks.history 0 tenant key 5000000123 1 :=
    .inl ⟨secret, [], model, 1, r₀, row, rfl, ha₀, hallowed, hrecord, htime, rfl⟩
  have hden : Denied checks twoChecks.history 1 :=
    .inl ⟨secret, [], model, 1, r₁, rfl, ha₁, hdenied⟩
  have hfixed : FixedPolicy tenant key policyID policy.limit twoChecks.history := by
    intro x hx
    have hrows := of_decide_eq_true (List.all_eq_true.mp hall x hx)
    refine ⟨fun r hr => ?_, fun p hp => ?_⟩
    · rw [← Option.some.inj (hrows.1.symm.trans hr)]
      rfl
    · rw [← Option.some.inj (hrows.2.symm.trans hp)]
  have hboth := rate_limits_hold (by rintro w rfl; exact World.idle_idle _ _) hsound.run
  refine ⟨hadmitted, hden, ?_, hboth.2 1 hden⟩
  refine hboth.1 tenant key policyID policy.limit hfixed ?_ .second 5000000000 {0} (fun _ => 1)
    (by decide) ?_
  · intro i tenantID id given now cost hq
    cases hq
  · intro i hi
    rw [Finset.mem_singleton.mp hi]
    exact ⟨5000000123, hadmitted, by decide⟩

end AniInference.Access
