import AniInference.AccessWrites

namespace AniInference.Access
open Lib LockedRows

/-- Process `i` is alone with a bucket and has added the cost to it. -/
def Paid (i : Nat) (tenant key : Uuid) (now : Instant) (cost : Nat) (win : Window) (w : World) :
    Prop :=
  w.db.lock (.bucket tenant key win (win.start now)) = .exclusive i ∧
    (w.db.committed (.bucket tenant key win (win.start now))).getD 0 + cost ≤
      (w.db.view i (.bucket tenant key win (win.start now))).getD 0

section
variable {requests : Nat → Request} {start : World → Prop} {whole : List Event} {i : Nat}
variable {es : List Exchange} {A : List Event → World → Prop} {Φ : List Exchange → Call → Prop}

section
variable {tenant key : Uuid} {limit : Window → Nat} {now : Instant} {cost : Nat}

theorem firm_paid (win : Window) :
    Firm requests start whole i fun _ w => Paid i tenant key now cost win w := by
  intro y past hy ha hown hl h
  obtain ⟨hlock, hcommitted⟩ := firm_exclusive _ _ y past hy ha hown hl ⟨h.1, rfl⟩
  obtain ⟨_, hgrown⟩ := firm_evolved _ _ y past hy ha hown hl ⟨h.1, Row.Evolves.refl _ _⟩
  refine ⟨hlock, ?_⟩
  rw [hcommitted]
  exact Nat.le_trans h.2 hgrown

theorem firm_paid_all (done : List Window) :
    Firm requests start whole i fun _ w =>
      ∀ win ∈ done, limit win ≠ 0 → Paid i tenant key now cost win w :=
  fun y past hy ha hown hl h win hwin hne => firm_paid win y past hy ha hown hl (h win hwin hne)

/-- A bucket that is not full takes the cost. -/
theorem Holding.paid (hidle : ∀ w, start w → w.Idle) (h : Holding requests start whole i es A) :
    Holding requests start whole i
      (es ++ [⟨.stmt (.consumeBucket tenant key win (win.start now) cost (limit win)),
        .ok (some count)⟩])
      fun h w => A h w ∧ Paid i tenant key now cost win w := by
  refine h.stmt _ _ (firm_paid win) fun past b a _ hr hd _ => ?_
  obtain ⟨_, hw, ⟨hcount, _, hview⟩, hlock⟩ := hd
  refine ⟨hlock, ?_⟩
  have hgrown := (Ran.evolving hidle hr).view (fun _ => Row.Evolves.refl) i
    (.bucket tenant key win (win.start now))
  rw [hw.committed, hview, Function.update_self, hcount]
  exact Nat.add_le_add_right hgrown cost

/-- The loop over the windows: it ends with every limited bucket paid, or with one full. -/
theorem walk_consumeWindows (hidle : ∀ w, start w → w.Idle)
    {Θ : List Exchange → Except Err (Option Nat) → Prop}
    (hA : Firm requests start whole i A) (ws done : List Window)
    (hk : Held requests start whole i es fun h w =>
      A h w ∧ ∀ win ∈ done, limit win ≠ 0 → Paid i tenant key now cost win w)
    {N : List Exchange → Prop} (hN : ∀ es s r, N es → N (es ++ [⟨.stmt s, r⟩]))
    (hes : N es) (hmark : ∀ es, Φ es (.stmt (.markUsed tenant key)))
    (hconsume : ∀ es win, Held requests start whole i es A →
      Φ es (.stmt (.consumeBucket tenant key win (win.start now) cost (limit win))))
    (hdone : ∀ es, N es → (Held requests start whole i es fun h w =>
      A h w ∧ ∀ win ∈ done ++ ws, limit win ≠ 0 → Paid i tenant key now cost win w) →
      Θ es (.ok none))
    (hfull : ∀ es t, N es → Θ es (.ok (some t))) (herr : ∀ es e, Θ es (.error e)) :
    Walk Φ Θ es (consumeWindows tenant key limit now cost ws).run := by
  have hholding : ∀ {es done}, (Held requests start whole i es fun h w =>
      A h w ∧ ∀ win ∈ done, limit win ≠ 0 → Paid i tenant key now cost win w) →
      Holding requests start whole i es fun h w =>
        A h w ∧ ∀ win ∈ done, limit win ≠ 0 → Paid i tenant key now cost win w :=
    fun hk => ⟨hA.and (firm_paid_all _), hk⟩
  have hmore : ∀ {w : World} {last : Window} {done : List Window},
      (∀ win ∈ done, limit win ≠ 0 → Paid i tenant key now cost win w) →
      (limit last ≠ 0 → Paid i tenant key now cost last w) →
      ∀ win ∈ done ++ [last], limit win ≠ 0 → Paid i tenant key now cost win w := by
    intro w last done hdone hlast win hwin hne
    rcases List.mem_append.mp hwin with hwin | hwin
    · exact hdone win hwin hne
    · obtain rfl := List.mem_singleton.mp hwin
      exact hlast hne
  induction ws generalizing es done with
  | nil =>
    refine walk_stmt (hmark es) (fun _ => herr _ _) fun _ => ?_
    refine hdone _ (hN _ _ _ hes) ?_
    rw [List.append_nil]
    exact ((hholding hk).keep _ _).held
  | cons win ws ih =>
    unfold consumeWindows
    split
    · next hzero =>
      refine ih (done ++ [win]) (hk.mono fun h w hA => ⟨hA.1, ?_⟩) hes (by simpa using hdone)
      exact hmore hA.2 fun hne => absurd hzero hne
    · refine walk_stmt (hconsume es win (hk.mono fun _ _ h => h.1)) (fun _ => herr _ _)
        fun count => ?_
      cases count with
      | none => exact hfull _ _ (hN _ _ _ hes)
      | some count =>
        refine ih (done ++ [win]) ((Holding.paid hidle (hholding hk)).held.mono
          fun h w hA => ⟨hA.1.1, ?_⟩) (hN _ _ _ hes) (by simpa using hdone)
        exact hmore hA.1.2 fun _ => hA.2

end

/-- Under the lock of process `i` on the service, the model is served by this service alone, with
an effective publication. -/
def PublishedAt (i : Nat) (tenant service : Uuid) (model : Text) (z : Event) : Prop :=
  z.actor = i ∧ z.call = .stmt (.publishedModel model) ∧
    (z.before.db.lock (.service tenant service)).HeldBy i ∧
    z.before.db.committed (.service tenant service) = some false ∧
    lookupPublishedModel ((z.before.db.committed (.model model)).getD []) = some (tenant, service)

/-- The key as it is now lets the caller in, who was let in by the row read before. -/
structure Entitled (row latest : KeyRow) (p : Uuid) (policy : PolicyRow) (model : Text)
    (now : Instant) : Prop where
  becomes : row.Becomes latest
  version : latest.version = row.version
  active : latest.revokedAt = none
  unexpired : ∀ t, latest.expiresAt = some t → now < t
  bound : latest.policyID = some p
  listed : model ∈ policy.allowedModelNames

/-- What a check has found out when it pays, and holds in place by its locks. -/
structure Granted (i : Nat) (tenant id service : Uuid) (row latest : KeyRow) (p : Uuid)
    (policy : PolicyRow) (model : Text) (now : Instant) (h : List Event) (w : World) : Prop where
  published : ∃ z ∈ h, PublishedAt i tenant service model z
  key : w.db.lock (.key tenant id) = .exclusive i ∧ w.db.committed (.key tenant id) = some latest
  binding : (w.db.lock (.policy tenant p)).HeldBy i ∧
    w.db.committed (.policy tenant p) = some policy
  entitled : Entitled row latest p policy model now

/-- The access is granted, and every window its policy limits has been paid. -/
def PaidUp (i : Nat) (tenant id service : Uuid) (row latest : KeyRow) (p : Uuid)
    (policy : PolicyRow) (model : Text) (now : Instant) (cost : Nat) (h : List Event) (w : World) :
    Prop :=
  Granted i tenant id service row latest p policy model now h w ∧
    ∀ win, policy.limit win ≠ 0 → Paid i tenant id now cost win w

theorem firm_granted {tenant id service p : Uuid} {row latest : KeyRow} {policy : PolicyRow}
    {model : Text} {now : Instant} :
    Firm requests start whole i (Granted i tenant id service row latest p policy model now) := by
  intro y past hy ha hown hl h
  exact ⟨firm_seen _ y past hy ha hown hl h.published,
    firm_exclusive _ _ y past hy ha hown hl h.key,
      firm_held _ _ y past hy ha hown hl h.binding, h.entitled⟩

section
variable {tenant id service : Uuid} {row : KeyRow} {model : Text} {now : Instant} {cost : Nat}
variable {Θ : List Exchange → Except Err CheckResult → Prop} {N : List Exchange → Prop}

theorem window_mem (win : Window) : win ∈ [Window.second, .minute, .hour] := by
  cases win <;> simp

variable (hidle : ∀ w, start w → w.Idle) (hread : ∀ es s, s.reads = true → Φ es (.stmt s))
variable (hconsume : ∀ es latest p policy win, Held requests start whole i es
  (Granted i tenant id service row latest p policy model now) →
  Φ es (.stmt (.consumeBucket tenant id win (win.start now) cost (policy.limit win))))
variable (hcommit : ∀ es latest p policy, Held requests start whole i es
  (PaidUp i tenant id service row latest p policy model now cost) → Φ es .commit)
include hidle hread hconsume hcommit

/-- Under the lock on the key: a check pays and commits only where it grants. -/
theorem walk_consumeLatest
    (hk : Reading requests start whole i es fun h w =>
      (Row.key tenant id).Evolves (some row) (w.db.committed (.key tenant id)) ∧
        ∃ z ∈ h, PublishedAt i tenant service model z)
    (hN : ∀ es s r, N es → N (es ++ [⟨.stmt s, r⟩])) (hes : N es)
    (hallowed : ∀ es latest p policy, N es → Held requests start whole i es
      (PaidUp i tenant id service row latest p policy model now cost) →
      Θ (es ++ [⟨.commit, .ok ()⟩])
        (.ok ⟨some (accessKeyRecord tenant id row), true, none, 0, policy.version⟩))
    (hdenied : ∀ es r, N es → r.allowed = false → Θ es (.ok r)) (herr : ∀ es e, Θ es (.error e)) :
    Walk Φ Θ es (consumeLatest (accessKeyRecord tenant id row) tenant id model now cost).run := by
  refine walk_stmt (hread _ _ rfl) (fun _ => herr _ _) fun latest => ?_
  have n₁ := hN _ (.lockKey tenant id) (.ok latest) hes
  cases latest with
  | none => exact hdenied _ _ n₁ rfl
  | some latest =>
    have h₁ := hk.stmt (.lockKey tenant id) rfl (some latest)
      ((firm_exclusive (.key tenant id) (some latest)).and (firm_const (row.Becomes latest)))
      fun past b a _ hsame he hlock hA => by
        have hlatest : b.db.committed (.key tenant id) = some latest := he.2.symm
        obtain ⟨r, hr, hbecomes⟩ := hA.1 row rfl
        obtain rfl := Option.some.inj (hlatest.symm.trans hr)
        exact ⟨⟨hlock, by rw [hsame, hlatest]⟩, hbecomes⟩
    dsimp only
    split
    · exact hdenied _ _ n₁ rfl
    split
    · exact hdenied _ _ n₁ rfl
    split
    · exact hdenied _ _ n₁ rfl
    next hversion hrevoked hexpired =>
    cases hp : latest.policyID with
    | none => exact hdenied _ _ n₁ rfl
    | some p =>
      refine walk_stmt (hread _ _ rfl) (fun _ => herr _ _) fun policy => ?_
      have n₂ := hN _ (.policyForShare tenant p) (.ok policy) n₁
      cases policy with
      | none => exact hdenied _ _ n₂ rfl
      | some policy =>
        have h₂ := h₁.stmt (.policyForShare tenant p) rfl (some policy)
          (firm_held (.policy tenant p) (some policy)) fun past b a _ hsame he hlock hA =>
            ⟨hlock, by rw [hsame, ← he.2]⟩
        dsimp only
        split
        · exact hdenied _ _ n₂ rfl
        · next hlisted =>
          have hentitled : row.Becomes latest → Entitled row latest p policy model now := by
            intro hbecomes
            refine ⟨hbecomes, Decidable.not_not.mp hversion, by simpa using hrevoked, ?_, hp,
              Decidable.not_not.mp hlisted⟩
            intro t ht
            simpa [ht] using hexpired
          have h₃ : Held requests start whole i _
              (Granted i tenant id service row latest p policy model now) :=
            h₂.holding.held.mono fun h w hA =>
              ⟨hA.1.1.2, hA.1.2.1, hA.2, hentitled hA.1.2.2⟩
          refine walk_run_bind.mpr (walk_consumeWindows hidle firm_granted
            [.second, .minute, .hour] [] (h₃.mono fun h w hA => ⟨hA, by simp⟩) hN n₂
            (fun es => hread es _ rfl) (fun es win hg => hconsume es latest p policy win hg)
            (fun es hes hpaid => ?_) (fun es t hes => hdenied _ _ hes rfl) fun es e => herr _ _)
          have hall := hpaid.mono fun h w hA => And.intro hA.1 fun win => hA.2 win (window_mem win)
          exact walk_commit (hcommit es latest p policy hall) (fun _ => herr _ _)
            (hallowed es latest p policy hes hall)

/-- The transaction of an access check pays and commits only where it grants. -/
theorem walk_consumeAccess
    (hk : Knows requests start whole i es fun _ w =>
      (Row.key tenant id).Evolves (some row) (w.db.committed (.key tenant id)))
    (hN : ∀ es e r, e ≠ .commit → N es → N (es ++ [⟨e, r⟩])) (hes : N es)
    (hbegin : ∀ es, Φ es .begin) (hroll : ∀ es, Φ es .rollback)
    (hallowed : ∀ es latest p policy, N es → Held requests start whole i es
      (PaidUp i tenant id service row latest p policy model now cost) →
      Θ (es ++ [⟨.commit, .ok ()⟩] ++ [⟨.rollback, ()⟩])
        (.ok ⟨some (accessKeyRecord tenant id row), true, none, 0, policy.version⟩))
    (hdenied : ∀ es r, N es → r.allowed = false → Θ es (.ok r)) (herr : ∀ es e, Θ es (.error e)) :
    Walk Φ Θ es (consumeAccess (accessKeyRecord tenant id row) service.text model now
      cost).run := by
  refine walk_inTx (hbegin es) (fun _ => herr _ _) ?_
  have hno : ∀ es r, N es → r.allowed = false → Φ es .rollback ∧
    Θ (es ++ [⟨.rollback, ()⟩]) (.ok r) :=
    fun es r hes hr => ⟨hroll es, hdenied _ r (hN _ _ _ (by simp) hes) hr⟩
  have hfail : ∀ es e, Φ es .rollback ∧ Θ (es ++ [⟨.rollback, ()⟩]) (.error e) :=
    fun es e => ⟨hroll es, herr _ _⟩
  have hs : ∀ es (s : Stmt) r, N es → N (es ++ [⟨.stmt s, r⟩]) := fun es s r => hN es _ r (by simp)
  have n₀ := hN _ .begin (.ok ()) (by simp) hes
  have h₀ := Reading.opened hidle hk (lasting_evolves hidle _ _)
  refine walk_stmt (hread _ _ rfl) (fun _ => hfail _ _) fun rows => ?_
  have n₁ := hs _ (.publishedModel model) (.ok rows) n₀
  have h₁ := h₀.keep (.publishedModel model) rfl rows
  cases lookupPublishedModel rows with
  | none => exact hno _ _ n₁ rfl
  | some found =>
    obtain ⟨pt, ps⟩ := found
    dsimp only
    split
    · exact hno _ _ n₁ rfl
    · next hsame =>
      simp only [not_or, Decidable.not_not] at hsame
      obtain rfl := Uuid128.text_inj hsame.1
      obtain rfl := Uuid128.text_inj hsame.2
      refine walk_stmt (hread _ _ rfl) (fun _ => hfail _ _) fun shared => ?_
      have n₂ := hs _ (.serviceForShare pt ps) (.ok shared) n₁
      cases shared with
      | false => exact hno _ _ n₂ rfl
      | true =>
        have h₂ := h₁.stmt (.serviceForShare pt ps) rfl true
          (firm_held (.service pt ps) (some false)) fun _ b a _ hsame he hlock _ => by
            have hfree : b.db.committed (.service pt ps) = some false := by simpa using he.2
            exact ⟨hlock, by rw [hsame, hfree]⟩
        refine walk_stmt (hread _ _ rfl) (fun _ => hfail _ _) fun again => ?_
        have n₃ := hs _ (.publishedModel model) (.ok again) n₂
        split
        · exact hno _ _ n₃ rfl
        · next hagain =>
          have h₃ := h₂.stmt (.publishedModel model) rfl again
            (firm_seen (PublishedAt i pt ps model)) fun past b a _ _ he _ hA => by
              refine ⟨_, List.mem_cons_self, rfl, rfl, hA.2.1, hA.2.2, ?_⟩
              rw [← he.2]
              exact Decidable.not_not.mp hagain
          refine walk_parseUUID (hfail _ _) fun tenant ht =>
            walk_parseUUID (hfail _ _) fun key hkey => ?_
          obtain rfl := Option.some.inj ((Uuid128.parse_text pt).symm.trans ht)
          obtain rfl := Option.some.inj ((Uuid128.parse_text id).symm.trans hkey)
          have h₄ : Reading requests start whole i _ fun h w =>
              (Row.key pt id).Evolves (some row) (w.db.committed (.key pt id)) ∧
                ∃ z ∈ h, PublishedAt i pt ps model z :=
            ⟨h₀.firm.and (firm_seen _), h₃.held.mono fun h w hA => ⟨⟨hA.1.1.1, hA.1.2⟩, hA.2⟩⟩
          exact walk_consumeLatest hidle hread hconsume hcommit h₄ hs n₃
            (fun es latest p policy hes hg =>
              ⟨hroll _, hallowed es latest p policy hes hg⟩) hno hfail

end

/-- The time a request read, the first if it read several. -/
def timeOf (es : List Exchange) : Option Instant :=
  es.findSome? fun a => match a with
    | ⟨.now, t⟩ => some t
    | _ => none

/-- A check that has read the time and committed nothing. -/
def Underway (now : Instant) (es : List Exchange) : Prop :=
  Uncommitted es ∧ timeOf es = some now

theorem timeOf_append (h : timeOf es = some t) : timeOf (es ++ es') = some t := by
  unfold timeOf at h ⊢
  rw [List.findSome?_append, h]
  rfl

theorem Underway.snoc (h : Underway now es) (he : e ≠ .commit) (r : e.Answer) :
    Underway now (es ++ [⟨e, r⟩]) :=
  ⟨h.1.snoc he r, timeOf_append h.2⟩

/-- The row was committed at some moment, and the key has evolved from it. -/
def Seen (tenant id : Uuid) (row : KeyRow) (h : List Event) (w : World) : Prop :=
  (∃ z ∈ h, z.before.db.committed (.key tenant id) = some row) ∧
    (Row.key tenant id).Evolves (some row) (w.db.committed (.key tenant id))

theorem lasting_seen (hidle : ∀ w, start w → w.Idle) (tenant id : Uuid) (row : KeyRow) :
    Lasting act (fun i => (requests i).program) start whole (Seen tenant id row) := by
  intro y past hy ha h
  obtain ⟨⟨z, hz, hrow⟩, hevolves⟩ := h
  exact ⟨⟨z, List.mem_cons_of_mem y hz, hrow⟩, lasting_evolves hidle _ _ y past hy ha hevolves⟩

/-- What a statement outside a transaction answers it read from what is committed. -/
theorem auto_committed (hidle : ∀ w, start w → w.Idle) (hs : s.reads = true)
    (ha : Arises act (fun i => (requests i).program) start
      (⟨i, .auto s, .ok r, b, a⟩ : Event) past) :
    s.Effect b.clock b.db.committed b.db.committed r := by
  obtain ⟨hclosed, mid, hw, he, _⟩ := does_of_arises ha
  have hclean : b.db.view i = b.db.committed :=
    funext (clean_of_tidy (Ran.tidy hidle ha.run) hclosed)
  have hread := he.of_reads hs
  have he' : s.Effect b.clock (b.db.view i) (mid.view i) r := he
  rw [hread] at he'
  change s.Effect b.clock (b.db.view i) (b.db.view i) r at he'
  rwa [hclean] at he'

theorem seen_by_prefix (hidle : ∀ w, start w → w.Idle) {text : Text} {tenant id : Uuid}
    {row : KeyRow} :
    Knows requests start whole i (es ++ [⟨.auto (.keyByPrefix text), .ok (some (tenant, id, row))⟩])
      (Seen tenant id row) := by
  refine Known.call (Q := fun _ _ => True) (fun _ _ _ _ _ => trivial)
    (fun b a past hx ha _ => ?_) (lasting_seen hidle tenant id row).stable
  obtain ⟨_, hfound⟩ := auto_committed hidle rfl ha
  have hrow : b.db.committed (.key tenant id) = some row := by
    cases hp : b.db.committed (.keyPrefix text) with
    | none => simp [hp] at hfound
    | some p =>
      cases hv : b.db.committed (.key p.1 p.2) with
      | none => simp [hp, hv] at hfound
      | some r =>
        simp only [hp, Option.bind_some, hv, Option.map_some, Option.some.injEq,
          Prod.mk.injEq] at hfound
        obtain ⟨rfl, rfl, rfl⟩ := hfound
        exact hv
  refine ⟨⟨_, List.mem_cons_self, hrow⟩, ?_⟩
  refine lasting_evolves hidle _ _ _ past hx ha ?_
  change (Row.key tenant id).Evolves (some row) (b.db.committed (.key tenant id))
  rw [hrow]
  exact Row.Evolves.refl _ _

theorem walk_archive {β : Type} {Θ : List Exchange → Except Err β → Prop}
    {tenant id : Uuid} {row : KeyRow} {c : Sealed} {f : Unit → Service β}
    (hΦ : Φ es (.auto (.archiveSecret tenant id row.version row.secretHash c)))
    (herr : ∀ why, Θ (es ++ [⟨.auto (.archiveSecret tenant id row.version row.secretHash c),
      .error why⟩]) (.error (.database why)))
    (hf : ∀ r, Walk Φ Θ (es ++ [⟨.auto (.archiveSecret tenant id row.version row.secretHash c),
      .ok r⟩]) (f ()).run) :
    Walk Φ Θ es (archive (accessKeyRecord tenant id row) c >>= f).run := by
  have htenant : Uuid128.parse (accessKeyRecord tenant id row).tenantID = some tenant :=
    Uuid128.parse_text tenant
  have hid : Uuid128.parse (accessKeyRecord tenant id row).id = some id := Uuid128.parse_text id
  unfold archive parseUUID
  rw [htenant, hid]
  refine ⟨hΦ, fun r => ?_⟩
  cases r with
  | ok r => exact hf r
  | error why => exact herr why

variable (requests whole i) in
/-- A check: what it knows where it pays, commits, archives and is answered. -/
theorem walk_check (hidle : ∀ w, start w → w.Idle) (hplain : ∀ es e, e.plain = true → Φ es e)
    (hconsume : ∀ es tenant id service row latest p policy win now,
      verifySecret (Text.trimSpace given) row.secretHash = true → Held requests start whole i es
        (Granted i tenant id service row latest p policy (Text.trimSpace model) now) →
      Φ es (.stmt (.consumeBucket tenant id win (win.start now) (chargedCost cost)
        (policy.limit win))))
    (hcommit : ∀ es tenant id service row latest p policy now,
      verifySecret (Text.trimSpace given) row.secretHash = true → Held requests start whole i es
        (PaidUp i tenant id service row latest p policy (Text.trimSpace model) now
          (chargedCost cost)) → Φ es .commit)
    (harchive : ∀ es tenant id row nonce,
      verifySecret (Text.trimSpace given) row.secretHash = true → row.secretCiphertext = none →
      Knows requests start whole i es (Seen tenant id row) →
      Φ es (.auto (.archiveSecret tenant id row.version row.secretHash
        ⟨nonce, secretAAD (accessKeyRecord tenant id row), Text.trimSpace given⟩)))
    (hallowed : ∀ es es' tenant id service row latest p policy now, Underway now es →
      verifySecret (Text.trimSpace given) row.secretHash = true → Held requests start whole i es
        (PaidUp i tenant id service row latest p policy (Text.trimSpace model) now
          (chargedCost cost)) →
      Θ (es ++ ⟨.commit, .ok ()⟩ :: es')
        (.ok ⟨some (accessKeyRecord tenant id row), true, none, 0, policy.version⟩))
    (hdenied : ∀ es r, Uncommitted es → r.allowed = false → Θ es (.ok r))
    (herr : ∀ es e, Θ es (.error e)) : Walk Φ Θ [] (check given serviceID model cost).run := by
  unfold check
  dsimp only
  split
  · exact hdenied _ _ uncommitted_nil rfl
  · refine walk_auto (hplain _ _ rfl) (fun _ => herr _ _) fun found => ?_
    rcases found with _ | ⟨tenant, id, row⟩
    · exact hdenied _ _ (uncommitted_nil.snoc (by simp) _) rfl
    have hseen : Knows requests start whole i
        ([] ++ [⟨.auto (.keyByPrefix (keyPrefix (Text.trimSpace given))),
          .ok (some (tenant, id, row))⟩])
        (Seen tenant id row) := seen_by_prefix hidle
    have hlasting : Lasting act (fun i => (requests i).program) start whole (Seen tenant id row) :=
      lasting_seen hidle tenant id row
    have n₁ := uncommitted_nil.snoc (e := .auto (.keyByPrefix (keyPrefix (Text.trimSpace given))))
      (by simp) (.ok (some (tenant, id, row)))
    dsimp only
    split
    · exact hdenied _ _ n₁ rfl
    next hverify =>
    have hsecret : verifySecret (Text.trimSpace given) row.secretHash = true :=
      Decidable.not_not.mp hverify
    refine walk_perform (hplain _ _ rfl) fun now => ?_
    have n₂ : Underway now _ := ⟨n₁.snoc (e := .now) (by simp) now, rfl⟩
    split
    · exact hdenied _ _ n₂.1 rfl
    split
    · exact hdenied _ _ n₂.1 rfl
    · refine walk_auto (hplain _ _ rfl) (fun _ => herr _ _) fun rows => ?_
      have n₃ := n₂.snoc (e := .auto (.publishedModel (Text.trimSpace model))) (by simp) (.ok rows)
      have hseen₃ := (hseen.lasting hlasting ⟨.now, now⟩).lasting hlasting
        ⟨.auto (.publishedModel (Text.trimSpace model)), .ok rows⟩
      split
      · exact hdenied _ _ n₃.1 rfl
      · next service _ =>
        split
        · exact hdenied _ _ n₃.1 rfl
        · refine walk_run_bind.mpr (walk_consumeAccess
            (N := fun es => Underway now es ∧ Knows requests start whole i es (Seen tenant id row))
            hidle (fun es s hs => hplain es _ hs)
            (fun es latest p policy win hg =>
              hconsume es tenant id service row latest p policy win now hsecret hg)
            (fun es latest p policy hg =>
              hcommit es tenant id service row latest p policy now hsecret hg)
            (hseen₃.mono fun _ _ h => h.2)
            (fun es e r he h => ⟨h.1.snoc he r, h.2.lasting hlasting ⟨e, r⟩⟩) ⟨n₃, hseen₃⟩
            (fun es => hplain es _ rfl) (fun es => hplain es _ rfl) ?_ ?_ ?_)
          · intro es latest p policy hes hg
            have hdone : ∀ es', Θ (es ++ ⟨.commit, .ok ()⟩ :: es')
                (.ok ⟨some (accessKeyRecord tenant id row), true, none, 0, policy.version⟩) :=
              fun es' => hallowed es es' tenant id service row latest p policy now hes.1 hsecret hg
            change Walk Φ Θ _ (if ¬true = true then pure _ else _ : Service CheckResult).run
            rw [if_neg (by simp)]
            split
            · next hnone =>
              refine walk_sealSecret (hplain _ _ rfl) (herr _ _) fun nonce => ?_
              refine walk_archive ?_ (fun _ => herr _ _) fun r => ?_
              · refine harchive _ tenant id row nonce hsecret
                  (Option.isNone_iff_eq_none.mp hnone) ?_
                exact ((hes.2.lasting hlasting _).lasting hlasting _).lasting hlasting _
              · rw [walk_pure]
                simpa using hdone _
            · rw [walk_pure]
              simpa using hdone _
          · intro es r hes hr
            change Walk Φ Θ es (if ¬r.allowed = true then pure r else _ : Service CheckResult).run
            rw [if_pos (by simp [hr])]
            exact hdenied _ _ hes.1.1 hr
          · exact fun es e => herr es e

/-- What a check knows before a call of it. -/
def CheckKnows (i : Nat) (given : Text) : Call → List Event → World → Prop
  | .stmt (.consumeBucket tenant id win _ _ max), h, w => w.db.live i = true →
    ∃ service row latest p policy model now,
      Granted i tenant id service row latest p policy model now h w ∧ max = policy.limit win
  | .auto (.archiveSecret tenant id version secretHash c), h, w =>
    ∃ row nonce, verifySecret (Text.trimSpace given) row.secretHash = true ∧
      row.secretCiphertext = none ∧ version = row.version ∧ secretHash = row.secretHash ∧
      c = ⟨nonce, secretAAD (accessKeyRecord tenant id row), Text.trimSpace given⟩ ∧
      Seen tenant id row h w
  | _, _, _ => True

theorem checkKnows_plain (he : e.plain = true) (h : List Event) (w : World) :
    CheckKnows i given e h w := by
  cases e with
  | stmt s =>
    cases s with
    | consumeBucket => cases he
    | _ => trivial
  | auto s =>
    cases s with
    | archiveSecret => cases he
    | _ => trivial
  | _ => trivial

variable (requests start whole i) in
/-- How a check ends: with a commit that pays, or without one. -/
def CheckEnds (given model : Text) (cost : Int) (es : List Exchange) :
    Except Err CheckResult → Prop
  | .error _ => True
  | .ok r => r.allowed = false ∧ Uncommitted es ∨ r.allowed = true ∧
    ∃ es₁ es₂ tenant id service row latest p policy now,
      es = es₁ ++ ⟨.commit, .ok ()⟩ :: es₂ ∧ timeOf es₁ = some now ∧
      r.record = some (accessKeyRecord tenant id row) ∧
      verifySecret (Text.trimSpace given) row.secretHash = true ∧
      Held requests start whole i es₁ (PaidUp i tenant id service row latest p policy
        (Text.trimSpace model) now (chargedCost cost))

theorem walk_check_knows (hidle : ∀ w, start w → w.Idle) :
    Walk (fun es e => Knows requests start whole i es (CheckKnows i given e))
      (CheckEnds requests start whole i given model cost) []
      (check given serviceID model cost).run := by
  refine walk_check requests whole i hidle (fun es e he h w _ _ _ => checkKnows_plain he h w)
    ?_ ?_ ?_ ?_ ?_ ?_
  · intro es tenant id service row latest p policy win now _ hg
    exact hg.mono fun h w hg => ⟨service, row, latest, p, policy, _, now, hg, rfl⟩
  · exact fun es _ _ _ _ _ _ _ _ _ _ _ _ _ _ _ => trivial
  · intro es tenant id row nonce hsecret hnone hseen
    exact hseen.mono fun h w hseen => ⟨row, nonce, hsecret, hnone, rfl, rfl, rfl, hseen⟩
  · intro es es' tenant id service row latest p policy now hes hsecret hg
    exact .inr ⟨rfl, es, es', tenant, id, service, row, latest, p, policy, now, rfl, hes.2, rfl,
      hsecret, hg⟩
  · exact fun es r hes hr => .inl ⟨hr, hes⟩
  · exact fun es e => trivial

section
variable {w : World} {h past : List Event} {x : Event} {given serviceID model : Text} {cost : Int}

theorem Ran.check_knows (hidle : ∀ w, start w → w.Idle) (hr : Ran requests start h w)
    (hx : x :: past <:+ h) (hq : requests x.actor = .check given serviceID model cost) :
    CheckKnows x.actor given x.call past x.before :=
  Ran.knows_at hr hx hq (walk_check_knows hidle)

variable (requests) in
theorem check_ends (hidle : ∀ w, start w → w.Idle)
    (ha : Answered (.check given serviceID model cost) i h r) :
    CheckEnds requests start h i given model cost (trace i h) r :=
  (walk_check_knows hidle).played ha

end

end

end AniInference.Access
