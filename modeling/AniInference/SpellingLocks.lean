import AniInference.AcceptanceReplay
import AniInference.Schedule

namespace AniInference.Accept
open Lib
open Prog (Asks Played Only)

/-- The call that accepts work, if the transaction is one. -/
def Party.call : Party → Option Acceptance
  | .accepts _ _ call => some call
  | .other .. => none

/-- Every tenant and every service has one spelling. -/
def Alike (parties : Nat → Party) : Prop :=
  ∀ i j c c', (parties i).call = some c → (parties j).call = some c' →
    c.tenant.id = c'.tenant.id → c.tenant.text = c'.tenant.text ∧
      ∀ a b, c.service = some a → c'.service = some b → a.id = b.id → a.text = b.text

/-- The runs of any such transactions. -/
abbrev AcceptRun (parties : Nat → Party) := RowRun fun i => (parties i).program

abbrev AcceptMoment := Moment Rows Call RowCall.Answer

/-- The statement was executed. -/
def Ran (x : AcceptMoment) (q : Stmt) : Prop := ∃ a : q.Answer, x.seen = ⟨.stmt q, .ok a⟩

theorem Acceptance.address_tenant {call : Acceptance} (h : call.address = some (t, m, k)) :
    call.tenant.id = t := by
  unfold Acceptance.address at h
  cases call with
  | delete => cases h
  | create | command | update =>
    simp only at h
    split at h
    · cases h
    · cases h
      rfl

section
variable {parties : Nat → Party} {h : List AcceptMoment} {s : Rows}

/-- Only the calls that accept work have statements on idempotency rows. -/
theorem asks_idempotency (hasks : Asks (parties i).program es (.stmt q))
    (hkey : q.key.isIdempotency = true) :
    ∃ call t m k, (parties i).call = some call ∧ call.address = some (t, m, k) ∧
      q.key = .idempotency t m k ∧ ⟨.stmt (.lock (call.keyLock m k)), .ok ()⟩ ∈ es ∧
      (q.reads = false → Looked (.idempotency t m k) es) := by
  cases hparty : parties i with
  | accepts now fresh call =>
    rw [hparty] at hasks
    obtain ⟨t, m, k, haddress, hrow, hlock, hlooked⟩ := (walk_body now fresh call).asks hasks hkey
    exact ⟨call, t, m, k, rfl, haddress, hrow, hlock, hlooked⟩
  | other program honly =>
    rw [hparty] at hasks
    have hkeyless := honly.asks hasks
    simp [keyless, hkey] at hkeyless

/-- Under one spelling the lock of one call guards its row against all. -/
theorem Alike.guards (halike : Alike parties) (hcall : (parties i).call = some call)
    (haddress : call.address = some (t, m, k)) :
    GuardedBy (fun i => (parties i).program) (call.keyLock m k) (.idempotency t m k) := by
  intro j es q hasks hkey
  obtain ⟨call', t', m', k', hcall', haddress', hrow, hlock, _⟩ :=
    asks_idempotency hasks (by rw [hkey]; rfl)
  rw [hkey] at hrow
  injection hrow with ht hm hk
  subst ht hm hk
  have htenant : call.tenant.id = call'.tenant.id :=
    (Acceptance.address_tenant haddress).trans (Acceptance.address_tenant haddress').symm
  have htext := (halike i j call call' hcall hcall' htenant).1
  have hsame : call'.keyLock m k = call.keyLock m k := by
    rw [Acceptance.keyLock, Acceptance.keyLock, htext]
  rw [hsame] at hlock
  exact ⟨_, hlock, .lock⟩

/-- A row that was looked for under its lock is not found entered. -/
theorem Alike.no_conflict (halike : Alike parties) (hr : AcceptRun parties h s) :
    ¬Conflict (trace i h) := by
  rintro ⟨t, m, k, v, hmem⟩
  obtain ⟨z, hz, hzi, hseen⟩ := mem_trace.mp hmem
  obtain ⟨past, hsuf, hmade⟩ := hr.mem_arises hz
  have heffect := hmade.effect
  have hasks := hmade.asks
  obtain ⟨actor, call, answer, before, after⟩ := z
  cases hseen
  obtain rfl : actor = i := hzi
  obtain ⟨c, t', m', k', hcall, haddress, hrow, _, hlooked⟩ := asks_idempotency hasks rfl
  injection hrow with ht hm hk
  subst ht hm hk
  obtain ⟨es₁, es₂, htrace, hes₂⟩ := hlooked rfl
  obtain ⟨new, x, older, hpast, hx, hxseen, _, hnew⟩ := trace_split htrace
  have hrun := hmade.run
  dsimp only at hrun hpast hnew hx heffect
  rw [hpast] at hrun
  cases heffect with
  | ran _ hlive hins =>
    have hview := (halike.guards hcall haddress).since hrun hx hxseen ?_ hlive
    · have hfound := RowStmt.runs_insertNew hins
      simp [hview] at hfound
    · intro y hy hyi q hq hkey
      have hmem : y.seen ∈ es₂ := by
        rw [← hnew]
        exact mem_trace.mpr ⟨y, hy, hyi, rfl⟩
      have hkeyless := hes₂ _ hmem
      change keyless y.call = true at hkeyless
      rw [hq] at hkeyless
      simp [keyless, hkey, Row.isIdempotency] at hkeyless

/-- The lock under which an idempotency row is looked at and entered. -/
theorem held_of_ran (hr : AcceptRun parties h s) (hx : x ∈ h) (hran : Ran x q)
    (hkey : q.key.isIdempotency = true) :
    ∃ call t m k, (parties x.actor).call = some call ∧ call.address = some (t, m, k) ∧
      q.key = .idempotency t m k ∧ x.before.lock (call.keyLock m k) = .exclusive x.actor := by
  obtain ⟨a, hseen⟩ := hran
  obtain ⟨past, hsuf, hmade⟩ := hr.mem_arises hx
  have heffect := hmade.effect
  have hasks := hmade.asks
  obtain ⟨actor, call, answer, before, after⟩ := x
  cases hseen
  obtain ⟨c, t, m, k, hcall, haddress, hrow, hlock, _⟩ := asks_idempotency hasks hkey
  refine ⟨c, t, m, k, hcall, haddress, hrow, ?_⟩
  dsimp only at heffect
  cases heffect with
  | ran _ hlive _ => exact held_of_gets hmade.run .lock hlock hlive

/-- A statement on a service that did not miss it. -/
def SeesService (x : AcceptMoment) : Prop :=
  ∃ q, Ran x q ∧ q.key.isService = true ∧
    ∀ t id, x.seen ≠ ⟨.stmt (.readForUpdate (.service t id)), .ok (none : Option Service)⟩

theorem held_of_seesService (hr : AcceptRun parties h s) (hx : x ∈ h) (hsees : SeesService x)
    (hcall : (parties x.actor).call = some call) (hg : g ∈ call.serviceLocks) :
    x.after.lock g = .exclusive x.actor := by
  obtain ⟨q, ⟨a, hseen⟩, hkey, hfound⟩ := hsees
  obtain ⟨past, hsuf, hmade⟩ := hr.mem_arises hx
  have heffect := hmade.effect
  have hasks := hmade.asks
  obtain ⟨actor, e, answer, before, after⟩ := x
  cases hseen
  dsimp only at heffect hasks hcall hfound ⊢
  have hseeing : Seeing g (trace actor past) (.stmt q) := by
    cases hparty : parties actor with
    | other => simp [hparty, Party.call] at hcall
    | accepts now fresh c =>
      rw [hparty] at hasks hcall
      obtain rfl := Option.some.inj hcall
      exact (walk_seeing_body now fresh c hg).asks hasks
  cases heffect with
  | ran _ hlive hrun =>
    have hlive' : after.live actor = true := by
      rw [(RowStmt.runs_run hrun).works.live]
      exact hlive
    rcases hseeing hkey with ⟨b, hb, hget⟩ | rfl
    · exact RowCall.Effect.keeps (.ran q hlive hrun) hlive' (held_of_gets hmade.run hget hb hlive)
    · cases g with
      | service t id =>
        refine RowStmt.runs_readForUpdate hrun ?_
        rintro rfl
        exact hfound t id rfl
      | _ => cases hkey

/-- Two calls that name the same service. -/
def SameService (c c' : Acceptance) : Prop :=
  c.tenant.id = c'.tenant.id ∧ ∃ a b, c.service = some a ∧ c'.service = some b ∧ a.id = b.id

/-- One is a plain command, the other a create or a delete by Governance. -/
def Mixed (c c' : Acceptance) : Prop :=
  match c, c' with
  | .command _, .create _ | .command _, .delete _ | .create _, .command _
  | .delete _, .command _ => True
  | _, _ => False

/-- Under one spelling two calls on one service have a lock in common. -/
theorem common_serviceLock (hsame : SameService c c') (htext : c.tenant.text = c'.tenant.text ∧
      ∀ a b, c.service = some a → c'.service = some b → a.id = b.id → a.text = b.text)
    (hmixed : ¬Mixed c c') : ∃ g, g ∈ c.serviceLocks ∧ g ∈ c'.serviceLocks := by
  obtain ⟨htenant, a, b, ha, hb, hid⟩ := hsame
  have hservice := htext.2 a b ha hb hid
  -- the resource lock is spelled alike, and the row has no spelling
  have hresource : Row.advisory (resourceKey c.tenant.text a.text) =
      .advisory (resourceKey c'.tenant.text b.text) := by
    rw [htext.1, hservice]
  have hrow : Row.service c.tenant.id a.id = .service c'.tenant.id b.id := by
    rw [htenant, hid]
  have hlocks : ∀ (d : Acceptance) (o : Spelling), d.service = some o →
      ((∀ x, d ≠ .command x) → .advisory (resourceKey d.tenant.text o.text) ∈ d.serviceLocks) ∧
      (((∃ x, d = .command x) ∨ ∃ x, d = .update x) →
        .service d.tenant.id o.id ∈ d.serviceLocks) := by
    intro d o ho
    cases d with
    | create call =>
      cases hm : call.managed with
      | none => simp [Acceptance.service, hm] at ho
      | some m =>
        simp only [Acceptance.service, hm, Option.map_some, Option.some.injEq] at ho
        subst ho
        simp [Acceptance.serviceLocks, hm, Acceptance.tenant]
    | command call | delete call | update call =>
      cases ho
      simp [Acceptance.serviceLocks, Acceptance.tenant]
  by_cases hrows : ((∃ x, c = .command x) ∨ ∃ x, c = .update x) ∧
      ((∃ x, c' = .command x) ∨ ∃ x, c' = .update x)
  · exact ⟨_, (hlocks c a ha).2 hrows.1, hrow ▸ (hlocks c' b hb).2 hrows.2⟩
  · have hnot : (∀ x, c ≠ .command x) ∧ ∀ x, c' ≠ .command x := by
      constructor <;> rintro x rfl
      · cases c' <;> simp_all [Mixed]
      · cases c <;> simp_all [Mixed]
    exact ⟨_, (hlocks c a ha).1 hnot.1, hresource ▸ (hlocks c' b hb).1 hnot.2⟩

/-- Where every id has one spelling, calls on one idempotency row have a lock in common whenever
they have a statement on it, calls on one service when they have seen it, and a call that is
answered as a replay commits nothing of what an acceptance makes. -/
theorem one_spelling_serializes (halike : Alike parties) (hr : AcceptRun parties h s) :
    (∀ x ∈ h, ∀ y ∈ h, ∀ q q', Ran x q → Ran y q' → q.key.isIdempotency = true → q.key = q'.key →
      ∃ g, x.before.lock g = .exclusive x.actor ∧ y.before.lock g = .exclusive y.actor) ∧
    (∀ i j c c', (parties i).call = some c → (parties j).call = some c' → SameService c c' →
      ¬Mixed c c' → ∃ g, ∀ x ∈ h, SeesService x → (x.actor = i ∨ x.actor = j) →
        x.after.lock g = .exclusive x.actor) ∧
    ∀ i c reply, (parties i).call = some c → Played (parties i).program (trace i h) (.ok reply) →
      reply.replayed = true → ∀ x ∈ h, x.actor = i → x.call = .commit → ∀ k : Row,
        k.accepted = true → x.after.committed k = x.before.committed k := by
  refine ⟨?_, ?_, ?_⟩
  · intro x hx y hy q q' hran hran' hkey hsame
    obtain ⟨c, t, m, k, hc, haddress, hrow, hlock⟩ := held_of_ran hr hx hran hkey
    obtain ⟨c', t', m', k', hc', haddress', hrow', hlock'⟩ :=
      held_of_ran hr hy hran' (hsame ▸ hkey)
    rw [hsame, hrow'] at hrow
    injection hrow with ht hm hk
    subst ht hm hk
    have htenant : c.tenant.id = c'.tenant.id :=
      (Acceptance.address_tenant haddress).trans (Acceptance.address_tenant haddress').symm
    have htext := (halike _ _ c c' hc hc' htenant).1
    refine ⟨_, hlock, ?_⟩
    rw [Acceptance.keyLock, htext]
    exact hlock'
  · intro i j c c' hc hc' hsame hmixed
    obtain ⟨g, hg, hg'⟩ := common_serviceLock hsame (halike i j c c' hc hc' hsame.1) hmixed
    refine ⟨g, fun x hx hsees hactor => ?_⟩
    rcases hactor with rfl | rfl
    · exact held_of_seesService hr hx hsees hc hg
    · exact held_of_seesService hr hx hsees hc' hg'
  · intro i c reply hc hplayed hreplayed x hx hxi hcommit k hk
    refine committed_of_spared hr hx hxi hcommit fun a ha => ?_
    have hquiet : Quiet (trace i h) := by
      cases hparty : parties i with
      | other => simp [hparty, Party.call] at hc
      | accepts now fresh call =>
        rw [hparty] at hplayed
        rcases (walk_body now fresh call).played hplayed hreplayed with hquiet | hconflict
        · exact hquiet
        · exact absurd hconflict (halike.no_conflict hr)
    have hspares := hquiet a ha
    cases hcall : a.1 with
    | stmt q =>
      rw [hcall] at hspares
      intro hkey
      exact hspares (hkey ▸ hk)
    | commit | rollback | disconnect => exact trivial

end

/-- `MarkServiceDeleted`. The name is free from then on. -/
def markServiceDeleted (now : Time) (tenant service operation : Uuid) (generation : Generation)
    (name : String) : Plain Reply := do
  let marked ← stmt (.update (.service tenant service) fun s =>
    if s.currentOperation = some operation ∧ s.desiredState = .deleted ∧
      s.desiredGeneration = generation then
      some { s with deletedAt := some (s.deletedAt.getD now) }
    else none)
  reject (!marked) .operationCAS
  stmt (.remove (.serviceName tenant name))
  commit
  return ⟨false, service, operation, none⟩

namespace Sample

def tenant : Uuid128 := .replicate 10

/-- The tenant id with small letters, and with capital ones. -/
def lower : Spelling := ⟨tenant.text, tenant.number, by decide +kernel⟩

def upper : Spelling := ⟨tenant.text.map Char.toUpper, tenant.number, by decide +kernel⟩

def createCall (spelling : Spelling) : CreateCall := ⟨spelling, none, AniInference.Sample.create⟩

/-- The service that is created first is deleted again. -/
def deleteCall : CommandCall :=
  { tenant := lower, service := ⟨canonical 7, 7, by decide +kernel⟩
    given :=
      { tenantID := 0, serviceID := 0, kind := .delete, expectedGeneration := 0
        requestID := "delete", requestHash := "delete", legacyHash := fun _ => ""
        actor := "actor" } }

/-- Two creates of one request, a delete of the service the first one makes, and the worker that
brings the delete to its end. -/
def parties (second : Spelling) : Nat → Party
  | 0 => .accepts 1 ⟨7, 8, 9⟩ (.create (createCall lower))
  | 1 => .accepts 1 ⟨17, 18, 19⟩ (.create (createCall second))
  | 2 => .accepts 2 ⟨0, 28, 29⟩ (.command deleteCall)
  | 3 => .other (markServiceDeleted 3 tenant.number 7 28 2 "service").body.run (Plain.keyless _)
  | _ => .other (.ret (.error .noRows)) trivial

def rows : Rows := ⟨fun _ => none, fun _ => .free, fun _ => none, fun _ => true⟩

/-- Nothing goes wrong. -/
def smooth : (e : Call) → RowCall.Choice e
  | .stmt _ => false
  | .commit => .none
  | .rollback | .disconnect _ => ()

/-- Process `i` makes its next `n` calls. -/
def goes (i n : Nat) : List (Nat × ((e : Call) → RowCall.Choice e)) :=
  List.replicate n (i, smooth)

/-- The second create looks for its key before the first has entered it, and goes on when the
service of the first has been deleted. -/
def overtaken (second : Spelling) :=
  play RowCall.act (fun i => (parties second i).program) rows
    (goes 1 2 ++ goes 0 15 ++ goes 2 16 ++ goes 3 3 ++ goes 1 15)

/-- The second create comes after the first. -/
def repeated :=
  play RowCall.act (fun i => (parties lower i).program) rows (goes 0 15 ++ goes 1 5)

theorem alike_parties : Alike (parties lower) := by
  have hlower : ∀ i c, (parties lower i).call = some c → c.tenant = lower ∧
      ∀ a, c.service = some a → a.text = canonical 7 := by
    intro i c hc
    rcases i with _ | _ | _ | _ | i <;> cases hc
    · exact ⟨rfl, fun a ha => by cases ha⟩
    · exact ⟨rfl, fun a ha => by cases ha⟩
    · exact ⟨rfl, fun a ha => by cases ha; rfl⟩
  intro i j c c' hc hc' _
  obtain ⟨ht, hs⟩ := hlower i c hc
  obtain ⟨ht', hs'⟩ := hlower j c' hc'
  refine ⟨by rw [ht, ht'], fun a b ha hb _ => ?_⟩
  rw [hs a ha, hs' b hb]

end Sample

def isCommit : Call → Bool
  | .commit => true
  | _ => false

theorem one_spelling_serializes_repeated :
    ∃ h s reply, AcceptRun (Sample.parties Sample.lower) h s ∧
      Played (Sample.parties Sample.lower 1).program (trace 1 h) (.ok reply) ∧
      reply.replayed = true ∧ ∀ x ∈ h, x.actor = 1 → x.call = .commit → ∀ k : Row,
        k.accepted = true → x.after.committed k = x.before.committed k := by
  have hsound : Sample.repeated.Sound RowCall.act
      (fun i => (Sample.parties Sample.lower i).program) LockedRows.Idle :=
    play_sound ⟨rfl, rfl⟩ _
  have hreply : (Sample.repeated.result 1).bind (fun r => r.toOption.map (·.replayed)) =
      some true := by
    decide +kernel
  obtain ⟨r, hr, hreply⟩ := Option.bind_eq_some_iff.mp hreply
  obtain ⟨reply, hreply, hreplayed⟩ := Option.map_eq_some_iff.mp hreply
  cases r with
  | error e => cases hreply
  | ok reply' =>
    cases hreply
    have hplayed := hsound.played hr
    exact ⟨_, _, reply, hsound.run, hplayed, hreplayed,
      (one_spelling_serializes Sample.alike_parties hsound.run).2.2 1 _ reply rfl hplayed
        hreplayed⟩

set_option maxRecDepth 100000 in
/-- Two creates of one request whose tenant is spelled differently: the second is answered as a
replay of the first, and has committed a service of its own. -/
theorem spelling_commits_replay :
    (Acceptance.create (Sample.createCall Sample.lower)).address =
      (Acceptance.create (Sample.createCall Sample.upper)).address ∧
    ∃ h s reply, AcceptRun (Sample.parties Sample.upper) h s ∧
      Played (Sample.parties Sample.upper 1).program (trace 1 h) (.ok reply) ∧
      reply.replayed = true ∧ ∃ x ∈ h, x.actor = 1 ∧ x.call = .commit ∧
        x.before.committed (.service Sample.tenant.number 17) = none ∧
        x.after.committed (.service Sample.tenant.number 17) ≠ none := by
  have hsound : (Sample.overtaken Sample.upper).Sound RowCall.act
      (fun i => (Sample.parties Sample.upper i).program) LockedRows.Idle :=
    play_sound ⟨rfl, rfl⟩ _
  have hrun : ((Sample.overtaken Sample.upper).result 1).bind
        (fun r => r.toOption.map (·.replayed)) = some true ∧
      ((Sample.overtaken Sample.upper).history[1]?).map (fun x => (x.actor, isCommit x.call,
        (x.before.committed (.service Sample.tenant.number 17)).isNone,
        (x.after.committed (.service Sample.tenant.number 17)).isNone)) =
      some (1, true, true, false) := by
    decide +kernel
  obtain ⟨hreply, hmoment⟩ := hrun
  obtain ⟨r, hr, hreply⟩ := Option.bind_eq_some_iff.mp hreply
  obtain ⟨reply, hreply, hreplayed⟩ := Option.map_eq_some_iff.mp hreply
  obtain ⟨x, hx, hfacts⟩ := Option.map_eq_some_iff.mp hmoment
  simp only [Prod.mk.injEq, Option.isNone_iff_eq_none] at hfacts
  obtain ⟨hactor, hcommit, hbefore, hafter⟩ := hfacts
  cases r with
  | error e => cases hreply
  | ok reply' =>
    cases hreply
    refine ⟨rfl, _, _, reply, hsound.run, hsound.played hr, hreplayed, x,
      List.mem_of_getElem? hx, hactor, ?_, hbefore, ?_⟩
    · cases hcall : x.call with
      | commit => rfl
      | stmt | rollback | disconnect =>
        rw [hcall] at hcommit
        cases hcommit
    · intro hnone
      rw [hnone] at hafter
      cases hafter

end AniInference.Accept
