import AniInference.RateLimits

namespace AniInference.Access
open Lib Text
open Prog (Played)

def PublishedRow.owner (r : PublishedRow) : Uuid × Uuid := (r.tenant, r.service)

/-- `Repository.Resolve`. -/
def resolve (rows : List PublishedRow) : Text :=
  match lookupPublishedModel rows with
  | some (_, service) => service.text
  | none => []

/-- The lookup reports this service as effective. -/
def Reports (rows : List PublishedRow) (tenant service : Uuid) : Prop :=
  lookupPublishedModel rows = some (tenant, service)

theorem lookupPublishedModel_eq_some (rows : List PublishedRow) (owner : Uuid × Uuid) :
    lookupPublishedModel rows = some owner ↔
      ∃ row, lookupRows rows = (some row, true) ∧ row.owner = owner := by
  unfold lookupPublishedModel
  split
  · next row heq => simp [heq, PublishedRow.owner]
  · next hnone =>
    refine iff_of_false (by simp) ?_
    rintro ⟨row, heq, _⟩
    exact hnone row heq

/-- The loop from its second row on: the rows behind it have the owner of the row before them, and
the flag was set before or is set by one of them. -/
theorem lookupLoop_reports (rows : List PublishedRow) (last : PublishedRow) (effective : Bool)
    (owner : Uuid × Uuid) :
    (∃ row, lookupLoop (some last) effective rows = (some row, true) ∧ row.owner = owner) ↔
      last.owner = owner ∧ (∀ r ∈ rows, r.owner = owner) ∧
        (effective = true ∨ ∃ r ∈ rows, r.effective = true) := by
  induction rows generalizing last effective with
  | nil =>
    simp [lookupLoop]
    tauto
  | cons row rows ih =>
    by_cases hsame : row.owner = last.owner
    · have hgoes : lookupLoop (some last) effective (row :: rows) =
          lookupLoop (some row) (effective || row.effective) rows := by
        simp only [PublishedRow.owner, Prod.mk.injEq] at hsame
        simp [lookupLoop, hsame]
      rw [hgoes, ih row (effective || row.effective)]
      simp only [List.forall_mem_cons, List.exists_mem_cons_iff, Bool.or_eq_true, hsame]
      tauto
    · have hstops : lookupLoop (some last) effective (row :: rows) = (none, false) := by
        simp only [PublishedRow.owner, Prod.mk.injEq, not_and_or] at hsame
        simp [lookupLoop, hsame]
      rw [hstops]
      constructor
      · rintro ⟨r, heq, _⟩
        cases heq
      · rintro ⟨hlast, hall, _⟩
        exact absurd ((hall row List.mem_cons_self).trans hlast.symm) hsame

theorem reports_iff (rows : List PublishedRow) (tenant service : Uuid) :
    Reports rows tenant service ↔
      (∀ r ∈ rows, r.owner = (tenant, service)) ∧ ∃ r ∈ rows, r.effective = true := by
  rw [Reports, lookupPublishedModel_eq_some]
  cases rows with
  | nil => simp [lookupRows, lookupLoop]
  | cons row rows =>
    have hfirst := lookupLoop_reports rows row row.effective (tenant, service)
    simp only [lookupRows, lookupLoop, Option.any_none, Bool.false_eq_true, if_false,
      Bool.false_or, List.forall_mem_cons, List.exists_mem_cons_iff]
    rw [hfirst]
    tauto

/-- Nothing but a reported service is resolved to. -/
theorem resolve_eq (rows : List PublishedRow) (h : ∀ tenant service, ¬Reports rows tenant service) :
    resolve rows = [] := by
  unfold resolve
  split
  · next heq => exact absurd heq (h _ _)
  · rfl

theorem Reports.resolve (h : Reports rows tenant service) : resolve rows = service.text := by
  unfold Reports at h
  simp [Access.resolve, h]

/-- A service is reported exactly when all rows are its own and one of them is effective. So a name
that two services claim is resolved to none, and the order of the rows makes no difference. -/
theorem lookup_reports_sole_owner :
    (∀ rows tenant service, Reports rows tenant service ↔
      (∀ r ∈ rows, r.owner = (tenant, service)) ∧ ∃ r ∈ rows, r.effective = true) ∧
    (∀ rows, ∀ r ∈ rows, ∀ r' ∈ rows, r.owner ≠ r'.owner →
      (∀ tenant service, ¬Reports rows tenant service) ∧ resolve rows = []) ∧
    (∀ rows rows', rows.Perm rows' →
      (∀ tenant service, Reports rows tenant service ↔ Reports rows' tenant service) ∧
      resolve rows = resolve rows') := by
  refine ⟨reports_iff, ?_, ?_⟩
  · intro rows r hr r' hr' hne
    have hnone : ∀ tenant service, ¬Reports rows tenant service := by
      intro tenant service hreports
      obtain ⟨hall, _⟩ := (reports_iff rows tenant service).mp hreports
      exact hne ((hall r hr).trans (hall r' hr').symm)
    exact ⟨hnone, resolve_eq rows hnone⟩
  · intro rows rows' hperm
    have hsame : ∀ tenant service,
        Reports rows tenant service ↔ Reports rows' tenant service := by
      intro tenant service
      rw [reports_iff, reports_iff]
      simp only [hperm.mem_iff]
    refine ⟨hsame, ?_⟩
    by_cases hsome : ∃ tenant service, Reports rows tenant service
    · obtain ⟨tenant, service, hreports⟩ := hsome
      rw [hreports.resolve, ((hsame tenant service).mp hreports).resolve]
    · push Not at hsome
      rw [resolve_eq rows hsome, resolve_eq rows' fun t s h => hsome t s ((hsame t s).mpr h)]

/-- What the server answers instead of a response. -/
inductive Status
  | invalidArgument (why : String)
  | unavailable (why : String)
deriving DecidableEq

/-- `CheckInferenceAccessResponse`. -/
structure CheckResponse where
  allowed : Bool
  denial : Option Denial
  policyVersion : Nat
  keyID : Text
  tenantID : Text
  retryAfterSeconds : Int

/-- `int32` of a 64-bit integer. -/
def int32 (n : Int) : Int := n.bmod (2 ^ 32)

def second : Nat := 1000000000

def millisecond : Nat := 1000000

/-- The rounding of `RetryAfter` to whole seconds. -/
def retryAfterSeconds (retryAfter : Nat) : Int :=
  if retryAfter > 0 then int32 ((retryAfter + 999 * millisecond) / second : Nat) else 0

def checkResponse (result : CheckResult) : CheckResponse where
  allowed := result.allowed
  denial := result.denial
  policyVersion := result.policyVersion
  keyID := (result.record.map (·.id)).getD []
  tenantID := (result.record.map (·.tenantID)).getD []
  retryAfterSeconds := retryAfterSeconds result.retryAfter

/-- `CheckInferenceAccess`. -/
def checkInferenceAccess (apiKey serviceID model : Text) (cost : Int) :
    ExceptT Status (Prog Call Call.Answer) CheckResponse :=
  if trimSpace apiKey = [] then throw (.invalidArgument "api_key is required")
  else do
    match ← ExceptT.lift (check apiKey serviceID model cost).run with
    -- The adapter must fail closed when the authority is unavailable.
    | .error _ => throw (.unavailable "inference access check unavailable")
    | .ok result => return checkResponse result

/-- The window of a bucket that was full, and its start. -/
def rejection : Exchange → Option (Window × Instant)
  | ⟨.stmt (.consumeBucket _ _ w start _ _), .ok none⟩ => some (w, start)
  | _ => none

def rejections (es : List Exchange) : List (Window × Instant) :=
  es.filterMap rejection

theorem rest_of_mod (hd : 0 < d) (n : Nat) :
    0 < n - n % d + d - n ∧ n - n % d + d - n ≤ d ∧ n - n % d + d = n + (n - n % d + d - n) := by
  have hlt := Nat.mod_lt n hd
  have hle := Nat.mod_le n d
  omega

/-- The rest of a window is not longer than the window, and not nothing. -/
theorem Window.rest (w : Window) (now : Instant) :
    0 < w.start now + w.duration - now ∧ w.start now + w.duration - now ≤ w.duration ∧
      w.start now + w.duration = now + (w.start now + w.duration - now) :=
  rest_of_mod (by cases w <;> decide) now

theorem Window.duration_le (w : Window) : w.duration ≤ 3600 * Access.second := by
  cases w <;> decide

/-- A wait of at most an hour is rounded without leaving 32 bits. -/
theorem retryAfterSeconds_eq (hpos : 0 < wait) (hle : wait ≤ 3600 * second) :
    retryAfterSeconds wait = ((wait + 999 * millisecond) / second : Nat) := by
  have hsmall : (wait + 999 * millisecond) / second ≤ 3600 := by
    unfold second millisecond at *
    omega
  rw [retryAfterSeconds, if_pos hpos, int32]
  generalize (wait + 999 * millisecond) / second = seconds at *
  apply Int.bmod_eq_of_le
  · omega
  · omega

/-- The seconds cover the wait unless less than a millisecond of it lies behind a whole second. -/
theorem retry_reaches_iff (hpos : 0 < wait) (hle : wait ≤ 3600 * second) :
    (1 ≤ retryAfterSeconds wait ∧ (wait : Int) ≤ retryAfterSeconds wait * second) ↔
      wait % second = 0 ∨ millisecond ≤ wait % second := by
  rw [retryAfterSeconds_eq hpos hle]
  unfold second millisecond
  omega

/-- The time has been read, and no bucket was full. -/
def Unrejected (now : Instant) (es : List Exchange) : Prop :=
  timeOf es = some now ∧ rejections es = []

/-- The one bucket that was full is the one that `retry` was computed for. -/
def Rejected (now : Instant) (retry : Nat) (es : List Exchange) : Prop :=
  timeOf es = some now ∧
    ∃ w : Window, rejections es = [(w, w.start now)] ∧ retry = w.start now + w.duration - now

section
variable {now : Instant} {retry : Nat} {es : List Exchange} {e : Call} {r : e.Answer}

theorem rejections_snoc (es : List Exchange) (a : Exchange) :
    rejections (es ++ [a]) = rejections es ++ (rejection a).toList := by
  unfold rejections
  rw [List.filterMap_append]
  cases h : rejection a <;> simp [h]

theorem Unrejected.snoc (h : Unrejected now es) (hr : rejection ⟨e, r⟩ = none) :
    Unrejected now (es ++ [⟨e, r⟩]) :=
  ⟨timeOf_append h.1, by rw [rejections_snoc, h.2, hr]; rfl⟩

theorem Rejected.snoc (h : Rejected now retry es) (hr : rejection ⟨e, r⟩ = none) :
    Rejected now retry (es ++ [⟨e, r⟩]) := by
  obtain ⟨htime, w, hw, hretry⟩ := h
  exact ⟨timeOf_append htime, w, by rw [rejections_snoc, hw, hr]; rfl, hretry⟩

/-- The result of a check, as far as it is denied for its rate. -/
def Limited (es : List Exchange) (result : CheckResult) : Prop :=
  result.denial = some .rateLimited → ∃ now, Rejected now result.retryAfter es

theorem Limited.snoc (h : Limited es result) (hr : rejection ⟨e, r⟩ = none) :
    Limited (es ++ [⟨e, r⟩]) result := by
  intro hdenied
  obtain ⟨now, hrejected⟩ := h hdenied
  exact ⟨now, hrejected.snoc hr⟩

/-- Every way through the program that does not fail ends in `P`. -/
abbrev Yields {α : Type} (P : List Exchange → α → Prop)
    (es : List Exchange) (x : Service α) : Prop :=
  WalkOk (fun _ _ => True) P es x

section
variable {α : Type} {P : List Exchange → α → Prop}

theorem yields_stmt {s : Stmt} {f : s.Answer → Service α}
    (hf : ∀ a, Yields P (es ++ [⟨.stmt s, .ok a⟩]) (f a)) : Yields P es (stmt s >>= f) :=
  walk_stmt trivial (fun _ => nofun) hf

theorem yields_auto {s : Stmt} {f : s.Answer → Service α}
    (hf : ∀ a, Yields P (es ++ [⟨.auto s, .ok a⟩]) (f a)) : Yields P es (auto s >>= f) :=
  walk_auto trivial (fun _ => nofun) hf

theorem yields_inTx (hrollback : ∀ es a, P es a → P (es ++ [⟨.rollback, ()⟩]) a)
    (hbody : Yields P (es ++ [⟨.begin, .ok ()⟩]) body) : Yields P es (inTx body) :=
  walk_inTx trivial (fun _ => nofun)
    (Walk.mono hbody fun es _ hr => ⟨trivial, fun a ha => hrollback es a (hr a ha)⟩)

theorem yields_parseUUID (hf : ∀ u, Yields P es (f u)) :
    Yields P es (parseUUID label value >>= f) :=
  walk_parseUUID nofun fun u _ => hf u

end

/-- What the loop over the windows ends with. -/
def Consumed (now : Instant) (es : List Exchange) : Option Nat → Prop
  | none => Unrejected now es
  | some retry => Rejected now retry es

theorem yields_consumeWindows {limit : Window → Nat} (h : Unrejected now es) (ws : List Window) :
    Yields (Consumed now) es (consumeWindows tenant key limit now cost ws) := by
  induction ws generalizing es with
  | nil => exact yields_stmt fun _ => WalkOk.pure (h.snoc rfl)
  | cons w ws ih =>
    unfold consumeWindows
    split
    · exact ih h
    · refine yields_stmt fun answer => ?_
      cases answer with
      | some _ => exact ih (h.snoc rfl)
      | none =>
        refine WalkOk.pure ⟨timeOf_append h.1, w, ?_, rfl⟩
        rw [rejections_snoc, h.2]
        rfl

/-- An answer for another reason. -/
theorem yields_unlimited (h : decide (result.denial = some .rateLimited) = false) :
    Yields Limited es (pure result : Service CheckResult) :=
  WalkOk.pure fun heq => absurd heq (of_decide_eq_false h)

theorem yields_consumeLatest (h : Unrejected now es) :
    Yields Limited es (consumeLatest record tenant key model now cost) := by
  refine yields_stmt fun latest => ?_
  have h₁ := h.snoc (e := .stmt (.lockKey tenant key)) (r := .ok latest) rfl
  cases latest with
  | none => exact yields_unlimited rfl
  | some latest =>
    dsimp only
    split
    · exact yields_unlimited rfl
    split
    · exact yields_unlimited rfl
    split
    · exact yields_unlimited rfl
    split
    · exact yields_unlimited rfl
    · next policyID _ =>
      refine yields_stmt fun policy => ?_
      have h₂ := h₁.snoc (e := .stmt (.policyForShare tenant policyID)) (r := .ok policy) rfl
      cases policy with
      | none => exact yields_unlimited rfl
      | some policy =>
        dsimp only
        split
        · exact yields_unlimited rfl
        · refine (yields_consumeWindows h₂ _).bind fun es' consumed hconsumed => ?_
          cases consumed with
          | some retry => exact WalkOk.pure fun _ => ⟨now, hconsumed⟩
          | none =>
            exact walk_commit trivial (fun _ => nofun) (yields_unlimited rfl)

theorem yields_consumeAccess (h : Unrejected now es) :
    Yields Limited es (consumeAccess record service model now cost) := by
  unfold consumeAccess
  apply yields_inTx
  · exact fun es result hlimited => hlimited.snoc rfl
  have h₀ := h.snoc (e := .begin) (r := .ok ()) rfl
  refine yields_stmt fun rows => ?_
  have h₁ := h₀.snoc (e := .stmt (.publishedModel model)) (r := .ok rows) rfl
  split
  · exact yields_unlimited rfl
  · next pt ps _ =>
    split
    · exact yields_unlimited rfl
    · refine yields_stmt fun shared => ?_
      have h₂ := h₁.snoc (e := .stmt (.serviceForShare pt ps)) (r := .ok shared) rfl
      split
      · refine yields_stmt fun rows' => ?_
        have h₃ := h₂.snoc (e := .stmt (.publishedModel model)) (r := .ok rows') rfl
        split
        · exact yields_unlimited rfl
        · exact yields_parseUUID fun tenant => yields_parseUUID fun key => yields_consumeLatest h₃
      · exact yields_unlimited rfl

theorem yields_check (apiKey serviceID model : Text) (cost : Int) :
    Yields Limited [] (check apiKey serviceID model cost) := by
  unfold check
  dsimp only
  split
  · exact yields_unlimited rfl
  · refine yields_auto fun found => ?_
    rcases found with _ | ⟨tenant, id, row⟩
    · exact yields_unlimited rfl
    dsimp only
    split
    · exact yields_unlimited rfl
    refine walk_perform trivial fun now => ?_
    have h₁ : Unrejected now ([] ++ [⟨.auto (.keyByPrefix (keyPrefix (trimSpace apiKey))),
        .ok (some (tenant, id, row))⟩] ++ [⟨.now, now⟩]) := ⟨rfl, rfl⟩
    split
    · exact yields_unlimited rfl
    split
    · exact yields_unlimited rfl
    refine yields_auto fun rows => ?_
    have h₂ := h₁.snoc (e := .auto (.publishedModel (trimSpace model))) (r := .ok rows) rfl
    split
    · exact yields_unlimited rfl
    · split
      · exact yields_unlimited rfl
      · refine (yields_consumeAccess h₂).bind fun es' result hlimited => ?_
        split
        · exact WalkOk.pure hlimited
        · split
          · exact walk_sealSecret trivial nofun fun nonce =>
              walk_archive trivial (fun _ => nofun) fun _ =>
                WalkOk.pure ((hlimited.snoc rfl).snoc rfl)
          · exact WalkOk.pure hlimited

end

/-- A response comes from the result of a check. -/
theorem played_checkInferenceAccess :
    Played (checkInferenceAccess apiKey serviceID model cost).run es (.ok response) ↔
      trimSpace apiKey ≠ [] ∧ ∃ result,
        Played (check apiKey serviceID model cost).run es (.ok result) ∧
        response = checkResponse result := by
  unfold checkInferenceAccess
  split
  case isTrue hempty =>
    constructor
    · intro h
      cases h
    · rintro ⟨hne, _⟩
      exact absurd hempty hne
  case isFalse hne =>
    rw [played_lift_bind]
    constructor
    · rintro ⟨answer, es₁, es₂, rfl, hcheck, hrest⟩
      cases answer with
      | error e => cases hrest
      | ok result =>
        obtain ⟨rfl, hresponse⟩ := Prog.played_ret.mp hrest
        rw [List.append_nil]
        exact ⟨hne, result, hcheck, Except.ok.inj hresponse⟩
    · rintro ⟨_, result, hcheck, rfl⟩
      exact ⟨.ok result, es, [], (List.append_nil es).symm, hcheck, .ret _⟩

/-- A response that denies for the rate was rejected by one window, and carries what is left of
it. -/
theorem rejected_window
    (h : Played (checkInferenceAccess apiKey serviceID model cost).run es (.ok response))
    (hdenied : response.denial = some .rateLimited) :
    ∃ (now : Instant) (w : Window), timeOf es = some now ∧ rejections es = [(w, w.start now)] ∧
      response.retryAfterSeconds = retryAfterSeconds (w.start now + w.duration - now) := by
  obtain ⟨_, result, hcheck, rfl⟩ := played_checkInferenceAccess.mp h
  obtain ⟨now, htime, w, hw, hretry⟩ :=
    (yields_check apiKey serviceID model cost).played hcheck hdenied
  exact ⟨now, w, htime, hw, by rw [← hretry]; rfl⟩

/-- The seconds of a response that denies for the rate are at least one and reach the end of the
window that rejected it exactly if what is left of the window is a number of whole seconds, or lies
a millisecond or more behind one. -/
theorem retry_after_reaches {apiKey serviceID model : Text} {cost : Int}
    {es : List (Σ e : Call, e.Answer)} {response : CheckResponse}
    (h : Played (checkInferenceAccess apiKey serviceID model cost).run es (.ok response))
    (hdenied : response.denial = some .rateLimited) :
    ∃ (now : Instant) (w : Window), timeOf es = some now ∧ rejections es = [(w, w.start now)] ∧
      ((1 ≤ response.retryAfterSeconds ∧
          ((w.start now + w.duration : Nat) : Int) ≤ now + response.retryAfterSeconds * second) ↔
        (w.start now + w.duration - now) % second = 0 ∨
          millisecond ≤ (w.start now + w.duration - now) % second) := by
  obtain ⟨now, w, htime, hw, hseconds⟩ := rejected_window h hdenied
  obtain ⟨hpos, hle, heq⟩ := w.rest now
  have hend : ((w.start now + w.duration : Nat) : Int) =
      (now : Int) + (w.start now + w.duration - now : Nat) := by
    rw [← Nat.cast_add, ← heq]
  refine ⟨now, w, htime, hw, ?_⟩
  rw [← retry_reaches_iff hpos (hle.trans w.duration_le), hseconds, hend]
  exact and_congr_right fun _ => Int.add_le_add_iff_left _

namespace Sample

/-- Two checks of one key at this time, one after the other. -/
def checksAt (now : Instant) : Play World Call Call.Answer ((q : Request) × Except Err q.Result) :=
  play act (fun i => (checks i).program) (World.idle (rows (some row)) now)
    (List.replicate 13 (0, smooth 'y' key) ++ List.replicate 11 (1, smooth 'y' key))

def rateLimited : (q : Request) × Except Err q.Result → Bool
  | ⟨.check .., .ok r⟩ => r.denial = some .rateLimited
  | _ => false

/-- The second of two checks is answered, and denied for its rate. -/
theorem checksAt_response (h : ((checksAt now).result 1).any rateLimited = true) :
    ∃ response,
      Played (checkInferenceAccess secret [] model 1).run (trace 1 (checksAt now).history)
        (.ok response) ∧ response.denial = some .rateLimited := by
  have hsound : (checksAt now).Sound act (fun i => (checks i).program)
      (Eq (World.idle (rows (some row)) now)) := play_sound rfl _
  obtain ⟨r, hplayed, htest⟩ := answered_of_result hsound h
  cases r with
  | error e => cases htest
  | ok r =>
    exact ⟨checkResponse r, played_checkInferenceAccess.mpr ⟨by decide, r, hplayed, rfl⟩,
      of_decide_eq_true htest⟩

set_option maxRecDepth 100000 in
theorem checksAt_late : ((checksAt 5999999500).result 1).any rateLimited = true ∧
    timeOf (trace 1 (checksAt 5999999500).history) = some 5999999500 ∧
    rejections (trace 1 (checksAt 5999999500).history) = [(.second, 5000000000)] := by
  decide +kernel

set_option maxRecDepth 100000 in
theorem checksAt_early : ((checksAt 5000000123).result 1).any rateLimited = true ∧
    timeOf (trace 1 (checksAt 5000000123).history) = some 5000000123 ∧
    rejections (trace 1 (checksAt 5000000123).history) = [(.second, 5000000000)] := by
  decide +kernel

end Sample

open Sample in
/-- Half a microsecond before the second is over, a check that it rejects is told to wait for no
time at all. -/
theorem retry_after_too_short : ∃ (h : List Event) (w : World) (response : CheckResponse),
    Ran checks World.Idle h w ∧
    Played (checkInferenceAccess secret [] model 1).run (trace 1 h) (.ok response) ∧
    response.denial = some .rateLimited ∧ timeOf (trace 1 h) = some 5999999500 ∧
    rejections (trace 1 h) = [(.second, 5000000000)] ∧
    ¬(1 ≤ response.retryAfterSeconds ∧
      (6000000000 : Int) ≤ 5999999500 + response.retryAfterSeconds * second) := by
  obtain ⟨hlimited, htime, hwindow⟩ := checksAt_late
  obtain ⟨response, hplayed, hdenied⟩ := checksAt_response hlimited
  obtain ⟨now, w, hnow, hw, hseconds⟩ := rejected_window hplayed hdenied
  obtain rfl := Option.some.inj (htime.symm.trans hnow)
  rw [hwindow] at hw
  injection hw with hw
  injection hw with hw
  subst hw
  have hzero : response.retryAfterSeconds = 0 := hseconds.trans (by decide)
  refine ⟨_, _, response, (play_sound (World.idle_idle _ _) _).run, hplayed, hdenied, htime,
    hwindow, fun hreach => ?_⟩
  rw [hzero] at hreach
  exact absurd hreach.1 (by decide)

open Sample in
theorem retry_after_reaches_early : ∃ response : CheckResponse,
    Played (checkInferenceAccess secret [] model 1).run (trace 1 (checksAt 5000000123).history)
      (.ok response) ∧ response.denial = some .rateLimited ∧
    1 ≤ response.retryAfterSeconds ∧
      (6000000000 : Int) ≤ 5000000123 + response.retryAfterSeconds * second := by
  obtain ⟨hlimited, htime, hwindow⟩ := checksAt_early
  obtain ⟨response, hplayed, hdenied⟩ := checksAt_response hlimited
  obtain ⟨now, w, hnow, hw, hiff⟩ := retry_after_reaches hplayed hdenied
  obtain rfl := Option.some.inj (htime.symm.trans hnow)
  rw [hwindow] at hw
  injection hw with hw
  injection hw with hw
  subst hw
  obtain ⟨hone, hreach⟩ := hiff.mpr (by decide)
  exact ⟨response, hplayed, hdenied, hone, hreach⟩

end AniInference.Access
