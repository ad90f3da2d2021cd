import AniInference.Lib.Interleaving

namespace AniInference.Lib

namespace Prog
variable {E : Type} {R : E → Type} {α β : Type}

/-- After these calls and answers, the next call of the program is `e`. -/
inductive Asks : Prog E R α → List (Σ e, R e) → E → Prop
  | here {e : E} {k : R e → Prog E R α} : Asks (.call e k) [] e
  | next {e e' : E} {k : R e → Prog E R α} {es : List (Σ e, R e)} (r : R e)
      (h : Asks (k r) es e') : Asks (.call e k) (⟨e, r⟩ :: es) e'

/-- What these calls and answers leave of a program. -/
inductive Leads : Prog E R α → List (Σ e, R e) → Prog E R α → Prop
  | refl (p : Prog E R α) : Leads p [] p
  | next {e : E} {k : R e → Prog E R α} {es : List (Σ e, R e)} {q : Prog E R α} (r : R e)
      (h : Leads (k r) es q) : Leads (.call e k) (⟨e, r⟩ :: es) q

theorem Leads.asks (h : Leads p es q) (hq : q = .call e k) : Asks p es e := by
  induction h with
  | refl p =>
    subst hq
    exact .here
  | next r _ ih => exact .next r (ih hq)

theorem Leads.snoc (h : Leads p es q) (hq : q = .call e k) (r : R e) :
    Leads p (es ++ [⟨e, r⟩]) (k r) := by
  induction h with
  | refl p =>
    subst hq
    exact .next r (.refl _)
  | next r' _ ih => exact .next r' (ih hq)

@[simp] theorem not_asks_ret : ¬Asks (.ret a : Prog E R α) es e := nofun

theorem asks_call :
    Asks (.call e k) es e' ↔
      (es = [] ∧ e' = e) ∨ ∃ r es', es = ⟨e, r⟩ :: es' ∧ Asks (k r) es' e' := by
  constructor
  · intro h
    cases h with
    | here => exact .inl ⟨rfl, rfl⟩
    | next r h => exact .inr ⟨r, _, rfl, h⟩
  · rintro (⟨rfl, rfl⟩ | ⟨r, es', rfl, h⟩)
    · exact .here
    · exact .next r h

theorem asks_perform : Asks (perform e : Prog E R (R e)) es e' ↔ es = [] ∧ e' = e := by
  constructor
  · intro h
    rcases asks_call.mp h with h | ⟨r, es', _, h⟩
    · exact h
    · exact absurd h not_asks_ret
  · rintro ⟨rfl, rfl⟩
    exact .here

theorem played_perform {e : E} {es : List (Σ e, R e)} {r : R e} :
    Played (perform e) es r ↔ es = [⟨e, r⟩] := by
  constructor
  · intro h
    obtain ⟨r', es', rfl, h'⟩ := played_call.mp h
    obtain ⟨rfl, rfl⟩ := played_ret.mp h'
    rfl
  · rintro rfl
    exact .call r (.ret r)

theorem asks_bind :
    Asks (p >>= f) es e ↔
      Asks p es e ∨ ∃ a es₁ es₂, es = es₁ ++ es₂ ∧ Played p es₁ a ∧ Asks (f a) es₂ e := by
  induction p generalizing es with
  | ret a => simp [played_ret]
  | call e₀ k ih =>
    simp only [bind_call, asks_call, played_call, ih]
    constructor
    · rintro (⟨rfl, rfl⟩ | ⟨r, es', rfl, h | ⟨a, es₁, es₂, rfl, hp, ha⟩⟩)
      · exact .inl (.inl ⟨rfl, rfl⟩)
      · exact .inl (.inr ⟨r, es', rfl, h⟩)
      · exact .inr ⟨a, ⟨e₀, r⟩ :: es₁, es₂, rfl, ⟨r, es₁, rfl, hp⟩, ha⟩
    · rintro ((⟨rfl, rfl⟩ | ⟨r, es', rfl, h⟩) | ⟨a, _, es₂, rfl, ⟨r, es₁, rfl, hp⟩, ha⟩)
      · exact .inl ⟨rfl, rfl⟩
      · exact .inr ⟨r, es', rfl, .inl h⟩
      · exact .inr ⟨r, es₁ ++ es₂, rfl, .inr ⟨a, es₁, es₂, rfl, hp, ha⟩⟩

/-- Every call the program can come to make satisfies `P`. -/
def Only (P : E → Prop) : Prog E R α → Prop
  | .ret _ => True
  | .call e k => P e ∧ ∀ r, (k r).Only P

section
variable {P Q : E → Prop} {p : Prog E R α} {es : List (Σ e, R e)}

theorem only_bind {f : α → Prog E R β} (hp : p.Only P) (hf : ∀ a, (f a).Only P) :
    (p >>= f).Only P := by
  induction p with
  | ret a => exact hf a
  | call e k ih => exact ⟨hp.1, fun r => ih r (hp.2 r)⟩

theorem Only.hoist {E' : Type} {R' : E' → Type} {f : E → E'} {back : (e : E) → R' (f e) → R e}
    {P : E' → Prop} {p : Prog E R α} (h : p.Only fun e => P (f e)) : (p.hoist f back).Only P := by
  induction p with
  | ret a => exact trivial
  | call e k ih => exact ⟨h.1, fun r => ih _ (h.2 _)⟩

theorem only_of_forall (h : ∀ e, P e) (p : Prog E R α) : p.Only P := by
  induction p with
  | ret a => exact trivial
  | call e k ih => exact ⟨h e, ih⟩

theorem Only.mono (h : p.Only P) (hPQ : ∀ e, P e → Q e) : p.Only Q := by
  induction p with
  | ret a => trivial
  | call e k ih => exact ⟨hPQ e h.1, fun r => ih r (h.2 r)⟩

theorem Only.asks (h : p.Only P) (ha : Asks p es e) : P e := by
  induction ha with
  | here => exact h.1
  | next r _ ih => exact ih (h.2 r)

/-- The calls before a call are the program's too. -/
theorem Only.asked (h : p.Only P) (ha : Asks p es e) : ∀ x ∈ es, P x.1 := by
  induction ha with
  | here => exact fun x hx => nomatch hx
  | next r _ ih =>
    intro x hx
    rcases List.mem_cons.mp hx with rfl | hx
    · exact h.1
    · exact ih (h.2 r) x hx

theorem Only.played (h : p.Only P) (hp : Played p es a) : ∀ x ∈ es, P x.1 := by
  induction hp with
  | ret a => exact fun x hx => nomatch hx
  | call r _ ih =>
    intro x hx
    rcases List.mem_cons.mp hx with rfl | hx
    · exact h.1
    · exact ih (h.2 r) x hx

end

end Prog

section
variable {E : Type} {R : E → Type} {ε α β : Type} {P : E → Prop}

theorem only_run_bind {x : ExceptT ε (Prog E R) α} {f : α → ExceptT ε (Prog E R) β}
    (hx : x.run.Only P) (hf : ∀ a, (f a).run.Only P) : (x >>= f).run.Only P := by
  rw [ExceptT.run_bind]
  refine Prog.only_bind hx fun a => ?_
  cases a with
  | ok a => exact hf a
  | error e => trivial

end

section
variable {E : Type} {R : E → Type} {ε α β : Type} {es : List (Σ e, R e)} {e : E}
open Prog

/-- An error ends the program it comes from. -/
theorem asks_run_bind {x : ExceptT ε (Prog E R) α} :
    Asks (x >>= f).run es e ↔
      Asks x.run es e ∨
        ∃ a es₁ es₂, es = es₁ ++ es₂ ∧ Played x.run es₁ (.ok a) ∧ Asks (f a).run es₂ e := by
  rw [ExceptT.run_bind, asks_bind]
  refine or_congr_right ⟨?_, ?_⟩
  · rintro ⟨a, es₁, es₂, rfl, hp, ha⟩
    cases a with
    | ok a => exact ⟨a, es₁, es₂, rfl, hp, ha⟩
    | error err => exact absurd ha not_asks_ret
  · rintro ⟨a, es₁, es₂, rfl, hp, ha⟩
    exact ⟨.ok a, es₁, es₂, rfl, hp, ha⟩

theorem played_run_bind {x : ExceptT ε (Prog E R) α} :
    Played (x >>= f).run es b ↔
      (∃ err, b = .error err ∧ Played x.run es (.error err)) ∨
        ∃ a es₁ es₂, es = es₁ ++ es₂ ∧ Played x.run es₁ (.ok a) ∧ Played (f a).run es₂ b := by
  rw [ExceptT.run_bind, played_bind]
  constructor
  · rintro ⟨a, es₁, es₂, rfl, hp, hb⟩
    cases a with
    | ok a => exact .inr ⟨a, es₁, es₂, rfl, hp, hb⟩
    | error err =>
      obtain ⟨rfl, rfl⟩ := played_ret.mp hb
      exact .inl ⟨err, rfl, by simpa using hp⟩
  · rintro (⟨err, rfl, hp⟩ | ⟨a, es₁, es₂, rfl, hp, hb⟩)
    · exact ⟨.error err, es, [], by simp, hp, .ret _⟩
    · exact ⟨.ok a, es₁, es₂, rfl, hp, hb⟩

theorem played_run_bind_ok {x : ExceptT ε (Prog E R) α} :
    Played (x >>= f).run es (.ok b) ↔
      ∃ a es₁ es₂, es = es₁ ++ es₂ ∧ Played x.run es₁ (.ok a) ∧ Played (f a).run es₂ (.ok b) := by
  simp only [played_run_bind, reduceCtorEq, false_and, exists_false, false_or]

theorem run_lift_bind (p : Prog E R α) (f : α → ExceptT ε (Prog E R) β) :
    (ExceptT.lift p >>= f).run = p >>= fun a => (f a).run := by
  induction p with
  | ret a => rfl
  | call e k ih => exact congrArg (Prog.call e) (funext ih)

/-- A program whose own failure is looked at. -/
theorem played_lift_bind :
    Played (ExceptT.lift p >>= f).run es b ↔
      ∃ a es₁ es₂, es = es₁ ++ es₂ ∧ Played p es₁ a ∧ Played (f a).run es₂ b := by
  rw [run_lift_bind, played_bind]

end

/-- `mine` lists, in their order, entries of the log that include all those with `P`. -/
inductive Owns {L : Type} (P : L → Prop) : List L → List L → Prop
  | nil : Owns P [] []
  | mine {l : L} {mine log : List L} (h : Owns P mine log) : Owns P (l :: mine) (l :: log)
  | other {l : L} {mine log : List L} (hl : ¬P l) (h : Owns P mine log) : Owns P mine (l :: log)

namespace Owns
variable {L : Type} {P : L → Prop} {mine log : List L}

/-- The log falls apart where the entries of one process do. -/
theorem split (h : Owns P mine log) (hm : mine = m₂ ++ l :: m₁) :
    ∃ new old, log = new ++ l :: old ∧ Owns P m₂ new ∧ Owns P m₁ old := by
  induction h generalizing m₂ with
  | nil => simp at hm
  | @mine l₀ mine log h ih =>
    cases m₂ with
    | nil =>
      injection hm with hl hm
      subst hl hm
      exact ⟨[], log, rfl, .nil, h⟩
    | cons l₁ m₂ =>
      injection hm with hl hm
      subst hl
      obtain ⟨new, old, rfl, hnew, hold⟩ := ih hm
      exact ⟨l₀ :: new, old, rfl, .mine hnew, hold⟩
  | @other l₀ mine log hl h ih =>
    obtain ⟨new, old, rfl, hnew, hold⟩ := ih hm
    exact ⟨l₀ :: new, old, rfl, .other hl hnew, hold⟩

theorem sublist (h : Owns P mine log) : mine.Sublist log := by
  induction h with
  | nil => exact .slnil
  | mine _ ih => exact ih.cons_cons _
  | other _ _ ih => exact ih.cons _

end Owns

section
variable {W E : Type} {R C : E → Type}
variable (exec : (e : E) → C e → W → R e × W)

/-- The process whose call an action makes, if it makes one. -/
def Pool.caller (s : Pool W E R) : Action E R C → Option Nat
  | .run i _ =>
    match s.procs[i]? with
    | some (.call _ _) => some i
    | _ => none
  | _ => none

/-- Which process made which call of a schedule, the last call first. -/
def Pool.callers (s : Pool W E R) : List (Action E R C) → List Nat
  | [] => []
  | a :: as => (s.step exec a).callers as ++ (s.caller a).toList

/-- The pools some legal schedule leads to, beside the callers of that schedule. -/
def ReachableBy (client : Prog E R Unit → Prop) (start : W → Prop) (s : Pool W E R)
    (callers : List Nat) : Prop :=
  ∃ w as, start w ∧ (∀ a ∈ as, Action.Legal (C := C) client a) ∧ s = Pool.run exec ⟨w, []⟩ as ∧
    callers = Pool.callers exec ⟨w, []⟩ as

variable {exec} {client : Prog E R Unit → Prop} {start : W → Prop}

theorem Reachable.callers (h : Reachable exec client start s) :
    ∃ callers, ReachableBy exec client start s callers := by
  obtain ⟨w, as, hw, hl, rfl⟩ := h
  exact ⟨_, w, as, hw, hl, rfl, rfl⟩

theorem ReachableBy.reachable (h : ReachableBy exec client start s callers) :
    Reachable exec client start s := by
  obtain ⟨w, as, hw, hl, rfl, _⟩ := h
  exact ⟨w, as, hw, hl, rfl⟩

theorem reachableBy_induction {P : Pool W E R → List Nat → Prop} (h0 : ∀ w, start w → P ⟨w, []⟩ [])
    (hstep : ∀ s callers (a : Action E R C), a.Legal client → P s callers →
      P (s.step exec a) ((s.caller a).toList ++ callers)) {s : Pool W E R}
    (hs : ReachableBy exec client start s callers) : P s callers := by
  obtain ⟨w, as, hw, hl, rfl, rfl⟩ := hs
  have key : ∀ (as : List (Action E R C)) (s : Pool W E R) (callers : List Nat),
      (∀ a ∈ as, a.Legal client) → P s callers →
      P (s.run exec as) (Pool.callers exec s as ++ callers) := by
    intro as
    induction as with
    | nil => exact fun _ _ _ h => h
    | cons a as ih =>
      intro s callers hl h
      have htail := ih _ _ (fun b hb => hl b (by simp [hb])) (hstep s callers a (hl a (by simp)) h)
      rwa [← List.append_assoc] at htail
  have hall := key as _ [] hl (h0 w hw)
  rwa [List.append_nil] at hall

end

section
variable {W E O L : Type} {R C : E → Type}

/-- The entry presents a token that an entry of `mine` was granted. -/
def Presented (T : Tokens W E O R) (seen : L → Σ e, R e) (mine : List L) (l : L) : Prop :=
  ∃ o, T.presents (seen l).1 = some o ∧ ∃ g ∈ mine, T.grants (seen g).1 (seen g).2 = some o

/-- The entries of one process, in a log whose entries carry the number of theirs. -/
def entriesOf (i : Nat) (tagged : List (Nat × L)) : List L :=
  (tagged.filter (·.1 = i)).map Prod.snd

theorem mem_entriesOf : l ∈ entriesOf i tagged ↔ (i, l) ∈ tagged := by
  simp [entriesOf]

theorem entriesOf_cons :
    entriesOf j ((i, l) :: tagged) =
      if i = j then l :: entriesOf j tagged else entriesOf j tagged := by
  unfold entriesOf
  by_cases hij : i = j
  · simp [hij]
  · simp [hij]

theorem owns_entriesOf {tagged : List (Nat × L)} (h : ∀ t ∈ tagged, t.1 ≠ i → ¬P t.2) :
    Owns P (entriesOf i tagged) (tagged.map Prod.snd) := by
  induction tagged with
  | nil => exact .nil
  | cons t tagged ih =>
    have htail := ih fun t' ht' => h t' (List.mem_cons_of_mem _ ht')
    obtain ⟨j, l⟩ := t
    rw [entriesOf_cons]
    by_cases hij : j = i
    · rw [if_pos hij]
      exact .mine htail
    · rw [if_neg hij]
      exact .other (h (j, l) List.mem_cons_self hij) htail

variable (exec : (e : E) → C e → W → R e × W) (T : Tokens W E O R) (I : W → Prop)
variable (pre : E → W → Prop) (log : W → List L) (seen : L → Σ e, R e)
variable (client : Prog E R Unit → Prop)

/-- The entry was made by the process `i`, with the entries it had made before, and no other
process had presented a token of its own. -/
def Traced (i : Nat) (l : L) (past : List (Nat × L)) : Prop :=
  (∃ p, client p ∧ Prog.Asks p ((entriesOf i past).map seen).reverse (seen l).1) ∧
    Owns (Presented T seen (entriesOf i past)) (entriesOf i past) (past.map Prod.snd)

/-- The tokens a process was granted. -/
def granted (tagged : List (Nat × L)) (i : Nat) (o : O) : Prop :=
  ∃ g ∈ entriesOf i tagged, T.grants (seen g).1 (seen g).2 = some o

/-- A pool beside the log that tells which process made which entry. -/
structure Threads (s : Pool W E R) (tagged : List (Nat × L)) : Prop where
  logged : tagged.map Prod.snd = log s.world
  tags : ∀ t ∈ tagged, t.1 < s.procs.length
  holding : Holding T (granted T seen tagged) s.world
  presents : ∀ t ∈ tagged, ∀ o, T.presents (seen t.2).1 = some o → granted T seen tagged t.1 o
  safe : ∀ (i : Nat) (p : Prog E R Unit), s.procs[i]? = some p →
    Safe exec T I pre (fun _ _ _ => True) (granted T seen tagged i) p s.world
  -- A process that has crashed is not where its calls led to.
  leads : ∀ (i : Nat) (q : Prog E R Unit), s.procs[i]? = some q →
    q = .ret () ∨ ∃ p, client p ∧ Prog.Leads p ((entriesOf i tagged).map seen).reverse q
  traced : ∀ i l past, (i, l) :: past <:+ tagged → Traced T seen client i l past

variable {exec T I pre log seen client}

theorem Threads.owns {tagged : List (Nat × L)} (h : Threads exec T I pre log seen client s tagged)
    (i : Nat) :
    Owns (Presented T seen (entriesOf i tagged)) (entriesOf i tagged) (tagged.map Prod.snd) := by
  refine owns_entriesOf fun t ht hne => ?_
  rintro ⟨o, ho, hg⟩
  exact hne (h.holding.one t.1 i o (h.presents t ht o ho) hg)

theorem Threads.spawn (h : Threads exec T I pre log seen client s tagged) (hp : client p)
    (hsafe : Safe exec T I pre (fun _ _ _ => True) (fun _ => False) p s.world) :
    Threads exec T I pre log seen client { s with procs := s.procs ++ [p] } tagged := by
  have hnone : entriesOf s.procs.length tagged = [] := by
    refine List.eq_nil_iff_forall_not_mem.mpr fun l hl => ?_
    exact absurd (h.tags _ (mem_entriesOf.mp hl)) (Nat.lt_irrefl _)
  have hgranted : granted T seen tagged s.procs.length = fun _ => False := by
    funext o
    simp [granted, hnone]
  have hold : ∀ (i : Nat) (q : Prog E R Unit), (s.procs ++ [p])[i]? = some q →
      (i = s.procs.length ∧ q = p) ∨ s.procs[i]? = some q := by
    intro i q hi
    by_cases hil : i = s.procs.length
    · subst hil
      simp at hi
      exact .inl ⟨rfl, hi.symm⟩
    · have hlt : i < s.procs.length := by
        have := (List.getElem?_eq_some_iff.mp hi).1
        simp at this
        omega
      rw [List.getElem?_append_left hlt] at hi
      exact .inr hi
  refine ⟨h.logged, fun t ht => ?_, h.holding, h.presents, fun i q hi => ?_,
    fun i q hi => ?_, h.traced⟩
  · have := h.tags t ht
    simp
    omega
  · rcases hold i q hi with ⟨rfl, rfl⟩ | hi
    · rw [hgranted]
      exact hsafe
    · exact h.safe i q hi
  · rcases hold i q hi with ⟨rfl, rfl⟩ | hi
    · refine .inr ⟨q, hp, ?_⟩
      rw [hnone]
      exact .refl q
    · exact h.leads i q hi

theorem Threads.crash (h : Threads exec T I pre log seen client s tagged) (i : Nat) :
    Threads exec T I pre log seen client { s with procs := s.procs.set i (.ret ()) } tagged := by
  have hold : ∀ (j : Nat) (q : Prog E R Unit), (s.procs.set i (.ret ()))[j]? = some q →
      q = .ret () ∨ s.procs[j]? = some q := by
    intro j q hj
    rw [List.getElem?_set] at hj
    by_cases hij : i = j
    · subst hij
      simp at hj
      exact .inl hj.2.symm
    · rw [if_neg hij] at hj
      exact .inr hj
  refine ⟨h.logged, fun t ht => ?_, h.holding, h.presents, fun j q hj => ?_,
    fun j q hj => ?_, h.traced⟩
  · simpa using h.tags t ht
  · rcases hold j q hj with rfl | hj
    · exact safe_done
    · exact h.safe j q hj
  · rcases hold j q hj with rfl | hj
    · exact .inl rfl
    · exact h.leads j q hj

variable {entry : (e : E) → C e → W → L}

theorem Threads.call (hT : T.Lawful exec)
    (hlog : ∀ e c w, log (exec e c w).2 = entry e c w :: log w)
    (hseen : ∀ e c w, seen (entry e c w) = ⟨e, (exec e c w).1⟩) (hI : I s.world)
    (h : Threads exec T I pre log seen client s tagged) (hi : s.procs[i]? = some (.call e k))
    (c : C e) :
    Threads exec T I pre log seen client
      ⟨(exec e c s.world).2, s.procs.set i (k (exec e c s.world).1)⟩
      ((i, entry e c s.world) :: tagged) := by
  obtain ⟨hp, hm, hk⟩ := h.safe i _ hi s.world .refl hI
  have hlt : i < s.procs.length := (List.getElem?_eq_some_iff.mp hi).1
  have hentries : ∀ j, entriesOf j ((i, entry e c s.world) :: tagged) =
      if i = j then entry e c s.world :: entriesOf j tagged else entriesOf j tagged :=
    fun j => entriesOf_cons
  have hgranted : granted T seen ((i, entry e c s.world) :: tagged) =
      Function.update (granted T seen tagged) i
        (gained (granted T seen tagged i) (T.grants e (exec e c s.world).1)) := by
    funext j o
    by_cases hij : i = j
    · subst hij
      rw [Function.update_self]
      simp only [granted, hentries, if_pos, List.mem_cons, exists_eq_or_imp, gained, eq_iff_iff]
      rw [hseen]
      exact or_comm
    · rw [Function.update_of_ne (Ne.symm hij)]
      simp only [granted, hentries, if_neg hij]
  have hold : ∀ (j : Nat) (q : Prog E R Unit),
      (s.procs.set i (k (exec e c s.world).1))[j]? = some q →
      (j = i ∧ q = k (exec e c s.world).1) ∨ (j ≠ i ∧ s.procs[j]? = some q) := by
    intro j q hj
    rw [List.getElem?_set] at hj
    by_cases hij : i = j
    · subst hij
      simp at hj
      exact .inl ⟨rfl, hj.2.symm⟩
    · rw [if_neg hij] at hj
      exact .inr ⟨Ne.symm hij, hj⟩
  refine ⟨?_, fun t ht => ?_, ?_, fun t ht o ho => ?_, fun j q hj => ?_, fun j q hj => ?_,
    fun j l past hl => ?_⟩
  · rw [hlog, List.map_cons, h.logged]
  · rw [List.length_set]
    rcases List.mem_cons.mp ht with rfl | ht
    · exact hlt
    · exact h.tags t ht
  · rw [hgranted]
    exact h.holding.call hT i e c
  · rw [hgranted]
    rcases List.mem_cons.mp ht with rfl | ht
    · rw [Function.update_self]
      rw [hseen] at ho
      exact .inl (hm o ho)
    · by_cases hji : t.1 = i
      · rw [hji, Function.update_self]
        exact .inl (hji ▸ h.presents t ht o ho)
      · rw [Function.update_of_ne hji]
        exact h.presents t ht o ho
  · rw [hgranted]
    rcases hold j q hj with ⟨rfl, rfl⟩ | ⟨hji, hj⟩
    · rw [Function.update_self]
      exact hk c
    · rw [Function.update_of_ne hji]
      refine (h.safe j q hj).later (Later.call hI hp (fun o ho hj => ?_) c)
      exact hji (h.holding.one j i o hj (hm o ho))
  · rw [hentries]
    rcases hold j q hj with ⟨rfl, rfl⟩ | ⟨hji, hj⟩
    · rcases h.leads j _ hi with hdone | ⟨p, hclient, hleads⟩
      · cases hdone
      · refine .inr ⟨p, hclient, ?_⟩
        rw [if_pos rfl, List.map_cons, List.reverse_cons, hseen]
        exact hleads.snoc rfl _
    · rw [if_neg (Ne.symm hji)]
      exact h.leads j q hj
  · rcases List.suffix_cons_iff.mp hl with heq | hl
    · injection heq with h₁ h₂
      injection h₁ with h₀ h₁
      subst h₀ h₁ h₂
      rcases h.leads j _ hi with hdone | ⟨p, hclient, hleads⟩
      · cases hdone
      · refine ⟨⟨p, hclient, ?_⟩, h.owns j⟩
        rw [hseen]
        exact hleads.asks rfl
    · exact h.traced j l past hl

/-- Every entry of the log was made by a process of the pool, with the calls it had made before,
between which no other process used its tokens. -/
theorem reachableBy_traced {start : W → Prop} (hT : T.Lawful exec)
    (hlog : ∀ e c w, log (exec e c w).2 = entry e c w :: log w)
    (hseen : ∀ e c w, seen (entry e c w) = ⟨e, (exec e c w).1⟩)
    (h0 : ∀ w, start w → I w ∧ log w = []) (hcall : ∀ e c w, I w → pre e w → I (exec e c w).2)
    (hclient : ∀ p w, client p → I w → Safe exec T I pre (fun _ _ _ => True) (fun _ => False) p w)
    {s : Pool W E R} (hs : ReachableBy exec client start s callers) :
    ∃ tagged : List (Nat × L), tagged.map Prod.fst = callers ∧ tagged.map Prod.snd = log s.world ∧
      ∀ i l past, (i, l) :: past <:+ tagged → Traced T seen client i l past := by
  have key : I s.world ∧ ∃ tagged, tagged.map Prod.fst = callers ∧
      Threads exec T I pre log seen client s tagged := by
    refine reachableBy_induction (P := fun s callers => I s.world ∧ ∃ tagged,
      tagged.map Prod.fst = callers ∧ Threads exec T I pre log seen client s tagged)
      (fun w hw => ?_) ?_ hs
    · obtain ⟨hI, hnil⟩ := h0 w hw
      exact ⟨hI, [], rfl, hnil.symm, by simp,
        ⟨by simp [granted, entriesOf], by simp [granted, entriesOf]⟩, by simp, by simp, by simp,
        by simp⟩
    · rintro s callers a ha ⟨hI, tagged, htags, h⟩
      cases a with
      | spawn p => exact ⟨hI, tagged, htags, h.spawn ha (hclient p _ ha hI)⟩
      | crash i => exact ⟨hI, tagged, htags, h.crash i⟩
      | run i choice =>
        simp only [Pool.step, Pool.caller]
        cases hi : s.procs[i]? with
        | none => exact ⟨hI, tagged, htags, h⟩
        | some q =>
          cases q with
          | ret u => exact ⟨hI, tagged, htags, h⟩
          | call e k =>
            obtain ⟨hp, _⟩ := h.safe i _ hi s.world .refl hI
            exact ⟨hcall e _ _ hI hp, _, by simp [htags], h.call hT hlog hseen hI hi (choice e)⟩
  obtain ⟨_, tagged, htags, h⟩ := key
  exact ⟨tagged, htags, h.logged, h.traced⟩

end

end AniInference.Lib
