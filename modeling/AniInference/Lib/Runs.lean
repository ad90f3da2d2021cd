import AniInference.Lib.Trace
import Mathlib.Algebra.BigOperators.Ring.Finset
import Mathlib.Algebra.Order.BigOperators.Group.Finset

namespace AniInference.Lib
open Prog

/-- One call of a numbered process, its answer and the shared state around it. -/
structure Moment (S E : Type) (R : E → Type) where
  actor : Nat
  call : E
  answer : R call
  before : S
  after : S

section
variable {S E α : Type} {R C : E → Type}

def Moment.seen (x : Moment S E R) : Σ e, R e := ⟨x.call, x.answer⟩

/-- The calls one process has made, the first call first. A history has its last event first. -/
def trace (i : Nat) (h : List (Moment S E R)) : List (Σ e, R e) :=
  ((h.filter (·.actor = i)).map Moment.seen).reverse

/-- The histories of any number of processes over one shared state. A step is the next call of
some process; a process that never acts again has crashed. What the outside decides about a
call is its choice. -/
inductive Run (act : Nat → (e : E) → C e → S → R e × S) (prog : Nat → Prog E R α)
    (start : S → Prop) : List (Moment S E R) → S → Prop
  | start {s : S} (h : start s) : Run act prog start [] s
  | step {h : List (Moment S E R)} {s : S} (i : Nat) (e : E) (c : C e)
      (run : Run act prog start h s) (asks : Asks (prog i) (trace i h) e) :
      Run act prog start (⟨i, e, (act i e c s).1, s, (act i e c s).2⟩ :: h) (act i e c s).2

theorem trace_cons (i : Nat) (x : Moment S E R) (h : List (Moment S E R)) :
    trace i (x :: h) = if x.actor = i then trace i h ++ [x.seen] else trace i h := by
  by_cases hi : x.actor = i
  · simp [trace, hi]
  · simp [trace, hi]

@[simp] theorem trace_nil (i : Nat) : trace i ([] : List (Moment S E R)) = [] := rfl

theorem mem_trace : a ∈ trace i h ↔ ∃ x ∈ h, x.actor = i ∧ x.seen = a := by
  simp [trace, and_assoc]

theorem trace_append (i : Nat) (new past : List (Moment S E R)) :
    trace i (new ++ past) = trace i past ++ trace i new := by
  simp [trace]

/-- Where the calls of a process fall apart, the history does. -/
theorem trace_split {i : Nat} {h : List (Moment S E R)} {es₁ es₂ : List (Σ e, R e)} {a : Σ e, R e}
    (ht : trace i h = es₁ ++ a :: es₂) :
    ∃ new x past, h = new ++ x :: past ∧ x.actor = i ∧ x.seen = a ∧ trace i past = es₁ ∧
      trace i new = es₂ := by
  induction h generalizing es₂ with
  | nil => simp at ht
  | cons x h ih =>
    rw [trace_cons] at ht
    by_cases hi : x.actor = i
    · rw [if_pos hi] at ht
      rcases List.eq_nil_or_concat es₂ with rfl | ⟨es, b, rfl⟩
      · obtain ⟨h₁, h₂⟩ := List.append_inj' ht rfl
        injection h₂ with h₂ _
        exact ⟨[], x, h, rfl, hi, h₂, h₁, rfl⟩
      · have ht' : trace i h ++ [x.seen] = (es₁ ++ a :: es) ++ [b] := by simpa using ht
        obtain ⟨h₁, h₂⟩ := List.append_inj' ht' rfl
        injection h₂ with h₂ _
        obtain ⟨new, y, past, rfl, hy, hs, hpast, hnew⟩ := ih h₁
        exact ⟨x :: new, y, past, rfl, hy, hs, hpast, by
          rw [trace_cons, if_pos hi, hnew, h₂, List.concat_eq_append]⟩
    · rw [if_neg hi] at ht
      obtain ⟨new, y, past, rfl, hy, hs, hpast, hnew⟩ := ih ht
      exact ⟨x :: new, y, past, rfl, hy, hs, hpast, by rw [trace_cons, if_neg hi, hnew]⟩

variable {act : Nat → (e : E) → C e → S → R e × S} {prog : Nat → Prog E R α} {start : S → Prop}

/-- What made an event: a run up to it, the call its process was at, and a choice. -/
structure Arises (act : Nat → (e : E) → C e → S → R e × S) (prog : Nat → Prog E R α)
    (start : S → Prop) (x : Moment S E R) (past : List (Moment S E R)) : Prop where
  run : Run act prog start past x.before
  asks : Asks (prog x.actor) (trace x.actor past) x.call
  acted : ∃ c, x.answer = (act x.actor x.call c x.before).1 ∧
    x.after = (act x.actor x.call c x.before).2

namespace Run
variable {h : List (Moment S E R)} {s : S}

theorem arises (hr : Run act prog start h s) (hx : x :: past <:+ h) :
    Arises act prog start x past := by
  induction hr with
  | start _ => simp at hx
  | step i e c run asks ih =>
    rcases List.suffix_cons_iff.mp hx with heq | hx
    · injection heq with h₁ h₂
      subst h₁ h₂
      exact ⟨run, asks, c, rfl, rfl⟩
    · exact ih hx

theorem mem_arises (hr : Run act prog start h s) (hx : x ∈ h) :
    ∃ past, x :: past <:+ h ∧ Arises act prog start x past := by
  obtain ⟨new, past, rfl⟩ := List.append_of_mem hx
  exact ⟨past, List.suffix_append _ _, hr.arises (List.suffix_append _ _)⟩

/-- The state a history ends in is the one its last event left. -/
theorem last (hr : Run act prog start h s) (hx : h = x :: past) : x.after = s := by
  cases hr with
  | start _ => simp at hx
  | step i e c run asks =>
    injection hx with h₁ _
    subst h₁
    rfl

/-- A property of states that no later moment breaks holds from the moment on after which it
held. -/
theorem since {P : S → Prop} {x : Moment S E R} (hr : Run act prog start (mid ++ x :: past) s)
    (h0 : P x.after)
    (hstep : ∀ y older, y ∈ mid → y :: older <:+ mid ++ x :: past → P y.before → P y.after) :
    P s := by
  induction mid generalizing s with
  | nil => exact hr.last rfl ▸ h0
  | cons y mid ih =>
    have hmade := hr.arises (List.suffix_refl _)
    have hbefore := ih hmade.run fun z older hz hsuf =>
      hstep z older (List.mem_cons_of_mem _ hz) (hsuf.trans (List.suffix_cons _ _))
    exact hr.last rfl ▸ hstep y _ List.mem_cons_self (List.suffix_refl _) hbefore

/-- An invariant: the start has it and every event keeps it. -/
theorem invariant {P : S → Prop} (hr : Run act prog start h s) (h0 : ∀ s, start s → P s)
    (hstep : ∀ y older, y :: older <:+ h → P y.before → P y.after) : P s := by
  induction hr with
  | start hs => exact h0 _ hs
  | @step h s i e c run asks ih =>
    have hbefore := ih fun y older hy => hstep y older (hy.trans (List.suffix_cons _ _))
    exact hstep _ _ (List.suffix_refl _) hbefore

/-- An invariant of histories. -/
theorem induction {P : List (Moment S E R) → S → Prop} (hr : Run act prog start h s)
    (h0 : ∀ s, start s → P [] s)
    (hstep : ∀ y past, y :: past <:+ h → Arises act prog start y past → P past y.before →
      P (y :: past) y.after) : P h s := by
  induction hr with
  | start hs => exact h0 _ hs
  | @step h s i e c run asks ih =>
    have hbefore := ih fun y older hy => hstep y older (hy.trans (List.suffix_cons _ _))
    exact hstep _ h (List.suffix_refl _) ⟨run, asks, c, rfl, rfl⟩ hbefore

end Run

/-- How far the calls of process `i` have raised a measure of the state. -/
def gain (m : S → Nat) (i : Nat) : List (Moment S E R) → Nat
  | [] => 0
  | x :: h => (if x.actor = i then m x.after - m x.before else 0) + gain m i h

theorem le_gain (hx : x ∈ h) (hi : x.actor = i) : m x.after - m x.before ≤ gain m i h := by
  induction h with
  | nil => cases hx
  | cons y h ih =>
    unfold gain
    rcases List.mem_cons.mp hx with rfl | hx
    · rw [if_pos hi]
      omega
    · have := ih hx
      omega

/-- A measure that only rises, and not above `n` when it does, bounds what any processes have
gained together. -/
theorem Run.gains_le (hr : Run act prog start h s) (hstep : ∀ x past, x :: past <:+ h →
      m x.after = m x.before ∨ m x.before ≤ m x.after ∧ m x.after ≤ n) (is : Finset Nat) :
    ∑ i ∈ is, gain m i h ≤ n := by
  have key : ∑ i ∈ is, gain m i h ≤ m s ∧ (∑ i ∈ is, gain m i h = 0 ∨ m s ≤ n) := by
    refine hr.induction (P := fun h s =>
      ∑ i ∈ is, gain m i h ≤ m s ∧ (∑ i ∈ is, gain m i h = 0 ∨ m s ≤ n)) ?_ ?_
    · intro s _
      simp [gain]
    · intro x past hx _ ih
      have hsum : ∑ i ∈ is, gain m i (x :: past) =
          (if x.actor ∈ is then m x.after - m x.before else 0) + ∑ i ∈ is, gain m i past := by
        simp only [gain, Finset.sum_add_distrib, Finset.sum_ite_eq]
      rw [hsum]
      rcases hstep x past hx with hsame | ⟨hle, hn⟩
      · rw [hsame]
        simpa using ih
      · split <;> omega
  omega

/-- Processes that are being run: what is left of each, and the history so far. -/
structure Play (S E : Type) (R : E → Type) (α : Type) where
  state : S
  procs : Nat → Prog E R α
  history : List (Moment S E R)

/-- The process of this number makes its next call. -/
def Play.step (act : Nat → (e : E) → C e → S → R e × S) (p : Play S E R α)
    (a : Nat × ((e : E) → C e)) : Play S E R α :=
  match p.procs a.1 with
  | .ret _ => p
  | .call e k =>
    let r := act a.1 e (a.2 e) p.state
    ⟨r.2, Function.update p.procs a.1 (k r.1), ⟨a.1, e, r.1, p.state, r.2⟩ :: p.history⟩

def play (act : Nat → (e : E) → C e → S → R e × S) (prog : Nat → Prog E R α) (s : S)
    (as : List (Nat × ((e : E) → C e))) : Play S E R α :=
  as.foldl (Play.step act) ⟨s, prog, []⟩

/-- What is played is a run, and each process is where its calls led. -/
structure Play.Sound (act : Nat → (e : E) → C e → S → R e × S) (prog : Nat → Prog E R α)
    (start : S → Prop) (p : Play S E R α) : Prop where
  run : Run act prog start p.history p.state
  leads : ∀ i, Leads (prog i) (trace i p.history) (p.procs i)

theorem Play.Sound.step {p : Play S E R α} (hp : p.Sound act prog start)
    (a : Nat × ((e : E) → C e)) : (p.step act a).Sound act prog start := by
  unfold Play.step
  cases hk : p.procs a.1 with
  | ret _ => exact hp
  | call e k =>
    have hlead := hp.leads a.1
    refine ⟨hp.run.step a.1 e (a.2 e) (hlead.asks hk), fun i => ?_⟩
    rw [trace_cons]
    by_cases hi : a.1 = i
    · subst hi
      simp only [if_pos, Function.update_self]
      exact hlead.snoc hk _
    · simp only [if_neg hi, Function.update_of_ne (Ne.symm hi)]
      exact hp.leads i

theorem play_sound (hs : start s) (as : List (Nat × ((e : E) → C e))) :
    (play act prog s as).Sound act prog start := by
  have key : ∀ (as : List (Nat × ((e : E) → C e))) (p : Play S E R α), p.Sound act prog start →
      (as.foldl (Play.step act) p).Sound act prog start := by
    intro as
    induction as with
    | nil => exact fun _ h => h
    | cons a as ih => exact fun p h => ih _ (h.step a)
  exact key as _ ⟨.start hs, fun i => .refl _⟩

/-- A process whose program is over has been answered. -/
theorem Prog.Leads.played (h : Leads p es q) (hq : q = .ret a) : Played p es a := by
  induction h with
  | refl p =>
    subst hq
    exact .ret a
  | next r _ ih => exact .call r (ih hq)

/-- The result of a process whose program is over. -/
def Play.result (p : Play S E R α) (i : Nat) : Option α :=
  match p.procs i with
  | .ret a => some a
  | .call .. => none

theorem Play.Sound.played {p : Play S E R α} (hp : p.Sound act prog start)
    (ha : p.result i = some a) : Played (prog i) (trace i p.history) a := by
  unfold Play.result at ha
  cases hk : p.procs i with
  | call e k => simp [hk] at ha
  | ret b =>
    simp only [hk, Option.some.injEq] at ha
    subst ha
    exact (hp.leads i).played hk

end

end AniInference.Lib
