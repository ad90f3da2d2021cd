import AniInference.Lib.Program

namespace AniInference.Lib

/-- A shared world and the processes that still run against it. -/
structure Pool (W E : Type) (R : E → Type) where
  world : W
  procs : List (Prog E R Unit)

/-- What a scheduler may do. A running process makes its next call, and `choice` is
everything the outside decides about that call; a process that crashes makes none any more. -/
inductive Action (E : Type) (R C : E → Type) : Type
  | spawn (p : Prog E R Unit)
  | run (i : Nat) (choice : (e : E) → C e)
  | crash (i : Nat)

section
variable {W E : Type} {R C : E → Type}
variable (exec : (e : E) → C e → W → R e × W)

def Pool.step (s : Pool W E R) : Action E R C → Pool W E R
  | .spawn p => { s with procs := s.procs ++ [p] }
  | .run i choice =>
    match s.procs[i]? with
    | some (.call e k) =>
      let r := exec e (choice e) s.world
      ⟨r.2, s.procs.set i (k r.1)⟩
    | _ => s
  | .crash i => { s with procs := s.procs.set i (.ret ()) }

def Pool.run (s : Pool W E R) (as : List (Action E R C)) : Pool W E R :=
  as.foldl (Pool.step exec) s

/-- Only the programs of `client` are ever started. -/
def Action.Legal (client : Prog E R Unit → Prop) : Action E R C → Prop
  | .spawn p => client p
  | _ => True

/-- The pools some legal schedule leads to from an initial world. -/
def Reachable (client : Prog E R Unit → Prop) (start : W → Prop) (s : Pool W E R) : Prop :=
  ∃ w as, start w ∧ (∀ a ∈ as, Action.Legal (C := C) client a) ∧ s = Pool.run exec ⟨w, []⟩ as

variable {exec} {client : Prog E R Unit → Prop} {start : W → Prop}

/-- Induction over schedules: what the start has and every legal step keeps. -/
theorem reachable_induction {P : Pool W E R → Prop} (h0 : ∀ w, start w → P ⟨w, []⟩)
    (hstep : ∀ s (a : Action E R C), a.Legal client → P s → P (s.step exec a))
    {s : Pool W E R} (hs : Reachable exec client start s) : P s := by
  obtain ⟨w, as, hw, hl, rfl⟩ := hs
  have key : ∀ (as : List (Action E R C)) (s : Pool W E R), (∀ a ∈ as, a.Legal client) →
      P s → P (s.run exec as) := by
    intro as
    induction as with
    | nil => exact fun _ _ h => h
    | cons a as ih =>
      intro s hl h
      exact ih _ (fun b hb => hl b (by simp [hb])) (hstep s a (hl a (by simp)) h)
  exact key as _ hl (h0 w hw)

/-- A property of the world that no call breaks holds in every reachable pool. -/
theorem reachable_invariant {I : W → Prop} (h0 : ∀ w, start w → I w)
    (hcall : ∀ e c w, I w → I (exec e c w).2) {s : Pool W E R}
    (hs : Reachable exec client start s) : I s.world := by
  refine reachable_induction (P := fun s => I s.world) h0 ?_ hs
  intro s a _ h
  cases a with
  | spawn p | crash i => exact h
  | run i choice =>
    simp only [Pool.step]
    split
    · exact hcall _ _ _ h
    · exact h

end

/-- Tokens that calls present and that answers hand out. A token is handed out once. -/
structure Tokens (W E O : Type) (R : E → Type) where
  presents : E → Option O
  grants : (e : E) → R e → Option O
  issued : W → O → Prop

/-- The tokens a process holds once an answer has granted it another, or none. -/
def gained {O : Type} (mine : O → Prop) (new : Option O) : O → Prop :=
  fun o => mine o ∨ new = some o

section
variable {W E O : Type} {R C : E → Type} {α β : Type}
variable (exec : (e : E) → C e → W → R e × W) (T : Tokens W E O R)

/-- Tokens are never taken back and never handed out twice. -/
structure Tokens.Lawful : Prop where
  keep : ∀ e c w o, T.issued w o → T.issued (exec e c w).2 o
  fresh : ∀ e c w o, T.grants e (exec e c w).1 = some o → ¬T.issued w o
  grant : ∀ e c w o, T.grants e (exec e c w).1 = some o → T.issued (exec e c w).2 o

variable (I : W → Prop) (pre : E → W → Prop)

/-- One call made where its precondition holds, by a process that holds none of `mine`. -/
def Guarded (mine : O → Prop) (w w' : W) : Prop :=
  I w ∧ ∃ e c, pre e w ∧ (∀ o, T.presents e = some o → ¬mine o) ∧ w' = (exec e c w).2

/-- What any number of such calls, by whichever processes, can turn a world into. -/
def Later (mine : O → Prop) : W → W → Prop := Relation.ReflTransGen (Guarded exec T I pre mine)

/-- From `w` on, whatever the other processes do between two calls, the program makes
each call where its precondition holds, with a token of its own, and ends where `Q` holds. -/
def Safe (Q : α → (O → Prop) → W → Prop) : (O → Prop) → Prog E R α → W → Prop
  | mine, .ret a, w => ∀ w', Later exec T I pre mine w w' → I w' → Q a mine w'
  | mine, .call e k, w => ∀ w', Later exec T I pre mine w w' → I w' →
      pre e w' ∧ (∀ o, T.presents e = some o → mine o) ∧
      ∀ c, Safe Q (gained mine (T.grants e (exec e c w').1)) (k (exec e c w').1) (exec e c w').2

variable {exec T I pre} {mine : O → Prop}

theorem Later.refl : Later exec T I pre mine w w := Relation.ReflTransGen.refl

theorem Later.trans (h : Later exec T I pre mine w w') (h' : Later exec T I pre mine w' w'') :
    Later exec T I pre mine w w'' :=
  Relation.ReflTransGen.trans h h'

theorem Later.call (hI : I w) (hp : pre e w) (hm : ∀ o, T.presents e = some o → ¬mine o) (c : C e) :
    Later exec T I pre mine w (exec e c w).2 :=
  Relation.ReflTransGen.single ⟨hI, e, c, hp, hm, rfl⟩

/-- A property that no guarded call of the others breaks holds later when it holds now. -/
theorem Later.stable {P : W → Prop}
    (hP : ∀ e c w, I w → pre e w → (∀ o, T.presents e = some o → ¬mine o) → P w → P (exec e c w).2)
    (h : Later exec T I pre mine w w') (hw : P w) : P w' := by
  induction h with
  | refl => exact hw
  | tail _ hstep ih =>
    obtain ⟨hI, e, c, hp, hm, rfl⟩ := hstep
    exact hP e c _ hI hp hm ih

theorem Safe.later (h : Safe exec T I pre Q mine p w) (hl : Later exec T I pre mine w w') :
    Safe exec T I pre Q mine p w' := by
  cases p with
  | ret a | call e k => exact fun w'' hl' hI => h w'' (hl.trans hl') hI

theorem safe_of_later
    (h : ∀ w', Later exec T I pre mine w w' → I w' → Safe exec T I pre Q mine p w') :
    Safe exec T I pre Q mine p w := by
  cases p with
  | ret a | call e k => exact fun w' hl hI => h w' hl hI w' .refl hI

theorem safe_bind (h : Safe exec T I pre (fun a m w' => Safe exec T I pre Q m (f a) w') mine p w) :
    Safe exec T I pre Q mine (p >>= f) w := by
  induction p generalizing w mine with
  | ret a => exact safe_of_later fun w' hl hI => h w' hl hI
  | call e k ih =>
    intro w' hl hI
    obtain ⟨hp, hm, hk⟩ := h w' hl hI
    exact ⟨hp, hm, fun c => ih _ (hk c)⟩

theorem Safe.mono (h : Safe exec T I pre Q mine p w) (hQ : ∀ a m w', Q a m w' → Q' a m w') :
    Safe exec T I pre Q' mine p w := by
  induction p generalizing w mine with
  | ret a => exact fun w' hl hI => hQ a mine w' (h w' hl hI)
  | call e k ih =>
    intro w' hl hI
    obtain ⟨hp, hm, hk⟩ := h w' hl hI
    exact ⟨hp, hm, fun c => ih _ (hk c)⟩

/-- What no call breaks holds where the program ends. -/
theorem Safe.frame {Q : α → (O → Prop) → W → Prop} {P : W → Prop}
    (hP : ∀ e c w, P w → P (exec e c w).2) (h : Safe exec T I pre Q mine p w) (hw : P w) :
    Safe exec T I pre (fun a m w' => Q a m w' ∧ P w') mine p w := by
  have hlater : ∀ {m : O → Prop} {w w' : W}, Later exec T I pre m w w' → P w → P w' :=
    fun hl => hl.stable fun e c w _ _ _ => hP e c w
  induction p generalizing w mine with
  | ret a => exact fun w' hl hI => ⟨h w' hl hI, hlater hl hw⟩
  | call e k ih =>
    intro w' hl hI
    obtain ⟨hp, hm, hk⟩ := h w' hl hI
    exact ⟨hp, hm, fun c => ih _ (hk c) (hP e c w' (hlater hl hw))⟩

/-- Where a safe program ends, its postcondition holds from then on. -/
theorem Safe.onward (h : Safe exec T I pre Q mine p w) :
    Safe exec T I pre (fun a m w' => ∀ w'', Later exec T I pre m w' w'' → I w'' → Q a m w'') mine p
      w := by
  induction p generalizing w mine with
  | ret a => exact fun w' hl hI w'' hl' hI' => h w'' (hl.trans hl') hI'
  | call e k ih =>
    intro w' hl hI
    obtain ⟨hp, hm, hk⟩ := h w' hl hI
    exact ⟨hp, hm, fun c => ih _ (hk c)⟩

/-- A stronger invariant leaves the others less to do. -/
theorem Safe.restrict (hJ : ∀ w, J w → I w) (h : Safe exec T I pre Q mine p w) :
    Safe exec T J pre Q mine p w := by
  have hlater : ∀ {mine w w'}, Later exec T J pre mine w w' → Later exec T I pre mine w w' := by
    intro mine w w' hl
    induction hl with
    | refl => exact .refl
    | tail _ hstep ih => exact ih.tail ⟨hJ _ hstep.1, hstep.2⟩
  induction p generalizing w mine with
  | ret a => exact fun w' hl hI => h w' (hlater hl) (hJ w' hI)
  | call e k ih =>
    intro w' hl hI
    obtain ⟨hp, hm, hk⟩ := h w' (hlater hl) (hJ w' hI)
    exact ⟨hp, hm, fun c => ih _ (hk c)⟩

/-- Which process holds which tokens: each token at most one, and none that is not issued. -/
structure Holding (T : Tokens W E O R) (own : Nat → O → Prop) (w : W) : Prop where
  one : ∀ i j o, own i o → own j o → i = j
  issued : ∀ i o, own i o → T.issued w o

theorem Holding.call (hT : T.Lawful exec) (h : Holding T own w) (i : Nat) (e : E) (c : C e) :
    Holding T (Function.update own i (gained (own i) (T.grants e (exec e c w).1)))
      (exec e c w).2 := by
  have hnew : ∀ j o, T.grants e (exec e c w).1 = some o → ¬own j o :=
    fun j o hg hj => hT.fresh e c w o hg (h.issued j o hj)
  constructor
  · intro j k o hj hk
    by_cases hji : j = i <;> by_cases hki : k = i
    · rw [hji, hki]
    · subst hji
      rw [Function.update_self] at hj
      rw [Function.update_of_ne hki] at hk
      rcases hj with hj | hj
      · exact h.one j k o hj hk
      · exact absurd hk (hnew k o hj)
    · subst hki
      rw [Function.update_self] at hk
      rw [Function.update_of_ne hji] at hj
      rcases hk with hk | hk
      · exact h.one j k o hj hk
      · exact absurd hj (hnew j o hk)
    · rw [Function.update_of_ne hji] at hj
      rw [Function.update_of_ne hki] at hk
      exact h.one j k o hj hk
  · intro j o hj
    by_cases hji : j = i
    · subst hji
      rw [Function.update_self] at hj
      rcases hj with hj | hj
      · exact hT.keep e c w o (h.issued j o hj)
      · exact hT.grant e c w o hj
    · rw [Function.update_of_ne hji] at hj
      exact hT.keep e c w o (h.issued j o hj)

/-- A process that starts or stops holds no token. -/
theorem Holding.drop (h : Holding T own w) (i : Nat) :
    Holding T (Function.update own i fun _ => False) w := by
  have hsub : ∀ j o, Function.update own i (fun _ => False) j o → own j o := by
    intro j o hj
    by_cases hji : j = i
    · subst hji
      rw [Function.update_self] at hj
      exact hj.elim
    · rwa [Function.update_of_ne hji] at hj
  exact ⟨fun j k o hj hk => h.one j k o (hsub j o hj) (hsub k o hk),
    fun j o hj => h.issued j o (hsub j o hj)⟩

/-- Every unfinished process is safe with the tokens it holds. -/
def AllSafe (exec : (e : E) → C e → W → R e × W) (T : Tokens W E O R) (I : W → Prop)
    (pre : E → W → Prop) (s : Pool W E R) : Prop :=
  ∃ own : Nat → O → Prop, Holding T own s.world ∧
    ∀ (i : Nat) (p : Prog E R Unit), s.procs[i]? = some p →
      Safe exec T I pre (fun _ _ _ => True) (own i) p s.world

theorem AllSafe.place {s : Pool W E R} (hh : Holding T own s.world)
    (hs : ∀ (i : Nat) (p : Prog E R Unit), s.procs[i]? = some p →
      Safe exec T I pre (fun _ _ _ => True) (own i) p s.world) (i : Nat) (q : Prog E R Unit)
    (procs : List (Prog E R Unit))
    (hq : Safe exec T I pre (fun _ _ _ => True) (fun _ => False) q s.world)
    (hp : ∀ (j : Nat) (p : Prog E R Unit), procs[j]? = some p →
      (j = i ∧ p = q) ∨ (j ≠ i ∧ s.procs[j]? = some p)) :
    AllSafe exec T I pre ⟨s.world, procs⟩ := by
  refine ⟨_, hh.drop i, fun j p hj => ?_⟩
  rcases hp j p hj with ⟨rfl, rfl⟩ | ⟨hji, hj⟩
  · rw [Function.update_self]
    exact hq
  · rw [Function.update_of_ne hji]
    exact hs j p hj

theorem safe_done : Safe exec T I pre (fun _ _ _ => True) mine (.ret () : Prog E R Unit) w :=
  fun _ _ _ => trivial

/-- Processes that are safe on their own are safe together: in every reachable pool the
invariant holds and each unfinished process is still safe. -/
theorem reachable_safe {client : Prog E R Unit → Prop} {start : W → Prop} (hT : T.Lawful exec)
    (h0 : ∀ w, start w → I w) (hcall : ∀ e c w, I w → pre e w → I (exec e c w).2)
    (hclient : ∀ p w, client p → I w →
      Safe exec T I pre (fun _ _ _ => True) (fun _ => False) p w)
    {s : Pool W E R} (hs : Reachable exec client start s) :
    I s.world ∧ AllSafe exec T I pre s := by
  refine reachable_induction (P := fun s => I s.world ∧ AllSafe exec T I pre s)
    (fun w hw => ⟨h0 w hw, fun _ _ => False, ⟨by simp, by simp⟩, by simp⟩) ?_ hs
  rintro ⟨w, ps⟩ a ha ⟨hI, own, hh, hps⟩
  cases a with
  | spawn p =>
    refine ⟨hI, AllSafe.place hh hps ps.length p _ (hclient p w ha hI) fun j q hj => ?_⟩
    by_cases hjl : j = ps.length
    · subst hjl
      simp at hj
      exact .inl ⟨rfl, hj.symm⟩
    · have hlt : j < ps.length := by
        have := (List.getElem?_eq_some_iff.mp hj).1
        simp at this
        omega
      rw [List.getElem?_append_left hlt] at hj
      exact .inr ⟨hjl, hj⟩
  | crash i =>
    refine ⟨hI, AllSafe.place hh hps i (.ret ()) _ safe_done fun j q hj => ?_⟩
    rw [List.getElem?_set] at hj
    by_cases hji : i = j
    · subst hji
      simp at hj
      exact .inl ⟨rfl, hj.2.symm⟩
    · simp [hji] at hj
      exact .inr ⟨Ne.symm hji, hj⟩
  | run i choice =>
    simp only [Pool.step]
    split
    · next e k hi =>
      obtain ⟨hp, hm, hk⟩ := hps i _ hi w .refl hI
      refine ⟨hcall e _ w hI hp, _, hh.call hT i e (choice e), fun j q hj => ?_⟩
      rw [List.getElem?_set] at hj
      by_cases hji : i = j
      · subst hji
        simp at hj
        rw [Function.update_self, ← hj.2]
        exact hk _
      · simp [hji] at hj
        rw [Function.update_of_ne (Ne.symm hji)]
        refine (hps j q hj).later (Later.call hI hp (fun o ho hj => ?_) _)
        exact hji (hh.one i j o (hm o ho) hj)
    · exact ⟨hI, own, hh, hps⟩

end

section
variable {W E O L : Type} {R C : E → Type} {α : Type}
variable {exec : (e : E) → C e → W → R e × W} {T : Tokens W E O R} {I : W → Prop}
variable {pre : E → W → Prop} {mine : O → Prop}
variable (log : W → List L) (entry : (e : E) → C e → W → L)

/-- Every entry of the log was made by a call in a world where `P` held, and the log then held
what is below the entry now. -/
def Recorded (P : E → W → Prop) (w : W) : Prop :=
  ∀ l past, l :: past <:+ log w → ∃ e c w₀, P e w₀ ∧ log w₀ = past ∧ l = entry e c w₀

variable {log entry} (hlog : ∀ e c w, log (exec e c w).2 = entry e c w :: log w)
include hlog

theorem Recorded.call (h : Recorded log entry P w) (hp : P e w) (c : C e) :
    Recorded log entry P (exec e c w).2 := by
  intro l past hl
  rw [hlog] at hl
  rcases List.suffix_cons_iff.mp hl with heq | hl
  · injection heq with h₁ h₂
    exact ⟨e, c, w, hp, h₂.symm, h₁⟩
  · exact h l past hl

/-- The rule of `reachable_safe`, with the log explained. -/
theorem reachable_recorded (hT : T.Lawful exec) (h0 : ∀ w, start w → I w ∧ log w = [])
    (hcall : ∀ e c w, I w → pre e w → I (exec e c w).2)
    (hclient : ∀ p w, client p → I w → Safe exec T I pre (fun _ _ _ => True) (fun _ => False) p w)
    (hs : Reachable exec client start s) :
    I s.world ∧ Recorded log entry (fun e w => I w ∧ pre e w) s.world := by
  let J : W → Prop := fun w => I w ∧ Recorded log entry (fun e w => I w ∧ pre e w) w
  have hJ : ∀ w, J w → I w := fun w hw => hw.1
  suffices h : J s.world ∧ AllSafe exec T J pre s from h.1
  refine reachable_safe hT ?_ ?_ ?_ hs
  · intro w hw
    obtain ⟨hI, hnil⟩ := h0 w hw
    refine ⟨hI, fun l past hl => ?_⟩
    rw [hnil] at hl
    simp at hl
  · intro e c w hw hp
    exact ⟨hcall e c w hw.1 hp, hw.2.call hlog ⟨hw.1, hp⟩ c⟩
  · intro p w hp hw
    exact (hclient p w hp hw.1).restrict hJ

/-- What no call breaks holds wherever a call of the log was made. -/
theorem reachable_logged {client : Prog E R Unit → Prop} {start : W → Prop}
    (h0 : ∀ w, start w → I w ∧ log w = []) (hcall : ∀ e c w, I w → I (exec e c w).2)
    {s : Pool W E R} (hs : Reachable exec client start s) :
    I s.world ∧ Recorded log entry (fun _ => I) s.world := by
  let J : W → Prop := fun w => I w ∧ Recorded log entry (fun _ => I) w
  suffices h : J s.world from h
  refine reachable_invariant (fun w hw => ?_) (fun e c w h => ?_) hs
  · obtain ⟨hI, hnil⟩ := h0 w hw
    refine ⟨hI, fun l past hl => ?_⟩
    rw [hnil] at hl
    simp at hl
  · exact ⟨hcall e c w h.1, h.2.call hlog h.1 c⟩

theorem Later.log_eq (h : Later exec T I pre mine w w') : ∃ new, log w' = new ++ log w := by
  induction h with
  | refl => exact ⟨[], rfl⟩
  | tail _ hstep ih =>
    obtain ⟨_, e, c, _, _, rfl⟩ := hstep
    obtain ⟨new, hnew⟩ := ih
    exact ⟨entry e c _ :: new, by rw [hlog, hnew]; rfl⟩

/-- A safe program leaves its calls and their answers in the log, in their order and whatever
other processes put between them. -/
theorem Safe.played (hseen : ∀ e c w, seen (entry e c w) = ⟨e, (exec e c w).1⟩)
    (h : Safe exec T I pre Q mine p w) :
    Safe exec T I pre (fun a m w' => Q a m w' ∧ ∃ es new, Prog.Played p es a ∧
      log w' = new ++ log w ∧ es.reverse.Sublist (new.map seen)) mine p w := by
  induction p generalizing w mine with
  | ret a =>
    intro w' hl hI
    obtain ⟨new, hnew⟩ := hl.log_eq hlog
    exact ⟨h w' hl hI, [], new, .ret a, hnew, List.nil_sublist _⟩
  | call e k ih =>
    intro w' hl hI
    obtain ⟨hp, hm, hk⟩ := h w' hl hI
    obtain ⟨new₀, hnew₀⟩ := hl.log_eq hlog
    refine ⟨hp, hm, fun c => (ih _ (hk c)).mono ?_⟩
    rintro a m w'' ⟨hQ, es, new, hplay, hnew, hsub⟩
    refine ⟨hQ, ⟨e, (exec e c w').1⟩ :: es, new ++ entry e c w' :: new₀, .call _ hplay, ?_, ?_⟩
    · rw [hnew, hlog, hnew₀]
      simp
    · rw [List.reverse_cons, List.map_append, List.map_cons, hseen]
      exact hsub.append (List.Sublist.cons_cons _ (List.nil_sublist _))

end

end AniInference.Lib
