import Mathlib.Logic.Relation
import Mathlib.Data.List.Basic

namespace AniInference.Lib

/-- A program that suspends at every call it makes on the outside. -/
inductive Prog (E : Type) (R : E → Type) (α : Type) : Type
  | ret (a : α)
  | call (e : E) (k : R e → Prog E R α)

namespace Prog
variable {E : Type} {R : E → Type} {α β : Type}

def bind : Prog E R α → (α → Prog E R β) → Prog E R β
  | .ret a, f => f a
  | .call e k, f => .call e fun r => (k r).bind f

/-- One call, whose answer is the result. -/
def perform (e : E) : Prog E R (R e) := .call e .ret

instance : Monad (Prog E R) where
  pure := .ret
  bind := Prog.bind

@[simp] theorem bind_ret (a : α) (f : α → Prog E R β) : (Prog.ret a >>= f) = f a := rfl

@[simp] theorem pure_eq (a : α) : (pure a : Prog E R α) = .ret a := rfl

@[simp] theorem bind_call (e : E) (k : R e → Prog E R α) (f : α → Prog E R β) :
    (Prog.call e k >>= f) = .call e fun r => k r >>= f := rfl

@[simp] theorem bind_perform (e : E) (f : R e → Prog E R β) :
    (perform e >>= f) = .call e f := rfl

/-- The same program with its calls made under other names. -/
def hoist {E' : Type} {R' : E' → Type} (f : E → E') (back : (e : E) → R' (f e) → R e) :
    Prog E R α → Prog E' R' α
  | .ret a => .ret a
  | .call e k => .call (f e) fun r => (k (back e r)).hoist f back

theorem hoist_bind {E' : Type} {R' : E' → Type} (f : E → E') (back : (e : E) → R' (f e) → R e)
    (p : Prog E R α) (g : α → Prog E R β) :
    (p >>= g).hoist f back = p.hoist f back >>= fun a => (g a).hoist f back := by
  induction p with
  | ret a => rfl
  | call e k ih =>
    change Prog.call _ _ = Prog.call _ _
    congr 1
    funext r
    exact ih _

/-- The program makes these calls, gets these answers and ends with this value. -/
inductive Played : Prog E R α → List (Σ e, R e) → α → Prop
  | ret (a : α) : Played (.ret a) [] a
  | call {e : E} {k : R e → Prog E R α} {es : List (Σ e, R e)} {a : α} (r : R e)
      (h : Played (k r) es a) : Played (.call e k) (⟨e, r⟩ :: es) a

theorem Played.of_hoist {E' : Type} {R' : E' → Type} {f : E → E'}
    {back : (e : E) → R' (f e) → R e} {p : Prog E R α} {es : List (Σ e, R' e)} {a : α}
    (h : Played (p.hoist f back) es a) : ∃ es', Played p es' a := by
  induction p generalizing es with
  | ret b =>
    cases h
    exact ⟨[], .ret _⟩
  | call e k ih =>
    cases h with
    | call r h =>
      obtain ⟨es', h'⟩ := ih _ h
      exact ⟨_, .call _ h'⟩

theorem played_ret : Played (.ret a) es b ↔ es = [] ∧ b = a := by
  constructor
  · intro h
    cases h
    exact ⟨rfl, rfl⟩
  · rintro ⟨rfl, rfl⟩
    exact .ret b

theorem played_call :
    Played (.call e k) es a ↔ ∃ r es', es = ⟨e, r⟩ :: es' ∧ Played (k r) es' a := by
  constructor
  · intro h
    cases h with
    | call r h => exact ⟨r, _, rfl, h⟩
  · rintro ⟨r, es', rfl, h⟩
    exact .call r h

theorem played_bind :
    Played (p >>= f) es b ↔ ∃ a es₁ es₂, es = es₁ ++ es₂ ∧ Played p es₁ a ∧ Played (f a) es₂ b := by
  induction p generalizing es with
  | ret a => simp [played_ret]
  | call e k ih =>
    simp only [bind_call, played_call, ih]
    constructor
    · rintro ⟨r, _, rfl, a, es₁, es₂, rfl, ha, hb⟩
      exact ⟨a, ⟨e, r⟩ :: es₁, es₂, rfl, ⟨r, es₁, rfl, ha⟩, hb⟩
    · rintro ⟨a, _, es₂, rfl, ⟨r, es₁, rfl, ha⟩, hb⟩
      exact ⟨r, es₁ ++ es₂, rfl, a, es₁, es₂, rfl, ha, hb⟩

end Prog

section
variable {E : Type} {R : E → Type} {ε α β : Type}

/-- Every successful end of the program satisfies `P`. -/
def Ends (x : ExceptT ε (Prog E R) α) (P : α → Prop) : Prop :=
  ∀ es a, Prog.Played x.run es (.ok a) → P a

variable {P : α → Prop} {Q : β → Prop}

theorem ends_pure (h : P a) : Ends (pure a : ExceptT ε (Prog E R) α) P := by
  intro es b hb
  obtain ⟨_, hab⟩ := Prog.played_ret.mp hb
  cases hab
  exact h

theorem ends_throw : Ends (throw e : ExceptT ε (Prog E R) α) P := by
  intro es b hb
  obtain ⟨_, hab⟩ := Prog.played_ret.mp hb
  cases hab

theorem ends_bind (h : ∀ a, Ends (f a) Q) : Ends (x >>= f) Q := by
  intro es b hb
  rw [ExceptT.run_bind] at hb
  obtain ⟨a, es₁, es₂, _, _, hfa⟩ := Prog.played_bind.mp hb
  cases a with
  | ok a => exact h a es₂ b hfa
  | error e => exact ends_throw es₂ b hfa

theorem ends_ite [Decidable c] (hx : c → Ends x P) (hy : ¬c → Ends y P) :
    Ends (if c then x else y) P := by
  by_cases hc : c
  · rw [if_pos hc]
    exact hx hc
  · rw [if_neg hc]
    exact hy hc

end

end AniInference.Lib
