import AniInference.Lib.Trace

namespace AniInference.Lib
open Prog

section
variable {E : Type} {R : E → Type} {α β ε : Type}

/-- Walking down a program from the calls `es`: each call it makes satisfies `Φ` after the calls
before it, and each end of it satisfies `Ψ` after all of them. -/
def Walk (Φ : List (Σ e, R e) → E → Prop) (Ψ : List (Σ e, R e) → α → Prop) :
    List (Σ e, R e) → Prog E R α → Prop
  | es, .ret a => Ψ es a
  | es, .call e k => Φ es e ∧ ∀ r, Walk Φ Ψ (es ++ [⟨e, r⟩]) (k r)

variable {Φ : List (Σ e, R e) → E → Prop} {Ψ Ψ' : List (Σ e, R e) → α → Prop}
variable {es : List (Σ e, R e)}

theorem walk_call : Walk Φ Ψ es (.call e k) ↔ Φ es e ∧ ∀ r,
    Walk Φ Ψ (es ++ [⟨e, r⟩]) (k r) := Iff.rfl

theorem walk_bind : Walk Φ Ψ es (p >>= f) ↔ Walk Φ (fun es a => Walk Φ Ψ es (f a)) es p := by
  induction p generalizing es with
  | ret a => exact Iff.rfl
  | call e k ih =>
    simp only [bind_call, walk_call]
    exact and_congr_right fun _ => forall_congr' fun r => ih r

theorem Walk.mono (h : Walk Φ Ψ es p) (hΨ : ∀ es a, Ψ es a → Ψ' es a) : Walk Φ Ψ' es p := by
  induction p generalizing es with
  | ret a => exact hΨ es a h
  | call e k ih => exact ⟨h.1, fun r => ih r (h.2 r)⟩

/-- A program keeps what each of its calls keeps. -/
theorem Walk.of_only {P : E → Prop} {I : List (Σ e, R e) → Prop} {p : Prog E R α} (hp : p.Only P)
    (hΦ : ∀ es e, I es → P e → Φ es e) (hI : ∀ es e r, P e → I es → I (es ++ [⟨e, r⟩]))
    (h : I es) : Walk Φ (fun es _ => I es) es p := by
  induction p generalizing es with
  | ret a => exact h
  | call e k ih => exact ⟨hΦ es e h hp.1, fun r => ih r (hp.2 r) (hI es e r hp.1 h)⟩

theorem Walk.asks (h : Walk Φ Ψ es p) (ha : Asks p es' e) : Φ (es ++ es') e := by
  induction ha generalizing es with
  | here =>
    rw [List.append_nil]
    exact h.1
  | next r _ ih =>
    have hrest := ih (h.2 r)
    rwa [List.append_assoc] at hrest

theorem Walk.played (h : Walk Φ Ψ es p) (hp : Played p es' a) : Ψ (es ++ es') a := by
  induction hp generalizing es with
  | ret a =>
    rw [List.append_nil]
    exact h
  | call r _ ih =>
    have hrest := ih (h.2 r)
    rwa [List.append_assoc] at hrest

/-- What holds where the program ends may be taken from the calls it made. -/
theorem Walk.of_played (h : Walk Φ Ψ es p)
    (hΨ : ∀ es' a, Played p es' a → Ψ (es ++ es') a → Ψ' (es ++ es') a) : Walk Φ Ψ' es p := by
  induction p generalizing es with
  | ret a =>
    have hend := hΨ [] a (.ret a)
    rw [List.append_nil] at hend
    exact hend h
  | call e k ih =>
    refine ⟨h.1, fun r => ih r (h.2 r) fun es' a hp => ?_⟩
    rw [List.append_assoc]
    exact hΨ (⟨e, r⟩ :: es') a (.call r hp)

variable {Θ : List (Σ e, R e) → Except ε α → Prop} {Θ' : List (Σ e, R e) → Except ε β → Prop}

theorem walk_pure : Walk Φ Θ es (pure a : ExceptT ε (Prog E R) α).run ↔ Θ es (.ok a) :=
  Iff.rfl

theorem walk_throw : Walk Φ Θ es (throw e : ExceptT ε (Prog E R) α).run ↔ Θ es (.error e) := Iff.rfl

theorem walk_lift :
    Walk Φ Θ es (ExceptT.lift p : ExceptT ε (Prog E R) α).run ↔
      Walk Φ (fun es a => Θ es (.ok a)) es p :=
  walk_bind

/-- What has to hold where the first of two parts ends: a failure ends the whole. -/
def Onward (Φ : List (Σ e, R e) → E → Prop) (Θ' : List (Σ e, R e) → Except ε β → Prop)
    (f : α → ExceptT ε (Prog E R) β) (es : List (Σ e, R e)) : Except ε α → Prop
  | .ok a => Walk Φ Θ' es (f a).run
  | .error e => Θ' es (.error e)

theorem walk_run_bind : Walk Φ Θ' es (x >>= f).run ↔ Walk Φ (Onward Φ Θ' f) es x.run := by
  rw [ExceptT.run_bind, walk_bind]
  constructor <;> intro h <;> refine h.mono fun es r hr => ?_ <;> cases r <;> exact hr

/-- One call, and what is done with its answer. -/
theorem walk_lift_bind (he : Φ es e) (hf : ∀ r, Walk Φ Θ' (es ++ [⟨e, r⟩]) (f r).run) :
    Walk Φ Θ' es (ExceptT.lift (perform e) >>= f : ExceptT ε (Prog E R) β).run :=
  walk_run_bind.mpr (walk_lift.mpr ⟨he, hf⟩)

/-- Walking down a program that may fail: `P` holds where it does not. -/
def WalkOk (Φ : List (Σ e, R e) → E → Prop) (P : List (Σ e, R e) → α → Prop)
    (es : List (Σ e, R e)) (x : ExceptT ε (Prog E R) α) : Prop :=
  Walk Φ (fun es r => ∀ a, r = .ok a → P es a) es x.run

namespace WalkOk
variable {P P' : List (Σ e, R e) → α → Prop} {Q : List (Σ e, R e) → β → Prop}
variable {x : ExceptT ε (Prog E R) α} {f : α → ExceptT ε (Prog E R) β}

theorem pure (h : P es a) : WalkOk Φ P es (Pure.pure a : ExceptT ε (Prog E R) α) := by
  intro b hb
  cases hb
  exact h

theorem throw (e : ε) : WalkOk Φ P es (throw e : ExceptT ε (Prog E R) α) := by
  intro b hb
  cases hb

theorem bind (hx : WalkOk Φ P es x) (hf : ∀ es a, P es a → WalkOk Φ Q es (f a)) :
    WalkOk Φ Q es (x >>= f) := by
  refine walk_run_bind.mpr (Walk.mono hx fun es r hr => ?_)
  cases r with
  | ok a => exact hf es a (hr a rfl)
  | error e =>
    intro b hb
    cases hb

theorem call {f : R e → ExceptT ε (Prog E R) β} (he : Φ es e)
    (hf : ∀ r, WalkOk Φ Q (es ++ [⟨e, r⟩]) (f r)) :
    WalkOk Φ Q es (ExceptT.lift (perform e) >>= f) :=
  walk_lift_bind he hf

theorem mono (hx : WalkOk Φ P es x) (h : ∀ es a, P es a → P' es a) : WalkOk Φ P' es x :=
  Walk.mono hx fun es _ hr a ha => h es a (hr a ha)

/-- The calls made so far stay. -/
theorem grows (hx : WalkOk Φ P es x) :
    WalkOk Φ (fun es' a => P es' a ∧ es <+: es') es x :=
  Walk.of_played hx fun es' _ _ hr a ha => ⟨hr a ha, es', rfl⟩

theorem played (hx : WalkOk Φ P [] x) (hp : Played x.run es (.ok a)) : P es a :=
  Walk.played hx hp a rfl

end WalkOk

end

end AniInference.Lib
