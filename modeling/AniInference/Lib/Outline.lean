import AniInference.Lib.Runs
import AniInference.Lib.Walk

namespace AniInference.Lib
open Prog

section
variable {S E α : Type} {R C : E → Type}
variable (act : Nat → (e : E) → C e → S → R e × S) (prog : Nat → Prog E R α) (start : S → Prop)
variable (whole : List (Moment S E R)) (i : Nat)

/-- What is the case in the history `whole` whenever process `i` has made just the calls `es`. -/
def Known (es : List (Σ e, R e)) (P : List (Moment S E R) → S → Prop) : Prop :=
  ∀ h s, h <:+ whole → Run act prog start h s → trace i h = es → P h s

/-- No call of another process breaks it. -/
def Stable (P : List (Moment S E R) → S → Prop) : Prop :=
  ∀ y past, y :: past <:+ whole → Arises act prog start y past → y.actor ≠ i →
    P past y.before → P (y :: past) y.after

/-- No call at all breaks it. -/
def Lasting (P : List (Moment S E R) → S → Prop) : Prop :=
  ∀ y past, y :: past <:+ whole → Arises act prog start y past → P past y.before →
    P (y :: past) y.after

variable {act prog start whole i}
variable {es : List (Σ e, R e)} {P Q : List (Moment S E R) → S → Prop}

theorem Known.mono (h : Known act prog start whole i es P) (hPQ : ∀ h s, P h s → Q h s) :
    Known act prog start whole i es Q :=
  fun g s hg hr ht => hPQ g s (h g s hg hr ht)

/-- What holds where the own calls stop keeps holding while only others act. -/
theorem Stable.since (hP : Stable act prog start whole i P) (hnew : trace i new = [])
    (hsuf : new ++ past <:+ whole) (hr : Run act prog start (new ++ past) s)
    (hpast : ∀ s, Run act prog start past s → P past s) : P (new ++ past) s := by
  induction new generalizing s with
  | nil => exact hpast s hr
  | cons y new ih =>
    have hy := hr.arises (List.suffix_refl _)
    rw [trace_cons] at hnew
    by_cases hi : y.actor = i
    · simp [hi] at hnew
    · rw [if_neg hi] at hnew
      have hbefore := ih hnew ((List.suffix_cons _ _).trans hsuf) hy.run
      exact hr.last rfl ▸ hP y _ hsuf hy hi hbefore

/-- One call further: what the call makes of what was known, unless others break it. -/
theorem Known.call (h : Known act prog start whole i es Q)
    (own : ∀ b a past, (⟨i, e, r, b, a⟩ : Moment S E R) :: past <:+ whole →
      Arises act prog start ⟨i, e, r, b, a⟩ past → Q past b → P (⟨i, e, r, b, a⟩ :: past) a)
    (hP : Stable act prog start whole i P) : Known act prog start whole i (es ++ [⟨e, r⟩]) P := by
  intro g s hsuf hr ht
  obtain ⟨new, x, past, rfl, hi, hseen, hpast, hnew⟩ := trace_split ht
  obtain ⟨actor, call, answer, b, a⟩ := x
  obtain rfl : actor = i := hi
  cases hseen
  refine hP.since hnew hsuf hr fun s hs => ?_
  have hx := hs.arises (List.suffix_refl _)
  have hsuf' := (List.suffix_append new _).trans hsuf
  have hbefore := h past b ((List.suffix_cons _ _).trans hsuf') hx.run hpast
  exact hs.last rfl ▸ own b a past hsuf' hx hbefore

theorem Lasting.stable (h : Lasting act prog start whole P) : Stable act prog start whole i P :=
  fun y past hy ha _ => h y past hy ha

theorem Known.lasting (h : Known act prog start whole i es P) (hP : Lasting act prog start whole P)
    (a : Σ e, R e) : Known act prog start whole i (es ++ [a]) P :=
  h.call (fun _ _ past hx ha hb => hP _ past hx ha hb) hP.stable

end

end AniInference.Lib
