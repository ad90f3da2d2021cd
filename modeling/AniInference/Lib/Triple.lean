import AniInference.Lib.Interleaving

namespace AniInference.Lib

section
variable {W E O : Type} {R C : E → Type} {ε α β : Type}
variable (exec : (e : E) → C e → W → R e × W) (T : Tokens W E O R)
variable (I : W → Prop) (pre : E → W → Prop) (o : O)

/-- No call that leaves the token `o` alone breaks `F`. -/
def Steady (F : W → Prop) : Prop :=
  ∀ e c w, I w → pre e w → T.presents e ≠ some o → F w → F (exec e c w).2

/-- What holds at the end of a program, with a result and with an error. -/
def outcome (G : α → W → Prop) (H : ε → W → Prop) : Except ε α → W → Prop
  | .ok a => G a
  | .error e => H e

/-- With the token `o` and from a world where `F` holds, the program makes only calls it may
make. It ends with a result where `G` holds or with an error where `H` does. -/
def Triple (F : W → Prop) (x : ExceptT ε (Prog E R) α) (G : α → W → Prop) (H : ε → W → Prop) :
    Prop :=
  ∀ mine w, mine o → F w → Safe exec T I pre
    (fun a m w' => m o ∧ outcome G H a w') mine x.run w

variable {exec T I pre o}

theorem Steady.later {F : W → Prop} (hF : Steady exec T I pre o F) {mine : O → Prop} (ho : mine o)
    {w w' : W} (hl : Later exec T I pre mine w w') (hw : F w) : F w' := by
  refine Later.stable (fun e c w hI hp hm hF' => ?_) hl hw
  exact hF e c w hI hp (fun he => hm o he ho) hF'

theorem Steady.and {F F' : W → Prop} (h : Steady exec T I pre o F)
    (h' : Steady exec T I pre o F') : Steady exec T I pre o fun w => F w ∧ F' w :=
  fun e c w hI hp ho hw => ⟨h e c w hI hp ho hw.1, h' e c w hI hp ho hw.2⟩

theorem Steady.exists {ι : Sort*} {F : ι → W → Prop} (h : ∀ i, Steady exec T I pre o (F i)) :
    Steady exec T I pre o fun w => ∃ i, F i w := by
  intro e c w hI hp ho hw
  obtain ⟨i, hi⟩ := hw
  exact ⟨i, h i e c w hI hp ho hi⟩

theorem Steady.imp {P : Prop} {F : W → Prop} (h : Steady exec T I pre o F) :
    Steady exec T I pre o fun w => P → F w :=
  fun e c w hI hp ho hw hP => h e c w hI hp ho (hw hP)

theorem steady_const {P : Prop} : Steady exec T I pre o fun _ => P := fun _ _ _ _ _ _ hP => hP

variable {F F' : W → Prop} {G G' : α → W → Prop} {H H' : ε → W → Prop}

theorem Triple.weaken {x : ExceptT ε (Prog E R) α} (h : Triple exec T I pre o F x G H)
    (hF : ∀ w, F' w → F w) (hG : ∀ a w, G a w → G' a w) (hH : ∀ e w, H e w → H' e w) :
    Triple exec T I pre o F' x G' H' := by
  intro mine w ho hw
  refine (h mine w ho (hF w hw)).mono fun a m w' hQ => ?_
  cases a with
  | ok a => exact ⟨hQ.1, hG a w' hQ.2⟩
  | error e => exact ⟨hQ.1, hH e w' hQ.2⟩

/-- What no call breaks may be carried past any program. -/
theorem Triple.frame {x : ExceptT ε (Prog E R) α} {P : W → Prop}
    (h : Triple exec T I pre o F x G H) (hP : ∀ e c w, P w → P (exec e c w).2) :
    Triple exec T I pre o (fun w => F w ∧ P w) x (fun a w => G a w ∧ P w)
      (fun e w => H e w ∧ P w) := by
  intro mine w ho hw
  refine ((h mine w ho hw.1).frame hP hw.2).mono fun a m w' hQ => ?_
  cases a with
  | ok a | error e => exact ⟨hQ.1.1, hQ.1.2, hQ.2⟩

theorem triple_pure {a : α} (hF : Steady exec T I pre o F) (h : ∀ w, I w → F w → G a w) :
    Triple exec T I pre o F (pure a : ExceptT ε (Prog E R) α) G H := by
  intro mine w ho hw w' hl hI
  exact ⟨ho, h w' hI (hF.later ho hl hw)⟩

theorem triple_throw {e : ε} (hF : Steady exec T I pre o F) (h : ∀ w, I w → F w → H e w) :
    Triple exec T I pre o F (throw e : ExceptT ε (Prog E R) α) G H := by
  intro mine w ho hw w' hl hI
  exact ⟨ho, h w' hI (hF.later ho hl hw)⟩

/-- A result that is computed without a call. -/
theorem triple_ret {x : Except ε α} (hF : Steady exec T I pre o F) :
    Triple exec T I pre o F (ExceptT.mk (Prog.ret x) : ExceptT ε (Prog E R) α)
      (fun a w => F w ∧ x = .ok a) (fun _ => F) := by
  intro mine w ho hw w' hl hI
  have hw' := hF.later ho hl hw
  cases x with
  | ok a => exact ⟨ho, hw', rfl⟩
  | error e => exact ⟨ho, hw'⟩

theorem triple_bind {x : ExceptT ε (Prog E R) α} {f : α → ExceptT ε (Prog E R) β}
    {G' : β → W → Prop} (hx : Triple exec T I pre o F x G H)
    (hf : ∀ a, Triple exec T I pre o (G a) (f a) G' H) :
    Triple exec T I pre o F (x >>= f) G' H := by
  intro mine w ho hw
  rw [ExceptT.run_bind]
  refine safe_bind ((hx mine w ho hw).onward.mono fun a m w' hQ => ?_)
  cases a with
  | ok a =>
    refine safe_of_later fun w'' hl hI => ?_
    obtain ⟨ho', hG⟩ := hQ w'' hl hI
    exact hf a m w'' ho' hG
  | error e => exact hQ

/-- The result or the error of a program, as a value. -/
theorem triple_lift_run {x : ExceptT ε (Prog E R) α} (h : Triple exec T I pre o F x G H) :
    Triple exec T I pre o F (ExceptT.lift x.run : ExceptT ε (Prog E R) (Except ε α))
      (outcome G H) H' := by
  intro mine w ho hw
  change Safe exec T I pre _ mine (x.run >>= fun a => Prog.ret (Except.ok a)) w
  exact safe_bind ((h mine w ho hw).onward.mono fun a m w' hQ => hQ)

theorem triple_ite {c : Prop} [Decidable c] {x y : ExceptT ε (Prog E R) α}
    (hx : c → Triple exec T I pre o F x G H) (hy : ¬c → Triple exec T I pre o F y G H) :
    Triple exec T I pre o F (if c then x else y) G H := by
  by_cases hc : c
  · rw [if_pos hc]
    exact hx hc
  · rw [if_neg hc]
    exact hy hc

/-- A fact about no world may be used by the program that follows. -/
theorem triple_fact {P : Prop} {x : ExceptT ε (Prog E R) α}
    (h : P → Triple exec T I pre o F x G H) :
    Triple exec T I pre o (fun w => F w ∧ P) x G H :=
  fun mine w ho hw => h hw.2 mine w ho hw.1

theorem triple_have {P : Prop} {x : ExceptT ε (Prog E R) α} (hP : ∀ w, F w → P)
    (h : P → Triple exec T I pre o F x G H) : Triple exec T I pre o F x G H :=
  fun mine w ho hw => h (hP w hw) mine w ho hw

/-- One call. -/
theorem safe_perform {e : E} {Q : R e → W → Prop} (hF : Steady exec T I pre o F)
    (hp : ∀ w, I w → F w → pre e w) (ht : ∀ o', T.presents e = some o' → o' = o)
    (h : ∀ c w, I w → F w → Q (exec e c w).1 (exec e c w).2)
    (hQ : ∀ r, Steady exec T I pre o (Q r)) {mine : O → Prop} {w : W} (ho : mine o) (hw : F w) :
    Safe exec T I pre (fun r m w' => m o ∧ Q r w') mine (Prog.perform e) w := by
  intro w' hl hI
  have hw' := hF.later ho hl hw
  refine ⟨hp w' hI hw', fun o' he => ht o' he ▸ ho, fun c w'' hl' _ => ?_⟩
  have ho' : gained mine (T.grants e (exec e c w').1) o := .inl ho
  exact ⟨ho', (hQ _).later ho' hl' (h c w' hI hw')⟩

/-- The calls of a program and their answers are found in the log. -/
theorem Triple.played {L : Type} {log : W → List L} {entry : (e : E) → C e → W → L}
    {seen : L → Σ e, R e} (hlog : ∀ e c w, log (exec e c w).2 = entry e c w :: log w)
    (hseen : ∀ e c w, seen (entry e c w) = ⟨e, (exec e c w).1⟩)
    {x : ExceptT ε (Prog E R) α} (h : Triple exec T I pre o F x G H) :
    Triple exec T I pre o F x
      (fun a w => G a w ∧ ∃ es, Prog.Played x.run es (.ok a) ∧
        es.reverse.Sublist ((log w).map seen)) H := by
  intro mine w ho hw
  refine ((h mine w ho hw).played hlog hseen).mono fun a m w' hQ => ?_
  obtain ⟨⟨ho', hG⟩, es, new, hplayed, hnew, hsub⟩ := hQ
  cases a with
  | error e => exact ⟨ho', hG⟩
  | ok a =>
    refine ⟨ho', hG, es, hplayed, ?_⟩
    rw [hnew, List.map_append]
    exact hsub.trans (List.sublist_append_left _ _)

end

end AniInference.Lib
