import AniInference.Discipline

namespace AniInference
open Lib

section
variable (opts : WorkOptions) (r : Runner) (token : Uuid)

/-- The discipline for programs that hold the lease token `token`. -/
abbrev Obeys {α : Type} (F : World → Prop) (x : M α) (G : α → World → Prop)
    (H : Err → World → Prop) : Prop :=
  Triple (exec opts) leaseTokens World.Kept (Call.Proper opts r) token F x G H

/-- The program makes proper calls only, and `F` holds from its beginning to its end. -/
abbrev Keeps {α : Type} (F : World → Prop) (x : M α) : Prop :=
  Obeys opts r token F x (fun _ => F) (fun _ => F)

/-- The other processes leave `F` alone. -/
abbrev Lasting (F : World → Prop) : Prop :=
  Steady (exec opts) leaseTokens World.Kept (Call.Proper opts r) token F

end

section
variable {opts : WorkOptions} {r : Runner} {token : Uuid} {α : Type}
variable {F : World → Prop} {H : Err → World → Prop}

theorem keeps_attempt (hx : Keeps opts r token F x) : Keeps opts r token F (M.attempt x) := by
  refine (triple_lift_run hx).weaken (fun _ h => h) (fun a w h => ?_) (fun _ _ h => h)
  cases a with
  | ok a | error e => exact h

variable (hF : Lasting opts r token F)
include hF

/-- A read: what it answers is what the database holds. -/
theorem obeys_read {q : Read} {G : q.Result → World → Prop} (hG : ∀ a, Lasting opts r token (G a))
    (hH : ∀ e, Lasting opts r token (H e))
    (hok : ∀ fault w a, w.Kept → F w → (exec opts (.read q) fault w).1 = .ok a →
      G a (exec opts (.read q) fault w).2) (herr : ∀ e w, F w → H e w) :
    Obeys opts r token F (M.read q) G H := by
  intro mine w ho hw
  refine safe_perform (e := .read q) (T := leaseTokens) (Q := outcome G H)
    hF (fun _ _ _ => trivial) (fun _ h => nomatch h) (fun c w hI hw => ?_) (fun a => ?_) ho hw
  · cases ha : (exec opts (.read q) c w).1 with
    | ok a => exact hok c w a hI hw ha
    | error e => exact herr e _ (hF _ c w hI trivial (fun h => nomatch h) hw)
  · cases a with
    | ok a => exact hG a
    | error e => exact hH e

theorem obeys_write (hG : ∀ a, Lasting opts r token (G a)) (hH : ∀ e, Lasting opts r token (H e))
    (hp : ∀ w, w.Kept → F w → x.Proper opts r w) (ht : x.token = token)
    (hok : ∀ fault w, w.Kept → F w → (exec opts (.write x) fault w).1 = .ok () →
      G () (exec opts (.write x) fault w).2)
    (herr : ∀ fault w e, w.Kept → F w → H e (exec opts (.write x) fault w).2) :
    Obeys opts r token F (M.write x) G H := by
  intro mine w ho hw
  refine safe_perform (e := .write x) (T := leaseTokens) (Q := outcome G H)
    hF hp (fun o h => ?_) (fun c w hI hw => ?_) (fun a => ?_) ho hw
  · exact (Option.some.inj h).symm.trans ht
  · cases ha : (exec opts (.write x) c w).1 with
    | ok a => exact hok c w hI hw ha
    | error e => exact herr c w e hI hw
  · cases a with
    | ok a => exact hG a
    | error e => exact hH e

theorem obeys_provider {p : Provider} {G : p.Result → World → Prop}
    (hG : ∀ a, Lasting opts r token (G a)) (hH : ∀ e, Lasting opts r token (H e))
    (hp : ∀ w, w.Kept → F w → p.Proper opts w)
    (hok : ∀ choice w a, w.Kept → F w → (exec opts (.provider p) choice w).1 = .ok a →
      G a (exec opts (.provider p) choice w).2) (herr : ∀ e w, F w → H e w) :
    Obeys opts r token F (M.provider p) G H := by
  intro mine w ho hw
  refine safe_perform (e := .provider p) (T := leaseTokens) (Q := outcome G H)
    hF hp (fun _ h => nomatch h) (fun c w hI hw => ?_) (fun a => ?_) ho hw
  · cases ha : (exec opts (.provider p) c w).1 with
    | ok a => exact hok c w a hI hw ha
    | error e => exact herr e _ (hF _ c w hI (hp w hI hw) (fun h => nomatch h) hw)
  · cases a with
    | ok a => exact hG a
    | error e => exact hH e

theorem obeys_clock (hG : ∀ t, Lasting opts r token (G t))
    (hok : ∀ w, w.Kept → F w → G w.now (exec opts .clock () w).2) :
    Obeys opts r token F M.clock G H := by
  intro mine w ho hw
  change Safe (exec opts) leaseTokens World.Kept (Call.Proper opts r) _ mine
    (Prog.perform Call.clock >>= fun t => Prog.ret (Except.ok t)) w
  refine safe_bind (Safe.mono (safe_perform (e := .clock) (T := leaseTokens) (Q := G) hF
    (fun _ _ _ => trivial) (fun _ h => nomatch h) (fun c w hI hw => hok w hI hw) hG ho hw) ?_)
  intro t m w' hQ w'' hl _
  exact ⟨hQ.1, (hG t).later hQ.1 hl hQ.2⟩

theorem keeps_read : Keeps opts r token F (M.read q) :=
  obeys_read hF (fun _ => hF) (fun _ => hF)
    (fun fault w _ hI hw _ => hF (.read q) fault w hI trivial (fun h => nomatch h) hw)
    (fun _ _ hw => hw)

theorem keeps_provider {p : Provider} (hp : ∀ w, w.Kept → F w → p.Proper opts w) :
    Keeps opts r token F (M.provider p) :=
  obeys_provider hF (fun _ => hF) (fun _ => hF) hp
    (fun choice w _ hI hw _ =>
      hF (.provider p) choice w hI (hp w hI hw) (fun h => nomatch h) hw)
    (fun _ _ hw => hw)

/-- A write with the program's own token, which `F` must bear. -/
theorem keeps_write (hp : ∀ w, w.Kept → F w → x.Proper opts r w) (ht : x.token = token)
    (hx : ∀ fault w, w.Kept → F w → F (exec opts (.write x) fault w).2) :
    Keeps opts r token F (M.write x) :=
  obeys_write hF (fun _ => hF) (fun _ => hF) hp ht
    (fun fault w hI hw _ => hx fault w hI hw) (fun fault w _ hI hw => hx fault w hI hw)

theorem keeps_pure : Keeps opts r token F (pure a) :=
  triple_pure hF fun _ _ hw => hw

theorem keeps_throw : Keeps opts r token F (throw e : M α) :=
  triple_throw hF fun _ _ hw => hw

theorem keeps_failIf [Decidable c] : Keeps opts r token F (M.failIf c e) :=
  triple_ite (fun _ => keeps_throw hF) fun _ => keeps_pure hF

theorem keeps_checked : Keeps opts r token F (M.checked context x) := by
  cases x with
  | ok a => exact keeps_pure hF
  | error e => exact keeps_throw hF

theorem keeps_onlyIf [Decidable c] (hx : c → Keeps opts r token F x) :
    Keeps opts r token F (M.onlyIf c x) :=
  triple_ite hx fun _ => keeps_pure hF

/-- A program whose errors are values keeps what it kept. -/
theorem keeps_wrapping (hx : Keeps opts r token F x) :
    Keeps opts r token F (M.wrapping context x) :=
  triple_bind (keeps_attempt hx) fun _ => keeps_checked hF

/-- A failure that is told twice is never a result. -/
theorem obeys_joinWith (hx : Keeps opts r token F x) :
    Obeys opts r token F (M.joinWith e x : M α) G (fun _ => F) := by
  refine triple_bind (keeps_attempt hx) fun a => ?_
  cases a with
  | ok _ | error e' => exact triple_throw hF fun _ _ h => h

end

end AniInference
