import AniInference.Lib.Transaction

namespace AniInference.Lib

/-- A transaction as it is sent to the store: one statement after another, each at a time of its
own. -/
inductive Script (τ σ ε : Type) : Type 1
  | commit
  | send {β : Type} (x : τ → Txn σ ε β) (next : β → Script τ σ ε)

namespace Script
open Txn
variable {τ σ ε : Type}

/-- All statements at one moment. -/
def tx (now : τ) : Script τ σ ε → Txn σ ε Unit
  | .commit => pure ()
  | .send x next => do
    let b ← x now
    (next b).tx now

/-- The statements one by one, each with what it saw and what it left. Between two of them other
transactions may commit, so a statement may see anything. One that fails ends the transaction, and
all of it is rolled back. -/
inductive Ends : Script τ σ ε → List (τ × σ × σ) → Except ε Unit → Prop
  | commit : Ends .commit [] (.ok ())
  | fails {β : Type} {x : τ → Txn σ ε β} {next : β → Script τ σ ε} {now : τ} {s : σ} {e : ε}
      (h : x now s = .error e) : Ends (.send x next) [(now, s, s)] (.error e)
  | step {β : Type} {x : τ → Txn σ ε β} {next : β → Script τ σ ε} {now : τ} {s s' : σ} {b : β}
      {steps : List (τ × σ × σ)} {result : Except ε Unit} (h : Runs (x now) s b s')
      (rest : Ends (next b) steps result) : Ends (.send x next) ((now, s, s') :: steps) result

/-- The statements at these times, where nothing else changes the store and each is answered. -/
def chain : Script τ σ ε → List τ → σ → Option (List (τ × σ × σ))
  | .commit, _, _ => some []
  | .send _ _, [], _ => none
  | .send x next, now :: times, s =>
    match x now s with
    | .ok (b, s') => ((next b).chain times s').map ((now, s, s') :: ·)
    | .error _ => none

end Script
end AniInference.Lib
