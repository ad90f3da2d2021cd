import Mathlib.Algebra.Order.Ring.Int

namespace AniInference.Lib

/-- What a signed machine integer of 32 bits keeps of a number. -/
@[irreducible] def wrap32 (n : Int) : Int := n.bmod (2 ^ 32)

theorem wrap32_of_fits (hlow : -2 ^ 31 ≤ n) (hhigh : n < 2 ^ 31) : wrap32 n = n := by
  unfold wrap32
  apply Int.bmod_eq_of_le <;> omega

/-- The number a nonempty list of digits stands for. -/
def readDigits : List Char → Option Nat
  | [] => none
  | cs => if cs.all Char.isDigit then some (cs.foldl (fun n c => 10 * n + (c.toNat - '0'.toNat)) 0)
    else none

/-- Reads a decimal number with an optional sign, which must fit in the given bits. -/
def parseInt (bits : Nat) (s : String) : Option Int := do
  let n ← match s.toList with
    | '-' :: digits => (readDigits digits).map fun n => -(n : Int)
    | '+' :: digits => (readDigits digits).map Int.ofNat
    | digits => (readDigits digits).map Int.ofNat
  if -2 ^ (bits - 1) ≤ n ∧ n < 2 ^ (bits - 1) then some n else none

end AniInference.Lib
