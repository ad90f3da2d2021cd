import Mathlib.Algebra.Group.Nat.Defs
import Mathlib.Data.List.Basic
import Mathlib.Data.Fin.Basic

namespace AniInference.Lib

/-- Text, one character after another. -/
abbrev Text := List Char

namespace Text

/-- The characters `unicode.IsSpace` accepts. -/
def isSpace (c : Char) : Bool :=
  [0x09, 0x0A, 0x0B, 0x0C, 0x0D, 0x20, 0x85, 0xA0, 0x1680, 0x2000, 0x2001, 0x2002, 0x2003, 0x2004,
    0x2005, 0x2006, 0x2007, 0x2008, 0x2009, 0x200A, 0x2028, 0x2029, 0x202F, 0x205F,
    0x3000].contains c.toNat

/-- `strings.TrimSpace`. -/
def trimSpace (s : Text) : Text := ((s.dropWhile isSpace).reverse.dropWhile isSpace).reverse

/-- `unicode.ToLower` as far as it gives an ASCII letter: of two letters outside ASCII too. -/
def lowerChar (c : Char) : Char :=
  if c.toNat = 0x130 then 'i' else if c.toNat = 0x212A then 'k' else c.toLower

/-- `strings.TrimSpace` of a string. -/
def trim (s : String) : String := String.ofList (trimSpace s.toList)

/-- `strings.ToLower`. -/
def lower (s : String) : String := String.ofList (s.toList.map lowerChar)

/-- `strings.TrimSpace(s) == ""`. -/
def blank (s : String) : Bool := trimSpace s.toList = []

/-- The bytes of a text, one character each. Those of a character outside ASCII are written as one
that is neither a digit nor a dash. -/
def bytes (s : Text) : Text :=
  s.flatMap fun c => if c.utf8Size = 1 then [c] else List.replicate c.utf8Size '\u0080'

end Text

/-- A UUID by its 32 hexadecimal digits. -/
structure Uuid128 where
  digits : List (Fin 16)
  length_digits : digits.length = 32
deriving DecidableEq

namespace Uuid128

def lowerHex (d : Fin 16) : Char := Char.ofNat (if d.val < 10 then 48 + d.val else 87 + d.val)

def upperHex (d : Fin 16) : Char := Char.ofNat (if d.val < 10 then 48 + d.val else 55 + d.val)

/-- A hexadecimal digit in either case. -/
def hexValue (c : Char) : Option (Fin 16) :=
  (List.finRange 16).find? fun d => lowerHex d = c || upperHex d = c

/-- The text with dashes after the digits 8, 12, 16 and 20. -/
def dash (cs : Text) : Text :=
  cs.take 8 ++ '-' :: ((cs.drop 8).take 4 ++ '-' :: ((cs.drop 12).take 4 ++
    '-' :: ((cs.drop 16).take 4 ++ '-' :: cs.drop 20)))

/-- `UUID.String`. -/
def text (u : Uuid128) : Text := dash (u.digits.map lowerHex)

def ofHex (cs : Text) : Option Uuid128 :=
  match cs.mapM hexValue with
  | some ds => if h : ds.length = 32 then some ⟨ds, h⟩ else none
  | none => none

/-- The first 36 characters as digits with dashes between them. -/
def ofDashed (s : Text) : Option Uuid128 :=
  if s[8]? = some '-' ∧ s[13]? = some '-' ∧ s[18]? = some '-' ∧ s[23]? = some '-' then
    ofHex (s.take 8 ++ ((s.drop 9).take 4 ++ ((s.drop 14).take 4 ++ ((s.drop 19).take 4 ++
      (s.drop 24).take 12))))
  else none

/-- `uuid.Parse` of these bytes: dashed, dashed behind `urn:uuid:` in any case, dashed between two
that are not looked at, or digits only; the digits in any case. -/
def parseBytes (s : Text) : Option Uuid128 :=
  if s.length = 36 then ofDashed s
  else if s.length = 45 then
    if (s.take 9).map Char.toLower = ['u', 'r', 'n', ':', 'u', 'u', 'i', 'd', ':'] then
      ofDashed (s.drop 9)
    else none
  else if s.length = 38 then ofDashed (s.drop 1)
  else if s.length = 32 then ofHex s
  else none

/-- `uuid.Parse`. -/
def parse (s : Text) : Option Uuid128 := parseBytes (Text.bytes s)

/-- The UUID whose digits are all `d`. -/
def replicate (d : Nat) : Uuid128 := ⟨List.replicate 32 (Fin.ofNat 16 d), by simp⟩

/-- The digits as one number. -/
def number (u : Uuid128) : Nat := u.digits.foldl (fun n d => 16 * n + d.val) 0

/-- The UUID whose digits are those of `n`. -/
def ofNumber (n : Nat) : Uuid128 :=
  ⟨(List.range 32).map fun i => Fin.ofNat 16 (n / 16 ^ (31 - i)), by simp⟩

theorem hexValue_lowerHex (d : Fin 16) : hexValue (lowerHex d) = some d := by
  revert d
  decide

theorem mapM_hexValue (ds : List (Fin 16)) : (ds.map lowerHex).mapM hexValue = some ds := by
  induction ds with
  | nil => rfl
  | cons d ds ih => simp [hexValue_lowerHex, ih]

theorem ofHex_map (u : Uuid128) : ofHex (u.digits.map lowerHex) = some u := by
  unfold ofHex
  rw [mapM_hexValue]
  simp [u.length_digits]

theorem length_dash (h : cs.length = 32) : (dash cs).length = 36 := by
  simp [dash, h]

theorem ofDashed_dash (h : cs.length = 32) : ofDashed (dash cs) = ofHex cs := by
  obtain ⟨a, cs, rfl, ha⟩ : ∃ a b, cs = a ++ b ∧ a.length = 8 :=
    ⟨cs.take 8, cs.drop 8, by simp, by simp [h]⟩
  obtain ⟨b, cs, rfl, hb⟩ : ∃ b c, cs = b ++ c ∧ b.length = 4 :=
    ⟨cs.take 4, cs.drop 4, by simp, by simp at h ⊢; omega⟩
  obtain ⟨c, cs, rfl, hc⟩ : ∃ b c, cs = b ++ c ∧ b.length = 4 :=
    ⟨cs.take 4, cs.drop 4, by simp, by simp at h ⊢; omega⟩
  obtain ⟨d, e, rfl, hd⟩ : ∃ b c, cs = b ++ c ∧ b.length = 4 :=
    ⟨cs.take 4, cs.drop 4, by simp, by simp at h ⊢; omega⟩
  have he : e.length = 12 := by
    simp at h
    omega
  have hnil : ∀ (l : Text) (n : Nat), l.length ≤ n → l.drop n = [] :=
    fun _ _ hl => List.drop_eq_nil_of_le hl
  have hdash : dash (a ++ (b ++ (c ++ (d ++ e)))) =
      a ++ '-' :: (b ++ '-' :: (c ++ '-' :: (d ++ '-' :: e))) := by
    simp [dash, List.drop_append, ha, hb, hc, hd, hnil]
  rw [hdash]
  unfold ofDashed
  rw [if_pos (by simp [List.getElem?_append, ha, hb, hc, hd])]
  congr 1
  have hend : e.take 12 = e := List.take_of_length_le (by omega)
  simp [List.drop_append, ha, hb, hc, hd, hnil, hend]

theorem bytes_of_ascii (h : ∀ c ∈ s, c.utf8Size = 1) : Text.bytes s = s := by
  induction s with
  | nil => rfl
  | cons c s ih =>
    have hs : Text.bytes s = s := ih fun c hc => h c (List.mem_cons_of_mem _ hc)
    unfold Text.bytes at hs ⊢
    simp [hs, h c]

theorem mem_dash (h : c ∈ dash cs) : c = '-' ∨ c ∈ cs := by
  have hmid : ∀ n, c ∈ (cs.drop n).take 4 → c ∈ cs :=
    fun _ h => List.mem_of_mem_drop (List.mem_of_mem_take h)
  simp only [dash, List.mem_append, List.mem_cons] at h
  rcases h with h | h | h | h | h | h | h | h | h
  · exact .inr (List.mem_of_mem_take h)
  · exact .inl h
  · exact .inr (hmid 8 h)
  · exact .inl h
  · exact .inr (hmid 12 h)
  · exact .inl h
  · exact .inr (hmid 16 h)
  · exact .inl h
  · exact .inr (List.mem_of_mem_drop h)

theorem bytes_text (u : Uuid128) : Text.bytes u.text = u.text := by
  have hdigit : ∀ d : Fin 16, (lowerHex d).utf8Size = 1 := by decide
  refine bytes_of_ascii fun c hc => ?_
  rcases mem_dash hc with rfl | hmem
  · decide
  · obtain ⟨d, _, rfl⟩ := List.mem_map.mp hmem
    exact hdigit d

/-- What is written is read back. -/
theorem parse_text (u : Uuid128) : parse u.text = some u := by
  have hlen : (u.digits.map lowerHex).length = 32 := by simp [u.length_digits]
  unfold parse
  rw [bytes_text, parseBytes, text, if_pos (length_dash hlen), ofDashed_dash hlen, ofHex_map]

theorem text_inj {u v : Uuid128} (h : u.text = v.text) : u = v := by
  have hu := parse_text u
  rw [h, parse_text] at hu
  exact (Option.some.inj hu).symm

end Uuid128

end AniInference.Lib
