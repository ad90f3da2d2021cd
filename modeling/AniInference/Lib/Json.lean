import Mathlib.Data.List.Basic
import Mathlib.Data.List.Sort
import Mathlib.Data.String.Basic

namespace AniInference.Lib

/-- A JSON value as a decoder reads it. The members of an object stand in the order of the text, and
a number is its literal. -/
inductive Json
  | null
  | bool (b : Bool)
  | num (literal : String)
  | str (s : String)
  | arr (items : List Json)
  | obj (members : List (String × Json))

namespace Json

def hexDigit (n : Nat) : Char :=
  ['0', '1', '2', '3', '4', '5', '6', '7', '8', '9', 'a', 'b', 'c', 'd', 'e', 'f'].getD n '0'

def hexValue (c : Char) : Nat := if c.isDigit then c.toNat - '0'.toNat else c.toNat - 'a'.toNat + 10

/-- The characters that are escaped by a letter. -/
def shortEscapes : List (Char × Char) :=
  [('\\', '\\'), ('"', '"'), ('\x08', 'b'), ('\x0c', 'f'), ('\n', 'n'), ('\r', 'r'), ('\t', 't')]

/-- How a character stands in a string. Line separators are always escaped, and the characters of a
markup language where `html` asks for it. -/
def escape (html : Bool) (c : Char) : List Char :=
  match shortEscapes.lookup c with
  | some e => ['\\', e]
  | none =>
    if c.toNat < 32 ∨ (html = true ∧ c ∈ ['<', '>', '&']) then
      ['\\', 'u', '0', '0', hexDigit (c.toNat / 16), hexDigit (c.toNat % 16)]
    else if c = '\u2028' ∨ c = '\u2029' then
      ['\\', 'u', '2', '0', '2', hexDigit (c.toNat % 16)]
    else [c]

def quote (html : Bool) (s : String) : List Char :=
  '"' :: (s.toList.flatMap (escape html) ++ ['"'])

mutual

def render (html : Bool) : Json → List Char
  | .null => ['n', 'u', 'l', 'l']
  | .bool true => ['t', 'r', 'u', 'e']
  | .bool false => ['f', 'a', 'l', 's', 'e']
  | .num literal => literal.toList
  | .str s => quote html s
  | .arr [] => ['[', ']']
  | .arr (v :: vs) => '[' :: (render html v ++ renderItems html vs)
  | .obj [] => ['\x7b', '\x7d']
  | .obj ((k, v) :: ms) => '\x7b' :: (quote html k ++
    ':' :: (render html v ++ renderMembers html ms))

/-- The items behind the first, and the end of the array. -/
def renderItems (html : Bool) : List Json → List Char
  | [] => [']']
  | v :: vs => ',' :: (render html v ++ renderItems html vs)

def renderMembers (html : Bool) : List (String × Json) → List Char
  | [] => ['\x7d']
  | (k, v) :: ms => ',' :: (quote html k ++ ':' :: (render html v ++ renderMembers html ms))

end

/-- A value without numbers. -/
inductive Plain : Json → Prop
  | null : Plain .null
  | bool (b : Bool) : Plain (.bool b)
  | str (s : String) : Plain (.str s)
  | arr {items : List Json} (h : ∀ v ∈ items, Plain v) : Plain (.arr items)
  | obj {members : List (String × Json)} (h : ∀ m ∈ members, Plain m.2) : Plain (.obj members)

/-- The character that an escaped text begins with, and what follows it. -/
def unescape : List Char → Option (Char × List Char)
  | '\\' :: 'u' :: a :: b :: c :: d :: r =>
    some (Char.ofNat (((hexValue a * 16 + hexValue b) * 16 + hexValue c) * 16 + hexValue d), r)
  | '\\' :: e :: r => (shortEscapes.find? (·.2 = e)).map fun p => (p.1, r)
  | c :: r => some (c, r)
  | [] => none

theorem hexValue_hexDigit : ∀ n < 16, hexValue (hexDigit n) = n := by decide

theorem unescape_short (r : List Char) :
    ∀ p ∈ shortEscapes, unescape ('\\' :: p.2 :: r) = some (p.1, r) := by
  intro p hp
  simp only [shortEscapes, List.mem_cons, List.not_mem_nil, or_false] at hp
  rcases hp with rfl | rfl | rfl | rfl | rfl | rfl | rfl <;> rfl

theorem unescape_hex (hn : n < 256) (r : List Char) :
    unescape ('\\' :: 'u' :: '0' :: '0' :: hexDigit (n / 16) :: hexDigit (n % 16) :: r) =
      some (Char.ofNat n, r) := by
  have hhigh := hexValue_hexDigit (n / 16) (by omega)
  have hlow := hexValue_hexDigit (n % 16) (by omega)
  have hzero : hexValue '0' = 0 := rfl
  have hsum : ((0 * 16 + 0) * 16 + n / 16) * 16 + n % 16 = n := by omega
  simp only [unescape, hhigh, hlow, hzero, hsum]

theorem unescape_escape (html : Bool) (c : Char) (r : List Char) :
    unescape (escape html c ++ r) = some (c, r) := by
  unfold escape
  split
  case h_1 e he =>
    obtain ⟨l₁, l₂, hsplit, _⟩ := List.lookup_eq_some_iff.mp he
    exact unescape_short r (c, e) (by rw [hsplit]; simp)
  case h_2 hnone =>
    split
    case isTrue hlow =>
      have hn : c.toNat < 256 := by
        rcases hlow with h | ⟨_, h⟩
        · omega
        · simp only [List.mem_cons, List.not_mem_nil, or_false] at h
          rcases h with rfl | rfl | rfl <;> decide
      have hhex := unescape_hex hn r
      rwa [Char.ofNat_toNat] at hhex
    case isFalse =>
      split
      case isTrue hline => rcases hline with rfl | rfl <;> rfl
      case isFalse =>
        have hc : c ≠ '\\' := by
          rintro rfl
          cases hnone
        simp only [List.singleton_append]
        rw [unescape.eq_def]
        split <;> simp_all

/-- No escaped character begins with the character that ends a string. -/
theorem escape_ne_quote (html : Bool) (c : Char) (r r' : List Char) :
    escape html c ++ r ≠ '"' :: r' := by
  intro h
  have hread := unescape_escape html c r
  rw [h] at hread
  obtain ⟨rfl, rfl⟩ : '"' = c ∧ r' = r := by simpa [unescape] using hread
  cases h

theorem escaped_cancel (html : Bool) (cs ds r r' : List Char)
    (h : cs.flatMap (escape html) ++ '"' :: r = ds.flatMap (escape html) ++ '"' :: r') :
    cs = ds ∧ r = r' := by
  induction cs generalizing ds with
  | nil =>
    cases ds with
    | nil => simpa using h
    | cons d ds =>
      rw [List.flatMap_cons, List.append_assoc] at h
      exact absurd h.symm (escape_ne_quote html d _ _)
  | cons c cs ih =>
    cases ds with
    | nil =>
      rw [List.flatMap_cons, List.append_assoc] at h
      exact absurd h (escape_ne_quote html c _ _)
    | cons d ds =>
      simp only [List.flatMap_cons, List.append_assoc] at h
      have hread := congrArg unescape h
      rw [unescape_escape, unescape_escape] at hread
      obtain ⟨rfl, hrest⟩ := Prod.mk.inj (Option.some.inj hread)
      obtain ⟨rfl, rfl⟩ := ih ds hrest
      exact ⟨rfl, rfl⟩

/-- A string and what follows it are told apart. -/
theorem quote_cancel (h : quote html s ++ r = quote html t ++ r') : s = t ∧ r = r' := by
  simp only [quote, List.cons_append, List.append_assoc, List.cons.injEq, true_and,
    List.nil_append] at h
  obtain ⟨hs, hr⟩ := escaped_cancel html s.toList t.toList r r' h
  exact ⟨String.toList_injective hs, hr⟩

/-- A value and what follows it are told apart. -/
def Cancels (html : Bool) (v : Json) : Prop :=
  ∀ w r r', Plain w → render html v ++ r = render html w ++ r' → v = w ∧ r = r'

theorem items_cancel (ih : ∀ v ∈ vs, Cancels html v) (hw : ∀ w ∈ ws, Plain w)
    (h : renderItems html vs ++ r = renderItems html ws ++ r') : vs = ws ∧ r = r' := by
  induction vs generalizing ws with
  | nil =>
    cases ws with
    | nil => simpa [renderItems] using h
    | cons w ws => simp [renderItems] at h
  | cons v vs ihv =>
    cases ws with
    | nil => simp [renderItems] at h
    | cons w ws =>
      simp only [renderItems, List.cons_append, List.append_assoc, List.cons.injEq, true_and] at h
      obtain ⟨rfl, hrest⟩ := ih v List.mem_cons_self w _ _ (hw w List.mem_cons_self) h
      obtain ⟨rfl, hr⟩ := ihv (fun v hv => ih v (List.mem_cons_of_mem _ hv))
        (fun w hm => hw w (List.mem_cons_of_mem _ hm)) hrest
      exact ⟨rfl, hr⟩

theorem members_cancel (ih : ∀ m ∈ ms, Cancels html m.2) (hn : ∀ n ∈ ns, Plain n.2)
    (h : renderMembers html ms ++ r = renderMembers html ns ++ r') : ms = ns ∧ r = r' := by
  induction ms generalizing ns with
  | nil =>
    cases ns with
    | nil => simpa [renderMembers] using h
    | cons n ns => simp [renderMembers] at h
  | cons m ms ihm =>
    obtain ⟨k, v⟩ := m
    cases ns with
    | nil => simp [renderMembers] at h
    | cons n ns =>
      obtain ⟨k', w⟩ := n
      simp only [renderMembers, List.cons_append, List.append_assoc, List.cons.injEq,
        true_and] at h
      obtain ⟨rfl, hvalue⟩ := quote_cancel h
      obtain ⟨rfl, hrest⟩ := ih (k, v) List.mem_cons_self w _ _
        (hn (k, w) List.mem_cons_self) (List.cons.inj hvalue).2
      obtain ⟨rfl, hr⟩ := ihm (fun m hm => ih m (List.mem_cons_of_mem _ hm))
        (fun n hm => hn n (List.mem_cons_of_mem _ hm)) hrest
      exact ⟨rfl, hr⟩

/-- The first character of a value tells what it is. -/
def lead : Json → Option Char
  | .null => some 'n'
  | .bool true => some 't'
  | .bool false => some 'f'
  | .num _ => none
  | .str _ => some '"'
  | .arr _ => some '['
  | .obj _ => some '\x7b'

theorem lead_of_plain (hv : Plain v) (r : List Char) : (render html v ++ r).head? = v.lead := by
  cases hv with
  | null | str s => rfl
  | bool b | @arr b _ | @obj b _ => cases b <;> rfl

theorem same_lead (hv : Plain v) (hw : Plain w) (h : render html v ++ r = render html w ++ r') :
    v.lead = w.lead := by
  rw [← lead_of_plain hv r, h, lead_of_plain hw r']

/-- No value begins with the end of an array. -/
theorem render_ne_close (hv : Plain v) (r r' : List Char) :
    render html v ++ r ≠ ']' :: r' := by
  intro h
  have hlead : (render html v ++ r).head? = v.lead := lead_of_plain hv r
  rw [h] at hlead
  cases hv with
  | bool b => cases b <;> cases hlead
  | null | str | arr | obj => cases hlead

theorem arr_cancel (hv : ∀ v ∈ vs, Plain v) (ih : ∀ v ∈ vs, Cancels html v) (hw : ∀ w ∈ ws, Plain w)
    (h : render html (.arr vs) ++ r = render html (.arr ws) ++ r') : vs = ws ∧ r = r' := by
  cases vs with
  | nil =>
    cases ws with
    | nil => exact ⟨rfl, List.append_cancel_left h⟩
    | cons w ws =>
      simp only [render, List.cons_append, List.append_assoc, List.cons.injEq, true_and] at h
      exact absurd h.symm (render_ne_close (hw w List.mem_cons_self) _ _)
  | cons v vs =>
    cases ws with
    | nil =>
      simp only [render, List.cons_append, List.append_assoc, List.cons.injEq, true_and] at h
      exact absurd h (render_ne_close (hv v List.mem_cons_self) _ _)
    | cons w ws =>
      refine items_cancel ih hw ?_
      simp only [render, List.cons_append, List.append_assoc, List.cons.injEq, true_and] at h
      simp only [renderItems, List.cons_append, List.append_assoc, h]

theorem obj_cancel (ih : ∀ m ∈ ms, Cancels html m.2) (hn : ∀ n ∈ ns, Plain n.2)
    (h : render html (.obj ms) ++ r = render html (.obj ns) ++ r') : ms = ns ∧ r = r' := by
  cases ms with
  | nil =>
    cases ns with
    | nil => exact ⟨rfl, List.append_cancel_left h⟩
    | cons n ns => simp [render, quote] at h
  | cons m ms =>
    cases ns with
    | nil => simp [render, quote] at h
    | cons n ns =>
      refine members_cancel ih hn ?_
      simp only [render, List.cons_append, List.append_assoc, List.cons.injEq, true_and] at h
      simp only [renderMembers, List.cons_append, List.append_assoc, h]

theorem render_cancel (hv : Plain v) : Cancels html v := by
  induction hv with
  | null =>
    intro w r r' hw h
    have hlead := same_lead .null hw h
    cases hw with
    | null => exact ⟨rfl, List.append_cancel_left h⟩
    | bool b => cases b <;> cases hlead
    | str | arr | obj => cases hlead
  | bool b =>
    intro w r r' hw h
    have hlead := same_lead (.bool b) hw h
    cases hw with
    | bool b' =>
      cases b <;> cases b' <;> first | exact ⟨rfl, List.append_cancel_left h⟩ | cases hlead
    | null | str | arr | obj => cases b <;> cases hlead
  | str s =>
    intro w r r' hw h
    have hlead := same_lead (.str s) hw h
    cases hw with
    | str t =>
      obtain ⟨rfl, hr⟩ := quote_cancel h
      exact ⟨rfl, hr⟩
    | bool b => cases b <;> cases hlead
    | null | arr | obj => cases hlead
  | @arr items hitems ih =>
    intro w r r' hw h
    have hlead := same_lead (.arr hitems) hw h
    cases hw with
    | @arr items' hitems' =>
      obtain ⟨rfl, hr⟩ := arr_cancel hitems ih hitems' h
      exact ⟨rfl, hr⟩
    | bool b => cases b <;> cases hlead
    | null | str | obj => cases hlead
  | @obj members hmembers ih =>
    intro w r r' hw h
    have hlead := same_lead (.obj hmembers) hw h
    cases hw with
    | @obj members' hmembers' =>
      obtain ⟨rfl, hr⟩ := obj_cancel ih hmembers' h
      exact ⟨rfl, hr⟩
    | bool b => cases b <;> cases hlead
    | null | str | arr => cases hlead

/-- The text of a value without numbers tells the value. -/
theorem render_injective (hv : Plain v) (hw : Plain w) (h : render html v = render html w) :
    v = w :=
  (render_cancel hv w [] [] hw (by rw [h])).1

end Json
end AniInference.Lib
