import Mathlib.Data.List.AList

namespace AniInference.Lib

/-- A relation with a primary key. -/
abbrev Table (K V : Type) := AList (fun _ : K => V)

namespace Table
variable {K V : Type} [DecidableEq K]

/-- `UPDATE ... SET f WHERE p`. -/
def updateWhere (p : K → V → Bool) (f : K → V → V) (t : Table K V) : Table K V where
  entries := t.entries.map fun r => ⟨r.1, if p r.1 r.2 then f r.1 r.2 else r.2⟩
  nodupKeys := by
    have h := t.nodupKeys
    simp only [List.NodupKeys, List.keys, List.map_map] at h ⊢
    exact h

/-- `EXISTS (SELECT ... WHERE p)`. -/
def existsWhere (p : K → V → Bool) (t : Table K V) : Bool := t.entries.any fun r => p r.1 r.2

/-- `SELECT ... WHERE p`, keys with their rows. -/
def select (p : K → V → Bool) (t : Table K V) : List (K × V) :=
  (t.entries.filter fun r => p r.1 r.2).map fun r => (r.1, r.2)

def countWhere (p : K → V → Bool) (t : Table K V) : Nat := t.entries.countP fun r => p r.1 r.2

/-- The row at `k`, changed. Nothing happens where there is none. -/
def modify (k : K) (f : V → V) (t : Table K V) : Table K V :=
  match t.lookup k with
  | some v => t.insert k (f v)
  | none => t

theorem mem_entries_iff {t : Table K V} : ⟨k, v⟩ ∈ t.entries ↔ t.lookup k = some v := by
  rw [← Option.mem_def, AList.mem_lookup_iff]

theorem lookup_updateWhere (p : K → V → Bool) (f : K → V → V) (t : Table K V) (k : K) :
    (t.updateWhere p f).lookup k = (t.lookup k).map fun v => if p k v then f k v else v := by
  apply Option.ext
  intro v
  rw [← mem_entries_iff]
  simp only [updateWhere, List.mem_map, Sigma.exists, Option.map_eq_some_iff]
  constructor
  · rintro ⟨k', v', hm, h⟩
    injection h with hk hv
    subst hk
    exact ⟨v', mem_entries_iff.mp hm, hv⟩
  · rintro ⟨v', hv, rfl⟩
    exact ⟨k, v', mem_entries_iff.mpr hv, rfl⟩

theorem existsWhere_iff {t : Table K V} :
    t.existsWhere p = true ↔ ∃ k v, t.lookup k = some v ∧ p k v = true := by
  simp [existsWhere, mem_entries_iff]

theorem existsWhere_eq_false {t : Table K V} :
    t.existsWhere p = false ↔ ∀ k v, t.lookup k = some v → p k v = false := by
  rw [← Bool.not_eq_true, existsWhere_iff]
  simp

theorem mem_select {t : Table K V} : (k, v) ∈ t.select p ↔ t.lookup k = some v ∧ p k v = true := by
  simp [select, mem_entries_iff]

theorem lookup_insert_ite (k : K) (v : V) (t : Table K V) (k' : K) :
    (t.insert k v).lookup k' = if k' = k then some v else t.lookup k' := by
  by_cases hk : k' = k
  · subst hk
    simp
  · simp [hk]

theorem lookup_modify (k : K) (f : V → V) (t : Table K V) (k' : K) :
    (t.modify k f).lookup k' = if k' = k then (t.lookup k').map f else t.lookup k' := by
  unfold modify
  by_cases hk : k' = k
  · subst hk
    cases h : t.lookup k' <;> simp [h]
  · cases h : t.lookup k <;> simp [hk]

end Table

theorem exists_of_map_eq {α β : Type} {f : α → β} {o o' : Option α} {a : α}
    (h : o'.map f = o.map f) (ha : o' = some a) : ∃ b, o = some b ∧ f a = f b := by
  subst ha
  cases o with
  | none => simp at h
  | some b => exact ⟨b, rfl, by simpa using h⟩

end AniInference.Lib
