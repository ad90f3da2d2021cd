import Mathlib.Logic.Basic

namespace AniInference.Lib

/-- A transaction over a state: it ends with a result and a new state, or with an error. -/
abbrev Txn (σ ε : Type) := StateT σ (Except ε)

/-- What can go wrong between a process and its store: nothing, a transaction that never ran,
or one that committed and whose answer was lost. -/
inductive Fault
  | none | lost | unanswered
deriving DecidableEq, Repr

/-- A read whose answer may be lost. -/
def heard {ε α : Type} (fault : Fault) (gone : ε) (answer : Except ε α) : Except ε α :=
  match fault with
  | .none => answer
  | .lost | .unanswered => .error gone

theorem heard_ok {ε α : Type} {fault : Fault} {gone : ε} {answer : Except ε α} {a : α}
    (h : heard fault gone answer = .ok a) : answer = .ok a := by
  cases fault with
  | none => exact h
  | lost | unanswered => cases h

/-- A check in front of a result. -/
theorem ite_error_eq_ok {ε α : Type} {c : Prop} [Decidable c] {e : ε} {x : Except ε α} {a : α} :
    (if c then .error e else x) = Except.ok a ↔ ¬c ∧ x = .ok a := by
  by_cases hc : c <;> simp [hc]

theorem ok_of_toOption {ε α : Type} {x : Except ε α} {a : α} (h : x.toOption = some a) :
    x = .ok a := by
  cases x with
  | error e => cases h
  | ok b => exact congrArg Except.ok (Option.some.inj h)

theorem except_bind_eq_ok {ε α β : Type} {x : Except ε α} {f : α → Except ε β} {b : β} :
    (x >>= f) = .ok b ↔ ∃ a, x = .ok a ∧ f a = .ok b := by
  cases x with
  | error e | ok a => simp [bind, Except.bind]

namespace Txn
variable {σ ε α β : Type}

/-- The transaction ends with `e` where `c` holds. -/
def reject (c : Prop) [Decidable c] (e : ε) : Txn σ ε Unit := if c then throw e else pure ()

def onlyIf (c : Prop) [Decidable c] (x : Txn σ ε Unit) : Txn σ ε Unit := if c then x else pure ()

def require (o : Option α) (e : ε) : Txn σ ε α :=
  match o with
  | some a => pure a
  | none => throw e

/-- `rows != 1`. -/
def exactlyOne (rows : Nat) (e : ε) : Txn σ ε Unit := reject (rows ≠ 1) e

def checked : Except ε α → Txn σ ε α
  | .ok a => pure a
  | .error e => throw e

/-- `UPDATE ... WHERE` on the one row a key names: the number of rows it changed. -/
def updateRow {ρ : Type} (row : σ → Option ρ) (c : σ → ρ → Bool) (put : σ → ρ → σ) :
    Txn σ ε Nat := do
  let s ← get
  match row s with
  | some r => if c s r then do set (put s r); return 1 else return 0
  | none => return 0

/-- The same transaction, its errors told in other words. -/
def relabel (f : ε → ε) (x : Txn σ ε α) : Txn σ ε α := fun s => (x s).mapError f

/-- What a caller is told and what the store holds afterwards. An error rolls back. -/
def settle (x : Txn σ ε α) (gone : ε) (fault : Fault) (s : σ) : Except ε α × σ :=
  match fault, x s with
  | .none, .ok (a, s') => (.ok a, s')
  | .none, .error e => (.error e, s)
  | .lost, _ => (.error gone, s)
  | .unanswered, .ok (_, s') => (.error gone, s')
  | .unanswered, .error _ => (.error gone, s)

/-- The transaction commits: from `s` it ends with `a` in `s'`. -/
def Runs (x : Txn σ ε α) (s : σ) (a : α) (s' : σ) : Prop := x s = .ok (a, s')

theorem runs_of_toOption {x : Txn σ ε α} {s : σ} {r : α × σ} (h : (x s).toOption = some r) :
    Runs x s r.1 r.2 := ok_of_toOption h

@[simp] theorem runs_pure {a b : α} {s s' : σ} :
    Runs (pure a : Txn σ ε α) s b s' ↔ b = a ∧ s' = s := by
  change Except.ok (a, s) = Except.ok (b, s') ↔ _
  simp [eq_comm]

@[simp] theorem runs_throw {e : ε} {b : α} {s s' : σ} :
    Runs (throw e : Txn σ ε α) s b s' ↔ False := by
  change (Except.error e : Except ε (α × σ)) = Except.ok (b, s') ↔ _
  simp

@[simp] theorem runs_get {a s s' : σ} : Runs (get : Txn σ ε σ) s a s' ↔ a = s ∧ s' = s := by
  change Except.ok (s, s) = Except.ok (a, s') ↔ _
  simp [eq_comm]

@[simp] theorem runs_set {t : σ} {u : PUnit} {s s' : σ} :
    Runs (set t : Txn σ ε PUnit) s u s' ↔ s' = t := by
  change Except.ok (PUnit.unit, t) = Except.ok (u, s') ↔ _
  simp [eq_comm]

@[simp] theorem runs_modify {f : σ → σ} {u : PUnit} {s s' : σ} :
    Runs (modify f : Txn σ ε PUnit) s u s' ↔ s' = f s := by
  change Except.ok (PUnit.unit, f s) = Except.ok (u, s') ↔ _
  simp [eq_comm]

theorem runs_bind {x : Txn σ ε α} {f : α → Txn σ ε β} {b : β} {s s'' : σ} :
    Runs (x >>= f) s b s'' ↔ ∃ a s', Runs x s a s' ∧ Runs (f a) s' b s'' := by
  unfold Runs
  change (x s >>= fun r => f r.1 r.2) = _ ↔ _
  cases h : x s with
  | error e => simp [bind, Except.bind]
  | ok r =>
    simp only [bind, Except.bind, Except.ok.injEq]
    constructor
    · intro hr
      exact ⟨r.1, r.2, rfl, hr⟩
    · rintro ⟨a, s', rfl, hr⟩
      exact hr

/-- A transaction is followed by what its first part leads to. -/
theorem bind_of_ok {x : Txn σ ε α} {f : α → Txn σ ε β} {a : α} {s s' : σ} (h : x s = .ok (a, s')) :
    (x >>= f) s = f a s' := by
  change (x s >>= fun r => f r.1 r.2) = _
  rw [h]
  rfl

theorem bind_of_error {x : Txn σ ε α} {f : α → Txn σ ε β} {e : ε} {s : σ} (h : x s = .error e) :
    (x >>= f) s = .error e := by
  change (x s >>= fun r => f r.1 r.2) = _
  rw [h]
  rfl

theorem reject_bind {c : Prop} [Decidable c] {e : ε} {f : Unit → Txn σ ε α} {s : σ} :
    (reject c e >>= f) s = if c then .error e else f () s := by
  unfold reject
  split
  · exact bind_of_error rfl
  · exact bind_of_ok rfl

theorem require_bind {a : α} {e : ε} {f : α → Txn σ ε β} {s : σ} :
    (require (some a) e >>= f) s = f a s := bind_of_ok rfl

@[simp] theorem runs_get_bind {f : σ → Txn σ ε β} {b : β} {s s' : σ} :
    Runs (get >>= f) s b s' ↔ Runs (f s) s b s' := by
  rw [runs_bind]
  constructor
  · rintro ⟨a, t, h, hf⟩
    obtain ⟨rfl, rfl⟩ := runs_get.mp h
    exact hf
  · intro hf
    exact ⟨s, s, runs_get.mpr ⟨rfl, rfl⟩, hf⟩

@[simp] theorem runs_map {x : Txn σ ε α} {f : α → β} {b : β} {s s' : σ} :
    Runs (f <$> x) s b s' ↔ ∃ a, Runs x s a s' ∧ b = f a := by
  rw [map_eq_pure_bind, runs_bind]
  simp only [runs_pure]
  constructor
  · rintro ⟨a, _, hx, rfl, rfl⟩
    exact ⟨a, hx, rfl⟩
  · rintro ⟨a, hx, rfl⟩
    exact ⟨a, s', hx, rfl, rfl⟩

@[simp] theorem runs_ite {c : Prop} [Decidable c] {x y : Txn σ ε α} {a : α} {s s' : σ} :
    Runs (if c then x else y) s a s' ↔ c ∧ Runs x s a s' ∨ ¬c ∧ Runs y s a s' := by
  by_cases hc : c <;> simp [hc]

@[simp] theorem runs_reject {c : Prop} [Decidable c] {e : ε} {u : Unit} {s s' : σ} :
    Runs (reject c e : Txn σ ε Unit) s u s' ↔ ¬c ∧ s' = s := by
  unfold reject
  simp

@[simp] theorem runs_onlyIf {c : Prop} [Decidable c] {x : Txn σ ε Unit} {u : Unit} {s s' : σ} :
    Runs (onlyIf c x) s u s' ↔ c ∧ Runs x s u s' ∨ ¬c ∧ s' = s := by
  unfold onlyIf
  simp

@[simp] theorem runs_require {o : Option α} {e : ε} {a : α} {s s' : σ} :
    Runs (require o e : Txn σ ε α) s a s' ↔ o = some a ∧ s' = s := by
  cases o <;> simp [require, eq_comm]

@[simp] theorem runs_exactlyOne {n : Nat} {e : ε} {u : Unit} {s s' : σ} :
    Runs (exactlyOne n e : Txn σ ε Unit) s u s' ↔ n = 1 ∧ s' = s := by
  simp [exactlyOne]

@[simp] theorem runs_checked {r : Except ε α} {a : α} {s s' : σ} :
    Runs (checked r : Txn σ ε α) s a s' ↔ r = .ok a ∧ s' = s := by
  cases r <;> simp [checked, eq_comm]

theorem runs_updateRow {ρ : Type} {row : σ → Option ρ} {c : σ → ρ → Bool} {put : σ → ρ → σ}
    {n : Nat} {s s' : σ} :
    Runs (updateRow row c put : Txn σ ε Nat) s n s' ↔
      (∃ r, row s = some r ∧ c s r = true ∧ n = 1 ∧ s' = put s r) ∨
      ((∀ r, row s = some r → c s r = false) ∧ n = 0 ∧ s' = s) := by
  unfold updateRow
  rw [runs_get_bind]
  cases hr : row s with
  | none => simp
  | some r => cases hc : c s r <;> simp [hc, and_comm]

theorem runs_updateRow_one {ρ : Type} {row : σ → Option ρ} {c : σ → ρ → Bool}
    {put : σ → ρ → σ} {s s' : σ} :
    Runs (updateRow row c put : Txn σ ε Nat) s 1 s' ↔
      ∃ r, row s = some r ∧ c s r = true ∧ s' = put s r := by
  simp [runs_updateRow]

@[simp] theorem runs_relabel {f : ε → ε} {x : Txn σ ε α} {a : α} {s s' : σ} :
    Runs (relabel f x) s a s' ↔ Runs x s a s' := by
  unfold Runs relabel
  cases x s with
  | ok r => exact Iff.rfl
  | error e =>
    constructor
    · intro h
      cases h
    · intro h
      cases h

theorem settle_ok {x : Txn σ ε α} {gone : ε} {fault : Fault} {s : σ} {a : α}
    (h : (x.settle gone fault s).1 = .ok a) : Runs x s a (x.settle gone fault s).2 := by
  unfold settle at h ⊢
  cases fault <;> cases hx : x s <;> simp only [hx, reduceCtorEq, Except.ok.injEq] at h ⊢
  exact h ▸ hx

/-- A store changes only by a transaction that commits. -/
theorem settle_state (x : Txn σ ε α) (gone : ε) (fault : Fault) (s : σ) :
    (x.settle gone fault s).2 = s ∨ ∃ a, Runs x s a (x.settle gone fault s).2 := by
  unfold settle
  cases fault <;> cases hx : x s
  case none.ok r => exact .inr ⟨r.1, hx⟩
  case unanswered.ok r => exact .inr ⟨r.1, hx⟩
  all_goals exact .inl rfl

/-- A transaction whose outcome is the state it began in leaves it, whether or not it is heard. -/
theorem settle_of_same {x : Txn σ ε α} {gone : ε} (fault : Fault) {s : σ} {a : Except ε α}
    (h : x s = a.map (·, s)) :
    x.settle gone fault s = (a, s) ∨ x.settle gone fault s = (.error gone, s) := by
  unfold settle
  rw [h]
  cases fault with
  | none =>
    left
    cases a <;> rfl
  | lost => exact .inr rfl
  | unanswered =>
    right
    cases a <;> rfl

end Txn
end AniInference.Lib
