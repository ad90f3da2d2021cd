import AniInference.Lib.Table
import AniInference.Lib.Transaction

namespace AniInference.Lib

/-- Why an API server turns a request down. -/
inductive ApiError
  | notFound | conflict | alreadyExists | invalid | unavailable
deriving DecidableEq, Repr

/-- An object of an API server. -/
structure Stored (V : Type) where
  uid : Nat
  version : Nat
  -- deletion has been asked for, and something still holds it up
  deleting : Bool
  value : V
deriving DecidableEq, Repr

/-- The objects of an API server by their names, and the number its next change gets. -/
structure ObjectStore (K V : Type) where
  objects : Table K (Stored V)
  next : Nat

namespace ObjectStore
variable {K V : Type} [DecidableEq K]

def find (s : ObjectStore K V) (k : K) : Option (Stored V) := s.objects.lookup k

def get (k : K) (s : ObjectStore K V) : Except ApiError (Stored V) :=
  match s.find k with
  | some o => .ok o
  | none => .error .notFound

/-- The object `o` is written under `k`. -/
def put (k : K) (o : Stored V) (s : ObjectStore K V) : ObjectStore K V :=
  ⟨s.objects.insert k o, s.next + 1⟩

def drop (k : K) (s : ObjectStore K V) : ObjectStore K V := ⟨s.objects.erase k, s.next + 1⟩

/-- A request with the uid and the version it is for, where it names them. -/
def Stored.meets (uid version : Option Nat) (o : Stored V) : Bool :=
  uid.all (· = o.uid) && version.all (· = o.version)

def create (k : K) (v : V) (s : ObjectStore K V) : Except ApiError (Stored V) × ObjectStore K V :=
  match s.find k with
  | some _ => (.error .alreadyExists, s)
  | none => (.ok ⟨s.next, s.next, false, v⟩, s.put k ⟨s.next, s.next, false, v⟩)

/-- A change of the object that is there. -/
def update (k : K) (uid version : Option Nat) (f : V → V) (s : ObjectStore K V) :
    Except ApiError (Stored V) × ObjectStore K V :=
  match s.find k with
  | none => (.error .notFound, s)
  | some o =>
    if Stored.meets uid version o then
      let o' := { o with version := s.next, value := f o.value }
      (.ok o', s.put k o')
    else (.error .conflict, s)

/-- A merge patch for a version of the object. One that changes nothing is not written. -/
def patch [DecidableEq V] (k : K) (version : Nat) (f : V → V) (s : ObjectStore K V) :
    Except ApiError (Stored V) × ObjectStore K V :=
  match s.find k with
  | none => (.error .notFound, s)
  | some o =>
    if o.version = version ∧ f o.value = o.value then (.ok o, s)
    else s.update k none (some version) f

/-- Server-side apply: a change of the object that is there, and a new object where there is none,
unless the request is for one that was there. -/
def apply (k : K) (uid version : Option Nat) (f : Option V → V) (s : ObjectStore K V) :
    Except ApiError (Stored V) × ObjectStore K V :=
  match s.find k with
  | some _ => s.update k uid version (f ∘ some)
  | none =>
    if uid.isSome || version.isSome then (.error .conflict, s)
    else s.create k (f none)

/-- A deletion that something may hold up. -/
def delete (k : K) (uid version : Option Nat) (held : Bool) (s : ObjectStore K V) :
    Except ApiError Unit × ObjectStore K V :=
  match s.find k with
  | none => (.error .notFound, s)
  | some o =>
    if Stored.meets uid version o then
      (.ok (), if held then s.put k { o with version := s.next, deleting := true } else s.drop k)
    else (.error .conflict, s)

/-- What held a deletion up is gone. -/
def finalize (k : K) (s : ObjectStore K V) : ObjectStore K V :=
  match s.find k with
  | some o => if o.deleting then s.drop k else s
  | none => s

/-- A write of anyone's. -/
inductive Write (K V : Type)
  | create (k : K) (v : V)
  | update (k : K) (uid version : Option Nat) (f : V → V)
  | apply (k : K) (uid version : Option Nat) (f : Option V → V)
  | delete (k : K) (uid version : Option Nat) (held : Bool)
  | finalize (k : K)

def Write.run : Write K V → ObjectStore K V → ObjectStore K V
  | .create k v, s => (s.create k v).2
  | .update k uid version f, s => (s.update k uid version f).2
  | .apply k uid version f, s => (s.apply k uid version f).2
  | .delete k uid version held, s => (s.delete k uid version held).2
  | .finalize k, s => s.finalize k

/-- A request that may be lost on its way, or whose answer may. -/
def settle {α : Type} (fault : Fault) (op : ObjectStore K V → Except ApiError α × ObjectStore K V)
    (s : ObjectStore K V) : Except ApiError α × ObjectStore K V :=
  match fault with
  | .none => op s
  | .lost => (.error .unavailable, s)
  | .unanswered => (.error .unavailable, (op s).2)

/-- Every uid and every version has been given out. -/
def Sound (s : ObjectStore K V) : Prop :=
  ∀ k o, s.find k = some o → o.uid < s.next ∧ o.version < s.next

/-- What a store can have turned into: what is new has new numbers. -/
structure Evolves (s s' : ObjectStore K V) : Prop where
  next : s.next ≤ s'.next
  version : ∀ k o', s'.find k = some o' → s.find k = some o' ∨ s.next ≤ o'.version
  uid : ∀ k o', s'.find k = some o' →
    (∃ o, s.find k = some o ∧ o.uid = o'.uid) ∨ s.next ≤ o'.uid
  sound : s.Sound → s'.Sound

section
variable {s s' s'' : ObjectStore K V} {k k' : K} {o o' : Stored V}

theorem find_put : (s.put k o).find k' = if k' = k then some o else s.find k' :=
  Table.lookup_insert_ite k o s.objects k'

theorem find_drop : (s.drop k).find k' = if k' = k then none else s.find k' := by
  unfold drop find
  by_cases hk : k' = k
  · subst hk
    simp
  · simp [hk]

namespace Evolves

theorem refl (s : ObjectStore K V) : s.Evolves s :=
  ⟨le_rfl, fun _ _ h => .inl h, fun _ o h => .inl ⟨o, h, rfl⟩, id⟩

theorem trans (h : s.Evolves s') (h' : s'.Evolves s'') : s.Evolves s'' where
  next := Nat.le_trans h.next h'.next
  version k o'' ho := by
    rcases h'.version k o'' ho with ho | hnew
    · exact h.version k o'' ho
    · exact .inr (Nat.le_trans h.next hnew)
  uid k o'' ho := by
    rcases h'.uid k o'' ho with ⟨o', ho', huid⟩ | hnew
    · rw [← huid]
      exact h.uid k o' ho'
    · exact .inr (Nat.le_trans h.next hnew)
  sound hs := h'.sound (h.sound hs)

/-- An object is written that is new, or that was there and gets a new version. -/
theorem put (s : ObjectStore K V) (k : K) (o : Stored V) (hv : o.version = s.next)
    (hu : o.uid = s.next ∨ ∃ old, s.find k = some old ∧ old.uid = o.uid) :
      s.Evolves (s.put k o) := by
  refine ⟨Nat.le_succ _, ?_, ?_, ?_⟩
  · intro k' o' ho'
    rw [find_put] at ho'
    split at ho'
    · obtain rfl := Option.some.inj ho'
      exact .inr (Nat.le_of_eq hv.symm)
    · exact .inl ho'
  · intro k' o' ho'
    rw [find_put] at ho'
    split at ho'
    · next hk =>
      obtain rfl := Option.some.inj ho'
      subst hk
      rcases hu with hu | hu
      · exact .inr (Nat.le_of_eq hu.symm)
      · exact .inl hu
    · exact .inl ⟨o', ho', rfl⟩
  · intro hs k' o' ho'
    have hnext : (s.put k o).next = s.next + 1 := rfl
    rw [find_put] at ho'
    split at ho'
    · obtain rfl := Option.some.inj ho'
      rcases hu with hu | ⟨old, hold, hu⟩
      · omega
      · have := hs k old hold
        omega
    · have := hs k' o' ho'
      omega

theorem drop (s : ObjectStore K V) (k : K) : s.Evolves (s.drop k) := by
  have hkept : ∀ k' o', (s.drop k).find k' = some o' → s.find k' = some o' := by
    intro k' o' ho'
    rw [find_drop] at ho'
    split at ho'
    · cases ho'
    · exact ho'
  refine ⟨Nat.le_succ _, fun k' o' h => .inl (hkept k' o' h), fun k' o' h =>
    .inl ⟨o', hkept k' o' h, rfl⟩, fun hs k' o' h => ?_⟩
  have := hs k' o' (hkept k' o' h)
  have hnext : (s.drop k).next = s.next + 1 := rfl
  omega

theorem create (k : K) (v : V) (s : ObjectStore K V) : s.Evolves (s.create k v).2 := by
  unfold ObjectStore.create
  split
  · exact refl s
  · exact put s k _ rfl (.inl rfl)

theorem update (k : K) (uid version : Option Nat) (f : V → V) (s : ObjectStore K V) :
    s.Evolves (s.update k uid version f).2 := by
  unfold ObjectStore.update
  split
  · exact refl s
  · next o ho =>
    split
    · exact put s k _ rfl (.inr ⟨o, ho, rfl⟩)
    · exact refl s

theorem patch [DecidableEq V] (k : K) (version : Nat) (f : V → V) (s : ObjectStore K V) :
    s.Evolves (s.patch k version f).2 := by
  unfold ObjectStore.patch
  split
  · exact refl s
  · split
    · exact refl s
    · exact update k none (some version) f s

theorem apply (k : K) (uid version : Option Nat) (f : Option V → V) (s : ObjectStore K V) :
    s.Evolves (s.apply k uid version f).2 := by
  unfold ObjectStore.apply
  split
  · exact update k uid version _ s
  · split
    · exact refl s
    · exact create k _ s

theorem delete (k : K) (uid version : Option Nat) (held : Bool) (s : ObjectStore K V) :
    s.Evolves (s.delete k uid version held).2 := by
  unfold ObjectStore.delete
  split
  · exact refl s
  · next o ho =>
    split
    · split
      · exact put s k _ rfl (.inr ⟨o, ho, rfl⟩)
      · exact drop s k
    · exact refl s

theorem finalize (k : K) (s : ObjectStore K V) : s.Evolves (s.finalize k) := by
  unfold ObjectStore.finalize
  split
  · split
    · exact drop s k
    · exact refl s
  · exact refl s

theorem write (w : Write K V) (s : ObjectStore K V) : s.Evolves (w.run s) := by
  cases w with
  | create k v => exact create k v s
  | update k uid version f => exact update k uid version f s
  | apply k uid version f => exact apply k uid version f s
  | delete k uid version held => exact delete k uid version held s
  | finalize k => exact finalize k s

theorem settle {α : Type} {op : ObjectStore K V → Except ApiError α × ObjectStore K V}
    (h : s.Evolves (op s).2) (fault : Fault) : s.Evolves (s.settle fault op).2 := by
  cases fault with
  | none | unanswered => exact h
  | lost => exact refl s

/-- An object that still has its version is unchanged. -/
theorem unchanged (h : s.Evolves s') (hs : s.Sound) (ho : s.find k = some o)
    (ho' : s'.find k = some o') (hversion : o'.version = o.version) : o' = o := by
  rcases h.version k o' ho' with hsame | hnew
  · exact Option.some.inj (hsame.symm.trans ho)
  · have := (hs k o ho).2
    omega

end Evolves

/-- A patch that writes finds the version it is for, and leaves a new one. -/
theorem patch_written [DecidableEq V] {version : Nat} {f : V → V} (ho : s.find k = some o)
    (hne : (s.patch k version f).2.find k ≠ some o) : o.version = version ∧
      (s.patch k version f).2.find k = some { o with version := s.next, value := f o.value } ∧
      s.next < (s.patch k version f).2.next := by
  by_cases hv : o.version = version
  · by_cases hf : f o.value = o.value
    · simp [patch, ho, hv, hf] at hne
    · have hpatch : (s.patch k version f).2 =
          s.put k { o with version := s.next, value := f o.value } := by
        simp [patch, update, ho, Stored.meets, hv, hf]
      rw [hpatch]
      exact ⟨hv, by simp [find_put], Nat.lt_succ_self _⟩
  · simp [patch, update, ho, Stored.meets, hv, Ne.symm hv] at hne

theorem get_ok : s.get k = .ok o ↔ s.find k = some o := by
  unfold get
  cases s.find k <;> simp

end

end ObjectStore

end AniInference.Lib
