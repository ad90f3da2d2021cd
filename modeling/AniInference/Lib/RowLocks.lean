import AniInference.Lib.Transaction
import Mathlib.Logic.Function.Basic

namespace AniInference.Lib

/-- Who holds a row: nobody, some readers together, or one writer. -/
inductive Lock
  | free
  | shared (holders : List Nat)
  | exclusive (holder : Nat)
deriving DecidableEq, Repr

namespace Lock

/-- Whether process `i` may write the row, alone with it from then on. -/
def available (i : Nat) : Lock → Bool
  | .free => true
  | .shared js => js.all (· = i)
  | .exclusive j => j = i

def addReader (i : Nat) : Lock → Option Lock
  | .free => some (.shared [i])
  | .shared js => some (.shared (i :: js))
  | .exclusive j => if j = i then some (.exclusive j) else none

def release (i : Nat) : Lock → Lock
  | .free => .free
  | .shared js => if js.filter (· ≠ i) = [] then .free else .shared (js.filter (· ≠ i))
  | .exclusive j => if j = i then .free else .exclusive j

/-- Process `i` holds the row, alone or with others. -/
def HeldBy (i : Nat) : Lock → Prop
  | .free => False
  | .shared js => i ∈ js
  | .exclusive j => j = i

@[simp] theorem heldBy_exclusive : (Lock.exclusive j).HeldBy i ↔ j = i := Iff.rfl

theorem HeldBy.available_iff {l : Lock} (h : l.HeldBy j) (ha : l.available i = true) : j = i := by
  cases l with
  | free => exact h.elim
  | shared js =>
    simp only [available, List.all_eq_true, decide_eq_true_eq] at ha
    exact ha j h
  | exclusive k =>
    simp only [available, decide_eq_true_eq] at ha
    exact h.symm.trans ha

theorem HeldBy.addReader {l l' : Lock} (h : l.HeldBy j) (hl : l.addReader i = some l') :
    l'.HeldBy j := by
  cases l with
  | free => exact h.elim
  | shared js =>
    cases hl
    exact List.mem_cons_of_mem i h
  | exclusive k =>
    by_cases hki : k = i
    · simp only [Lock.addReader, if_pos hki, Option.some.injEq] at hl
      exact hl ▸ h
    · simp [Lock.addReader, hki] at hl

theorem addReader_exclusive {l : Lock} (hl : l.addReader i = some l') :
    l' = .exclusive j ↔ l = .exclusive j := by
  cases l with
  | free | shared js => cases hl; simp
  | exclusive k =>
    by_cases hki : k = i
    · simp only [Lock.addReader, if_pos hki, Option.some.injEq] at hl
      rw [← hl]
    · simp [Lock.addReader, hki] at hl

theorem heldBy_addReader {l l' : Lock} (hl : l.addReader i = some l') : l'.HeldBy i := by
  cases l with
  | free | shared js => cases hl; simp [HeldBy]
  | exclusive k =>
    by_cases hki : k = i
    · simp only [Lock.addReader, if_pos hki, Option.some.injEq] at hl
      exact hl ▸ hki
    · simp [Lock.addReader, hki] at hl

theorem heldBy_release {l : Lock} : (l.release i).HeldBy j ↔ l.HeldBy j ∧ j ≠ i := by
  cases l with
  | free => simp [release, HeldBy]
  | shared js =>
    by_cases hnil : js.filter (· ≠ i) = []
    · simp only [release, if_pos hnil]
      refine ⟨False.elim, fun ⟨hj, hne⟩ => ?_⟩
      have hmem : j ∈ js.filter (· ≠ i) := by simpa using ⟨hj, hne⟩
      rw [hnil] at hmem
      simp at hmem
    · simp only [release, if_neg hnil]
      simp [HeldBy]
  | exclusive k =>
    by_cases hki : k = i
    · simp only [release, if_pos hki, HeldBy, false_iff, not_and, not_not]
      exact fun h => h.symm.trans hki
    · simp only [release, if_neg hki, heldBy_exclusive]
      exact ⟨fun h => ⟨h, h ▸ hki⟩, And.left⟩

theorem release_exclusive {l : Lock} : l.release i = .exclusive j ↔ l = .exclusive j ∧ j ≠ i := by
  cases l with
  | free => simp [release]
  | shared js => simp only [release]; split <;> simp
  | exclusive k =>
    by_cases hki : k = i
    · simp only [release, if_pos hki, reduceCtorEq, exclusive.injEq, false_iff, not_and, not_not]
      exact fun h => h.symm.trans hki
    · simp only [release, if_neg hki, exclusive.injEq]
      exact ⟨fun h => ⟨h, h ▸ hki⟩, And.left⟩

end Lock

/-- Rows under locks that last to the end of a transaction. What the writer of a row has made of
it waits beside the committed row; every other process still reads the committed one. -/
structure LockedRows (K : Type) (V : K → Type) where
  committed : (k : K) → Option (V k)
  lock : K → Lock
  pending : (k : K) → Option (V k)
  live : Nat → Bool

/-- Why a statement fails, and its transaction with it. -/
inductive Refusal
  | blocked | violated | closed
deriving DecidableEq, Repr

namespace LockedRows
variable {K : Type} {V : K → Type}

/-- What process `i` sees in a row: its own change if it made one. -/
def view (s : LockedRows K V) (i : Nat) (k : K) : Option (V k) :=
  if s.lock k = .exclusive i then s.pending k else s.committed k

def read (i : Nat) (k : K) : Txn (LockedRows K V) Refusal (Option (V k)) := do
  return (← get).view i k

theorem runs_read : Txn.Runs (read i k) s a s' ↔ a = s.view i k ∧ s' = s := by
  change Except.ok (s.view i k, s) = Except.ok (a, s') ↔ _
  simp [eq_comm]

theorem runs_read_bind :
    Txn.Runs (read i k >>= f) s b s' ↔ Txn.Runs (f (s.view i k)) s b s' := Iff.rfl

section
variable [DecidableEq K]

def grab (s : LockedRows K V) (i : Nat) (k : K) : LockedRows K V :=
  { s with
    lock := Function.update s.lock k (.exclusive i)
    pending := Function.update s.pending k (s.view i k) }

/-- A write lock, or the end of the wait for one. -/
def acquire (i : Nat) (k : K) : Txn (LockedRows K V) Refusal Unit := do
  let s ← get
  if (s.lock k).available i then set (s.grab i k) else throw .blocked

/-- `FOR SHARE`. -/
def share (i : Nat) (k : K) : Txn (LockedRows K V) Refusal Unit := do
  let s ← get
  match (s.lock k).addReader i with
  | some l => set { s with lock := Function.update s.lock k l }
  | none => throw .blocked

/-- `FOR UPDATE`: a row that is not there is not locked. -/
def readForUpdate (i : Nat) (k : K) : Txn (LockedRows K V) Refusal (Option (V k)) := do
  match (← get).view i k with
  | none => return none
  | some v => do
    acquire i k
    return some v

/-- `FOR SHARE` of the one row a key names. -/
def readForShare (i : Nat) (k : K) : Txn (LockedRows K V) Refusal (Option (V k)) := do
  match (← get).view i k with
  | none => return none
  | some v => do
    share i k
    return some v

def write (i : Nat) (k : K) (v : Option (V k)) : Txn (LockedRows K V) Refusal Unit := do
  acquire i k
  modify fun s => { s with pending := Function.update s.pending k v }

end

def openTxn (s : LockedRows K V) (i : Nat) : LockedRows K V :=
  { s with live := Function.update s.live i true }

/-- The transaction of `i` ends without effect. -/
def rollback (s : LockedRows K V) (i : Nat) : LockedRows K V :=
  { s with lock := fun k => (s.lock k).release i, live := Function.update s.live i false }

/-- The transaction of `i` ends, and what it wrote is what the others read now. -/
def commit (s : LockedRows K V) (i : Nat) : LockedRows K V :=
  { s.rollback i with committed := fun k => s.view i k }

/-- What a statement of process `i` leaves alone: the committed rows, the locks of the others
and what they have written, and the locks it has itself. -/
structure Works (i : Nat) (s s' : LockedRows K V) : Prop where
  committed : s'.committed = s.committed
  live : s'.live = s.live
  held : ∀ k j, (s.lock k).HeldBy j → (s'.lock k).HeldBy j
  kept : ∀ k j, s.lock k = .exclusive j → s'.lock k = .exclusive j
  foreign : ∀ k j, j ≠ i → s'.lock k = .exclusive j → s.lock k = .exclusive j
  others : ∀ k j, j ≠ i → s.lock k = .exclusive j → s'.pending k = s.pending k
  fresh : ∀ k j, j ≠ i → (s'.lock k).HeldBy j → (s.lock k).HeldBy j

section
variable {i : Nat} {s s' s'' : LockedRows K V}

theorem Works.refl : Works i s s :=
  ⟨rfl, rfl, fun _ _ h => h, fun _ _ h => h, fun _ _ _ h => h, fun _ _ _ _ => rfl, fun _ _ _ h => h⟩

theorem Works.trans (h : Works i s s') (h' : Works i s' s'') : Works i s s'' where
  committed := h'.committed.trans h.committed
  live := h'.live.trans h.live
  held k j hj := h'.held k j (h.held k j hj)
  kept k j hj := h'.kept k j (h.kept k j hj)
  foreign k j hji hj := h.foreign k j hji (h'.foreign k j hji hj)
  others k j hji hj := (h'.others k j hji (h.kept k j hj)).trans (h.others k j hji hj)
  fresh k j hji hj := h.fresh k j hji (h'.fresh k j hji hj)

section
variable [DecidableEq K]

theorem view_grab (k k' : K) : (s.grab i k).view i k' = s.view i k' := by
  by_cases hk : k' = k
  · subst hk
    simp [view, grab]
  · simp [view, grab, hk]

theorem works_grab (ha : (s.lock k).available i = true) : Works i s (s.grab i k) := by
  have hmine : ∀ j, (s.lock k).HeldBy j → j = i := fun j hj => hj.available_iff ha
  refine ⟨rfl, rfl, fun k' j hj => ?_, fun k' j hj => ?_, fun k' j hji hj => ?_,
    fun k' j hji hj => ?_, fun k' j hji hj => ?_⟩ <;> by_cases hk : k' = k <;> try subst hk
  · simpa [grab] using (hmine j hj).symm
  · simpa [grab, hk] using hj
  · simpa [grab] using (hmine j (by simp [hj])).symm
  · simpa [grab, hk] using hj
  · simp only [grab, Function.update_self, Lock.exclusive.injEq] at hj
    exact absurd hj.symm hji
  · simpa [grab, hk] using hj
  · exact absurd (hmine j (by simp [hj])) hji
  · simp [grab, hk]
  · simp only [grab, Function.update_self, Lock.heldBy_exclusive] at hj
    exact absurd hj.symm hji
  · simpa [grab, hk] using hj

theorem runs_acquire :
    Txn.Runs (acquire i k) s u s' ↔ (s.lock k).available i = true ∧ s' = s.grab i k := by
  unfold acquire
  simp

theorem runs_share :
    Txn.Runs (share i k) s u s' ↔
      ∃ l, (s.lock k).addReader i = some l ∧ s' =
        { s with lock := Function.update s.lock k l } := by
  unfold share
  rw [Txn.runs_get_bind]
  cases hl : (s.lock k).addReader i with
  | none | some l => simp

theorem works_share (hl : (s.lock k).addReader i = some l) :
    Works i s { s with lock := Function.update s.lock k l } := by
  refine ⟨rfl, rfl, fun k' j hj => ?_, fun k' j hj => ?_, fun k' j _ hj => ?_,
    fun _ _ _ _ => rfl, fun k' j hji hj => ?_⟩ <;> by_cases hk : k' = k <;> try subst hk
  · simpa using hj.addReader hl
  · simpa [hk] using hj
  · simpa using (Lock.addReader_exclusive hl).mpr hj
  · simpa [hk] using hj
  · exact (Lock.addReader_exclusive hl).mp (by simpa using hj)
  · simpa [hk] using hj
  · cases hlk : s.lock k' with
    | free =>
      rw [hlk] at hl
      cases hl
      simp only [Function.update_self, Lock.HeldBy, List.mem_singleton] at hj
      exact absurd hj hji
    | shared js =>
      rw [hlk] at hl
      cases hl
      simp only [Function.update_self, Lock.HeldBy, List.mem_cons] at hj
      exact hj.resolve_left hji
    | exclusive m =>
      have hm := (Lock.addReader_exclusive hl (j := m)).mpr hlk
      simpa [hm] using hj
  · simpa [hk] using hj

theorem view_share (hl : (s.lock k).addReader i = some l) (k' : K) :
    ({ s with lock := Function.update s.lock k l } : LockedRows K V).view i k' = s.view i k' := by
  by_cases hk : k' = k
  · subst hk
    simp [view, Lock.addReader_exclusive hl]
  · simp [view, hk]

theorem works_put (hk : s.lock k = .exclusive i) (v : Option (V k)) :
    Works i s { s with pending := Function.update s.pending k v } := by
  refine ⟨rfl, rfl, fun _ _ h => h, fun _ _ h => h, fun _ _ _ h => h, fun k' j hji hj => ?_,
    fun _ _ _ h => h⟩
  have hne : k' ≠ k := by
    rintro rfl
    rw [hk] at hj
    injection hj with hj
    exact hji hj.symm
  simp [hne]

/-- What a locking read gives and does. -/
theorem runs_readForUpdate (h : Txn.Runs (readForUpdate i k) s a s') :
    a = s.view i k ∧ Works i s s' ∧ s'.view i = s.view i ∧
      (a ≠ none → s'.lock k = .exclusive i) := by
  unfold readForUpdate at h
  rw [Txn.runs_get_bind] at h
  cases hv : s.view i k with
  | none =>
    simp only [hv, Txn.runs_pure] at h
    obtain ⟨rfl, rfl⟩ := h
    exact ⟨rfl, .refl, rfl, fun hne => absurd rfl hne⟩
  | some v =>
    simp only [hv] at h
    obtain ⟨_, t, ha, hr⟩ := Txn.runs_bind.mp h
    obtain ⟨hfree, rfl⟩ := runs_acquire.mp ha
    obtain ⟨rfl, rfl⟩ := Txn.runs_pure.mp hr
    exact ⟨rfl, works_grab hfree, funext (view_grab k), fun _ => by simp [grab]⟩

theorem runs_readForShare (h : Txn.Runs (readForShare i k) s a s') :
    a = s.view i k ∧ Works i s s' ∧ s'.view i = s.view i ∧ (a ≠ none → (s'.lock k).HeldBy i) := by
  unfold readForShare at h
  rw [Txn.runs_get_bind] at h
  cases hv : s.view i k with
  | none =>
    simp only [hv, Txn.runs_pure] at h
    obtain ⟨rfl, rfl⟩ := h
    exact ⟨rfl, .refl, rfl, fun hne => absurd rfl hne⟩
  | some v =>
    simp only [hv] at h
    obtain ⟨_, t, hs, hr⟩ := Txn.runs_bind.mp h
    obtain ⟨l, hl, rfl⟩ := runs_share.mp hs
    obtain ⟨rfl, rfl⟩ := Txn.runs_pure.mp hr
    exact ⟨rfl, works_share hl, funext (view_share hl), fun _ => by
      simpa using Lock.heldBy_addReader hl⟩

theorem runs_write (h : Txn.Runs (write i k v) s u s') :
    Works i s s' ∧ s'.view i = Function.update (s.view i) k v ∧ s'.lock k = .exclusive i := by
  obtain ⟨_, t, ha, hp⟩ := Txn.runs_bind.mp h
  obtain ⟨hfree, rfl⟩ := runs_acquire.mp ha
  obtain rfl := Txn.runs_modify.mp hp
  have hlock : (s.grab i k).lock k = .exclusive i := by simp [grab]
  refine ⟨(works_grab hfree).trans (works_put hlock v), funext fun k' => ?_, hlock⟩
  by_cases hk : k' = k
  · subst hk
    simp [view, grab]
  · have hview := view_grab (s := s) (i := i) k k'
    simpa [view, hk] using hview

end

end

section
variable {R : Nat → (k : K) → Option (V k) → Option (V k) → Prop} {i : Nat} {s s' : LockedRows K V}

/-- Only transactions that are still open hold locks. -/
def Tidy (s : LockedRows K V) : Prop := ∀ k i, (s.lock k).HeldBy i → s.live i = true

/-- Whatever waits for process `i` to commit it is a change by `R i`. -/
def Within (R : Nat → (k : K) → Option (V k) → Option (V k) → Prop) (s : LockedRows K V) : Prop :=
  ∀ k i, s.lock k = .exclusive i → R i k (s.committed k) (s.pending k)

theorem view_of_exclusive (h : s.lock k = .exclusive i) : s.view i k = s.pending k :=
  if_pos h

theorem view_of_not_exclusive (h : s.lock k ≠ .exclusive i) : s.view i k = s.committed k :=
  if_neg h

theorem Within.view (hR : ∀ i k a, R i k a a) (h : s.Within R) (i : Nat) (k : K) :
    R i k (s.committed k) (s.view i k) := by
  by_cases hk : s.lock k = .exclusive i
  · rw [view_of_exclusive hk]
    exact h k i hk
  · rw [view_of_not_exclusive hk]
    exact hR i k _

theorem Within.work (hrefl : ∀ i k a, R i k a a)
    (htrans : ∀ i k a b c, R i k a b → R i k b c → R i k a c)
    (h : s.Within R) (hw : Works i s s') (hv : ∀ k, R i k (s.view i k) (s'.view i k)) :
    s'.Within R := by
  intro k j hj
  rw [hw.committed]
  by_cases hji : j = i
  · subst hji
    have hstep := hv k
    rw [view_of_exclusive hj] at hstep
    exact htrans j k _ _ _ (h.view hrefl j k) hstep
  · have hold := hw.foreign k j hji hj
    rw [hw.others k j hji hold]
    exact h k j hold

theorem Within.rollback (h : s.Within R) : (s.rollback i).Within R := by
  intro k j hj
  exact h k j (Lock.release_exclusive.mp hj).1

theorem Within.commit (h : s.Within R) : (s.commit i).Within R := by
  intro k j hj
  obtain ⟨hk, hji⟩ := Lock.release_exclusive.mp hj
  have hview : s.view i k = s.committed k := by
    refine view_of_not_exclusive fun hi => hji ?_
    rw [hk] at hi
    injection hi
  change R j k (s.view i k) (s.pending k)
  rw [hview]
  exact h k j hk

theorem Tidy.work (h : s.Tidy) (hw : Works i s s') (hi : s.live i = true) : s'.Tidy := by
  intro k j hj
  rw [hw.live]
  by_cases hji : j = i
  · rw [hji]
    exact hi
  · exact h k j (hw.fresh k j hji hj)

theorem Tidy.rollback (h : s.Tidy) : (s.rollback i).Tidy := by
  intro k j hj
  obtain ⟨hk, hji⟩ := Lock.heldBy_release.mp hj
  simpa [LockedRows.rollback, hji] using h k j hk

theorem Tidy.commit (h : s.Tidy) : (s.commit i).Tidy := h.rollback

theorem Tidy.openTxn (h : s.Tidy) : (s.openTxn i).Tidy := by
  intro k j hj
  by_cases hji : j = i
  · simp [LockedRows.openTxn, hji]
  · simpa [LockedRows.openTxn, hji] using h k j hj

/-- A transaction that is not open has no lock. -/
theorem Tidy.none (h : s.Tidy) (hi : s.live i = false) (k : K) : ¬(s.lock k).HeldBy i := by
  intro hk
  have := h k i hk
  simp [hi] at this

/-- What another transaction holds is not changed by a commit. -/
theorem commit_held (hk : (s.lock k).HeldBy j) (hji : j ≠ i) :
    (s.commit i).committed k = s.committed k ∧ ((s.commit i).lock k).HeldBy j := by
  refine ⟨view_of_not_exclusive fun hi => hji ?_, Lock.heldBy_release.mpr ⟨hk, hji⟩⟩
  rw [hi] at hk
  exact hk.symm

theorem Works.view_other (h : Works i s s') (hji : j ≠ i) (k : K) : s'.view j k = s.view j k := by
  by_cases hk : s.lock k = .exclusive j
  · rw [view_of_exclusive hk, view_of_exclusive (h.kept k j hk), h.others k j hji hk]
  · rw [view_of_not_exclusive hk, view_of_not_exclusive fun hk' => hk (h.foreign k j hji hk'),
      h.committed]

theorem view_rollback_self (k : K) : (s.rollback i).view i k = s.committed k :=
  view_of_not_exclusive fun hk => (Lock.release_exclusive.mp hk).2 rfl

theorem view_rollback_other (hji : j ≠ i) (k : K) : (s.rollback i).view j k = s.view j k := by
  by_cases hk : s.lock k = .exclusive j
  · rw [view_of_exclusive hk, view_of_exclusive (Lock.release_exclusive.mpr ⟨hk, hji⟩)]
    rfl
  · rw [view_of_not_exclusive hk,
      view_of_not_exclusive fun hk' => hk (Lock.release_exclusive.mp hk').1]
    rfl

theorem view_commit_self (k : K) : (s.commit i).view i k = s.view i k :=
  view_of_not_exclusive fun hk => (Lock.release_exclusive.mp hk).2 rfl

theorem view_commit_other (hji : j ≠ i) (k : K) :
    (s.commit i).view j k = if s.lock k = .exclusive j then s.view j k else s.view i k := by
  by_cases hk : s.lock k = .exclusive j
  · rw [if_pos hk, view_of_exclusive hk, view_of_exclusive (Lock.release_exclusive.mpr ⟨hk, hji⟩)]
    rfl
  · rw [if_neg hk, view_of_not_exclusive fun hk' => hk (Lock.release_exclusive.mp hk').1]
    rfl

end

end LockedRows

end AniInference.Lib
