import AniInference.Lib.RowLocks
import AniInference.Lib.Outline

namespace AniInference.Lib
open Prog

/-- A statement about one row. A lock of its own is a row without content. -/
inductive RowStmt (K : Type) (V : K → Type)
  | lock (k : K)
  | read (k : K)
  | readForUpdate (k : K)
  | insert (k : K) (v : V k)
  | insertNew (k : K) (v : V k)
  | update (k : K) (f : V k → Option (V k))
  | upsert (k : K) (f : Option (V k) → V k)
  | remove (k : K)

namespace RowStmt
variable {K : Type} {V : K → Type}

@[reducible] def Answer : RowStmt K V → Type
  | .lock _ | .insert .. | .upsert .. | .remove _ => Unit
  | .read k | .readForUpdate k => Option (V k)
  | .insertNew .. | .update .. => Bool

def key : RowStmt K V → K
  | .lock k | .read k | .readForUpdate k | .insert k _ | .insertNew k _ | .update k _
  | .upsert k _ | .remove k => k

/-- It leaves every row as it is. -/
def reads : RowStmt K V → Bool
  | .lock _ | .read _ | .readForUpdate _ => true
  | _ => false

section
variable {i : Nat} {s s' s'' : LockedRows K V}

/-- Of all rows at most `k` has been locked or written by process `i`. -/
structure Touches (i : Nat) (k : K) (s s' : LockedRows K V) : Prop where
  works : s.Works i s'
  lock : ∀ k', k' ≠ k → s'.lock k' = s.lock k'
  view : ∀ k', k' ≠ k → s'.view i k' = s.view i k'

theorem Touches.refl : Touches i k s s := ⟨.refl, fun _ _ => rfl, fun _ _ => rfl⟩

theorem Touches.trans (h : Touches i k s s') (h' : Touches i k s' s'') : Touches i k s s'' where
  works := h.works.trans h'.works
  lock k' hk := (h'.lock k' hk).trans (h.lock k' hk)
  view k' hk := (h'.view k' hk).trans (h.view k' hk)

end

section
variable [DecidableEq K]

def run (i : Nat) : (s : RowStmt K V) → Txn (LockedRows K V) Refusal s.Answer
  | .lock k => LockedRows.acquire i k
  | .read k => LockedRows.read i k
  | .readForUpdate k => LockedRows.readForUpdate i k
  | .insert k v => do
    match ← LockedRows.read i k with
    | some _ => throw .violated
    | none => LockedRows.write i k (some v)
  | .insertNew k v => do
    -- ON CONFLICT DO NOTHING
    match ← LockedRows.read i k with
    | some _ => return false
    | none => do
      LockedRows.write i k (some v)
      return true
  | .update k f => do
    match ← LockedRows.readForUpdate i k with
    | none => return false
    | some v =>
      match f v with
      | none => return false
      | some v' => do
        LockedRows.write i k (some v')
        return true
  | .upsert k f => do
    LockedRows.acquire i k
    let old ← LockedRows.read i k
    LockedRows.write i k (some (f old))
  | .remove k => LockedRows.write i k none

variable {i : Nat} {s s' : LockedRows K V}

theorem touches_grab (hfree : (s.lock k).available i = true) : Touches i k s (s.grab i k) :=
  ⟨LockedRows.works_grab hfree, fun k' hk => by simp [LockedRows.grab, hk],
    fun k' _ => LockedRows.view_grab k k'⟩

theorem touches_readForUpdate (h : Txn.Runs (LockedRows.readForUpdate i k) s a s') :
    Touches i k s s' := by
  unfold LockedRows.readForUpdate at h
  rw [Txn.runs_get_bind] at h
  cases hv : s.view i k with
  | none =>
    simp only [hv, Txn.runs_pure] at h
    obtain ⟨_, rfl⟩ := h
    exact .refl
  | some v =>
    simp only [hv] at h
    obtain ⟨_, t, ha, hr⟩ := Txn.runs_bind.mp h
    obtain ⟨hfree, rfl⟩ := LockedRows.runs_acquire.mp ha
    obtain ⟨_, rfl⟩ := Txn.runs_pure.mp hr
    exact touches_grab hfree

theorem touches_write (h : Txn.Runs (LockedRows.write i k v) s u s') : Touches i k s s' := by
  obtain ⟨hw, hview, _⟩ := LockedRows.runs_write h
  obtain ⟨_, t, ha, hp⟩ := Txn.runs_bind.mp h
  obtain ⟨hfree, rfl⟩ := LockedRows.runs_acquire.mp ha
  obtain rfl := Txn.runs_modify.mp hp
  refine ⟨hw, fun k' hk => by simp [LockedRows.grab, hk], fun k' hk => ?_⟩
  rw [hview, Function.update_of_ne hk]

theorem runs_run {stmt : RowStmt K V} {a : stmt.Answer} (h : Txn.Runs (stmt.run i) s a s') :
    Touches i stmt.key s s' := by
  cases stmt with
  | lock k =>
    obtain ⟨hfree, rfl⟩ := LockedRows.runs_acquire.mp h
    exact touches_grab hfree
  | read k =>
    obtain ⟨_, rfl⟩ := LockedRows.runs_read.mp h
    exact .refl
  | readForUpdate k => exact touches_readForUpdate h
  | insert k v =>
    obtain ⟨old, mid, hread, hrest⟩ := Txn.runs_bind.mp h
    obtain ⟨_, rfl⟩ := LockedRows.runs_read.mp hread
    cases old with
    | some _ => simp at hrest
    | none => exact touches_write hrest
  | insertNew k v =>
    obtain ⟨old, mid, hread, hrest⟩ := Txn.runs_bind.mp h
    obtain ⟨_, rfl⟩ := LockedRows.runs_read.mp hread
    cases old with
    | some _ =>
      obtain ⟨_, rfl⟩ := Txn.runs_pure.mp hrest
      exact .refl
    | none =>
      obtain ⟨_, t, hwrite, hend⟩ := Txn.runs_bind.mp hrest
      obtain ⟨_, rfl⟩ := Txn.runs_pure.mp hend
      exact touches_write hwrite
  | update k f =>
    obtain ⟨old, mid, hread, hrest⟩ := Txn.runs_bind.mp h
    have hfound := touches_readForUpdate hread
    cases old with
    | none =>
      obtain ⟨_, rfl⟩ := Txn.runs_pure.mp hrest
      exact hfound
    | some v =>
      cases hf : f v with
      | none =>
        simp only [hf] at hrest
        obtain ⟨_, rfl⟩ := Txn.runs_pure.mp hrest
        exact hfound
      | some v' =>
        simp only [hf] at hrest
        obtain ⟨_, t, hwrite, hend⟩ := Txn.runs_bind.mp hrest
        obtain ⟨_, rfl⟩ := Txn.runs_pure.mp hend
        exact hfound.trans (touches_write hwrite)
  | upsert k f =>
    obtain ⟨_, mid, hacquire, hrest⟩ := Txn.runs_bind.mp h
    obtain ⟨hfree, rfl⟩ := LockedRows.runs_acquire.mp hacquire
    have hwrite := LockedRows.runs_read_bind.mp hrest
    exact (touches_grab hfree).trans (touches_write hwrite)
  | remove k => exact touches_write h

/-- A statement that only reads leaves all that its transaction sees. -/
theorem view_of_reads {stmt : RowStmt K V} {a : stmt.Answer} (hreads : stmt.reads = true)
    (h : Txn.Runs (stmt.run i) s a s') : s'.view i = s.view i := by
  cases stmt with
  | lock k =>
    obtain ⟨_, rfl⟩ := LockedRows.runs_acquire.mp h
    exact funext (LockedRows.view_grab k)
  | read k =>
    obtain ⟨_, rfl⟩ := LockedRows.runs_read.mp h
    rfl
  | readForUpdate k => exact (LockedRows.runs_readForUpdate h).2.2.1
  | insert | insertNew | update | upsert | remove => cases hreads

/-- A row that is not there is entered. -/
theorem runs_insertNew (h : Txn.Runs ((RowStmt.insertNew k v).run i) s a s') :
    a = true ↔ s.view i k = none := by
  have hrest := LockedRows.runs_read_bind.mp h
  cases hv : s.view i k with
  | some _ =>
    simp only [hv] at hrest
    obtain ⟨ha, _⟩ := Txn.runs_pure.mp hrest
    simp [← ha]
  | none =>
    simp only [hv] at hrest
    obtain ⟨_, t, hwrite, hend⟩ := Txn.runs_bind.mp hrest
    obtain ⟨ha, _⟩ := Txn.runs_pure.mp hend
    simp [← ha]

theorem runs_lock (h : Txn.Runs ((RowStmt.lock k).run i) s u s') : s'.lock k = .exclusive i := by
  obtain ⟨_, rfl⟩ := LockedRows.runs_acquire.mp h
  simp [LockedRows.grab]

/-- A locking read that finds a row holds it. -/
theorem runs_readForUpdate (h : Txn.Runs ((RowStmt.readForUpdate k).run i) s a s') (ha : a ≠ none) :
    s'.lock k = .exclusive i :=
  (LockedRows.runs_readForUpdate h).2.2.2 ha

end

end RowStmt

/-- What a transaction asks of the database. `disconnect` is the loss of some other
transaction's connection. -/
inductive RowCall (K : Type) (V : K → Type)
  | stmt (s : RowStmt K V)
  | commit
  | rollback
  | disconnect (i : Nat)

namespace RowCall
variable {K : Type} {V : K → Type}

@[reducible] def Answer : RowCall K V → Type
  | .stmt s => Except Refusal s.Answer
  | .commit => Except Refusal Unit
  | .rollback | .disconnect _ => Unit

@[reducible] def Choice : RowCall K V → Type
  | .stmt _ => Bool
  | .commit => Fault
  | .rollback | .disconnect _ => Unit

variable [DecidableEq K]

/-- Process `i` is one transaction, open until it ends. A statement that fails ends it. -/
def act (i : Nat) : (e : RowCall K V) → e.Choice → LockedRows K V → e.Answer × LockedRows K V
  | .stmt q, fails, s =>
    if fails ∨ ¬s.live i then (.error .closed, s.rollback i)
    else
      match q.run i s with
      | .ok (a, s') => (.ok a, s')
      | .error r => (.error r, s.rollback i)
  | .commit, fault, s =>
    if s.live i then
      match fault with
      | .none => (.ok (), s.commit i)
      | .lost => (.error .closed, s.rollback i)
      | .unanswered => (.error .closed, s.commit i)
    else (.error .closed, s)
  | .rollback, _, s => ((), s.rollback i)
  | .disconnect j, _, s => ((), s.rollback j)

end RowCall

/-- Before the first call: every transaction is open and has done nothing. -/
def LockedRows.Idle {K : Type} {V : K → Type} (s : LockedRows K V) : Prop :=
  s.lock = (fun _ => .free) ∧ s.live = fun _ => true

section
variable {K α : Type} {V : K → Type} [DecidableEq K]

/-- What one call of process `i` makes of the rows. -/
inductive RowCall.Effect (i : Nat) (s : LockedRows K V) :
    (e : RowCall K V) → e.Answer → LockedRows K V → Prop
  | ran (stmt : RowStmt K V) {a : stmt.Answer} {s' : LockedRows K V} (live : s.live i = true)
      (h : Txn.Runs (stmt.run i) s a s') : Effect i s (.stmt stmt) (.ok a) s'
  | failed (stmt : RowStmt K V) (r : Refusal) : Effect i s (.stmt stmt) (.error r) (s.rollback i)
  | committed (live : s.live i = true) (a : Except Refusal Unit) :
      Effect i s .commit a (s.commit i)
  | lost (r : Refusal) : Effect i s .commit (.error r) (s.rollback i)
  | closed (r : Refusal) : Effect i s .commit (.error r) s
  | rolledBack : Effect i s .rollback () (s.rollback i)
  | disconnected (j : Nat) : Effect i s (.disconnect j) () (s.rollback j)

theorem RowCall.act_effect (i : Nat) (e : RowCall K V) (c : e.Choice) (s : LockedRows K V) :
    RowCall.Effect i s e (RowCall.act i e c s).1 (RowCall.act i e c s).2 := by
  cases e with
  | stmt q =>
    dsimp only [RowCall.act]
    split
    · exact .failed q .closed
    · next h =>
      have hlive : s.live i = true := by
        simp only [not_or, not_not] at h
        exact h.2
      cases hrun : q.run i s with
      | error r => exact .failed q r
      | ok p => exact .ran q hlive hrun
  | commit =>
    dsimp only [RowCall.act]
    split
    · next hlive =>
      cases c with
      | none | unanswered => exact .committed hlive _
      | lost => exact .lost _
    · exact .closed _
  | rollback => exact .rolledBack
  | disconnect j => exact .disconnected j

variable {prog : Nat → Prog (RowCall K V) RowCall.Answer α}
variable {h : List (Moment (LockedRows K V) (RowCall K V) RowCall.Answer)} {s : LockedRows K V}

/-- The runs of such transactions. -/
abbrev RowRun (prog : Nat → Prog (RowCall K V) RowCall.Answer α) :=
  Run RowCall.act prog (LockedRows.Idle (K := K) (V := V))

theorem Arises.effect (hx : Arises RowCall.act prog LockedRows.Idle x past) :
    RowCall.Effect x.actor x.before x.call x.answer x.after := by
  obtain ⟨c, hanswer, hafter⟩ := hx.acted
  rw [hanswer, hafter]
  exact RowCall.act_effect _ _ c _

namespace RowCall.Effect
variable {i j : Nat} {s s' : LockedRows K V} {e : RowCall K V} {a : e.Answer}

/-- A lock of a transaction that is still open afterwards is kept. -/
theorem keeps (h : RowCall.Effect i s e a s') {k : K} (hlive : s'.live j = true)
    (hk : s.lock k = .exclusive j) : s'.lock k = .exclusive j := by
  have hrollback : ∀ m, (s.rollback m).live j = true →
      (s.rollback m).lock k = .exclusive j := by
    intro m hm
    have hne : j ≠ m := by
      rintro rfl
      simp [LockedRows.rollback] at hm
    exact Lock.release_exclusive.mpr ⟨hk, hne⟩
  cases h with
  | ran q _ hrun => exact (RowStmt.runs_run hrun).works.kept k j hk
  | failed | committed | lost | rolledBack | disconnected m => exact hrollback _ hlive
  | closed => exact hk

/-- A transaction that is open was open before. -/
theorem live (h : RowCall.Effect i s e a s') (hlive : s'.live j = true) : s.live j = true := by
  have hrollback : ∀ m, (s.rollback m).live j = true → s.live j = true := by
    intro m hm
    by_cases hne : j = m
    · subst hne
      simp [LockedRows.rollback] at hm
    · simpa [LockedRows.rollback, hne] using hm
  cases h with
  | ran q _ hrun =>
    rw [(RowStmt.runs_run hrun).works.live] at hlive
    exact hlive
  | failed | committed | lost | rolledBack | disconnected m => exact hrollback _ hlive
  | closed => exact hlive

/-- Only a statement on a row locks it. -/
theorem locked (h : RowCall.Effect i s e a s') {k : K} (hk : s'.lock k = .exclusive j) :
    s.lock k = .exclusive j ∨ j = i ∧ ∃ q : RowStmt K V, e = .stmt q ∧ q.key = k := by
  have hrollback : ∀ m, (s.rollback m).lock k = .exclusive j → s.lock k = .exclusive j :=
    fun m hm => (Lock.release_exclusive.mp hm).1
  cases h with
  | ran q _ hrun =>
    have htouch := RowStmt.runs_run hrun
    by_cases hji : j = i
    · by_cases hkey : q.key = k
      · exact .inr ⟨hji, q, rfl, hkey⟩
      · rw [htouch.lock k (Ne.symm hkey)] at hk
        exact .inl hk
    · exact .inl (htouch.works.foreign k j hji hk)
  | failed | committed | lost | rolledBack | disconnected m => exact .inl (hrollback _ hk)
  | closed => exact .inl hk

/-- What the transaction `j` sees in a row is changed by its own calls, by a commit of what
another has written there, and by its own end. -/
theorem view (h : RowCall.Effect i s e a s') {k : K} (hji : j ≠ i) (hlive : s'.live j = true)
    (hfree : s.lock k ≠ .exclusive i) : s'.view j k = s.view j k := by
  have hrollback : ∀ m, (s.rollback m).live j = true → (s.rollback m).view j k = s.view j k := by
    intro m hm
    refine LockedRows.view_rollback_other ?_ k
    rintro rfl
    simp [LockedRows.rollback] at hm
  cases h with
  | ran q _ hrun => exact (RowStmt.runs_run hrun).works.view_other hji k
  | failed | lost | rolledBack | disconnected m => exact hrollback _ hlive
  | committed =>
    rw [LockedRows.view_commit_other hji]
    split
    · rfl
    · next hnot =>
      rw [LockedRows.view_of_not_exclusive hfree, LockedRows.view_of_not_exclusive hnot]
  | closed => rfl

/-- An open transaction sees a row as before while it has no statement on it. -/
theorem view_own (h : RowCall.Effect i s e a s') {k : K} (hlive : s'.live i = true)
    (hown : ∀ q, e = .stmt q → q.key ≠ k) : s'.view i k = s.view i k := by
  have hended : (s.rollback i).live i = false := by simp [LockedRows.rollback]
  cases h with
  | ran q _ hrun => exact (RowStmt.runs_run hrun).view k (Ne.symm (hown q rfl))
  | failed | lost | rolledBack => simp [hended] at hlive
  | committed => simp [LockedRows.commit, hended] at hlive
  | closed => rfl
  | disconnected m =>
    refine LockedRows.view_rollback_other ?_ k
    rintro rfl
    simp [hended] at hlive

/-- A row that the transaction has not written is the committed one after its own call. -/
theorem spared_own (h : RowCall.Effect i s e a s') {k : K} (hlive : s'.live i = true)
    (hown : ∀ q, e = .stmt q → q.key = k → q.reads = true) (hsame : s.view i k = s.committed k) :
    s'.view i k = s'.committed k := by
  have hended : (s.rollback i).live i = false := by simp [LockedRows.rollback]
  cases h with
  | ran q _ hrun =>
    have htouch := RowStmt.runs_run hrun
    rw [htouch.works.committed, ← hsame]
    by_cases hkey : q.key = k
    · rw [RowStmt.view_of_reads (hown q rfl hkey) hrun]
    · exact htouch.view k (Ne.symm hkey)
  | failed | lost | rolledBack => simp [hended] at hlive
  | committed => simp [LockedRows.commit, hended] at hlive
  | closed => exact hsame
  | disconnected m =>
    rw [LockedRows.view_rollback_other _ k]
    · exact hsame
    · rintro rfl
      simp [hended] at hlive

/-- And after a call of another. -/
theorem spared_other (h : RowCall.Effect i s e a s') {k : K} (hji : j ≠ i)
    (hlive : s'.live j = true) (hsame : s.view j k = s.committed k) :
    s'.view j k = s'.committed k := by
  have hrollback : ∀ m, (s.rollback m).live j = true →
      (s.rollback m).view j k = (s.rollback m).committed k := by
    intro m hm
    rw [LockedRows.view_rollback_other _ k]
    · exact hsame
    · rintro rfl
      simp [LockedRows.rollback] at hm
  cases h with
  | ran q _ hrun =>
    have hworks := (RowStmt.runs_run hrun).works
    rw [hworks.view_other hji, hworks.committed, hsame]
  | failed | lost | rolledBack | disconnected m => exact hrollback _ hlive
  | committed =>
    rw [LockedRows.view_commit_other hji]
    split
    · next hk =>
      -- the row is locked by `j`, so `i` has not written it
      have hnot : s.lock k ≠ .exclusive i := by
        rw [hk]
        simpa using hji
      rw [hsame]
      exact (LockedRows.view_of_not_exclusive hnot).symm
    · rfl
  | closed => exact hsame

theorem tidy (h : RowCall.Effect i s e a s') (ht : s.Tidy) : s'.Tidy := by
  cases h with
  | ran q hlive hrun => exact ht.work (RowStmt.runs_run hrun).works hlive
  | failed | lost | rolledBack | disconnected => exact ht.rollback
  | committed => exact ht.commit
  | closed => exact ht

end RowCall.Effect

/-- A call that got a lock on the row `g`. -/
inductive Gets (g : K) : (Σ e : RowCall K V, e.Answer) → Prop
  | lock : Gets g ⟨.stmt (.lock g), .ok ()⟩
  | found (v : V g) : Gets g ⟨.stmt (.readForUpdate g), .ok (some v)⟩

theorem Gets.locks (hget : Gets g ⟨e, a⟩) (heffect : RowCall.Effect i s e a s') :
    s'.lock g = .exclusive i := by
  cases hget with
  | lock =>
    cases heffect with
    | ran _ _ hrun => exact RowStmt.runs_lock hrun
  | found v =>
    cases heffect with
    | ran _ _ hrun => exact RowStmt.runs_readForUpdate hrun (by simp)

/-- A lock that a transaction has got is its own as long as it is open. -/
theorem held_of_gets (hr : RowRun prog h s) (hget : Gets g a) (ha : a ∈ trace j h)
    (hlive : s.live j = true) : s.lock g = .exclusive j := by
  revert ha hlive
  refine hr.induction (P := fun h s => a ∈ trace j h → s.live j = true →
    s.lock g = .exclusive j) ?_ ?_
  · intro s _ ha
    cases ha
  · intro x past _ hx ih ha hlive
    have heffect := hx.effect
    rw [trace_cons] at ha
    by_cases hold : a ∈ trace j past
    · exact heffect.keeps hlive (ih hold (heffect.live hlive))
    · -- the lock was got just now
      split at ha
      · next hj =>
        have hseen := List.mem_singleton.mp ((List.mem_append.mp ha).resolve_left hold)
        rw [hseen] at hget
        rw [← hj]
        exact hget.locks heffect
      · exact absurd ha hold

theorem tidy_of_run (hr : RowRun prog h s) : s.Tidy := by
  refine hr.invariant ?_ fun x past hsuf ih => (hr.arises hsuf).effect.tidy ih
  intro s hs k i hk
  rw [hs.1] at hk
  exact hk.elim

/-- The call does not write the row `k`. -/
def RowCall.spares (k : K) : RowCall K V → Prop
  | .stmt q => q.key = k → q.reads = true
  | _ => True

/-- A transaction that has not written a row sees what is committed there. -/
theorem view_of_spared (hr : RowRun prog h s) (hspared : ∀ a ∈ trace i h, a.1.spares k)
    (hlive : s.live i = true) : s.view i k = s.committed k := by
  revert hspared hlive
  refine hr.induction (P := fun h s => (∀ a ∈ trace i h, a.1.spares k) → s.live i = true →
    s.view i k = s.committed k) ?_ ?_
  · intro s hs _ _
    refine LockedRows.view_of_not_exclusive ?_
    rw [hs.1]
    simp
  · intro x past _ hx ih hspared hlive
    have heffect := hx.effect
    have hsame := ih (fun a ha => hspared a (by
      rw [trace_cons]
      split
      · exact List.mem_append_left _ ha
      · exact ha)) (heffect.live hlive)
    by_cases hi : x.actor = i
    · have hown : x.call.spares k := hspared x.seen (by simp [trace_cons, hi])
      rw [hi] at heffect
      refine heffect.spared_own hlive (fun q hq hkey => ?_) hsame
      rw [hq] at hown
      exact hown hkey
    · exact heffect.spared_other (Ne.symm hi) hlive hsame

/-- The commit of a transaction that has not written a row leaves it as it is. -/
theorem committed_of_spared (hr : RowRun prog h s) (hx : x ∈ h) (hi : x.actor = i)
    (hcall : x.call = .commit) (hspared : ∀ a ∈ trace i h, a.1.spares k) :
    x.after.committed k = x.before.committed k := by
  obtain ⟨past, hsuf, hmade⟩ := hr.mem_arises hx
  have heffect := hmade.effect
  have hpast : ∀ a ∈ trace i past, a.1.spares k := by
    intro a ha
    obtain ⟨y, hy, hya⟩ := mem_trace.mp ha
    exact hspared a (mem_trace.mpr ⟨y, hsuf.mem (List.mem_cons_of_mem _ hy), hya⟩)
  obtain ⟨actor, call, answer, before, after⟩ := x
  obtain rfl : actor = i := hi
  obtain rfl : call = .commit := hcall
  dsimp only at heffect hmade ⊢
  cases heffect with
  | committed hlive =>
    have hview := view_of_spared hmade.run hpast hlive
    simpa [LockedRows.commit] using hview
  | lost | closed => rfl

section
variable {g k : K}

/-- Whoever has a statement on the row `k` has got the lock `g` before. -/
def GuardedBy (prog : Nat → Prog (RowCall K V) RowCall.Answer α) (g k : K) : Prop :=
  ∀ j es q, Asks (prog j) es (.stmt q) → q.key = k → ∃ a ∈ es, Gets g a

/-- The writer of a guarded row has the guard. -/
theorem GuardedBy.covers (hg : GuardedBy prog g k) (hr : RowRun prog h s) :
    ∀ j, s.lock k = .exclusive j → s.lock g = .exclusive j := by
  refine hr.induction (P := fun _ s => ∀ j, s.lock k = .exclusive j → s.lock g = .exclusive j)
    ?_ ?_
  · intro s hs j hk
    rw [hs.1] at hk
    cases hk
  · intro x past _ hx ih j hk
    have heffect := hx.effect
    have hlive := heffect.tidy (tidy_of_run hx.run) k j (by simp [hk])
    rcases heffect.locked hk with hold | ⟨rfl, q, hq, hkey⟩
    · exact heffect.keeps hlive (ih j hold)
    · have hasks := hx.asks
      rw [hq] at hasks
      obtain ⟨a, ha, hget⟩ := hg _ _ q hasks hkey
      exact heffect.keeps hlive (held_of_gets hx.run hget ha (heffect.live hlive))

/-- What a transaction that has the guard has seen in the row stays so until it writes there
itself. -/
theorem GuardedBy.since (hg : GuardedBy prog g k) (hr : RowRun prog (mid ++ x :: past) s)
    (hi : x.actor = i) (hx : x.seen = ⟨.stmt (.read k), .ok v⟩)
    (hown : ∀ y ∈ mid, y.actor = i → ∀ q, y.call = .stmt q → q.key ≠ k) (hlive : s.live i = true) :
    s.view i k = v := by
  have hsince : s.live i = true → s.view i k = v ∧ s.lock g = .exclusive i := by
    refine hr.since (P := fun t => t.live i = true → t.view i k = v ∧ t.lock g = .exclusive i)
      ?_ ?_
    · intro hlive
      have hmade := hr.arises (List.suffix_append mid _)
      have heffect := hmade.effect
      have hasks := hmade.asks
      obtain ⟨actor, call, answer, before, after⟩ := x
      cases hx
      obtain rfl : actor = i := hi
      obtain ⟨a, ha, hget⟩ := hg _ _ _ hasks rfl
      have hlock := held_of_gets hmade.run hget ha (heffect.live hlive)
      refine ⟨?_, heffect.keeps hlive hlock⟩
      cases heffect with
      | ran _ _ hrun =>
        obtain ⟨hv, hsame⟩ := LockedRows.runs_read.mp hrun
        rw [hsame]
        exact hv.symm
    · intro y older hy hsuf hbefore hlive
      have hmade := hr.arises hsuf
      have heffect := hmade.effect
      obtain ⟨hview, hlock⟩ := hbefore (heffect.live hlive)
      refine ⟨?_, heffect.keeps hlive hlock⟩
      rw [← hview]
      by_cases hyi : y.actor = i
      · rw [hyi] at heffect
        exact heffect.view_own hlive (hown y hy hyi)
      · refine heffect.view (Ne.symm hyi) hlive fun hk => hyi ?_
        have hother := hg.covers hmade.run _ hk
        rw [hlock] at hother
        injection hother with hother
        exact hother.symm
  exact (hsince hlive).1

end

end

end AniInference.Lib
