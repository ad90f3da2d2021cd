import AniInference.Traces

namespace AniInference
open Lib Prog

/-- A run, beside which process made which call of its history. -/
def RunningBy (opts : WorkOptions) (r : Runner) (s : Pool World Call Call.Answer)
    (tagged : List (Nat × Entry)) : Prop :=
  ReachableBy (C := Call.Choice) (exec opts) (Client r) (· = World.start) s
    (tagged.map Prod.fst) ∧ tagged.map Prod.snd = s.world.history

/-- What is known about a call of a run: the world it was made in, and the calls the process that
made it had made before. -/
structure Made (opts : WorkOptions) (r : Runner) (c : Call) (w : World) (mine : List Entry) :
    Prop where
  kept : w.Kept
  proper : c.Proper opts r w
  linked : Linked w.history w.db
  asks : ∃ p, Client r p ∧ Asks p (mine.map Entry.seen).reverse c
  owns : Owns (Presented leaseTokens Entry.seen mine) mine w.history

/-- Every call of the history was made by a process of the service. -/
def Explained (opts : WorkOptions) (r : Runner) (history : List Entry) : Prop :=
  ∀ e past, e :: past <:+ history → ∃ c choice w mine, Made opts r c w mine ∧
    w.history = past ∧ e = c.entry opts choice w

theorem Explained.suffix (h : Explained opts r history) (hp : past <:+ history) :
    Explained opts r past :=
  fun e past' hsuf => h e past' (hsuf.trans hp)

theorem Linked.suffix (h : Linked history db) (hsuf : e :: past <:+ history) :
    Linked past e.before := by
  induction history generalizing db with
  | nil => simp at hsuf
  | cons e' history ih =>
    rcases List.suffix_cons_iff.mp hsuf with heq | hsuf
    · injection heq with h₁ h₂
      subst h₁ h₂
      exact h.2
    · exact ih h.2 hsuf

/-- A database is found by what holds at the start and what every call of the history keeps. -/
theorem Linked.induction {P : List Entry → Db → Prop} (h0 : P [] .empty) (h : Linked history db)
    (hstep : ∀ e past, e :: past <:+ history → P past e.before → P (e :: past) e.after) :
    P history db := by
  induction history generalizing db with
  | nil =>
    obtain rfl : db = .empty := h
    exact h0
  | cons e past ih =>
    obtain ⟨rfl, htail⟩ := h
    refine hstep e past (List.suffix_refl _) (ih htail fun e' past' hsuf => ?_)
    exact hstep e' past' (hsuf.trans (List.suffix_cons _ _))

/-- What a call leaves is still there if every later call keeps it. -/
theorem Linked.later {Q : Db → Prop} (h : Linked history db)
    (hstep : ∀ e ∈ history, Q e.before → Q e.after) {e : Entry} (hsuf : e :: past <:+ history)
    (he : Q e.after) : Q db := by
  induction history generalizing db with
  | nil => simp at hsuf
  | cons e' history ih =>
    obtain ⟨rfl, htail⟩ := h
    rcases List.suffix_cons_iff.mp hsuf with heq | hsuf
    · injection heq with heq
      exact heq ▸ he
    · apply hstep e' List.mem_cons_self
      exact ih htail (fun z hz => hstep z (List.mem_cons_of_mem _ hz)) hsuf

section
variable {opts : WorkOptions} {r : Runner} {s : Pool World Call Call.Answer}

theorem RunningBy.running (h : RunningBy opts r s tagged) : Running opts r s := h.1.reachable

theorem Running.tagged (h : Running opts r s) : ∃ tagged, RunningBy opts r s tagged := by
  obtain ⟨callers, hby⟩ := h.callers
  obtain ⟨tagged, hcallers, hlog, _⟩ := reachableBy_traced (leaseTokens_lawful opts) exec_history
    seen_entry (fun w hw => by subst hw; exact ⟨World.kept_start, rfl⟩)
    (fun c choice w hI hp => World.Kept.call (r := r) hI c choice hp) (fun p w hp _ => hp.safe) hby
  exact ⟨tagged, hcallers ▸ hby, hlog⟩

/-- The calls a process made before are its entries so far. -/
theorem RunningBy.made (h : RunningBy opts r s tagged) (hsuf : (i, e) :: past <:+ tagged) :
    ∃ c choice w, Made opts r c w (entriesOf i past) ∧ w.history = past.map Prod.snd ∧
      e = c.entry opts choice w := by
  obtain ⟨tagged', hcallers, hlog, htraced⟩ := reachableBy_traced (leaseTokens_lawful opts)
    exec_history seen_entry (fun w hw => by subst hw; exact ⟨World.kept_start, rfl⟩)
    (fun c choice w hI hp => World.Kept.call (r := r) hI c choice hp) (fun p w hp _ => hp.safe) h.1
  obtain rfl : tagged' = tagged :=
    (List.zip_of_prod hcallers hlog).trans (List.zip_of_prod rfl h.2).symm
  have hlogged : e :: past.map Prod.snd <:+ s.world.history := by
    have hmap := hsuf.map Prod.snd
    rwa [List.map_cons, hlog] at hmap
  obtain ⟨c, choice, w, ⟨hkept, hproper⟩, hhistory, rfl⟩ := h.running.kept.2 _ _ hlogged
  obtain ⟨hasks, howns⟩ := htraced i _ past hsuf
  refine ⟨c, choice, w, ⟨hkept, hproper, ?_, hasks, hhistory ▸ howns⟩, hhistory, rfl⟩
  rw [hhistory]
  exact h.running.linked.suffix hlogged

/-- The history of a schedule, with the processes that made its calls. -/
def tagged (opts : WorkOptions) (r : Runner) (events : List Event) : List (Nat × Entry) :=
  (Pool.callers (exec opts) ⟨World.start, []⟩ (events.flatMap (Event.actions r))).zip
    (played opts r events).world.history

theorem Running.explained (h : Running opts r s) : Explained opts r s.world.history := by
  obtain ⟨tagged, hby⟩ := h.tagged
  intro e past hsuf
  obtain ⟨newer, hnewer⟩ := hsuf
  rw [← hby.2] at hnewer
  obtain ⟨t₁, t₂, rfl, _, ht₂⟩ := List.map_eq_append_iff.mp hnewer.symm
  obtain ⟨⟨i, e'⟩, t₃, rfl, rfl, rfl⟩ := List.map_eq_cons_iff.mp ht₂
  obtain ⟨c, choice, w, hmade, hhistory, he⟩ := hby.made (List.suffix_append t₁ _)
  exact ⟨c, choice, w, _, hmade, hhistory, he⟩

end

section
variable {opts : WorkOptions} {r : Runner} {c : Call} {w : World} {mine : List Entry}

/-- A log falls apart where the calls of a process do. -/
theorem split_of_seen (h : Owns P m history) (hes : (m.map Entry.seen).reverse = es₁ ++ x :: es₂) :
    ∃ y new old m₁ m₂, y.seen = x ∧ history = new ++ y :: old ∧ m = m₂ ++ y :: m₁ ∧
      (m₁.map Entry.seen).reverse = es₁ ∧ (m₂.map Entry.seen).reverse = es₂ ∧
      Owns P m₂ new ∧ Owns P m₁ old := by
  have hrev : m.map Entry.seen = es₂.reverse ++ x :: es₁.reverse := by
    rw [← List.reverse_reverse (m.map Entry.seen), hes]
    simp
  obtain ⟨m₂, m', hmine, hm₂, hm'⟩ := List.map_eq_append_iff.mp hrev
  obtain ⟨y, m₁, rfl, hy, hm₁⟩ := List.map_eq_cons_iff.mp hm'
  obtain ⟨new, old, hhistory, hnew, hold⟩ := h.split hmine
  refine ⟨y, new, old, m₁, m₂, hy, hhistory, hmine, ?_, ?_, hnew, hold⟩
  · rw [hm₁, List.reverse_reverse]
  · rw [hm₂, List.reverse_reverse]

/-- A token was out when the calls after its grant were made. -/
theorem Explained.granted (h : Explained opts r history) (hg : g ∈ history)
    (ht : g.call.grants g.answer = some token) : token ≤ history.length := by
  obtain ⟨newer, past, rfl⟩ := List.append_of_mem hg
  obtain ⟨c, choice, w, mine, hmade, rfl, rfl⟩ := h g past (List.suffix_append _ _)
  have htok : token = w.nextToken := @grants_eq opts c choice w token ht
  rw [htok, hmade.kept.chronicle.numbered]
  simp

/-- From the base of a carrying argument on, whatever is kept by the process's own calls and by
the calls others can make while the fence holds. -/
theorem Made.carry (h : Made opts r c w mine) (hall : Explained opts r w.history)
    {tenant operation token : Uuid} {y : Entry} {old : List Entry} {o : OperationRow}
    (ho : y.before.operations.lookup (tenant, operation) = some o) (htoken : token ≤ old.length)
    (hgrant : ∃ g ∈ mine, g.call.grants g.answer = some token)
    (hf : w.db.fenced tenant operation token w.now = true) {Q : Db → Prop} (h0 : Q y.after)
    {es : List Exchange} (hown : ∀ c' choice w', (Call.entry opts c' choice w').seen ∈ es →
      c'.entry opts choice w' :: w'.history <:+ w.history →
      w'.db.fenced tenant operation token w'.now = true → Q w'.db → Q (exec opts c' choice w').2.db)
    (hother : ∀ c' choice w' mine', Made opts r c' w' mine' → c'.presents ≠ some token →
      c'.entry opts choice w' :: w'.history <:+ w.history →
      w'.db.fenced tenant operation token w'.now = true →
      (∃ t, (exec opts c' choice w').2.db.fenced tenant operation token t = true) → Q w'.db →
      Q (exec opts c' choice w').2.db)
    {new m : List Entry} (howns : Owns (Presented leaseTokens Entry.seen mine) m new)
    (hm : ∀ z ∈ m, z.seen ∈ es) (hhistory : new ++ y :: old <:+ w.history) {db : Db}
    (hlinked : Linked (new ++ y :: old) db) (hdb : ∃ t, db.fenced tenant operation token t = true) :
    Q db := by
  -- The entry after `y` is explained, and the fence held before it and after it.
  have around : ∀ z past, z :: past <:+ w.history → y :: old <:+ past → ∃ c' choice w' mine',
      Made opts r c' w' mine' ∧ w'.history = past ∧ z = c'.entry opts choice w' ∧
      w'.db.fenced tenant operation token w'.now = true := by
    intro z past hz hy
    obtain ⟨c', choice, w', mine', hmade, hpast, rfl⟩ := hall z past hz
    refine ⟨c', choice, w', mine', hmade, hpast, rfl, ?_⟩
    obtain ⟨o', ho', _⟩ := hmade.kept.chronicle.rows y old (hpast ▸ hy) _ o ho
    refine h.kept.chronicle.fences _ past hz tenant operation token o' ho' ?_ hf
    have hlen := hy.length_le
    simp only [List.length_cons] at hlen
    exact le_trans htoken (Nat.le_of_succ_le hlen)
  induction howns generalizing db with
  | nil =>
    obtain ⟨rfl, _⟩ := hlinked
    exact h0
  | @mine z m new _ ih =>
    obtain ⟨rfl, htail⟩ := hlinked
    obtain ⟨c', choice, w', mine', hmade, hpast, rfl, hfence⟩ :=
      around _ _ hhistory (List.suffix_append _ _)
    refine hown c' choice w' (hm _ List.mem_cons_self) ?_ hfence ?_
    · rw [hpast]
      exact hhistory
    · exact ih (fun z hz => hm z (List.mem_cons_of_mem _ hz))
        ((List.suffix_cons _ _).trans hhistory) htail ⟨_, hfence⟩
  | @other z m new hz _ ih =>
    obtain ⟨rfl, htail⟩ := hlinked
    obtain ⟨c', choice, w', mine', hmade, hpast, rfl, hfence⟩ :=
      around _ _ hhistory (List.suffix_append _ _)
    refine hother c' choice w' mine' hmade (fun hpresents => hz ?_) ?_ hfence hdb ?_
    · exact ⟨token, hpresents, hgrant⟩
    · rw [hpast]
      exact hhistory
    · exact ih hm ((List.suffix_cons _ _).trans hhistory) htail ⟨_, hfence⟩

/-- The operation a lease gives, which is fenced by it. -/
theorem runs_leasedOperation
    (h : Txn.Runs ((Read.leasedOperation tenant token).tx now) db (some (operation, o)) db') :
    db.operations.lookup (tenant, operation) = some o ∧
      db.fenced tenant operation token now = true := by
  simp only [Read.tx, Sql.getLeasedOperation, Txn.runs_get_bind, Txn.runs_pure] at h
  obtain ⟨hhead, _⟩ := h
  have hrow := hhead.symm
  simp only [Option.map_eq_some_iff, Prod.mk.injEq] at hrow
  obtain ⟨⟨k, o'⟩, hrow, rfl, rfl⟩ := hrow
  have hmem := List.mem_of_head? hrow
  rw [Table.mem_select] at hmem
  simp only [Bool.and_eq_true, decide_eq_true_eq] at hmem
  obtain ⟨hlookup, rfl, hfenced⟩ := hmem
  exact ⟨hlookup, hfenced⟩

/-- What a worker has read of the operation it works on. -/
theorem read_leasedOperation (h : Explained opts r history) (hy : y :: past <:+ history)
    (hseen : y.seen = ⟨.read (.leasedOperation tenant token), .ok (some (operation, o))⟩) :
    y.before.operations.lookup (tenant, operation) = some o ∧ y.after = y.before ∧
      y.before.fenced tenant operation token y.time = true := by
  obtain ⟨c, choice, w, mine, hmade, rfl, rfl⟩ := h y past hy
  obtain ⟨rfl, hanswer⟩ : c = .read (.leasedOperation tenant token) ∧ _ := by
    injection hseen with h₁ h₂
    exact ⟨h₁, h₂⟩
  have hans : (exec opts (.read (.leasedOperation tenant token)) choice w).1 =
      .ok (some (operation, o)) := eq_of_heq hanswer
  obtain ⟨hlookup, hfenced⟩ := runs_leasedOperation (read_runs hans)
  exact ⟨hlookup, read_db, hfenced⟩

end

end AniInference
