import AniInference.Diagnostics

namespace AniInference.Diagnostics
open Lib Txn
open Prog (Asks Only Played)

/-- A chain of at most `n` controller references from an object to one that is bound. Each
reference has the uid of the object that was read for it. -/
inductive Chain (bindings : List RuntimeBinding) (ns : String)
    (objects : OwnerKey → Ancestor → Prop) : Nat → String → String → String → List OwnerRef → Prop
  | bound {n : Nat} {kind name uid : String} {owners : List OwnerRef} {b : RuntimeBinding}
      (given : uid ≠ "") (mem : b ∈ bindings) (binds : binds b ns kind name uid = true) :
      Chain bindings ns objects n kind name uid owners
  | owned {n : Nat} {kind name uid : String} {owners : List OwnerRef} {o : OwnerRef}
      {object : Ancestor} (given : uid ≠ "") (mem : o ∈ owners) (followed : o.followed = true)
      (read : objects (o.key ns) object) (same : uidText object.uid = o.uid)
      (chain : Chain bindings ns objects n o.kind o.name o.uid object.value) :
      Chain bindings ns objects (n + 1) kind name uid owners

/-- The object was read. -/
def Read (es : List Seen) (key : OwnerKey) (object : Ancestor) : Prop :=
  (⟨.getAncestor key, .ok object⟩ : Seen) ∈ es

/-- The object is in the table. -/
def Holds (table : Ancestors) (key : OwnerKey) (object : Ancestor) : Prop :=
  table.lookup key = some (some object)

/-- The table holds what was read. -/
def Tracks (es : List Seen) (table : Ancestors) : Prop :=
  ∀ key object, Holds table key object ↔ Read es key object

/-- A table that has grown. -/
def Extends (table table' : Ancestors) : Prop :=
  ∀ key o, table.lookup key = some o → table'.lookup key = some o

section
variable {es : List Seen} {table table' table'' : Ancestors} {key : OwnerKey}

theorem Extends.refl (table : Ancestors) : Extends table table := fun _ _ h => h

theorem Extends.trans (h : Extends table table') (h' : Extends table' table'') :
    Extends table table'' := fun key o ho => h' key o (h key o ho)

theorem Extends.insert (hnone : table.lookup key = none) (o : Option Ancestor) :
    Extends table (table.insert key o) := by
  intro key' o' ho'
  have hne : key' ≠ key := by
    rintro rfl
    rw [hnone] at ho'
    cases ho'
  rw [Table.lookup_insert_ite, if_neg hne, ho']

theorem read_append (he : ∀ key, e ≠ .getAncestor key) :
    Read (es ++ [⟨e, answer⟩]) key object ↔ Read es key object := by
  simp only [Read, List.mem_append, List.mem_singleton, or_iff_left_iff_imp]
  intro heq
  exact absurd (congrArg Sigma.fst heq).symm (he key)

theorem Tracks.append (h : Tracks es table) (he : ∀ key, e ≠ .getAncestor key) :
    Tracks (es ++ [⟨e, answer⟩]) table := by
  intro key object
  rw [read_append he]
  exact h key object

theorem Tracks.found (h : Tracks es table) (hnone : table.lookup key = none) (object : Ancestor) :
    Tracks (es ++ [⟨.getAncestor key, .ok object⟩]) (table.insert key (some object)) := by
  intro key' object'
  simp only [Holds, Read, Table.lookup_insert_ite, List.mem_append, List.mem_singleton]
  by_cases hk : key' = key
  · subst hk
    have hunread : (⟨.getAncestor key', .ok object'⟩ : Seen) ∉ es := by
      intro hread
      have := (h key' object').mpr hread
      rw [Holds, hnone] at this
      cases this
    rw [if_pos rfl]
    constructor
    · intro heq
      cases heq
      exact .inr rfl
    · intro heq
      rcases heq with hread | heq
      · exact absurd hread hunread
      · cases heq
        rfl
  · rw [if_neg hk]
    constructor
    · intro hholds
      exact .inl ((h key' object').mp hholds)
    · intro hread
      rcases hread with hread | heq
      · exact (h key' object').mpr hread
      · cases heq
        exact absurd rfl hk

theorem Tracks.missing (h : Tracks es table) (hnone : table.lookup key = none)
    (ha : ∀ object, answer ≠ .ok object) :
    Tracks (es ++ [⟨.getAncestor key, answer⟩]) (table.insert key none) := by
  intro key' object'
  simp only [Holds, Read, Table.lookup_insert_ite, List.mem_append, List.mem_singleton]
  have hlast : (⟨.getAncestor key', .ok object'⟩ : Seen) ≠ ⟨.getAncestor key, answer⟩ := by
    intro heq
    cases heq
    exact ha object' rfl
  by_cases hk : key' = key
  · subst hk
    simp only [if_true, hlast, or_false]
    constructor
    · intro heq
      cases heq
    · intro hread
      have := (h key' object').mpr hread
      rw [Holds, hnone] at this
      cases this
  · simp only [if_neg hk, hlast, or_false]
    exact h key' object'

end

/-- How a search ends: the table has grown by what was read, and the answer is right for it and for
every table it may still grow into. -/
structure Searched (target : Ancestors → Prop) (table : Ancestors) (es : List Seen)
    (r : Bool × Ancestors) : Prop where
  tracks : Tracks es r.2
  grown : Extends table r.2
  verdict : ∀ final, Extends r.2 final → (r.1 = true ↔ target final)

section
variable {Φ : List Seen → Call → Prop} {bindings : List RuntimeBinding} {ns : String}
variable {table : Ancestors} {es : List Seen}

section
variable (hΦ : ∀ es e, (∀ line, e ≠ .emit line) → Φ es e)
include hΦ

theorem walk_checkContext {P : List Seen → Prop}
    (h : ∀ es answer, P es → P (es ++ [⟨.cancelled, answer⟩])) (hes : P es) :
    WalkOk Φ (fun es (_ : Unit) => P es) es checkContext := by
  refine WalkOk.call (hΦ _ _ nofun) fun answer => ?_
  cases answer with
  | true => exact .throw _
  | false => exact .pure (h es _ hes)

theorem walk_loadAncestor (htracks : Tracks es table) :
    WalkOk Φ (fun es r => Tracks es r.2 ∧ Extends table r.2 ∧ r.2.lookup key = some r.1) es
      (loadAncestor key table) := by
  unfold loadAncestor
  cases hlookup : table.lookup key with
  | some object => exact .pure ⟨htracks, .refl _, hlookup⟩
  | none =>
    refine WalkOk.call (hΦ _ _ nofun) fun answer => ?_
    rcases answer with (_ | _ | _ | _ | _) | object
    case error.notFound =>
      exact .pure ⟨htracks.missing hlookup nofun, .insert hlookup _, by
        rw [Table.lookup_insert_ite, if_pos rfl]⟩
    case ok =>
      exact .pure ⟨htracks.found hlookup object, .insert hlookup _, by
        rw [Table.lookup_insert_ite, if_pos rfl]⟩
    all_goals exact .throw _

/-- Some owner that is followed leads on. -/
def Leads (ns : String) (target : OwnerRef → Ancestor → Ancestors → Prop) (owners : List OwnerRef)
    (final : Ancestors) : Prop :=
  ∃ o ∈ owners, o.followed = true ∧ ∃ object, Holds final (o.key ns) object ∧
    uidText object.uid = o.uid ∧ target o object final

omit hΦ in
theorem leads_cons
    (ho : ∀ object, o.followed = true → Holds final (o.key ns) object → uidText object.uid = o.uid →
      ¬target o object final) : Leads ns target (o :: rest) final ↔ Leads ns target rest final := by
  constructor
  · rintro ⟨o', hmem, hfollowed, object, hholds, hsame, htarget⟩
    rcases List.mem_cons.mp hmem with rfl | hmem
    · exact absurd htarget (ho object hfollowed hholds hsame)
    · exact ⟨o', hmem, hfollowed, object, hholds, hsame, htarget⟩
  · rintro ⟨o', hmem, hrest⟩
    exact ⟨o', List.mem_cons_of_mem _ hmem, hrest⟩

theorem walk_searchOwners (hvisit : ∀ o object table es, Tracks es table →
      WalkOk Φ (Searched (target o object) table) es (visit o object table))
    (owners : List OwnerRef) (htracks : Tracks es table) :
    WalkOk Φ (Searched (Leads ns target owners) table) es (searchOwners ns visit owners table) := by
  induction owners generalizing table es with
  | nil =>
    refine .pure ⟨htracks, .refl _, fun final _ => ?_⟩
    simp [Leads]
  | cons o rest ih =>
    -- where the owner does not lead on, the answer is that of the rest
    have hskip : ∀ {es table'}, Tracks es table' → Extends table table' →
        (∀ final, Extends table' final → ∀ object, o.followed = true →
          Holds final (o.key ns) object → uidText object.uid = o.uid → ¬target o object final) →
        WalkOk Φ (Searched (Leads ns target (o :: rest)) table) es
          (searchOwners ns visit rest table') := by
      intro es table' htracks hgrown hnot
      refine (ih htracks).mono fun es r hr => ?_
      refine ⟨hr.tracks, hgrown.trans hr.grown, fun final hfinal => ?_⟩
      rw [hr.verdict final hfinal, leads_cons (hnot final (hr.grown.trans hfinal))]
    unfold searchOwners
    split
    · next hfollowed =>
      refine (walk_loadAncestor hΦ htracks).bind fun es r hr => ?_
      obtain ⟨found, table'⟩ := r
      obtain ⟨htracks, hgrown, hlookup⟩ := hr
      cases found with
      | none =>
        refine hskip htracks hgrown fun final hfinal object _ hholds => ?_
        rw [Holds, hfinal _ _ hlookup] at hholds
        cases hholds
      | some object =>
        have honly : ∀ {final object'}, Extends table' final → Holds final (o.key ns) object' →
            object' = object := by
          intro final object' hfinal hholds
          rw [Holds, hfinal _ _ hlookup] at hholds
          cases hholds
          rfl
        dsimp only
        split
        · next hsame =>
          refine (hvisit o object table' es htracks).bind fun es r hr => ?_
          obtain ⟨matched, table''⟩ := r
          cases matched with
          | true =>
            refine .pure ⟨hr.tracks, hgrown.trans hr.grown, fun final hfinal => ?_⟩
            have htarget := (hr.verdict final hfinal).mp rfl
            simp only [true_iff]
            exact ⟨o, List.mem_cons_self, hfollowed, object,
              hfinal _ _ (hr.grown _ _ hlookup), hsame, htarget⟩
          | false =>
            refine hskip hr.tracks (hgrown.trans hr.grown) fun final hfinal object' _ hholds _ => ?_
            rw [honly (hr.grown.trans hfinal) hholds]
            intro htarget
            cases (hr.verdict final hfinal).mpr htarget
        · next hdiffers =>
          refine hskip htracks hgrown fun final hfinal object' _ hholds hsame => ?_
          rw [honly hfinal hholds] at hsame
          exact absurd hsame hdiffers
    · next hfollowed =>
      exact hskip htracks (.refl _) fun _ _ _ hf => absurd hf hfollowed

/-- What a search at a depth looks for; beyond the last depth there is nothing. -/
def Within (bindings : List RuntimeBinding) (ns : String) (final : Ancestors) :
    Nat → String → String → String → List OwnerRef → Prop
  | 0, _, _, _, _ => False
  | n + 1, kind, name, uid, owners => Chain bindings ns (Holds final) n kind name uid owners

theorem walk_boundObject (n : Nat) (kind name uid : String) (owners : List OwnerRef)
    (htracks : Tracks es table) :
    WalkOk Φ (Searched (fun final => Within bindings ns final n kind name uid owners) table) es
      (boundObject bindings ns n kind name uid owners table) := by
  induction n generalizing kind name uid owners table es with
  | zero =>
    refine (walk_checkContext hΦ (P := fun es => Tracks es table) (fun _ _ h => h.append nofun)
      htracks).bind fun es _ htracks => ?_
    exact .pure ⟨htracks, .refl _, fun _ _ => by simp [Within]⟩
  | succ n ih =>
    refine (walk_checkContext hΦ (P := fun es => Tracks es table) (fun _ _ h => h.append nofun)
      htracks).bind fun es _ htracks => ?_
    split
    · next huid =>
      refine .pure ⟨htracks, .refl _, fun _ _ => ?_⟩
      simp only [Bool.false_eq_true, false_iff]
      intro hchain
      cases hchain with
      | bound given | owned given => exact given huid
    · next huid =>
      split
      · next hbound =>
        obtain ⟨b, hb, hbinds⟩ := List.any_eq_true.mp hbound
        exact .pure ⟨htracks, .refl _, fun _ _ => ⟨fun _ => .bound huid hb hbinds, fun _ => rfl⟩⟩
      · next hunbound =>
        refine (walk_searchOwners hΦ (fun o object table es h =>
          ih o.kind o.name o.uid object.value h) owners htracks).mono fun es r hr =>
            ⟨hr.tracks, hr.grown, fun final hfinal => ?_⟩
        rw [hr.verdict final hfinal]
        constructor
        · rintro ⟨o, hmem, hfollowed, object, hholds, hsame, hchain⟩
          cases n with
          | zero => exact absurd hchain id
          | succ n => exact .owned huid hmem hfollowed hholds hsame hchain
        · intro hchain
          cases hchain with
          | bound _ hb hbinds => exact absurd (List.any_eq_true.mpr ⟨_, hb, hbinds⟩) hunbound
          | owned _ hmem hfollowed hholds hsame hchain =>
            exact ⟨_, hmem, hfollowed, _, hholds, hsame, hchain⟩

/-- The Pod has a chain of at most eight references to a bound object. -/
abbrev PodChain (runtime : DesiredRuntime) (objects : OwnerKey → Ancestor → Prop) (pod : NamedPod) :
    Prop :=
  Chain runtime.bindings runtime.namespaceName objects 8 "Pod" pod.1 (uidText pod.2.uid)
    pod.2.value.owners

theorem walk_siftPods (scope : Scope) (runtime : DesiredRuntime) (items : List NamedPod)
    (htracks : Tracks es table) :
    WalkOk Φ (fun es pods => ∃ final, Tracks es final ∧ Extends table final ∧ ∀ pod, pod ∈ pods ↔
        pod ∈ items ∧ admissible scope pod.2.value = true ∧ PodChain runtime (Holds final) pod) es
      (siftPods scope runtime items table) := by
  induction items generalizing table es with
  | nil => exact .pure ⟨table, htracks, .refl _, by simp⟩
  | cons item rest ih =>
    unfold siftPods
    split
    · next hadmissible =>
      refine (walk_boundObject hΦ 9 _ _ _ _ htracks).bind fun es r hr => ?_
      refine (ih hr.tracks).bind fun es pods hpods => ?_
      obtain ⟨final, hfinal, hgrown, hmem⟩ := hpods
      have hverdict : r.1 = true ↔ PodChain runtime (Holds final) item := hr.verdict final hgrown
      refine .pure ⟨final, hfinal, hr.grown.trans hgrown, fun pod => ?_⟩
      by_cases howned : r.1 = true
      · simp only [howned, if_true, List.mem_cons, hmem]
        constructor
        · rintro (rfl | ⟨hrest, hpod⟩)
          · exact ⟨.inl rfl, hadmissible, hverdict.mp howned⟩
          · exact ⟨.inr hrest, hpod⟩
        · rintro ⟨rfl | hrest, hpod⟩
          · exact .inl rfl
          · exact .inr ⟨hrest, hpod⟩
      · simp only [howned, Bool.false_eq_true, if_false, List.mem_cons, hmem]
        constructor
        · rintro ⟨hrest, hpod⟩
          exact ⟨.inr hrest, hpod⟩
        · rintro ⟨rfl | hrest, hpod⟩
          · exact absurd (hverdict.mpr hpod.2) howned
          · exact ⟨hrest, hpod⟩
    · next hforeign =>
      refine (ih htracks).mono fun es pods hpods => ?_
      obtain ⟨final, hfinal, hgrown, hmem⟩ := hpods
      refine ⟨final, hfinal, hgrown, fun pod => ?_⟩
      rw [hmem, List.mem_cons]
      constructor
      · rintro ⟨hrest, hpod⟩
        exact ⟨.inr hrest, hpod⟩
      · rintro ⟨rfl | hrest, hpod⟩
        · exact absurd hpod.1 hforeign
        · exact ⟨hrest, hpod⟩

/-- What a request has found out: the runtime, the Pods of its namespace, and of these exactly the
ones that have a chain over the objects it has read. -/
structure Owned (scope : Scope) (es : List Seen) (runtime : DesiredRuntime)
    (items pods : List NamedPod) : Prop where
  source : (⟨.currentRuntime scope, .ok runtime⟩ : Seen) ∈ es
  within : inScope scope runtime = true
  listed : (⟨.listPods runtime.namespaceName, .ok (items, false)⟩ : Seen) ∈ es
  chosen : ∀ pod, pod ∈ pods ↔ pod ∈ items ∧ admissible scope pod.2.value = true ∧
    PodChain runtime (Read es) pod

omit hΦ in
theorem Owned.append (h : Owned scope es runtime items pods) (he : ∀ key, e ≠ .getAncestor key) :
    Owned scope (es ++ [⟨e, answer⟩]) runtime items pods := by
  have hread : Read (es ++ [⟨e, answer⟩]) = Read es := by
    funext key object
    exact propext (read_append he)
  exact ⟨List.mem_append_left _ h.source, h.within, List.mem_append_left _ h.listed,
    hread ▸ h.chosen⟩

theorem walk_podsOf (hscope : inScope scope runtime = true) :
    WalkOk Φ (fun es pods => ∃ items, Owned scope es runtime items pods)
      [⟨.currentRuntime scope, .ok runtime⟩] (podsOf scope runtime) := by
  refine WalkOk.call (hΦ _ _ nofun) fun answer => ?_
  cases answer with
  | error e => exact .throw _
  | ok answer =>
    obtain ⟨items, more⟩ := answer
    dsimp only
    split
    · exact .throw _
    · next hlimit =>
      obtain rfl : more = false := by
        simpa using fun h => hlimit (.inr h)
      have htracks : Tracks ([⟨.currentRuntime scope, .ok runtime⟩] ++
          [⟨.listPods runtime.namespaceName, .ok (items, false)⟩]) ∅ := by
        intro key object
        simp only [Holds, Read, AList.lookup_empty, reduceCtorEq, List.mem_append,
          List.mem_singleton, false_iff]
        rintro (heq | heq)
        · cases heq
        · cases heq
      refine (walk_siftPods hΦ scope runtime items htracks).grows.bind fun es pods hpods => ?_
      obtain ⟨⟨final, hfinal, _, hmem⟩, hgrown⟩ := hpods
      have hread : Holds final = Read es := by
        funext key object
        exact propext (hfinal key object)
      refine .pure ⟨items, hgrown.subset (by simp), hscope, hgrown.subset (by simp), fun pod => ?_⟩
      rw [List.mem_insertionSort, hmem, hread]

theorem walk_ownedPods (scope : Scope) :
    WalkOk Φ (fun es r => ∃ items, Owned scope es r.1 items r.2) [] (ownedPods scope) := by
  refine WalkOk.call (hΦ _ _ nofun) fun answer => ?_
  cases answer with
  | error e => exact .throw _
  | ok runtime =>
    dsimp only
    split
    · next hscope => exact (walk_podsOf hΦ hscope).bind fun es pods hpods => .pure hpods
    · exact .throw _

end

theorem walk_instances (scope : Scope) :
    WalkOk (fun _ _ => True) (fun es reply => ∃ runtime items pods,
        Owned scope es runtime items pods ∧ reply = .instances (pods.map instanceOf)) []
      (instances scope) := by
  refine (walk_ownedPods (fun _ _ _ => trivial) scope).bind fun es r hr => ?_
  obtain ⟨items, hitems⟩ := hr
  exact .pure ⟨r.1, items, r.2, hitems, rfl⟩

/-- What a request for logs has done before it emits: one of the Pods it owns was chosen, a stream
was opened under its name, and after that the name had its uid. -/
structure Opened (scope : Scope) (query : LogsQuery) (es : List Seen) (stream : Stream) : Prop where
  opened : ∃ runtime items pods pod container es₁ es₂ actual,
    Owned scope es runtime items pods ∧ pod ∈ pods ∧ pod.1 = query.instanceName ∧
    es = es₁ ++ [⟨.getLogs runtime.namespaceName pod.1 container, .ok stream⟩] ++
      [⟨.getPod runtime.namespaceName pod.1, .ok actual⟩] ++ es₂ ∧
    (⟨.listPods runtime.namespaceName, .ok (items, false)⟩ : Seen) ∈ es₁ ∧ actual.uid = pod.2.uid

theorem Opened.append (h : Opened scope query es stream) (he : ∀ key, e ≠ .getAncestor key) :
    Opened scope query (es ++ [⟨e, answer⟩]) stream := by
  obtain ⟨runtime, items, pods, pod, container, es₁, es₂, actual, howned, hpod, hname, rfl, hlisted,
    huid⟩ := h.opened
  exact ⟨runtime, items, pods, pod, container, es₁, es₂ ++ [⟨e, answer⟩], actual,
    howned.append he, hpod, hname, by simp, hlisted, huid⟩

/-- A line is emitted only of an opened stream. -/
def Emits (scope : Scope) (query : LogsQuery) (es : List Seen) (e : Call) : Prop :=
  ∀ line, e = .emit line → ∃ stream, Opened scope query es stream ∧
    ∃ raw ∈ stream.lines, judge query raw = .ok (.emit line)

theorem emits_other (scope : Scope) (query : LogsQuery) (es : List Seen) (e : Call)
    (he : ∀ line, e ≠ .emit line) : Emits scope query es e :=
  fun line h => absurd h (he line)

theorem walk_readRuntimeLogs {stream : Stream} (bytes : Nat) (lines : Int)
    (hraws : ∀ raw ∈ raws, raw ∈ stream.lines) (hopened : Opened scope query es stream) :
    WalkOk (Emits scope query) (fun _ _ => True) es
      (readRuntimeLogs query stream.broken bytes lines raws) := by
  induction raws generalizing bytes lines es with
  | nil =>
    unfold readRuntimeLogs
    split
    · exact .throw _
    · exact .pure trivial
  | cons raw rest ih =>
    have hrest : ∀ raw ∈ rest, raw ∈ stream.lines := fun r hr => hraws r (List.mem_cons_of_mem _ hr)
    refine (walk_checkContext (emits_other scope query)
      (P := fun es => Opened scope query es stream) (fun _ _ h => h.append nofun) hopened).bind
        fun es _ hopened => ?_
    split
    · exact .pure trivial
    · cases hjudge : judge query raw with
      | error e => exact .throw _
      | ok verdict =>
        cases verdict with
        | skip => exact ih _ _ hrest hopened
        | stop => exact .pure trivial
        | emit line =>
          dsimp only
          split
          · exact .pure trivial
          · refine WalkOk.call ?_ fun answer => ?_
            · intro line' heq
              cases heq
              exact ⟨stream, hopened, raw, hraws raw List.mem_cons_self, hjudge⟩
            · cases answer with
              | true => exact ih _ _ hrest (hopened.append nofun)
              | false => exact .throw _

theorem walk_streamLogs (howned : Owned scope es runtime items pods) (hpod : pod ∈ pods)
    (hname : pod.1 = query.instanceName) (container : String) :
    WalkOk (Emits scope query) (fun _ _ => True) es
      (streamLogs query runtime.namespaceName pod container) := by
  refine WalkOk.call (emits_other _ _ _ _ nofun) fun answer => ?_
  cases answer with
  | error e => exact .throw _
  | ok stream =>
    refine WalkOk.call (emits_other _ _ _ _ nofun) fun answer => ?_
    cases answer with
    | error e => exact .throw _
    | ok actual =>
      dsimp only
      split
      · next huid =>
        have hlogs : Owned scope (es ++ [⟨.getLogs runtime.namespaceName pod.1 container,
            .ok stream⟩]) runtime items pods := howned.append nofun
        refine (walk_readRuntimeLogs 0 0 (fun _ h => h) ?_).bind fun es _ _ => .pure trivial
        exact ⟨runtime, items, pods, pod, container, es, [], actual,
          hlogs.append nofun, hpod, hname, by simp, howned.listed, huid⟩
      · exact .throw _

theorem walk_logs (scope : Scope) (query : LogsQuery) :
    WalkOk (Emits scope query) (fun _ _ => True) [] (logs scope query) := by
  refine (walk_ownedPods (emits_other scope query) scope).bind fun es r hr => ?_
  obtain ⟨items, howned⟩ := hr
  dsimp only
  split
  · exact .throw _
  · next pod hpod =>
    have hname : pod.1 = query.instanceName := by simpa using List.find?_some hpod
    split
    · exact .throw _
    · exact walk_streamLogs howned (List.mem_of_find?_eq_some hpod) hname _

end

/-- The bindings of a runtime are rows of the service's. -/
def Persisted (db : Db) (scope : Scope) (runtime : DesiredRuntime) : Prop :=
  ∀ b ∈ runtime.bindings, ∃ g, db.bindings.lookup
    (scope.tenantID, scope.serviceID, g, b.kind, b.role) =
      some ⟨b.namespaceName, b.name, b.uid, b.resourceVersion⟩

theorem persisted_of_boundUpTo (hb : b ∈ Sql.boundUpTo db tenant service g) :
    ∃ g, db.bindings.lookup (tenant, service, g, b.kind, b.role) =
      some ⟨b.namespaceName, b.name, b.uid, b.resourceVersion⟩ := by
  obtain ⟨found, hfound, heq⟩ := Sql.mem_boundUpTo.mp hb
  have hrow := (Sql.newestBinding_row hfound).2
  rw [heq]
  exact ⟨found.1, hrow⟩

theorem persisted_of_currentRuntime (h : Runs (RuntimeSource.currentRuntime ns scope.tenantID
      scope.serviceID scope.generation) db runtime db') : Persisted db scope runtime := by
  obtain ⟨_, hbindings, _⟩ := RuntimeSource.runs_currentRuntime h
  obtain ⟨_, heq | ⟨_, heq⟩⟩ := RuntimeSource.runs_currentBindings hbindings
  · intro b hb
    exact persisted_of_boundUpTo (heq ▸ hb)
  · intro b hb
    exact persisted_of_boundUpTo (heq ▸ hb)

section
variable {parties : Nat → Party} {h past : List DiagnosticsMoment} {s : Site}

theorem evolves_act (i : Nat) (e : Call) (choice : e.Choice) (s : Site) :
    s.pods.Evolves (act i e choice s).2.pods := by
  cases e with
  | change c =>
    cases c with
    | pods w => exact .write w _
    | ancestors | commit => exact .refl _
  | currentRuntime | listPods | getAncestor | getLogs | getPod | cancelled | emit => exact .refl _

theorem evolves_of_arises
    (hmade : Arises act (fun i => (parties i).program) (fun s => s.pods.Sound) x past) :
    x.before.pods.Evolves x.after.pods := by
  obtain ⟨choice, _, hafter⟩ := hmade.acted
  rw [hafter]
  exact evolves_act _ _ choice _

theorem sound_of_run (hr : DiagnosticsRun parties h s) : s.pods.Sound := by
  refine hr.invariant (fun _ hs => hs) fun y older hy hsound => ?_
  exact (evolves_of_arises (hr.arises hy)).sound hsound

/-- From before an event on, the Pods have only evolved. -/
theorem evolves_since (hr : DiagnosticsRun parties (mid ++ x :: past) s) :
    x.before.pods.Evolves s.pods := by
  refine hr.since (P := fun s => x.before.pods.Evolves s.pods)
    (evolves_of_arises (hr.arises (List.suffix_append _ _))) ?_
  intro y older _ hy hbefore
  exact hbefore.trans (evolves_of_arises (hr.arises hy))

theorem mem_podsIn (h : pod ∈ s.podsIn ns) : s.pods.find (ns, pod.1) = some pod.2 := by
  obtain ⟨⟨⟨ns', name⟩, object⟩, hmem, heq⟩ := List.mem_filterMap.mp h
  dsimp only at heq
  split at heq
  · next hns =>
    cases heq
    subst hns
    exact Table.mem_entries_iff.mp hmem
  · cases heq

variable (hmade : Arises act (fun i => (parties i).program) (fun s => s.pods.Sound) x past)
include hmade

/-- What is listed was there. -/
theorem listed_of_arises (hseen : x.seen = ⟨.listPods ns, .ok (items, more)⟩) (hpod : pod ∈ items) :
    x.before.pods.find (ns, pod.1) = some pod.2 := by
  obtain ⟨choice, hanswer, _⟩ := hmade.acted
  obtain ⟨actor, call, answer, before, after⟩ := x
  cases hseen
  have hitems := congrArg Prod.fst (Except.ok.inj (heard_ok hanswer.symm))
  dsimp only at hitems
  rw [← hitems] at hpod
  exact mem_podsIn (List.mem_of_mem_take hpod)

theorem runtime_of_arises (hseen : x.seen = ⟨.currentRuntime scope, .ok runtime⟩) :
    Persisted x.before.db scope runtime := by
  obtain ⟨choice, hanswer, _⟩ := hmade.acted
  obtain ⟨actor, call, answer, before, after⟩ := x
  cases hseen
  have hread := heard_ok hanswer.symm
  cases hrun : RuntimeSource.currentRuntime choice.2 scope.tenantID scope.serviceID
      scope.generation before.db with
  | error e =>
    rw [hrun] at hread
    cases hread
  | ok r =>
    rw [hrun] at hread
    cases hread
    exact persisted_of_currentRuntime hrun

theorem pod_of_arises (hseen : x.seen = ⟨.getPod ns name, .ok pod⟩) :
    x.before.pods.find (ns, name) = some pod := by
  obtain ⟨choice, hanswer, _⟩ := hmade.acted
  obtain ⟨actor, call, answer, before, after⟩ := x
  cases hseen
  exact ObjectStore.get_ok.mp (heard_ok hanswer.symm)

/-- A stream is of the Pod that had the name when it was opened. -/
theorem stream_of_arises (hseen : x.seen = ⟨.getLogs ns name container, .ok stream⟩) :
    ∃ pod, x.before.pods.find (ns, name) = some pod ∧ stream.pod = pod.uid := by
  obtain ⟨choice, hanswer, _⟩ := hmade.acted
  obtain ⟨actor, call, answer, before, after⟩ := x
  cases hseen
  have hopen := heard_ok hanswer.symm
  unfold openLogs at hopen
  cases hget : before.pods.get (ns, name) with
  | error e =>
    rw [hget] at hopen
    cases hopen
  | ok pod =>
    rw [hget] at hopen
    have hstream := Except.ok.inj hopen
    exact ⟨pod, ObjectStore.get_ok.mp hget, by rw [← hstream]⟩

end

/-- What a request knows of the Pods it shows or reads: the runtime's bindings are rows of the
tenant's service, each Pod was listed, and it shows exactly those that have a chain. -/
structure Authorized (i : Nat) (scope : Scope) (h : List DiagnosticsMoment)
    (runtime : DesiredRuntime) (items pods : List NamedPod) : Prop where
  owned : Owned scope (trace i h) runtime items pods
  persisted : ∃ x ∈ h, x.actor = i ∧ Persisted x.before.db scope runtime
  listed : ∃ x ∈ h, x.actor = i ∧ ∀ pod ∈ items,
    x.before.pods.find (runtime.namespaceName, pod.1) = some pod.2

section
variable {parties : Nat → Party} {h past : List DiagnosticsMoment} {s : Site}

theorem Owned.authorized (hr : DiagnosticsRun parties h s)
    (ho : Owned scope (trace i h) runtime items pods) :
    Authorized i scope h runtime items pods := by
  obtain ⟨x, hx, hxi, hxseen⟩ := mem_trace.mp ho.source
  obtain ⟨y, hy, hyi, hyseen⟩ := mem_trace.mp ho.listed
  obtain ⟨_, _, hxmade⟩ := hr.mem_arises hx
  obtain ⟨_, _, hymade⟩ := hr.mem_arises hy
  exact ⟨ho, ⟨x, hx, hxi, runtime_of_arises hxmade hxseen⟩,
    y, hy, hyi, fun pod hpod => listed_of_arises hymade hyseen hpod⟩

/-- The name had the uid before and after the stream was opened, so the stream is of that Pod. -/
theorem Opened.stream {query : LogsQuery} {stream : Stream} (hr : DiagnosticsRun parties h s)
    (ho : Opened scope query (trace i h) stream) :
    ∃ runtime items pods pod, Authorized i scope h runtime items pods ∧ pod ∈ pods ∧
      pod.1 = query.instanceName ∧ stream.pod = pod.2.uid ∧ ∃ y ∈ h, y.actor = i ∧ ∃ container,
        y.seen = ⟨.getLogs runtime.namespaceName pod.1 container, .ok stream⟩ := by
  obtain ⟨runtime, items, pods, pod, container, es₁, es₂, actual, howned, hpod, hname,
    htrace, hlisted, huid⟩ := ho.opened
  have hauthorized := howned.authorized hr
  rw [List.append_assoc _ [_] es₂, List.singleton_append] at htrace
  obtain ⟨new, y, past, rfl, hy, hyseen, htrace, _⟩ := trace_split htrace
  obtain ⟨mid, x, older, rfl, hx, hxseen, htrace, _⟩ := trace_split htrace
  obtain ⟨w, hw, _, hwseen⟩ := mem_trace.mp (htrace ▸ hlisted)
  obtain ⟨between, oldest, rfl⟩ := List.append_of_mem hw
  have hymade : Arises _ _ _ y _ := hr.arises (List.suffix_append _ _)
  have hxmade : Arises _ _ _ x _ := hymade.run.arises (List.suffix_append _ _)
  have hwmade : Arises _ _ _ w oldest := hxmade.run.arises (List.suffix_append _ _)
  have hbefore := listed_of_arises hwmade hwseen ((howned.chosen pod).mp hpod).1
  obtain ⟨opened, hopened, hstream⟩ := stream_of_arises hxmade hxseen
  have hafter := pod_of_arises hymade hyseen
  have hgiven := (sound_of_run hwmade.run _ _ hbefore).1
  have hnext := (evolves_since hxmade.run).next
  refine ⟨runtime, items, pods, pod, hauthorized, hpod, hname, ?_, x, by simp, hx,
    container, hxseen⟩
  rcases (evolves_since hymade.run).uid _ _ hafter with ⟨o, ho, hsame⟩ | hnew
  · obtain rfl := Option.some.inj (hopened.symm.trans ho)
    rw [hstream, hsame, huid]
  · omega

/-- In every run: a list of instances shows exactly the Pods listed that have a chain of at most
eight controller references, over the objects read for the request, to a binding that is
persisted for the tenant's service; and a log line is emitted only if it is a line of the stream
of such a Pod. -/
theorem diagnostics_isolated (hr : DiagnosticsRun parties h s) (i : Nat) (scope : Scope) :
    (∀ result, parties i = .instances scope →
      Played (instances scope).run (trace i h) (.ok (.instances result)) →
      ∃ runtime items pods, Authorized i scope h runtime items pods ∧
        result = pods.map instanceOf) ∧
    ∀ query x past line, parties i = .logs scope query → x :: past <:+ h → x.actor = i →
      x.call = .emit line → ∃ runtime items pods pod stream raw,
        Authorized i scope past runtime items pods ∧ pod ∈ pods ∧ pod.1 = query.instanceName ∧
        stream.pod = pod.2.uid ∧ raw ∈ stream.lines ∧ judge query raw = .ok (.emit line) ∧
        ∃ y ∈ past, y.actor = i ∧ ∃ container,
          y.seen = ⟨.getLogs runtime.namespaceName pod.1 container, .ok stream⟩ := by
  constructor
  · intro result _ hplayed
    obtain ⟨runtime, items, pods, howned, heq⟩ := (walk_instances scope).played hplayed
    cases heq
    exact ⟨runtime, items, pods, howned.authorized hr, rfl⟩
  · intro query x past line hparty hx hxi hcall
    have hmade := hr.arises hx
    have hasks := hmade.asks
    rw [hxi, hcall, hparty] at hasks
    obtain ⟨stream, hopened, raw, hraw, hjudge⟩ := Walk.asks (walk_logs scope query) hasks line rfl
    obtain ⟨runtime, items, pods, pod, hauthorized, hpod, hname, huid, hlogs⟩ :=
      Opened.stream hmade.run hopened
    exact ⟨runtime, items, pods, pod, stream, raw, hauthorized, hpod, hname, huid, hraw,
      hjudge, hlogs⟩

end

namespace Sample

def scope : Scope := ⟨1, 7, 1⟩

/-- A service of one Deployment, which is bound. -/
def db : Db :=
  { Db.empty with
    services := Db.empty.services.insert (1, 7) (Sql.newService "service" 1)
    specs := Db.empty.specs.insert (1, 7, 1) ⟨AniInference.Sample.content, none, none⟩
    bindings := Db.empty.bindings.insert (1, 7, 1, .deployment, .runtime)
      ⟨"tenant-1", "service", "0", "0"⟩ }

def pod : Pod :=
  { tenantLabel := some 1, serviceLabel := some 7
    owners := [⟨"apps/v1", "ReplicaSet", "replicas", "1", true⟩]
    phase := "Running", containers := ["engine"], initContainers := [] }

/-- The Deployment owns a ReplicaSet, and that a Pod. -/
def site : Site :=
  { db := db
    pods := ObjectStore.put ("tenant-1", "pod") ⟨2, 2, false, pod⟩ ⟨∅, 2⟩
    ancestors :=
      ObjectStore.put ⟨"tenant-1", "apps/v1", "Deployment", "service"⟩ ⟨0, 0, false, []⟩
        (ObjectStore.put ⟨"tenant-1", "apps/v1", "ReplicaSet", "replicas"⟩
          ⟨1, 1, false, [⟨"apps/v1", "Deployment", "service", "0", true⟩]⟩ ⟨∅, 1⟩) }

def query : LogsQuery := ⟨"pod", "", none, none, 10, false⟩

def parties : Nat → Party
  | 0 => .instances scope
  | _ => .logs scope query

def goes : (e : Call) → e.Choice
  | .currentRuntime _ => (Fault.none, "tenant-1")
  | .listPods _ | .getAncestor _ | .getPod .. => Fault.none
  | .getLogs .. => (Fault.none, [⟨20, .at 5, "ready"⟩], false)
  | .cancelled => false
  | .emit _ => true
  | .change _ => ()

/-- The instances are listed, then the log is read up to its first line. -/
def diagnosed :=
  play act (fun i => (parties i).program) site
    (List.replicate 7 (0, goes) ++ List.replicate 11 (1, goes))

def listed : Option (Except Err Reply) → Bool
  | some (.ok (.instances _)) => true
  | _ => false

/-- The log reader has just emitted a line. -/
def emitted : List DiagnosticsMoment → Bool
  | ⟨1, .emit _, _, _, _⟩ :: _ => true
  | _ => false

end Sample

set_option maxRecDepth 100000 in
theorem diagnostics_isolated_diagnosed :
    ∃ h s result x past line, DiagnosticsRun Sample.parties h s ∧
      Played (instances Sample.scope).run (trace 0 h) (.ok (.instances result)) ∧
      (∃ runtime items pods, Authorized 0 Sample.scope h runtime items pods ∧
        result = pods.map instanceOf) ∧
      x :: past <:+ h ∧ x.actor = 1 ∧ x.call = .emit line ∧
      ∃ runtime items pods pod, ∃ stream : Stream,
        Authorized 1 Sample.scope past runtime items pods ∧ pod ∈ pods ∧
        stream.pod = pod.2.uid ∧ ∃ raw ∈ stream.lines,
          judge Sample.query raw = .ok (.emit line) := by
  have hsound : Sample.diagnosed.Sound act (fun i => (Sample.parties i).program)
      (fun s => s.pods.Sound) := by
    refine play_sound ?_ _
    intro k o ho
    change (ObjectStore.put ("tenant-1", "pod") ⟨2, 2, false, Sample.pod⟩ ⟨∅, 2⟩).find k =
      some o at ho
    rw [ObjectStore.find_put] at ho
    split at ho
    · cases ho
      exact ⟨by decide, by decide⟩
    · cases ho
  have hrun : Sample.listed (Sample.diagnosed.result 0) = true ∧
      Sample.emitted Sample.diagnosed.history = true := by
    decide +kernel
  obtain ⟨hresult, hhistory⟩ := hrun
  unfold Sample.listed at hresult
  unfold Sample.emitted at hhistory
  split at hresult
  case h_2 => cases hresult
  case h_1 result hplay =>
    split at hhistory
    case h_2 => cases hhistory
    case h_1 line answer before after past hlast =>
      have hplayed := hsound.played hplay
      have hsuf : (⟨1, .emit line, answer, before, after⟩ : DiagnosticsMoment) :: past <:+
          Sample.diagnosed.history := by
        rw [hlast]
      have hinstances := (diagnostics_isolated hsound.run 0 Sample.scope).1 result rfl hplayed
      obtain ⟨runtime, items, pods, pod, stream, raw, hauthorized, hpod, _, huid,
        hraw, hjudge, _⟩ :=
        (diagnostics_isolated hsound.run 1 Sample.scope).2 Sample.query _ past line rfl hsuf rfl rfl
      exact ⟨_, _, result, _, past, line, hsound.run, hplayed, hinstances, hsuf, rfl, rfl, runtime,
        items, pods, pod, stream, hauthorized, hpod, huid, raw, hraw, hjudge⟩

end AniInference.Diagnostics
