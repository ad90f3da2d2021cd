import AniInference.Topology
import AniInference.Lib.Transaction
import Mathlib.Algebra.Order.Field.Power
import Mathlib.Algebra.Order.Field.Rat
import Mathlib.Data.List.Forall2
import Mathlib.Data.String.Basic
import Mathlib.Tactic.FieldSimp
import Mathlib.Tactic.Ring

namespace AniInference.Resources
open Lib

/-- The number a quantity stands for. -/
def Quantity.value (q : Quantity) : ℚ := q.unscaled * 10 ^ q.exponent

theorem Quantity.value_at {q : Quantity} (h : low ≤ q.exponent) :
    q.value = (q.unscaled * 10 ^ (q.exponent - low).toNat : Int) * (10 : ℚ) ^ low := by
  have hexp : q.exponent = ((q.exponent - low).toNat : Int) + low := by omega
  have hpow : (10 : ℚ) ^ q.exponent = 10 ^ (q.exponent - low).toNat * 10 ^ low := by
    nth_rewrite 1 [hexp]
    rw [zpow_add₀ (by norm_num), zpow_natCast]
  rw [Quantity.value, hpow]
  push_cast
  ring

/-- `Cmp` compares numbers. -/
theorem Quantity.le_iff {p q : Quantity} : p.le q = true ↔ p.value ≤ q.value := by
  have hpos : (0 : ℚ) < 10 ^ min p.exponent q.exponent := by positivity
  rw [Quantity.value_at (min_le_left p.exponent q.exponent),
    Quantity.value_at (min_le_right p.exponent q.exponent), mul_le_mul_iff_of_pos_right hpos,
    Int.cast_le]
  simp only [Quantity.le, decide_eq_true_eq]

theorem Quantity.mul_value {q q' : Quantity} (h : q.mul n = some q') : q'.value = n * q.value := by
  unfold Quantity.mul at h
  dsimp only at h
  split at h
  · cases h
    simp only [Quantity.value]
    push_cast
    ring
  · cases h

theorem any_eq_false_iff {α : Type} {p : α → Bool} {o : Option α} :
    o.any p = false ↔ ∀ a, o = some a → p a = false := by
  cases o <;> simp

/-- What the checks of one name let pass. -/
structure Spec.Sound (s : Spec) (name : String) : Prop where
  qualified : qualifiedName name = true
  request : ∀ q, s.requests.lookup name = some q → 0 ≤ q.unscaled
  limit : ∀ l, s.limits.lookup name = some l → 0 ≤ l.unscaled
  ordered : ∀ q l, s.effectiveRequest name = some q → s.limits.lookup name = some l →
    q.le l = true
  extended : isExtended name = true → ∀ q l, s.requests.lookup name = some q →
    s.limits.lookup name = some l → l.le q = true

theorem checkName_ok {s : Spec} {name : String} : s.checkName name = .ok () ↔ s.Sound name := by
  unfold Spec.checkName
  dsimp only [bind, Except.bind, throw, throwThe, MonadExceptOf.throw, pure, Except.pure]
  simp only [ite_error_eq_ok, Bool.and_eq_true, not_and, Bool.not_eq_true, any_eq_false_iff,
    decide_eq_false_iff_not, Bool.not_eq_false', and_true, Int.not_lt]
  constructor
  · rintro ⟨hname, hrequest, hlimit, hordered, hextended⟩
    exact ⟨hname, hrequest, hlimit, fun q l hq hl => hordered q hq l hl,
      fun hext q l hq hl => hextended hext q hq l hl⟩
  · intro h
    exact ⟨h.qualified, h.request, h.limit, fun q hq l hl => h.ordered q l hq hl,
      fun hext q hq l hl => h.extended hext q l hq hl⟩

theorem forM_ok {α : Type} {f : α → Except Err Unit} {as : List α} :
    as.forM f = .ok () ↔ ∀ a ∈ as, f a = .ok () := by
  induction as with
  | nil => simp [List.forM, pure, Except.pure]
  | cons a as ih =>
    change (f a >>= fun _ => as.forM f) = .ok () ↔ _
    rw [except_bind_eq_ok, List.forall_mem_cons, ← ih]
    constructor
    · rintro ⟨_, ha, has⟩
      exact ⟨ha, has⟩
    · rintro ⟨ha, has⟩
      exact ⟨(), ha, has⟩

/-- The maps `Normalize` builds. -/
def Spec.normal (s : Spec) : Spec :=
  { requests := s.names.filterMap fun name => (s.effectiveRequest name).map fun q => (name, q)
    limits := s.names.filterMap fun name => (s.limits.lookup name).map fun q => (name, q)
    gpu := s.gpu }

theorem normalize_ok {s : Spec} :
    normalize s = .ok n ↔
    s.checkGPU = .ok () ∧ (∀ name ∈ s.names, s.Sound name) ∧ n = s.normal := by
  unfold normalize
  simp only [except_bind_eq_ok]
  constructor
  · rintro ⟨_, hgpu, _, hnames, hn⟩
    exact ⟨hgpu, fun name hname => checkName_ok.mp (forM_ok.mp hnames name hname),
      (Except.ok.inj hn).symm⟩
  · rintro ⟨hgpu, hnames, rfl⟩
    exact ⟨(), hgpu, (), forM_ok.mpr fun name hname => checkName_ok.mpr (hnames name hname), rfl⟩

section Names

variable {s : Spec} {name : String}

theorem mem_names : name ∈ s.names ↔
    name ∈ s.requests.map Prod.fst ∨ name ∈ s.limits.map Prod.fst := by
  rw [Spec.names, List.mem_insertionSort, List.mem_dedup, List.mem_append]

theorem lookup_eq_none {α : Type} {entries : List (String × α)} :
    entries.lookup name = none ↔ name ∉ entries.map Prod.fst := by
  simp only [List.lookup_eq_none_iff, bne_iff_ne, List.mem_map, not_exists, not_and]
  exact ⟨fun h p hp heq => h p hp heq.symm, fun h p hp heq => h p hp heq.symm⟩

/-- A list of names with what each has: the name is found where it is listed. -/
theorem lookup_filterMap {α : Type} (g : String → Option α) (names : List String) :
    (names.filterMap fun name => (g name).map fun q => (name, q)).lookup name =
      if name ∈ names then g name else none := by
  induction names with
  | nil => rfl
  | cons k names ih =>
    rw [List.filterMap_cons]
    by_cases hk : name = k
    · subst hk
      cases hg : g name with
      | none =>
        simp only [Option.map_none, ih, hg]
        simp
      | some q => simp
    · cases hg : g k with
      | none => simpa [hk] using ih
      | some q => simpa [List.lookup_cons, beq_eq_false_iff_ne.mpr hk, hk] using ih

theorem limits_normal : s.normal.limits.lookup name = s.limits.lookup name := by
  rw [Spec.normal, lookup_filterMap]
  split
  · rfl
  next hname =>
    rw [mem_names, not_or] at hname
    exact (lookup_eq_none.mpr hname.2).symm

theorem effectiveRequest_of_not_mem (hname : name ∉ s.names) : s.effectiveRequest name = none := by
  rw [mem_names, not_or] at hname
  simp [Spec.effectiveRequest, lookup_eq_none.mpr hname.1, lookup_eq_none.mpr hname.2]

theorem requests_normal : s.normal.requests.lookup name = s.effectiveRequest name := by
  rw [Spec.normal, lookup_filterMap]
  split
  · rfl
  next hname => exact (effectiveRequest_of_not_mem hname).symm

theorem effectiveRequest_normal : s.normal.effectiveRequest name = s.effectiveRequest name := by
  rw [Spec.effectiveRequest, requests_normal, limits_normal]
  unfold Spec.effectiveRequest
  cases s.requests.lookup name with
  | some q => rfl
  | none =>
    by_cases hext : isExtended name = true
    · simp only [hext, if_true]
      cases s.limits.lookup name <;> rfl
    · simp [hext]

theorem mem_names_normal : name ∈ s.normal.names ↔ name ∈ s.names := by
  have hlookup : ∀ (t : Spec), name ∈ t.names ↔
      t.requests.lookup name ≠ none ∨ t.limits.lookup name ≠ none := by
    intro t
    rw [mem_names, Ne, Ne, lookup_eq_none, lookup_eq_none, not_not, not_not]
  rw [hlookup, hlookup, requests_normal, limits_normal]
  unfold Spec.effectiveRequest
  cases s.requests.lookup name with
  | some q => simp
  | none =>
    by_cases hext : isExtended name = true <;> simp [hext]

theorem names_normal : s.normal.names = s.names := by
  have hsorted : ∀ (t : Spec), t.names.Pairwise (· ≤ ·) := fun t => List.pairwise_insertionSort _ _
  have hnodup : ∀ (t : Spec), t.names.Nodup := fun t =>
    (List.perm_insertionSort _ _).nodup_iff.mpr (List.nodup_dedup _)
  have hperm : s.normal.names.Perm s.names :=
    (List.perm_ext_iff_of_nodup (hnodup _) (hnodup _)).mpr fun _ => mem_names_normal
  exact hperm.eq_of_pairwise (fun _ _ _ _ => le_antisymm) (hsorted _) (hsorted _)

end Names

theorem normal_normal (s : Spec) : s.normal.normal = s.normal := by
  have hrequests : s.normal.normal.requests = s.normal.requests := by
    simp only [Spec.normal.eq_1 s.normal, names_normal, effectiveRequest_normal]
    rfl
  have hlimits : s.normal.normal.limits = s.normal.limits := by
    simp only [Spec.normal.eq_1 s.normal, names_normal, limits_normal]
    rfl
  calc s.normal.normal = ⟨s.normal.normal.requests, s.normal.normal.limits, s.gpu⟩ := rfl
    _ = s.normal := by rw [hrequests, hlimits]; rfl

theorem Quantity.le_refl (q : Quantity) : q.le q = true := Quantity.le_iff.mpr le_rfl

theorem effectiveRequest_of_request {s : Spec} (h : s.requests.lookup name = some q) :
    s.effectiveRequest name = some q := by
  simp [Spec.effectiveRequest, h]

/-- An effective request is a request, or the limit of an extended resource. -/
theorem effectiveRequest_cases {s : Spec} (h : s.effectiveRequest name = some q) :
    s.requests.lookup name = some q ∨
      (isExtended name = true ∧ s.requests.lookup name = none ∧ s.limits.lookup name = some q) := by
  unfold Spec.effectiveRequest at h
  split at h
  · next hq => exact .inl (hq.trans h)
  · next hnone =>
    split at h
    · next hext => exact .inr ⟨hext, hnone, h⟩
    · cases h

theorem Spec.Sound.normal {s : Spec} (h : s.Sound name) : s.normal.Sound name where
  qualified := h.qualified
  request q hq := by
    rw [requests_normal] at hq
    rcases effectiveRequest_cases hq with hq | ⟨_, _, hl⟩
    · exact h.request q hq
    · exact h.limit q hl
  limit l hl := h.limit l (limits_normal ▸ hl)
  ordered q l hq hl := h.ordered q l (effectiveRequest_normal ▸ hq) (limits_normal ▸ hl)
  extended hext q l hq hl := by
    rw [requests_normal] at hq
    rw [limits_normal] at hl
    rcases effectiveRequest_cases hq with hq | ⟨_, _, hl'⟩
    · exact h.extended hext q l hq hl
    · obtain rfl := Option.some.inj (hl.symm.trans hl')
      exact l.le_refl

theorem checkGPU_ok {s : Spec} : s.checkGPU = .ok () ↔ ∀ request, s.gpu = some request →
    Gpu.validateRequest (some request) = .ok () ∧ ∀ name ∈ s.names, slashed name = false := by
  have hnames : (∀ p ∈ s.requests ++ s.limits, ¬slashed p.1 = true) ↔
      ∀ name ∈ s.names, slashed name = false := by
    simp only [mem_names, List.mem_map, List.mem_append, Bool.not_eq_true]
    constructor
    · rintro h name (⟨p, hp, rfl⟩ | ⟨p, hp, rfl⟩)
      · exact h p (.inl hp)
      · exact h p (.inr hp)
    · rintro h p (hp | hp)
      · exact h p.1 (.inl ⟨p, hp, rfl⟩)
      · exact h p.1 (.inr ⟨p, hp, rfl⟩)
  unfold Spec.checkGPU
  cases s.gpu with
  | none => simp
  | some request =>
    simp only [except_bind_eq_ok, Option.some.injEq, forall_eq', ← hnames]
    cases hfind : (s.requests ++ s.limits).find? fun p => slashed p.1 with
    | none =>
      have hnone := List.find?_eq_none.mp hfind
      constructor
      · rintro ⟨_, hvalid, _⟩
        exact ⟨hvalid, hnone⟩
      · rintro ⟨hvalid, _⟩
        exact ⟨(), hvalid, rfl⟩
    | some p =>
      have hslashed := List.find?_some hfind
      constructor
      · rintro ⟨_, _, hthrow⟩
        cases hthrow
      · rintro ⟨_, hnone⟩
        exact absurd hslashed (hnone p (List.mem_of_find?_eq_some hfind))

theorem checkGPU_normal {s : Spec} (h : s.checkGPU = .ok ()) : s.normal.checkGPU = .ok () := by
  refine checkGPU_ok.mpr fun request hrequest => ?_
  obtain ⟨hvalid, hnames⟩ := checkGPU_ok.mp h request hrequest
  exact ⟨hvalid, fun name hname => hnames name (mem_names_normal.mp hname)⟩

/-- What `Normalize` makes of a specification. -/
structure NormalLaws (n : Spec) : Prop where
  again : normalize n = .ok n
  ordered : ∀ name q l, n.requests.lookup name = some q → n.limits.lookup name = some l →
    q.value ≤ l.value
  extended : ∀ name l, isExtended name = true → n.limits.lookup name = some l →
    ∃ q, n.requests.lookup name = some q ∧ q.value = l.value

theorem sound_of_lookup {s : Spec} (h : ∀ name ∈ s.names, s.Sound name)
    (hl : s.limits.lookup name = some l) : s.Sound name := by
  refine h name (mem_names.mpr (.inr ?_))
  by_contra hname
  rw [lookup_eq_none.mpr hname] at hl
  cases hl

theorem normalLaws (h : normalize s = .ok n) : NormalLaws n := by
  obtain ⟨hgpu, hnames, rfl⟩ := normalize_ok.mp h
  constructor
  case again =>
    refine normalize_ok.mpr ⟨checkGPU_normal hgpu, ?_, (normal_normal s).symm⟩
    intro name hname
    exact (hnames name (mem_names_normal.mp hname)).normal
  case ordered =>
    intro name q l hq hl
    rw [requests_normal] at hq
    rw [limits_normal] at hl
    exact Quantity.le_iff.mp ((sound_of_lookup hnames hl).ordered q l hq hl)
  case extended =>
    intro name l hext hl
    rw [requests_normal]
    rw [limits_normal] at hl
    have hsound := sound_of_lookup hnames hl
    cases hq : s.requests.lookup name with
    | none => exact ⟨l, by simp [Spec.effectiveRequest, hq, hext, hl], rfl⟩
    | some q =>
      refine ⟨q, effectiveRequest_of_request hq, ?_⟩
      exact le_antisymm
        (Quantity.le_iff.mp (hsound.ordered q l (effectiveRequest_of_request hq) hl))
        (Quantity.le_iff.mp (hsound.extended hext q l hq hl))

/-- A quantity that stands for so many times another, where there is one. -/
def Scaled (units : Int) : Option Quantity → Option Quantity → Prop
  | none, none => True
  | some q, some q' => q'.value = units * q.value
  | none, some _ | some _, none => False

theorem mapM_multiplied {units : Int} {entries scaled : List (String × Quantity)}
    (h : entries.mapM (multiplied units) = .ok scaled) (name : String) :
    Scaled units (entries.lookup name) (scaled.lookup name) := by
  induction entries generalizing scaled with
  | nil =>
    cases h
    trivial
  | cons entry entries ih =>
    rw [List.mapM_cons, except_bind_eq_ok] at h
    obtain ⟨first, hfirst, h⟩ := h
    obtain ⟨rest, hrest, h⟩ := except_bind_eq_ok.mp h
    cases h
    obtain ⟨k, q⟩ := entry
    unfold multiplied at hfirst
    dsimp only at hfirst
    split at hfirst
    · next q' hq' =>
      cases hfirst
      rw [List.lookup_cons, List.lookup_cons]
      cases hk : name == k with
      | true => exact Quantity.mul_value hq'
      | false => exact ih hrest
    · cases hfirst

/-- What `Aggregate` makes of the normalized quantities. -/
structure DemandLaws (n : Spec) (d : Demand) : Prop where
  requests : ∀ name, Scaled d.units (n.requests.lookup name) (d.resources.requests.lookup name)
  limits : ∀ name, Scaled d.units (n.limits.lookup name) (d.resources.limits.lookup name)
  ordered : ∀ name q l, d.resources.requests.lookup name = some q →
    d.resources.limits.lookup name = some l → q.value ≤ l.value
  extended : ∀ name l, isExtended name = true → d.resources.limits.lookup name = some l →
    ∃ q, d.resources.requests.lookup name = some q ∧ q.value = l.value

theorem units_pos (h : units replicas mode workers = .ok n) : 0 < n := by
  unfold units at h
  split at h
  · cases h
  next hreplicas =>
    split at h
    · split at h
      · cases h
      · cases h
        omega
    · split at h
      · split at h
        · cases h
        · cases h
          exact Int.mul_pos (by omega) (by omega)
      · cases h

theorem Scaled.of_some {units : Int} {o : Option Quantity} {q' : Quantity}
    (h : Scaled units o (some q')) : ∃ q, o = some q ∧ q'.value = units * q.value := by
  cases o with
  | none => exact h.elim
  | some q => exact ⟨q, rfl, h⟩

theorem demandLaws {s : Spec} {replicas workers : Int} {mode : String} {d : Demand}
    (h : aggregate s replicas mode workers = .ok d) :
    ∃ n, normalize s = .ok n ∧ units replicas mode workers = .ok d.units ∧ DemandLaws n d := by
  obtain ⟨count, hcount, h⟩ := except_bind_eq_ok.mp h
  obtain ⟨n, hn, h⟩ := except_bind_eq_ok.mp h
  obtain ⟨requests, hrequests, h⟩ := except_bind_eq_ok.mp h
  obtain ⟨limits, hlimits, h⟩ := except_bind_eq_ok.mp h
  cases h
  have hlaws := normalLaws hn
  have hpos : (0 : ℚ) < count := by exact_mod_cast units_pos hcount
  refine ⟨n, hn, hcount, mapM_multiplied hrequests, mapM_multiplied hlimits, ?_, ?_⟩
  · intro name q l hq hl
    have hscaledQ := mapM_multiplied hrequests name
    have hscaledL := mapM_multiplied hlimits name
    dsimp only at hq hl
    rw [hq] at hscaledQ
    rw [hl] at hscaledL
    obtain ⟨q₀, hq₀, hvalueQ⟩ := hscaledQ.of_some
    obtain ⟨l₀, hl₀, hvalueL⟩ := hscaledL.of_some
    rw [hvalueQ, hvalueL]
    exact (mul_le_mul_iff_of_pos_left hpos).mpr (hlaws.ordered name q₀ l₀ hq₀ hl₀)
  · intro name l hext hl
    have hscaledL := mapM_multiplied hlimits name
    dsimp only at hl
    rw [hl] at hscaledL
    obtain ⟨l₀, hl₀, hvalueL⟩ := hscaledL.of_some
    obtain ⟨q₀, hq₀, hvalue⟩ := hlaws.extended name l₀ hext hl₀
    have hscaledQ := mapM_multiplied hrequests name
    rw [hq₀] at hscaledQ
    cases hq : requests.lookup name with
    | none =>
      rw [hq] at hscaledQ
      exact hscaledQ.elim
    | some q =>
      rw [hq] at hscaledQ
      refine ⟨q, rfl, ?_⟩
      rw [hvalueL, ← hvalue]
      exact hscaledQ

/-- Resource demand is exact. -/
theorem resource_demand_exact :
    (∀ replicas workers : Int32, Topology.Agreement replicas workers) ∧
      (∀ s n, normalize s = .ok n → NormalLaws n) ∧
      ∀ s (replicas workers : Int32) mode d,
        aggregate s replicas.toInt mode workers.toInt = .ok d →
        ∃ n, normalize s = .ok n ∧ units replicas.toInt mode workers.toInt = .ok d.units ∧
          DemandLaws n d :=
  ⟨Topology.agreement, fun _ _ => normalLaws, fun _ _ _ _ _ => demandLaws⟩

-- Two groups of a leader and three workers.
example : (aggregate ⟨[("cpu", ⟨5, -1⟩)], [("example.com/fpga", ⟨2, 0⟩)], none⟩ 2
    "leader_worker_set" 3).toOption =
      some ⟨⟨[("cpu", ⟨40, -1⟩), ("example.com/fpga", ⟨16, 0⟩)], [("example.com/fpga", ⟨16, 0⟩)],
        none⟩, 8⟩ := by decide +kernel

end AniInference.Resources
