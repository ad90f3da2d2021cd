import AniInference.Lib.Json
import AniInference.Runner

namespace AniInference.ReleaseEvidence
open Lib Gpu
open Text (blank)
open Runner (validateReleasePods mergeReleasePods scopeError)

/-- A Pod whose identity is given in full. -/
def Complete (p : PodRef) : Prop :=
  blank p.clusterID = false ∧ blank p.namespaceName = false ∧ blank p.name = false ∧
    blank p.uid = false ∧ blank p.containerName = false

/-- A list that `validateManagedGPUReleasePods` lets pass. -/
def Valid (pods : List PodRef) : Prop := validateReleasePods pods [] = .ok ()

def DistinctUIDs (pods : List PodRef) : Prop := (pods.map (·.uid)).Nodup

theorem validateReleasePods_ok (pods : List PodRef) (seen : List String) :
    validateReleasePods pods seen = .ok () ↔
      (∀ p ∈ pods, Complete p) ∧ DistinctUIDs pods ∧ ∀ p ∈ pods, p.uid ∉ seen := by
  induction pods generalizing seen with
  | nil => simp [validateReleasePods, DistinctUIDs]
  | cons p rest ih =>
    simp only [validateReleasePods, ite_error_eq_ok, ih, List.forall_mem_cons]
    simp only [Bool.not_eq_true, DistinctUIDs, List.map_cons, List.nodup_cons, List.mem_cons,
      not_or, Complete, List.mem_map, not_exists, not_and]
    constructor
    · rintro ⟨h₁, h₂, h₃, h₄, h₅, hseen, hall, hnodup, hfresh⟩
      exact ⟨⟨⟨h₁, h₂, h₃, h₄, h₅⟩, hall⟩, ⟨fun q hq heq => (hfresh q hq).1 heq, hnodup⟩, hseen,
        fun q hq => (hfresh q hq).2⟩
    · rintro ⟨⟨⟨h₁, h₂, h₃, h₄, h₅⟩, hall⟩, ⟨hnew, hnodup⟩, hseen, hfresh⟩
      exact ⟨h₁, h₂, h₃, h₄, h₅, hseen, hall, hnodup, fun q hq => ⟨hnew q hq, hfresh q hq⟩⟩

theorem valid_iff : Valid pods ↔ (∀ p ∈ pods, Complete p) ∧ DistinctUIDs pods := by
  simp [Valid, validateReleasePods_ok]

theorem DistinctUIDs.eq_of_uid (h : DistinctUIDs pods) (hp : p ∈ pods) (hq : q ∈ pods)
    (huid : p.uid = q.uid) : p = q :=
  List.inj_on_of_nodup_map h hp hq huid

theorem DistinctUIDs.nodup (h : DistinctUIDs pods) : pods.Nodup :=
  List.Nodup.of_map _ h

/-- One UID occurs with two identities. -/
def Clash (pods : List PodRef) : Prop := ∃ p ∈ pods, ∃ q ∈ pods, p.uid = q.uid ∧ p ≠ q

theorem clash_congr (h : ∀ p, p ∈ pods ↔ p ∈ pods') : Clash pods ↔ Clash pods' := by
  simp only [Clash, h]

/-- A result is the merge of these Pods: it fails on a clash, and otherwise holds each once. -/
def Merges (pods : List PodRef) : Except Err (List PodRef) → Prop
  | .error _ => Clash pods
  | .ok merged => ¬Clash pods ∧ DistinctUIDs merged ∧ ∀ p, p ∈ merged ↔ p ∈ pods

theorem Merges.congr (hx : Merges pods x) (h : ∀ p, p ∈ pods ↔ p ∈ pods') : Merges pods' x := by
  cases x with
  | error e => exact (clash_congr h).mp hx
  | ok merged =>
    obtain ⟨hclash, hdistinct, hmem⟩ := hx
    exact ⟨fun hc => hclash ((clash_congr h).mpr hc), hdistinct, fun p => (hmem p).trans (h p)⟩

theorem merges_mergeReleasePods (hknown : DistinctUIDs known) (pods : List PodRef) :
    Merges (known ++ pods) (mergeReleasePods known pods) := by
  induction pods generalizing known with
  | nil =>
    rw [List.append_nil]
    refine ⟨?_, hknown, fun p => Iff.rfl⟩
    rintro ⟨p, hp, q, hq, huid, hne⟩
    exact hne (hknown.eq_of_uid hp hq huid)
  | cons p rest ih =>
    unfold mergeReleasePods
    cases hfind : known.find? (·.uid = p.uid) with
    | some old =>
      have hold : old ∈ known := List.mem_of_find?_eq_some hfind
      have huid : old.uid = p.uid := by simpa using List.find?_some hfind
      dsimp only
      split
      case isTrue heq =>
        refine (ih hknown).congr fun q => ?_
        simp only [List.mem_append, List.mem_cons]
        constructor
        · rintro (hq | hq)
          · exact .inl hq
          · exact .inr (.inr hq)
        · rintro (hq | rfl | hq)
          · exact .inl hq
          · exact .inl (heq ▸ hold)
          · exact .inr hq
      case isFalse hne =>
        exact ⟨old, List.mem_append_left _ hold, p, List.mem_append_right _ List.mem_cons_self,
          huid, hne⟩
    | none =>
      have hnew : p.uid ∉ known.map (·.uid) := by
        intro hmem
        obtain ⟨q, hq, huid⟩ := List.mem_map.mp hmem
        exact absurd (by simpa using huid) (List.find?_eq_none.mp hfind q hq)
      have hdistinct : DistinctUIDs (known ++ [p]) := by
        simp only [DistinctUIDs, List.map_append, List.map_cons, List.map_nil]
        exact List.nodup_append.mpr ⟨hknown, List.nodup_singleton _, by
          rintro u hu v hv rfl
          exact hnew (List.mem_singleton.mp hv ▸ hu)⟩
      have hrest := ih hdistinct
      rwa [List.append_assoc, List.singleton_append] at hrest

/-- Both fail, or both hold the same Pods. -/
def SamePods : Except Err (List PodRef) → Except Err (List PodRef) → Prop
  | .ok m, .ok m' => m.Perm m'
  | .error _, .error _ => True
  | _, _ => False

theorem Merges.same (hx : Merges pods x) (hy : Merges pods y) : SamePods x y := by
  cases x with
  | error e =>
    cases y with
    | error e' => trivial
    | ok m' => exact hy.1 hx
  | ok m =>
    cases y with
    | error e' => exact hx.1 hy
    | ok m' =>
      obtain ⟨_, hm, hmem⟩ := hx
      obtain ⟨_, hm', hmem'⟩ := hy
      exact (List.perm_ext_iff_of_nodup hm.nodup hm'.nodup).mpr fun p =>
        (hmem p).trans (hmem' p).symm

/-- Merging one list after another is merging them all. -/
theorem Merges.bind (hx : Merges pods x) (hsub : ∀ p ∈ pods, p ∈ all)
    (hf : ∀ m, DistinctUIDs m → (∀ p, p ∈ m ↔ p ∈ pods) → Merges all (f m)) :
    Merges all (x >>= f) := by
  cases x with
  | error e =>
    obtain ⟨p, hp, q, hq, hclash⟩ := hx
    exact ⟨p, hsub p hp, q, hsub q hq, hclash⟩
  | ok m => exact hf m hx.2.1 hx.2.2

/-- What holds of the merges of three lists. -/
structure MergeLaws (a b c : List PodRef) : Prop where
  keeps : ∀ m, mergeReleasePods a b = .ok m → Valid m ∧ ∀ p, p ∈ m ↔ p ∈ a ∨ p ∈ b
  idempotent : mergeReleasePods a a = .ok a
  commutative : SamePods (mergeReleasePods a b) (mergeReleasePods b a)
  associative : SamePods (mergeReleasePods a b >>= fun m => mergeReleasePods m c)
    (mergeReleasePods b c >>= fun m => mergeReleasePods a m)
  fails : (∃ e, mergeReleasePods a b = .error e) ↔
    ∃ p ∈ a, ∃ q ∈ b, p.uid = q.uid ∧ p ≠ q

theorem mergeReleasePods_self (hknown : DistinctUIDs known) (h : ∀ p ∈ pods, p ∈ known) :
    mergeReleasePods known pods = .ok known := by
  induction pods with
  | nil => rfl
  | cons p rest ih =>
    have hp := h p List.mem_cons_self
    have hfind : known.find? (·.uid = p.uid) = some p := by
      cases hfind : known.find? (·.uid = p.uid) with
      | none => exact absurd (by simp) (List.find?_eq_none.mp hfind p hp)
      | some old =>
        have huid : old.uid = p.uid := by simpa using List.find?_some hfind
        rw [hknown.eq_of_uid (List.mem_of_find?_eq_some hfind) hp huid]
    simp only [mergeReleasePods, hfind, if_true]
    exact ih fun q hq => h q (List.mem_cons_of_mem _ hq)

/-- Two lists without a clash of their own clash between them. -/
theorem clash_append (ha : DistinctUIDs a) (hb : DistinctUIDs b) :
    Clash (a ++ b) ↔ ∃ p ∈ a, ∃ q ∈ b, p.uid = q.uid ∧ p ≠ q := by
  constructor
  · rintro ⟨p, hp, q, hq, huid, hne⟩
    rcases List.mem_append.mp hp with hpa | hpb
    · rcases List.mem_append.mp hq with hqa | hqb
      · exact absurd (ha.eq_of_uid hpa hqa huid) hne
      · exact ⟨p, hpa, q, hqb, huid, hne⟩
    · rcases List.mem_append.mp hq with hqa | hqb
      · exact ⟨q, hqa, p, hpb, huid.symm, hne.symm⟩
      · exact absurd (hb.eq_of_uid hpb hqb huid) hne
  · rintro ⟨p, hp, q, hq, hclash⟩
    exact ⟨p, List.mem_append_left _ hp, q, List.mem_append_right _ hq, hclash⟩

theorem mergeLaws (ha : Valid a) (hb : Valid b) (hc : Valid c) : MergeLaws a b c := by
  obtain ⟨hcompleteA, hdistinctA⟩ := valid_iff.mp ha
  obtain ⟨hcompleteB, hdistinctB⟩ := valid_iff.mp hb
  obtain ⟨_, hdistinctC⟩ := valid_iff.mp hc
  have hab := merges_mergeReleasePods hdistinctA b
  have hba := merges_mergeReleasePods hdistinctB a
  have hbc := merges_mergeReleasePods hdistinctB c
  constructor
  case keeps =>
    intro m hm
    rw [hm] at hab
    obtain ⟨_, hdistinct, hmem⟩ := hab
    refine ⟨valid_iff.mpr ⟨fun p hp => ?_, hdistinct⟩, fun p => (hmem p).trans List.mem_append⟩
    rcases List.mem_append.mp ((hmem p).mp hp) with hp | hp
    · exact hcompleteA p hp
    · exact hcompleteB p hp
  case idempotent => exact mergeReleasePods_self hdistinctA fun p hp => hp
  case commutative =>
    refine hab.same (hba.congr fun p => ?_)
    simp only [List.mem_append, or_comm]
  case associative =>
    have hleft : Merges (a ++ b ++ c) (mergeReleasePods a b >>= fun m => mergeReleasePods m c) := by
      refine hab.bind (fun p hp => List.mem_append_left _ hp) fun m hm hmem => ?_
      refine (merges_mergeReleasePods hm c).congr fun p => ?_
      simp only [List.mem_append, hmem]
    have hright : Merges (a ++ b ++ c) (mergeReleasePods b c >>= fun m =>
      mergeReleasePods a m) := by
      refine hbc.bind (fun p hp => ?_) fun m hm hmem => ?_
      · rw [List.append_assoc]
        exact List.mem_append_right _ hp
      · refine (merges_mergeReleasePods hdistinctA m).congr fun p => ?_
        simp only [List.mem_append, hmem, or_assoc]
    exact hleft.same hright
  case fails =>
    rw [← clash_append hdistinctA hdistinctB]
    cases hx : mergeReleasePods a b with
    | error e =>
      rw [hx] at hab
      exact ⟨fun _ => hab, fun _ => ⟨e, rfl⟩⟩
    | ok m =>
      rw [hx] at hab
      constructor
      · rintro ⟨e, he⟩
        cases he
      · exact fun hclash => absurd hclash hab.1

/-- `ReleaseProofInput`. -/
structure ReleaseProofInput where
  tenantID : String
  resourceID : String
  createOperationID : String
  deleteOperationID : String
  sealedAt : String
  pods : List PodRef
deriving DecidableEq

/-- `ReleaseProof`, over the results of the two hashes. -/
structure ReleaseProof (E D : Type) where
  evidenceID : E
  evidenceDigest : D

/-- `ValidateReleaseProofInput`. Which texts `time.Parse` reads as RFC 3339 is given. -/
def validateReleaseProofInput (parses : String → Bool) (input : ReleaseProofInput) :
    Except Err Unit :=
  if blank input.tenantID then .error (scopeError "tenant_id")
  else if blank input.resourceID then .error (scopeError "resource_id")
  else if blank input.createOperationID then .error (scopeError "create_operation_id")
  else if blank input.deleteOperationID then .error (scopeError "delete_operation_id")
  else if blank input.sealedAt then .error (scopeError "sealed_at")
  else if !parses input.sealedAt then .error (.text "sealed_at must be RFC3339Nano")
  else validateReleasePods input.pods []

def podJSON (p : PodRef) : Json :=
  .obj [("cluster_id", .str p.clusterID), ("namespace", .str p.namespaceName),
    ("name", .str p.name), ("uid", .str p.uid), ("container_name", .str p.containerName)]

/-- What `json.Marshal` makes of the input. A copy of no Pods is a nil slice. -/
def inputJSON (input : ReleaseProofInput) : Json :=
  .obj [("TenantID", .str input.tenantID), ("ResourceID", .str input.resourceID),
    ("CreateOperationID", .str input.createOperationID),
    ("DeleteOperationID", .str input.deleteOperationID), ("SealedAt", .str input.sealedAt),
    ("Pods", if input.pods = [] then .null else .arr (input.pods.map podJSON))]

def sortByUID (pods : List PodRef) : List PodRef := pods.insertionSort fun p q => p.uid ≤ q.uid

/-- `NewReleaseProof`. -/
def newReleaseProof {E D : Type} (sha1 : String → E) (sha256 : List Char → D)
    (parses : String → Bool) (input : ReleaseProofInput) : Except Err (ReleaseProof E D) := do
  validateReleaseProofInput parses input
  return {
    evidenceID := sha1 ("ani-inference/managed-gpu-release-proof/" ++ input.deleteOperationID)
    evidenceDigest := sha256 ((inputJSON { input with pods := sortByUID input.pods }).render true) }

/-- The same release, seal and set of Pods. -/
structure SameEvidence (x y : ReleaseProofInput) : Prop where
  tenant : x.tenantID = y.tenantID
  resource : x.resourceID = y.resourceID
  create : x.createOperationID = y.createOperationID
  delete : x.deleteOperationID = y.deleteOperationID
  sealing : x.sealedAt = y.sealedAt
  pods : ∀ p, p ∈ x.pods ↔ p ∈ y.pods

theorem sortByUID_eq_iff (ha : DistinctUIDs a) (hb : DistinctUIDs b) :
    sortByUID a = sortByUID b ↔ ∀ p, p ∈ a ↔ p ∈ b := by
  have hpermA : (sortByUID a).Perm a := List.perm_insertionSort _ a
  have hpermB : (sortByUID b).Perm b := List.perm_insertionSort _ b
  constructor
  · intro h p
    rw [← hpermA.mem_iff, h, hpermB.mem_iff]
  · intro h
    have hperm : a.Perm b := (List.perm_ext_iff_of_nodup ha.nodup hb.nodup).mpr h
    have hpermAB := hpermA.trans (hperm.trans hpermB.symm)
    refine List.Perm.eq_of_pairwise ?_ (List.pairwise_insertionSort _ a)
      (List.pairwise_insertionSort _ b) hpermAB
    intro p q hp hq hle hge
    exact ha.eq_of_uid (hpermA.mem_iff.mp hp) (hperm.mem_iff.mpr (hpermB.mem_iff.mp hq))
      (le_antisymm hle hge)

theorem plain_podJSON (p : PodRef) : (podJSON p).Plain := by
  refine .obj ?_
  simp only [List.forall_mem_cons]
  exact ⟨.str _, .str _, .str _, .str _, .str _, nofun⟩

theorem plain_inputJSON (input : ReleaseProofInput) : (inputJSON input).Plain := by
  have hpods : Json.Plain (if input.pods = [] then .null else .arr (input.pods.map podJSON)) := by
    split
    · exact .null
    · refine .arr fun v hv => ?_
      obtain ⟨p, _, rfl⟩ := List.mem_map.mp hv
      exact plain_podJSON p
  refine .obj ?_
  simp only [List.forall_mem_cons]
  exact ⟨.str _, .str _, .str _, .str _, .str _, hpods, nofun⟩

theorem podJSON_injective : Function.Injective podJSON := by
  intro p q h
  cases p
  cases q
  simpa [podJSON] using h

theorem inputJSON_injective : Function.Injective inputJSON := by
  intro x y h
  cases x with
  | mk tenant resource create delete sealing pods =>
  cases y with
  | mk tenant' resource' create' delete' sealing' pods' =>
  simp only [inputJSON, Json.obj.injEq, List.cons.injEq, Prod.mk.injEq, Json.str.injEq, true_and,
    and_true] at h
  obtain ⟨rfl, rfl, rfl, rfl, rfl, hpods⟩ := h
  -- No Pods are written as null, which is not a list.
  have : pods = pods' := by
    split at hpods <;> split at hpods
    case isTrue.isTrue h h' => rw [h, h']
    case isTrue.isFalse => cases hpods
    case isFalse.isTrue => cases hpods
    case isFalse.isFalse => exact podJSON_injective.list_map (Json.arr.inj hpods)
  rw [this]

/-- What the digest is made of is told apart by exactly what the evidence is about. -/
theorem sorted_input_eq_iff (hx : DistinctUIDs x.pods) (hy : DistinctUIDs y.pods) :
    { x with pods := sortByUID x.pods } = { y with pods := sortByUID y.pods } ↔
      SameEvidence x y := by
  rw [ReleaseProofInput.mk.injEq, sortByUID_eq_iff hx hy]
  constructor
  · rintro ⟨htenant, hresource, hcreate, hdelete, hsealed, hpods⟩
    exact ⟨htenant, hresource, hcreate, hdelete, hsealed, hpods⟩
  · intro h
    exact ⟨h.tenant, h.resource, h.create, h.delete, h.sealing, h.pods⟩

section Proof

variable {E D : Type} {sha1 : String → E} {sha256 : List Char → D} {parses : String → Bool}

theorem newReleaseProof_ok (h : newReleaseProof sha1 sha256 parses input = .ok proof) :
    Valid input.pods ∧
      proof.evidenceID = sha1 ("ani-inference/managed-gpu-release-proof/" ++
        input.deleteOperationID) ∧
      proof.evidenceDigest =
        sha256 ((inputJSON { input with pods := sortByUID input.pods }).render true) := by
  unfold newReleaseProof at h
  cases hvalid : validateReleaseProofInput parses input with
  | error e =>
    rw [hvalid] at h
    cases h
  | ok u =>
    rw [hvalid] at h
    cases h
    simp only [validateReleaseProofInput, ite_error_eq_ok] at hvalid
    exact ⟨hvalid.2.2.2.2.2.2, rfl, rfl⟩

theorem evidenceDigest_eq_iff (hsha256 : Function.Injective sha256)
    (hp : newReleaseProof sha1 sha256 parses x = .ok p)
    (hq : newReleaseProof sha1 sha256 parses y = .ok q) :
    p.evidenceDigest = q.evidenceDigest ↔ SameEvidence x y := by
  obtain ⟨hx, _, hdigestX⟩ := newReleaseProof_ok hp
  obtain ⟨hy, _, hdigestY⟩ := newReleaseProof_ok hq
  rw [hdigestX, hdigestY, hsha256.eq_iff,
    ← sorted_input_eq_iff (valid_iff.mp hx).2 (valid_iff.mp hy).2]
  constructor
  · intro h
    exact inputJSON_injective (Json.render_injective (plain_inputJSON _) (plain_inputJSON _) h)
  · intro h
    rw [h]

end Proof

/-- Release evidence is a function of the release, its seal and the set of Pods. -/
theorem release_evidence_of_pod_set {E D : Type} (sha1 : String → E) (sha256 : List Char → D)
    (hsha256 : Function.Injective sha256) (parses : String → Bool) :
    (∀ a b c, Valid a → Valid b → Valid c → MergeLaws a b c) ∧
      ∀ x y p q, newReleaseProof sha1 sha256 parses x = .ok p →
        newReleaseProof sha1 sha256 parses y = .ok q →
        (p.evidenceDigest = q.evidenceDigest ↔ SameEvidence x y) ∧ (SameEvidence x y → p = q) := by
  refine ⟨fun a b c ha hb hc => mergeLaws ha hb hc, fun x y p q hp hq => ?_⟩
  have hdigest := evidenceDigest_eq_iff hsha256 hp hq
  refine ⟨hdigest, fun hsame => ?_⟩
  obtain ⟨_, hidX, _⟩ := newReleaseProof_ok hp
  obtain ⟨_, hidY, _⟩ := newReleaseProof_ok hq
  cases p
  cases q
  simp only at hidX hidY
  rw [ReleaseProof.mk.injEq]
  exact ⟨by rw [hidX, hidY, hsame.delete], hdigest.mpr hsame⟩

namespace Sample

def pod (uid : String) : PodRef :=
  { clusterID := "c", namespaceName := "n", name := "p" ++ uid, uid := uid,
    containerName := "main" }

def input (pods : List PodRef) : ReleaseProofInput :=
  ⟨"t", "r", "create", "delete", "2026-01-02T03:04:05Z", pods⟩

end Sample

open Sample in
/-- Two orders of the same Pods give one proof. -/
theorem release_evidence_of_pod_set_reordered :
    MergeLaws [pod "a"] [pod "b"] [pod "b", pod "c"] ∧
      ∃ p, newReleaseProof id id (fun _ => true) (input [pod "b", pod "a"]) = .ok p ∧
        newReleaseProof id id (fun _ => true) (input [pod "a", pod "b"]) = .ok p := by
  obtain ⟨hlaws, hproofs⟩ := release_evidence_of_pod_set (id : String → String)
    (id : List Char → List Char) Function.injective_id fun _ => true
  refine ⟨hlaws _ _ _ rfl rfl rfl, ?_⟩
  have hsame : SameEvidence (input [pod "b", pod "a"]) (input [pod "a", pod "b"]) := by
    refine ⟨rfl, rfl, rfl, rfl, rfl, fun p => ?_⟩
    exact (List.Perm.swap (pod "a") (pod "b") []).mem_iff
  refine ⟨_, rfl, ?_⟩
  rw [(hproofs _ _ _ _ rfl rfl).2 hsame]
  rfl

end AniInference.ReleaseEvidence
