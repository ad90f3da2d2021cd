import AniInference.Effects.Ledger
import AniInference.Lib.Walk
import AniInference.MaskedUpdate
import AniInference.Schedule

namespace AniInference

namespace Commands
open Lib Txn

theorem lookup_filter_key (keep : String → Bool) (key : String) (l : List (String × String)) :
    (l.filter fun p => keep p.1).lookup key = if keep key then l.lookup key else none := by
  induction l with
  | nil => simp
  | cons p rest ih =>
    obtain ⟨k, v⟩ := p
    rw [List.filter_cons]
    by_cases hk : key = k
    · subst hk
      cases hkeep : keep key with
      | true => simp
      | false =>
        rw [hkeep] at ih
        exact ih
    · have hne : (key == k) = false := by simp [hk]
      cases keep k with
      | true => simp [List.lookup_cons, hne, ih]
      | false => simpa [List.lookup_cons, hne] using ih

/-- The key of a merged object is the overlay's where it has it. -/
theorem lookup_mergeJSON (old new : List (String × String)) (key : String) :
    (mergeJSON old new).lookup key = (new.lookup key).or (old.lookup key) := by
  have hkeep : (new.all (·.1 ≠ key)) = (new.lookup key).isNone := by
    cases h : new.lookup key with
    | none =>
      have habsent := List.lookup_eq_none_iff.mp h
      simp only [List.all_eq_true, Option.isNone_none, decide_eq_true_eq]
      intro p hp heq
      simpa [heq] using habsent p hp
    | some value =>
      obtain ⟨p, hp, heq⟩ := List.lookup_isSome_iff.mp (by rw [h]; rfl)
      simp only [Option.isNone_some, List.all_eq_false, decide_eq_true_eq, not_not]
      exact ⟨p, hp, (eq_of_beq heq).symm⟩
  unfold mergeJSON
  rw [List.lookup_append, lookup_filter_key fun k => new.all (·.1 ≠ k), hkeep]
  cases new.lookup key <;> simp

variable {now : Time} {fresh : Fresh} {db db' : Db} {response : Response}

theorem specs_acceptUpdate (h : Runs (acceptUpdate now operation event input s m) db response db') :
    ∃ old, db.specs.lookup (input.tenantID, input.serviceID, s.desiredGeneration) = some old ∧
      db.specs.lookup (input.tenantID, input.serviceID, s.desiredGeneration + 1) = none ∧
      db'.specs = db.specs.insert (input.tenantID, input.serviceID, s.desiredGeneration + 1)
        (updatedSpec input old) := by
  simp only [acceptUpdate, runs_bind, runs_exactlyOne] at h
  obtain ⟨_, db₁, h₁, _, _, ⟨rfl, rfl⟩, _, db₂, h₂, _, _, ⟨rfl, rfl⟩, _, db₃, h₃, _, db₄, h₄, _,
    db₅, h₅, _, db₆, h₆, _, db₇, h₇, _, _, h₈, _, db₈, ⟨rfl, rfl⟩, h₉⟩ := h
  obtain ⟨old, hold, h₁⟩ := Sql.runs_cloneSpec_one.mp h₁
  obtain ⟨_, hnone, rfl⟩ := Sql.runs_insertSpec.mp h₁
  have haside : Aside (· = (input.tenantID, input.serviceID)) db₃ db₈ :=
    (Aside.onlyIf h₄ .insertQuotaReservation).trans <| (Aside.upsertResourceWork h₅).trans <|
      (Aside.onlyIf h₆ .putIdempotency).trans <| (Aside.appendAuditEvent h₇).trans
        (.saveOperationAcceptanceResponse h₈)
  obtain ⟨_, rfl⟩ := runs_pure.mp h₉
  refine ⟨old, hold, hnone, ?_⟩
  rw [haside.specs, (unbooked_insertOperation h₃).2.1, (unbooked_transitionService h₂).2.1]

/-- A masked update that commits either replays an earlier one or adds the row it makes of the
current one. -/
theorem specs_update (hmask : input.updateMask ≠ [])
    (h : Runs (update now fresh input) db response db') :
    db' = db ∨ ∃ old, validMask input = true ∧
      db.specs.lookup (input.tenantID, input.serviceID, input.expectedGeneration) = some old ∧
      db.specs.lookup (input.tenantID, input.serviceID, input.expectedGeneration + 1) = none ∧
      db'.specs = db.specs.insert (input.tenantID, input.serviceID, input.expectedGeneration + 1)
        (updatedSpec (masked input old) old) := by
  simp only [update, runs_bind, runs_reject] at h
  obtain ⟨_, _, ⟨_, rfl⟩, o, db₁, h₁, h⟩ := h
  obtain rfl := runs_replayedUpdate h₁
  cases o with
  | some r => exact .inl (runs_pure.mp h).2
  | none =>
    simp only [runs_bind] at h
    obtain ⟨r, db₂, h₂, effective, db₃, h₃, h₄⟩ := h
    obtain ⟨rfl, _, _, _, hgen, _⟩ := runs_admitUpdate h₂
    simp [effectiveUpdate, runs_bind, hmask] at h₃
    obtain ⟨hvalid, spec, ⟨hspec, rfl⟩, rfl⟩ := h₃
    obtain ⟨old, hold, hnone, hspecs⟩ := specs_acceptUpdate h₄
    simp only [masked] at hold
    rw [hspec] at hold
    obtain rfl := Option.some.inj hold
    rw [hgen] at hspec hnone hspecs
    exact .inr ⟨spec, hvalid, hspec, hnone, hspecs⟩

end Commands

namespace MaskedUpdate
open Lib Txn Commands Model
open Prog (Asks)

/-- A row of `inference_specs`: a specification that passes the checks of its table. The endpoint
columns are all set or all null. -/
structure SpecRow where
  spec : Spec
  replicas : 0 < spec.content.replicas
  runtimeMode : spec.content.runtimeMode ∈ ["deployment", "leader_worker_set"]
  workerReplicas : 0 < spec.content.workerReplicas
  runtimeProvider : spec.content.runtimeProvider ∈ ["deployment", "kserve"]

/-- The columns of a specification that a path of the mask covers. -/
def modelColumns (c : SpecContent) : Option Uuid × String × String × String :=
  (c.modelVersionID, c.artifactProvider, c.artifactRef, c.artifactSHA256)

def engineColumns (c : SpecContent) : String × String × String :=
  (c.imageRef, c.engineRuntime, c.commandArgv)

/-- The columns no path of the mask covers. An empty digest is written as none. -/
def frozenColumns (s : Spec) : Spec :=
  { s with
    content := { s.content with
      modelVersionID := none, artifactProvider := "", artifactRef := "", artifactSHA256 := ""
      imageRef := "", servedModelName := "", engineRuntime := "", commandArgv := ""
      specJSON := [] }
    gpuPlanDigest := s.gpuPlanDigest.bind Sql.pgText }

/-- The keys of `spec_json` that a mask covers. -/
def coveredKeys (mask : List String) : List String :=
  (if "model_version_id" ∈ mask then ["model_capabilities"] else []) ++
  (if "engine" ∈ mask then ["image_selection"] else [])

/-- The Model service was asked for the version during the calls `es`, and it was ready. -/
def Answered (req : Request) (es : List Seen) (version : Uuid) (v : Snapshot) : Prop :=
  ∃ answer, ⟨.getModelVersion req.tenantID version, answer⟩ ∈ es ∧
    readyVersion version answer = .ok v

/-- The Resource service was asked for the selection of the engine during the calls `es`, and it
resolved it to this image, which is stored as `text`. -/
def Catalogued (cfg : Config) (req : Request) (es : List Seen) (id scope : String) (image : Image)
    (text : String) : Prop :=
  ∃ c p ns wire resolved, cfg.client = some c ∧ c.platform = some p ∧
    wireScope scope = some wire ∧
    ⟨.resolveImageForWorkload req.tenantID id wire, .ok resolved⟩ ∈ es ∧
    checkResolved c p req.tenantID id scope ns wire resolved = .ok image ∧
    text = c.encode image.selection

/-- The reference and the selection of a row: a raw image has no selection, and a selection is
stored with the reference it was resolved to. -/
inductive Selected (cfg : Config) (req : Request) (es : List Seen) (e : Engine) :
    String → Option String → Prop
  | raw (h : e.imageID = "") : Selected cfg req es e e.image (some "null")
  | catalog {image : Image} {text : String} (hid : image.selection.imageID = e.imageID)
      (hscope : image.selection.scope = e.imageScope)
      (hregistry : (image.selection.registryAuthority ++ "/").toList <+: image.ref.toList)
      (h : Catalogued cfg req es e.imageID e.imageScope image text) :
      Selected cfg req es e image.ref (some text)

/-- The row `new` is the row `old` with what the mask covers replaced by what was asked for, or by
what the catalogs said of it during the calls `es`. -/
structure Framed (cfg : Config) (req : Request) (es : List Seen) (old new : Spec) : Prop where
  frozen : frozenColumns new = frozenColumns old
  keys : ∀ key ∉ coveredKeys req.mask,
    new.content.specJSON.lookup key = old.content.specJSON.lookup key
  modelKept : "model_version_id" ∉ req.mask → modelColumns new.content = modelColumns old.content
  servedKept : "served_model_name" ∉ req.mask →
    new.content.servedModelName = old.content.servedModelName
  engineKept : "engine" ∉ req.mask → engineColumns new.content = engineColumns old.content
  model : "model_version_id" ∈ req.mask → ∃ version v,
    req.modelVersionID = some version ∧ Answered req es version v ∧
    modelColumns new.content = (some version, "model", v.artifactRef, v.artifactSHA256) ∧
    new.content.specJSON.lookup "model_capabilities" = some (capabilitiesJSON (some v.capabilities))
  served : "served_model_name" ∈ req.mask → new.content.servedModelName = req.servedModelName
  engine : "engine" ∈ req.mask → ∃ e,
    req.engine = some e ∧ new.content.engineRuntime = e.kind ∧
    new.content.commandArgv = e.command ∧
    Selected cfg req es e new.content.imageRef (new.content.specJSON.lookup "image_selection")

/-- What the image layer hands on after the calls `es`. -/
inductive Imaged (cfg : Config) (req : Request) (es : List Seen) : Input → Prop
  | kept (h : "engine" ∈ req.mask → (inputOf req).imageID = "") : Imaged cfg req es (inputOf req)
  | resolved {image : Image} {text : String} (hengine : "engine" ∈ req.mask)
      (h : Catalogued cfg req es (inputOf req).imageID (inputOf req).imageScope image text) :
      Imaged cfg req es ((inputOf req).withImage image.ref text)

/-- What the model layer hands on to the store after the calls `es`. -/
inductive Carried (cfg : Config) (req : Request) (es : List Seen) : Input → Prop
  | unchanged {input : Input} (h : Imaged cfg req es input)
      (hversion : input.update.content.modelVersionID = none) : Carried cfg req es input
  | versioned {input : Input} {version : Uuid} {v : Snapshot} (h : Imaged cfg req es input)
      (hversion : input.update.content.modelVersionID = some version)
      (hanswered : Answered req es version v) : Carried cfg req es (input.withVersion v)

/-- What the layers say of each call they make. -/
def Asked (cfg : Config) (req : Request) (es : List Seen) : Call → Prop
  | .update u => ∃ input, Carried cfg req es input ∧ u = input.update
  | _ => True

section
variable {cfg : Config} {req : Request} {es es' : List Seen} {input : Input}

theorem Catalogued.mono {id scope : String} {image : Image} {text : String}
    (h : Catalogued cfg req es id scope image text) (hes : es <+: es') :
    Catalogued cfg req es' id scope image text := by
  obtain ⟨c, p, ns, wire, resolved, hc, hp, hw, hmem, hrest⟩ := h
  exact ⟨c, p, ns, wire, resolved, hc, hp, hw, hes.subset hmem, hrest⟩

theorem Imaged.mono (h : Imaged cfg req es input) (hes : es <+: es') :
    Imaged cfg req es' input := by
  cases h with
  | kept h => exact .kept h
  | resolved hengine h => exact .resolved hengine (h.mono hes)

theorem Imaged.tenant (h : Imaged cfg req es input) : input.update.tenantID = req.tenantID := by
  cases h <;> rfl

/-- Nothing is said of how the flow ends. -/
abbrev Walks (cfg : Config) (req : Request) (es : List Seen) (x : Flow Response) : Prop :=
  WalkOk (Asked cfg req) (fun _ _ => True) es x

theorem walk_prepareUpdate (input : Input) (f : Option Response → Flow Response)
    (hf : ∀ es' out, es <+: es' → Walks cfg req es' (f out)) :
    Walks cfg req es (prepareUpdate input >>= f) := by
  have hprepared : WalkOk (Asked cfg req) (fun _ _ => True) es (prepareUpdate input) := by
    refine WalkOk.call trivial fun answer => ?_
    cases answer with
    | ok out => exact WalkOk.pure trivial
    | error e => exact WalkOk.throw _
  exact hprepared.grows.bind fun es' out hout => hf es' out hout.2

theorem walk_storeUpdate (h : Carried cfg req es input) :
    Walks cfg req es (storeUpdate input) := by
  refine WalkOk.call ⟨input, h, rfl⟩ fun answer => ?_
  cases answer with
  | ok out => exact WalkOk.pure trivial
  | error e => exact WalkOk.throw _

theorem walk_modelUpdate (h : Imaged cfg req es input) :
    Walks cfg req es (modelUpdate input) := by
  refine walk_prepareUpdate input _ fun es' out hes => ?_
  cases out with
  | some out => exact WalkOk.pure trivial
  | none =>
    have h := h.mono hes
    dsimp only
    split
    case h_1 hversion =>
      split
      · exact WalkOk.throw _
      · exact walk_storeUpdate (.unchanged h hversion)
    case h_2 version hversion =>
      refine WalkOk.call trivial fun answer => ?_
      split
      · exact WalkOk.throw _
      case h_2 v hv =>
        split
        · refine walk_storeUpdate
            (.versioned (h.mono (List.prefix_append _ _)) hversion ⟨answer, ?_, hv⟩)
          rw [← h.tenant]
          exact List.mem_append_right _ List.mem_cons_self
        · exact WalkOk.throw _

theorem walk_namespaceFor (input : Input) :
    WalkOk (Asked cfg req) (fun _ _ => True) es (namespaceFor cfg input) := by
  unfold namespaceFor
  split
  · refine WalkOk.call trivial fun answer => ?_
    cases answer with
    | ok ns => exact WalkOk.pure trivial
    | error e => exact WalkOk.throw _
  · exact WalkOk.pure trivial

/-- A resolution, if it is one, comes from an answer among the calls. -/
def Resolution (cfg : Config) (req : Request) (id scope : String) (es : List Seen)
    (r : Except Failure (Image × String)) : Prop :=
  ∀ image text, r = .ok (image, text) → Catalogued cfg req es id scope image text

theorem walk_unresolved (id scope : String) (e : Failure) :
    WalkOk (Asked cfg req) (Resolution cfg req id scope) es
      (pure (.error e) : Flow (Except Failure (Image × String))) :=
  WalkOk.pure nofun

theorem walk_resolveInNamespace (id scope ns : String) :
    WalkOk (Asked cfg req) (Resolution cfg req id scope) es
      (resolveInNamespace cfg.client req.tenantID id scope ns) := by
  unfold resolveInNamespace
  split
  · exact walk_unresolved _ _ _
  case h_2 c hc =>
    split
    · exact walk_unresolved _ _ _
    case h_2 p hp =>
      split
      · exact walk_unresolved _ _ _
      · split
        · exact walk_unresolved _ _ _
        case h_2 wire hw =>
          refine WalkOk.call trivial fun answer => ?_
          cases answer with
          | error r => exact walk_unresolved _ _ _
          | ok resolved =>
            dsimp only
            split
            · exact walk_unresolved _ _ _
            case h_2 image hchecked =>
              refine WalkOk.pure fun image' text heq => ?_
              cases heq
              exact ⟨c, p, ns, wire, resolved, hc, hp, hw,
                List.mem_append_right _ List.mem_cons_self, hchecked, rfl⟩

theorem walk_resolveImage (hengine : "engine" ∈ req.mask) :
    Walks cfg req es (resolveImage cfg (inputOf req)) := by
  refine (walk_namespaceFor (inputOf req)).bind fun es₁ ns _ => ?_
  refine (walk_resolveInNamespace (inputOf req).imageID (inputOf req).imageScope ns).bind
    fun es₂ resolution hresolved => ?_
  cases resolution with
  | ok found =>
    obtain ⟨image, text⟩ := found
    exact walk_modelUpdate (.resolved hengine (hresolved image text rfl))
  | error e =>
    refine walk_prepareUpdate (inputOf req) _ fun es₃ out _ => ?_
    cases out with
    | some out => exact WalkOk.pure trivial
    | none => exact WalkOk.throw _

theorem walk_imageUpdate (hmask : req.mask ≠ []) :
    Walks cfg req es (imageUpdate cfg (inputOf req)) := by
  refine walk_prepareUpdate (inputOf req) _ fun es₁ out _ => ?_
  cases out with
  | some out => exact WalkOk.pure trivial
  | none =>
    dsimp only
    split
    case isTrue hchanged =>
      have hengine : "engine" ∈ req.mask := hchanged.resolve_left hmask
      split
      case isTrue hid =>
        split
        · exact WalkOk.throw _
        · exact walk_modelUpdate (.kept fun _ => hid)
      case isFalse => exact walk_resolveImage hengine
    case isFalse hkept =>
      exact walk_modelUpdate (.kept fun hengine => absurd (.inr hengine) hkept)

/-- The mask of a patch that passes is not empty. -/
theorem mask_of_valid (h : validateUpdatePatch req = .ok u) : req.mask ≠ [] := by
  intro hnil
  simp only [validateUpdatePatch, hnil, if_true] at h
  split at h <;> try cases h
  split at h <;> try cases h
  split at h <;> cases h

theorem mask_of_asks (h : Asks (updateInferenceService cfg req).run es e) : req.mask ≠ [] := by
  unfold updateInferenceService at h
  split at h
  · cases h
  case h_2 hvalid => exact mask_of_valid hvalid

theorem walk_updateInferenceService (cfg : Config) (req : Request) :
    Walks cfg req [] (updateInferenceService cfg req) := by
  unfold updateInferenceService
  split
  · exact WalkOk.throw _
  case h_2 hvalid => exact walk_imageUpdate (mask_of_valid hvalid)

end

section
variable {input : UpdateInput} {old : Spec}

/-- No path of the mask covers these columns, whatever the input holds. -/
theorem frozen_updated (row : SpecRow) (input : UpdateInput) :
    frozenColumns (updatedSpec (masked input row.spec) row.spec) = frozenColumns row.spec := by
  have hmode : row.spec.content.runtimeMode ≠ "" := by
    intro h
    have hmode := row.runtimeMode
    rw [h] at hmode
    exact absurd hmode (by decide)
  have hworkers : ¬row.spec.content.workerReplicas < 1 := not_lt.mpr row.workerReplicas
  have hdigest (digest : Option String) :
      (Sql.pgText (digest.getD "")).bind Sql.pgText = digest.bind Sql.pgText := by
    cases digest with
    | none => rfl
    | some text => by_cases h : text = "" <;> simp [Sql.pgText, h]
  simp [frozenColumns, updatedSpec, masked, orKeep, Store.orDefault, hmode, hworkers, hdigest]

theorem modelColumns_kept (h : "model_version_id" ∉ input.updateMask) :
    modelColumns (updatedSpec (masked input old) old).content = modelColumns old.content := by
  simp [modelColumns, updatedSpec, masked, orKeep, h]

theorem servedModelName_kept (h : "served_model_name" ∉ input.updateMask) :
    (updatedSpec (masked input old) old).content.servedModelName =
      old.content.servedModelName := by
  simp [updatedSpec, masked, orKeep, h]

theorem engineColumns_kept (h : "engine" ∉ input.updateMask) :
    engineColumns (updatedSpec (masked input old) old).content = engineColumns old.content := by
  simp [engineColumns, updatedSpec, masked, orKeep, h]

/-- What a mask that passes says of the values that come with it. -/
theorem values_of_validMask (h : validMask input = true) :
    ("model_version_id" ∈ input.updateMask → input.content.modelVersionID.isSome) ∧
    ("served_model_name" ∈ input.updateMask → input.content.servedModelName ≠ "") ∧
    ("engine" ∈ input.updateMask → input.content.commandArgv ≠ "" ∧ input.content.imageRef ≠ "" ∧
      input.content.engineRuntime ≠ "") := by
  simp [validMask] at h
  obtain ⟨⟨⟨_, hmodel⟩, hserved⟩, hengine⟩ := h
  refine ⟨fun hm => hmodel.resolve_left (not_not.mpr hm), fun hm =>
    hserved.resolve_left (not_not.mpr hm), fun hm => ?_⟩
  obtain ⟨⟨h₁, h₂⟩, h₃⟩ := hengine.resolve_left (not_not.mpr hm)
  exact ⟨h₁, h₂, h₃⟩

theorem overlay_keys (hselection : input.imageSelection.isSome → "engine" ∈ input.updateMask)
    (hkey : key ∉ coveredKeys input.updateMask) :
    (specOverlay (masked input old)).lookup key = none := by
  rw [List.lookup_eq_none_iff]
  intro p hp
  have hcovered : p.1 ∈ coveredKeys input.updateMask := by
    rcases List.mem_append.mp hp with hmodel | himage
    · have hmask : "model_version_id" ∈ input.updateMask := by
        by_contra hmask
        simp [masked, hmask] at hmodel
      split at hmodel
      · obtain rfl := List.mem_singleton.mp hmodel
        simp [coveredKeys, hmask]
      · cases hmodel
    · have hmask : "engine" ∈ input.updateMask := by
        by_contra hmask
        have hnone : input.imageSelection = none :=
          Option.not_isSome_iff_eq_none.mp fun h => hmask (hselection h)
        simp [masked, hmask, hnone] at himage
      have hname : p.1 = "image_selection" := by
        split at himage
        · exact congrArg Prod.fst (List.mem_singleton.mp himage)
        · split at himage
          · exact congrArg Prod.fst (List.mem_singleton.mp himage)
          · cases himage
      simp [coveredKeys, hmask, hname]
  simp only [bne_iff_ne, ne_eq]
  rintro rfl
  exact hkey hcovered

theorem overlay_capabilities (hmodel : "model_version_id" ∈ input.updateMask)
    (hversion : input.content.modelVersionID.isSome) :
    (specOverlay (masked input old)).lookup "model_capabilities" =
      some (capabilitiesJSON input.modelCapabilities) := by
  simp [specOverlay, masked, hmodel, hversion]

theorem overlay_selection (hengine : "engine" ∈ input.updateMask)
    (himage : input.content.imageRef ≠ "") :
    (specOverlay (masked input old)).lookup "image_selection" =
      some (input.imageSelection.getD "null") := by
  unfold specOverlay
  rw [List.lookup_append]
  have hmodel : (if (masked input old).content.modelVersionID.isSome then
      [("model_capabilities", capabilitiesJSON (masked input old).modelCapabilities)]
        else []).lookup "image_selection" = none := by
    split <;> simp [List.lookup_cons]
  rw [hmodel, Option.none_or]
  cases hselection : input.imageSelection with
  | none => simp [masked, hselection, hengine, himage]
  | some text => simp [masked, hselection]

end

/-- What the image client checks of an answer. -/
theorem checked {c : Client} {p : Platform} {tenant : Uuid} {id scope ns : String} {wire : Scope}
    {r : Resolved} {image : Image} (h : checkResolved c p tenant id scope ns wire r = .ok image) :
    image.selection.imageID = id ∧ image.selection.scope = scope ∧
      (image.selection.registryAuthority ++ "/").toList <+: image.ref.toList := by
  unfold checkResolved at h
  split at h
  · cases h
  case isFalse hchecks =>
    split at h
    · cases h
    · obtain rfl := Except.ok.inj h
      simp only [not_or, Bool.not_eq_true', Bool.not_eq_false] at hchecks
      obtain ⟨_, _, _, _, _, _, hprefix, _⟩ := hchecks
      exact ⟨rfl, rfl, List.isPrefixOf_iff_prefix.mp hprefix⟩

/-- A version that is ready has an artifact and its checksum. -/
theorem artifact_of_ready (h : readyVersion version answer = .ok v) :
    v.artifactRef ≠ "" ∧ v.artifactSHA256 ≠ "" := by
  unfold readyVersion at h
  split at h
  · cases h
  · cases h
  · split at h
    · cases h
    · split at h
      · cases h
      · split at h
        · cases h
        case isFalse hcomplete =>
          obtain rfl := Except.ok.inj h
          simp only [not_or, Bool.not_eq_true', Bool.not_eq_false, Bool.not_eq_true] at hcomplete
          obtain ⟨hsum, hpath⟩ := hcomplete
          constructor
          · rintro hempty
            dsimp only at hempty
            rw [hempty] at hpath
            cases hpath
          · rintro hempty
            dsimp only at hempty
            rw [hempty] at hsum
            cases hsum

namespace Carried
variable {cfg : Config} {req : Request} {es : List Seen} {input : Input}
variable (h : Carried cfg req es input)
include h

theorem ids :
    input.update.tenantID = req.tenantID ∧ input.update.serviceID = req.serviceID ∧
      input.update.expectedGeneration = req.expectedGeneration ∧
      input.update.updateMask = req.mask := by
  cases h with
  | unchanged h _ | versioned h _ _ => cases h <;> exact ⟨rfl, rfl, rfl, rfl⟩

/-- The fields no layer touches are the request's. -/
theorem fields :
    input.update.content.servedModelName = (inputOf req).update.content.servedModelName ∧
      input.update.content.engineRuntime = (inputOf req).update.content.engineRuntime ∧
      input.update.content.commandArgv = (inputOf req).update.content.commandArgv := by
  cases h with
  | unchanged h _ | versioned h _ _ => cases h <;> exact ⟨rfl, rfl, rfl⟩

/-- A version that is carried comes with the snapshot that was read of it. -/
theorem version (hsome : input.update.content.modelVersionID.isSome) :
    ∃ version v,
    (inputOf req).update.content.modelVersionID = some version ∧ Answered req es version v ∧
      modelColumns input.update.content =
        (some version, "model", v.artifactRef, v.artifactSHA256) ∧
      input.update.modelCapabilities = some v.capabilities := by
  cases h with
  | unchanged _ hnone =>
    rw [hnone] at hsome
    cases hsome
  | @versioned input version v h hversion hanswered =>
    have hrequested : (inputOf req).update.content.modelVersionID = some version := by
      cases h <;> exact hversion
    refine ⟨version, v, hrequested, hanswered, ?_, rfl⟩
    simp only [modelColumns, Input.withVersion]
    rw [hversion]

theorem imaged :
    ∃ before, Imaged cfg req es before ∧
    input.update.content.imageRef = before.update.content.imageRef ∧
    input.update.imageSelection = before.update.imageSelection := by
  cases h with
  | @unchanged input h _ | @versioned input _ _ h _ _ => exact ⟨input, h, rfl, rfl⟩

theorem selection (hsome : input.update.imageSelection.isSome) : "engine" ∈ req.mask := by
  obtain ⟨before, hbefore, _, heq⟩ := h.imaged
  rw [heq] at hsome
  cases hbefore with
  | kept _ => cases hsome
  | resolved hengine _ => exact hengine

/-- The image and its selection come together. -/
theorem selected (hengine : "engine" ∈ req.mask) (he : req.engine = some e) :
    Selected cfg req es e input.update.content.imageRef
      (some (input.update.imageSelection.getD "null")) := by
  obtain ⟨before, hbefore, href, hselection⟩ := h.imaged
  rw [href, hselection]
  cases hbefore with
  | kept hid =>
    have hraw : Selected cfg req es e e.image (some "null") := by
      refine .raw ?_
      simpa [inputOf, hengine, he] using hid hengine
    simpa [inputOf, hengine, he] using hraw
  | @resolved image text _ hcatalogued =>
    have hcatalogued : Catalogued cfg req es e.imageID e.imageScope image text := by
      simpa [inputOf, hengine, he] using hcatalogued
    obtain ⟨_, _, _, _, _, _, _, _, _, hchecked, _⟩ := id hcatalogued
    obtain ⟨hid, hscope, hregistry⟩ := checked hchecked
    exact .catalog hid hscope hregistry hcatalogued

/-- The row the store makes of a carried input. -/
theorem framed (hvalid : validMask input.update = true) (row : SpecRow) :
    Framed cfg req es row.spec (updatedSpec (masked input.update row.spec) row.spec) := by
  obtain ⟨_, _, _, hmask⟩ := h.ids
  obtain ⟨hserved, hruntime, hcommand⟩ := h.fields
  obtain ⟨hversion, hname, hengine⟩ := values_of_validMask hvalid
  rw [hmask] at hversion hname hengine
  constructor
  case frozen => exact frozen_updated row input.update
  case keys =>
    intro key hkey
    have hoverlay : (specOverlay (masked input.update row.spec)).lookup key = none :=
      overlay_keys (fun hsome => hmask ▸ h.selection hsome) (hmask ▸ hkey)
    simp [updatedSpec, lookup_mergeJSON, hoverlay]
  case modelKept => exact fun hm => modelColumns_kept (hmask ▸ hm)
  case servedKept => exact fun hm => servedModelName_kept (hmask ▸ hm)
  case engineKept => exact fun hm => engineColumns_kept (hmask ▸ hm)
  case model =>
    intro hm
    obtain ⟨version, v, hrequested, hanswered, hcolumns, hcapabilities⟩ := h.version (hversion hm)
    obtain ⟨answer, _, hready⟩ := id hanswered
    obtain ⟨href, hsum⟩ := artifact_of_ready hready
    refine ⟨version, v, by simpa [inputOf, hm] using hrequested, hanswered, ?_, ?_⟩
    · simp only [modelColumns, Prod.mk.injEq] at hcolumns
      simp [modelColumns, updatedSpec, masked, orKeep, hmask, hm, hcolumns, href, hsum]
    · have hoverlay : (specOverlay (masked input.update row.spec)).lookup "model_capabilities" =
          some (capabilitiesJSON input.update.modelCapabilities) :=
        overlay_capabilities (hmask ▸ hm) (hversion hm)
      simp [updatedSpec, lookup_mergeJSON, hoverlay, hcapabilities]
  case served =>
    intro hm
    have hne := hname hm
    rw [hserved] at hne
    simp only [inputOf, hm, if_true] at hserved hne
    simp [updatedSpec, masked, orKeep, hmask, hm, hserved, hne]
  case engine =>
    intro hm
    obtain ⟨hne, himage, hkind⟩ := hengine hm
    cases he : req.engine with
    | none =>
      rw [hcommand] at hne
      simp [inputOf, he] at hne
    | some e =>
      simp only [inputOf, hm, he, if_true, Option.map_some, Option.getD_some] at hruntime hcommand
      rw [hcommand] at hne
      rw [hruntime] at hkind
      refine ⟨e, rfl, ?_, ?_, ?_⟩
      · simp [updatedSpec, masked, orKeep, hmask, hm, hruntime, hkind]
      · simp [updatedSpec, masked, orKeep, hmask, hm, hcommand, hne]
      · have hselected := h.selected hm he
        have hoverlay : (specOverlay (masked input.update row.spec)).lookup "image_selection" =
            some (input.update.imageSelection.getD "null") :=
          overlay_selection (hmask ▸ hm) himage
        have href : (updatedSpec (masked input.update row.spec) row.spec).content.imageRef =
            input.update.content.imageRef := by
          simp [updatedSpec, masked, orKeep, hmask, hm, himage]
        have hkey : (updatedSpec (masked input.update row.spec) row.spec).content.specJSON.lookup
            "image_selection" = some (input.update.imageSelection.getD "null") := by
          simp [updatedSpec, lookup_mergeJSON, hoverlay]
        rw [href, hkey]
        exact hselected

end Carried

/-- The row that an update adds passes the checks of its table. -/
def SpecRow.updated (row : SpecRow) (input : UpdateInput) : SpecRow where
  spec := updatedSpec (masked input row.spec) row.spec
  replicas := by
    have h := congrArg (·.content.replicas) (frozen_updated row input)
    exact h ▸ row.replicas
  runtimeMode := by
    have h := congrArg (·.content.runtimeMode) (frozen_updated row input)
    exact h ▸ row.runtimeMode
  workerReplicas := by
    have h := congrArg (·.content.workerReplicas) (frozen_updated row input)
    exact h ▸ row.workerReplicas
  runtimeProvider := by
    have h := congrArg (·.content.runtimeProvider) (frozen_updated row input)
    exact h ▸ row.runtimeProvider

/-- An update that reaches the store through the service, image and model layers and commits there
either replays an earlier one or adds one row, at the next generation: the current row with what
its mask covers replaced. -/
theorem masked_update_frames (cfg : Config) (req : Request) {es : List Seen} {input : UpdateInput}
    (hasks : Asks (updateInferenceService cfg req).run es (.update input)) {now : Time}
    {fresh : Fresh} {db db' : Db} {response : Response}
    (hruns : Runs (update now fresh input) db response db') {old : SpecRow}
    (hold : db.specs.lookup (req.tenantID, req.serviceID, req.expectedGeneration) =
      some old.spec) :
    db' = db ∨ ∃ new : SpecRow,
      db.specs.lookup (req.tenantID, req.serviceID, req.expectedGeneration + 1) = none ∧
      db'.specs = db.specs.insert (req.tenantID, req.serviceID, req.expectedGeneration + 1)
        new.spec ∧
      Framed cfg req es old.spec new.spec := by
  obtain ⟨carried, hcarried, rfl⟩ := Walk.asks (walk_updateInferenceService cfg req) hasks
  rw [List.nil_append] at hcarried
  obtain ⟨htenant, hservice, hgeneration, hmask⟩ := hcarried.ids
  have hne : carried.update.updateMask ≠ [] := hmask ▸ mask_of_asks hasks
  rcases specs_update hne hruns with hsame | ⟨spec, hvalid, hspec, hnone, hspecs⟩
  · exact .inl hsame
  · rw [htenant, hservice, hgeneration] at hspec hnone hspecs
    rw [hold] at hspec
    obtain rfl := Option.some.inj hspec
    exact .inr ⟨old.updated carried.update, hnone, hspecs, hcarried.framed hvalid old⟩

namespace Sample

def platform : Platform := ⟨"linux", "amd64", ""⟩

def digest : String := "sha256:" ++ AniInference.Sample.digest

def client : Client :=
  { platform := some platform, clientNamespace := "models", clusterID := "cluster"
    requireCatalog := true, pullSecretName := fun _ _ _ registry => some registry
    encode := fun selection => selection.imageID }

def cfg : Config := ⟨some client, false⟩

def engine : Engine := ⟨"vllm", "", "serve", "img_0123456789abcdef0123456789abcdef", "tenant"⟩

/-- Tenant 1 asks for another engine and another version. -/
def request : Request :=
  { tenantID := 1, serviceID := 7, requestID := "request", expectedGeneration := 1
    contractVersion := 2, mask := ["engine", "model_version_id"], modelVersionID := some 2
    servedModelName := "ignored", engine := some engine, frozen := false, actor := "actor"
    requestHash := "hash", managedOperationID := none }

def resolved : Resolved :=
  ⟨1, engine.imageID, .tenant, digest, "registry/image@" ++ digest, "registry", platform⟩

def version : Version := ⟨2, "ready", AniInference.Sample.digest, "models/2", []⟩

def input : UpdateInput :=
  (((inputOf request).withImage resolved.reference engine.imageID).withVersion
    ⟨version.storagePath, version.checksum, []⟩).update

def row : SpecRow where
  spec :=
    { content :=
        { AniInference.Sample.content with
          runtimeMode := "deployment", runtimeProvider := "kserve"
          specJSON := [("model_id", "m")] }
      gpuPlan := none, gpuPlanDigest := none }
  replicas := by decide
  runtimeMode := by decide
  workerReplicas := by decide
  runtimeProvider := by decide

def db : Db :=
  { Db.empty with
    services := Db.empty.services.insert (1, 7) (Sql.newService "service" 1)
    specs := Db.empty.specs.insert (1, 7, 1) row.spec }

end Sample

theorem masked_update_frames_engine : ∃ es response db', ∃ new : SpecRow,
    Asks (updateInferenceService Sample.cfg Sample.request).run es (.update Sample.input) ∧
    Runs (update 5 ⟨7, 8, 9⟩ Sample.input) Sample.db response db' ∧
    db'.specs = Sample.db.specs.insert (1, 7, 2) new.spec ∧
    Framed Sample.cfg Sample.request es Sample.row.spec new.spec := by
  have hasks : Asks (updateInferenceService Sample.cfg Sample.request).run
      [⟨.prepareUpdate (inputOf Sample.request).update, .ok none⟩,
       ⟨.resolveImageForWorkload 1 Sample.engine.imageID .tenant, .ok Sample.resolved⟩,
       ⟨.prepareUpdate ((inputOf Sample.request).withImage Sample.resolved.reference
          Sample.engine.imageID).update, .ok none⟩,
       ⟨.getModelVersion 1 2, .ok (some Sample.version)⟩] (.update Sample.input) := by
    exact .next _ (.next _ (.next _ (.next _ .here)))
  have hadds : ((update 5 ⟨7, 8, 9⟩ Sample.input Sample.db).toOption.any fun r =>
      (r.2.specs.lookup (1, 7, 2)).isSome) = true := by
    decide +kernel
  have hold : Sample.db.specs.lookup (1, 7, 1) = some Sample.row.spec := by decide +kernel
  cases hr : (update 5 ⟨7, 8, 9⟩ Sample.input Sample.db).toOption with
  | none =>
    rw [hr] at hadds
    cases hadds
  | some r =>
    rw [hr] at hadds
    have hruns := runs_of_toOption hr
    rcases masked_update_frames Sample.cfg Sample.request hasks hruns hold with
      hsame | ⟨new, _, hspecs, hframed⟩
    · rw [Option.any_some, hsame] at hadds
      exact absurd hadds (by decide +kernel)
    · exact ⟨_, _, _, new, hasks, hruns, hspecs, hframed⟩

end MaskedUpdate
end AniInference
