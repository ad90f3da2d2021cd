import AniInference.RuntimeSource

namespace AniInference
open Lib Txn

/-- `strings.ToLower(strings.TrimSpace(s))`. -/
def providerName (s : String) : String := Text.lower (Text.trim s)

/-- The provider whose objects are of this kind. -/
def ObjectKind.provider : ObjectKind → Option String
  | .kserveInferenceService | .kserveLLMInferenceService => some "kserve"
  | .deployment | .leaderWorkerSet => some "deployment"
  | _ => none

/-- `isKServeBindingKind`. -/
def ObjectKind.isKServe : ObjectKind → Bool
  | .kserveInferenceService | .kserveLLMInferenceService => true
  | _ => false

namespace DesiredRuntime

/-- The provider of the first runtime binding that tells. -/
def boundProvider (spec : DesiredRuntime) : Option String :=
  spec.bindings.findSome? fun b => if b.role = .runtime then b.kind.provider else none

/-- `runtimeProviderForBindings`, by which the router chooses. -/
def runtimeProviderForBindings (spec : DesiredRuntime) : String :=
  match spec.boundProvider with
  | some provider => provider
  | none => Store.orDefault (providerName spec.runtimeProvider) "deployment"

def kserveBindings (spec : DesiredRuntime) : List RuntimeBinding :=
  spec.bindings.filter fun b => b.kind.isKServe && b.role = .runtime

/-- The fence of `applyKServe` and `observeKServe`. -/
def kserveBindingForSpec (spec : DesiredRuntime) : Option RuntimeBinding :=
  spec.kserveBindings.head?

/-- The fence of `applyFenced` and `observe`. -/
def runtimeBindingForMode (spec : DesiredRuntime) : Option RuntimeBinding :=
  spec.bindings.find? fun b => b.role = .runtime && b.kind = kindForRuntimeMode spec.runtimeMode

/-- The Service and port traffic for an object of the kind goes to. -/
def backendOf (spec : DesiredRuntime) : ObjectKind → String × Nat
  | .kserveLLMInferenceService => (spec.name ++ "-kserve-workload-svc", 8000)
  | .kserveInferenceService => (spec.name ++ "-predictor", 80)
  | _ => (s!"{spec.serviceID}-endpoint", (spec.endpoint.map (·.2.1)).getD 0)

/-- The provider `Publish` goes by: the specification's, else the bindings', else the process's. -/
def publicationProvider (fallback : String) (spec : DesiredRuntime) : String :=
  let provider := Store.orDefault (providerName spec.runtimeProvider) (spec.boundProvider.getD "")
  Store.orDefault (Store.orDefault provider (providerName fallback)) "deployment"

/-- The kind of the KServe object `Publish` takes the backend for. -/
def publishedKind (spec : DesiredRuntime) : ObjectKind :=
  match spec.kserveBindings.head? with
  | some b => b.kind
  | none => kserveKindForMode spec.runtimeMode

def validPort (port : Nat) : Bool := 1 ≤ port && port ≤ 65535

def chosenBackend (fallback : String) (spec : DesiredRuntime) : String × Nat :=
  spec.backendOf
    (if publicationProvider fallback spec = "kserve" then spec.publishedKind else .service)

/-- The backend of the route `HTTPRoutePublisher.Publish` applies. -/
def publicationBackend (fallback : String) (spec : DesiredRuntime) : Except Err (String × Nat) :=
  let provider := publicationProvider fallback spec
  let backend := chosenBackend fallback spec
  if Text.blank spec.servedModelName then
    .error (.text "publication served model name is required")
  else if spec.namespaceName = "" ∨ spec.name = "" then
    .error (.text "publication runtime namespace and name are required")
  else if provider ≠ "deployment" ∧ provider ≠ "kserve" then
    .error (.text s!"unsupported publication runtime provider {quoted provider}")
  else if !validPort backend.2 then
    .error (.text s!"publication backend service port {backend.2} is invalid")
  else .ok backend

/-- The kind of object the generation runs as. -/
def targetKind (spec : DesiredRuntime) : ObjectKind :=
  if spec.runtimeProvider = "kserve" then kserveKindForMode spec.runtimeMode
  else kindForRuntimeMode spec.runtimeMode

/-- The router, the fence of the provider, and the publication go by this binding. -/
structure Selects (spec : DesiredRuntime) (b : RuntimeBinding) : Prop where
  router : b.kind.provider = some spec.runtimeProviderForBindings
  fence : (if b.kind.isKServe then spec.kserveBindingForSpec
    else spec.runtimeBindingForMode) = some b
  publication : ∀ fallback backend, spec.publicationBackend fallback = .ok backend →
    backend = spec.backendOf b.kind

section
variable {spec : DesiredRuntime}

/-- The bindings all of these look at. -/
def runtimeBindings (spec : DesiredRuntime) : List RuntimeBinding :=
  spec.bindings.filter (·.role = .runtime)

theorem boundProvider_eq :
    spec.boundProvider = spec.runtimeBindings.findSome? (·.kind.provider) := by
  unfold boundProvider runtimeBindings
  induction spec.bindings with
  | nil => rfl
  | cons b rest ih =>
    by_cases hrole : b.role = .runtime
    · simp [hrole, List.findSome?_cons, ih]
    · simp [hrole, ih]

theorem kserveBindings_eq :
    spec.kserveBindings = spec.runtimeBindings.filter (·.kind.isKServe) := by
  unfold kserveBindings runtimeBindings
  rw [List.filter_filter]

theorem runtimeBindingForMode_eq : spec.runtimeBindingForMode =
    spec.runtimeBindings.find? (·.kind = kindForRuntimeMode spec.runtimeMode) := by
  unfold runtimeBindingForMode runtimeBindings
  rw [List.find?_filter]
  simp

end

end DesiredRuntime

namespace Sql
variable {db : Db} {tenant service : Uuid} {g : Nat}

theorem filter_runtime (newest : Role → Option (Generation × Binding)) (kind : ObjectKind) :
    (Role.sorted.filterMap fun role => (newest role).map (boundAs kind role)).filter
      (·.role = .runtime) = ((newest .runtime).map (boundAs kind .runtime)).toList := by
  cases hc : newest .control <;> cases he : newest .endpoint <;> cases hm : newest .member <;>
    cases hr : newest .runtime <;>
    simp [Role.sorted, hc, he, hm, hr, boundAs]

/-- One runtime binding a kind, in the order of the kinds. -/
theorem boundUpTo_runtime : (boundUpTo db tenant service g).filter (·.role = .runtime) =
    ObjectKind.sorted.filterMap fun kind =>
      (newestBinding db tenant service kind .runtime g).map (boundAs kind .runtime) := by
  unfold boundUpTo
  rw [List.filter_flatMap, List.filterMap_eq_flatMap_toList]
  simp only [filter_runtime]

end Sql

/-- A runtime binding of another kind is taken before the one of this kind, given the kinds that
are there. -/
def ObjectKind.Shadowed (there : ObjectKind → Prop) : ObjectKind → Prop
  | .kserveInferenceService => there .deployment
  | .kserveLLMInferenceService => there .deployment ∨ there .kserveInferenceService
  | .leaderWorkerSet =>
    ¬there .deployment ∧ (there .kserveInferenceService ∨ there .kserveLLMInferenceService)
  | _ => False

namespace DesiredRuntime
variable {spec : DesiredRuntime}

theorem publicationBackend_ok (h : spec.publicationBackend fallback = .ok backend) :
    backend = spec.chosenBackend fallback := by
  simp only [publicationBackend, ite_error_eq_ok] at h
  exact (Except.ok.inj h.2.2.2.2).symm

/-- The provider names the table admits are written plainly. -/
theorem publicationProvider_of_valid
    (h : spec.runtimeProvider = "deployment" ∨ spec.runtimeProvider = "kserve") :
    spec.publicationProvider fallback = spec.runtimeProvider := by
  have hdeployment : providerName "deployment" = "deployment" := by decide +kernel
  have hkserve : providerName "kserve" = "kserve" := by decide +kernel
  rcases h with h | h
  · simp [publicationProvider, Store.orDefault, h, hdeployment]
  · simp [publicationProvider, Store.orDefault, h, hkserve]

section
variable {newest : ObjectKind → Option (Generation × Binding)}

/-- The runtime bindings, one a kind at most. -/
def Bound (newest : ObjectKind → Option (Generation × Binding)) (spec : DesiredRuntime) : Prop :=
  spec.runtimeBindings = ObjectKind.sorted.filterMap fun kind =>
    (newest kind).map (Sql.boundAs kind .runtime)

theorem findSome_runtimeBindings {γ : Type} (h : spec.Bound newest) (g : ObjectKind → Option γ) :
    spec.runtimeBindings.findSome? (fun b => g b.kind) =
      ObjectKind.sorted.findSome? fun kind => (newest kind).bind fun _ => g kind := by
  rw [h]
  induction ObjectKind.sorted with
  | nil => rfl
  | cons kind rest ih =>
    cases hk : newest kind with
    | none => simp [hk, ih]
    | some found => simp [hk, List.findSome?_cons, ih, Sql.boundAs]

theorem Bound.router (h : spec.Bound newest) : spec.runtimeProviderForBindings =
    if (newest .deployment).isSome then "deployment"
    else if (newest .kserveInferenceService).isSome then "kserve"
    else if (newest .kserveLLMInferenceService).isSome then "kserve"
    else if (newest .leaderWorkerSet).isSome then "deployment"
    else Store.orDefault (providerName spec.runtimeProvider) "deployment" := by
  unfold runtimeProviderForBindings
  rw [boundProvider_eq, findSome_runtimeBindings h ObjectKind.provider]
  cases hd : newest .deployment <;> cases hk : newest .kserveInferenceService <;>
    cases hl : newest .kserveLLMInferenceService <;> cases hw : newest .leaderWorkerSet <;>
    simp [ObjectKind.sorted, ObjectKind.provider, hd, hk, hl, hw]

/-- The first of the runtime bindings whose kinds meet `p`. -/
theorem find_runtimeBindings (h : spec.Bound newest) (p : ObjectKind → Bool) :
    spec.runtimeBindings.find? (fun b => p b.kind) =
      ObjectKind.sorted.findSome? fun kind =>
        if p kind then (newest kind).map (Sql.boundAs kind .runtime) else none := by
  rw [h]
  induction ObjectKind.sorted with
  | nil => rfl
  | cons kind rest ih =>
    cases hk : newest kind with
    | none => simp [hk, ih]
    | some found =>
      by_cases hp : p kind
      · simp [hk, hp, Sql.boundAs]
      · simp [hk, hp, ih, Sql.boundAs]

theorem Bound.kserve (h : spec.Bound newest) : spec.kserveBindingForSpec =
    ((newest .kserveInferenceService).map (Sql.boundAs .kserveInferenceService .runtime)).or
      ((newest .kserveLLMInferenceService).map
        (Sql.boundAs .kserveLLMInferenceService .runtime)) := by
  unfold kserveBindingForSpec
  rw [kserveBindings_eq, List.head?_filter, find_runtimeBindings h ObjectKind.isKServe]
  cases hk : newest .kserveInferenceService <;> cases hl : newest .kserveLLMInferenceService <;>
    simp [ObjectKind.sorted, ObjectKind.isKServe, hk, hl]

theorem Bound.mode (h : spec.Bound newest) : spec.runtimeBindingForMode =
    (newest (kindForRuntimeMode spec.runtimeMode)).map
      (Sql.boundAs (kindForRuntimeMode spec.runtimeMode) .runtime) := by
  rw [runtimeBindingForMode_eq, find_runtimeBindings h fun kind => kind = _]
  generalize kindForRuntimeMode spec.runtimeMode = wanted
  cases hw : newest wanted <;> cases wanted <;> simp [ObjectKind.sorted, hw]

theorem publication_of_valid
    (hprovider : spec.runtimeProvider = "deployment" ∨ spec.runtimeProvider = "kserve")
    (h : spec.publicationBackend fallback = .ok backend) :
    backend = spec.backendOf
      (if spec.runtimeProvider = "kserve" then spec.publishedKind else .service) := by
  rw [publicationBackend_ok h, chosenBackend, publicationProvider_of_valid hprovider]

/-- The Deployment executor picks its binding by the kind, so only the router can go wrong. -/
theorem Bound.selects_deployment (h : spec.Bound newest) (hp : spec.runtimeProvider = "deployment")
    (htarget : newest spec.targetKind = some found) :
    spec.Selects (Sql.boundAs spec.targetKind .runtime found) ↔
      spec.runtimeProviderForBindings = "deployment" := by
  have hkind : spec.targetKind = kindForRuntimeMode spec.runtimeMode := by
    simp [targetKind, hp]
  have hcases : spec.targetKind = .leaderWorkerSet ∨ spec.targetKind = .deployment := by
    rw [hkind, kindForRuntimeMode]
    split <;> simp
  have hfound : spec.runtimeBindingForMode = some (Sql.boundAs spec.targetKind .runtime found) := by
    rw [h.mode, ← hkind, htarget]
    rfl
  constructor
  · intro hs
    have hrouter := hs.router
    rcases hcases with hc | hc <;> rw [hc] at hrouter <;> exact (Option.some.inj hrouter).symm
  · intro hrouter
    refine ⟨?_, ?_, fun fallback backend hbackend => ?_⟩
    · rw [hrouter]
      rcases hcases with hc | hc <;> rw [hc] <;> rfl
    · rw [← hfound]
      rcases hcases with hc | hc <;> rw [hc] <;> rfl
    · rw [publication_of_valid (.inl hp) hbackend, hp]
      rcases hcases with hc | hc <;> rw [hc] <;> rfl

/-- The KServe executor and the publication take the first KServe binding. -/
theorem Bound.selects_kserve (hp : spec.runtimeProvider = "kserve") :
    spec.Selects (Sql.boundAs spec.targetKind .runtime found) ↔
      spec.runtimeProviderForBindings = "kserve" ∧
        spec.kserveBindingForSpec = some (Sql.boundAs spec.targetKind .runtime found) := by
  have hcases : spec.targetKind = .kserveLLMInferenceService ∨
      spec.targetKind = .kserveInferenceService := by
    simp only [targetKind, hp, if_true, kserveKindForMode]
    split <;> simp
  have hrouter : (Sql.boundAs spec.targetKind .runtime found).kind.provider = some "kserve" := by
    rcases hcases with hc | hc <;> rw [hc] <;> rfl
  have hisKServe : (Sql.boundAs spec.targetKind .runtime found).kind.isKServe = true := by
    rcases hcases with hc | hc <;> rw [hc] <;> rfl
  constructor
  · intro hs
    have hfence := hs.fence
    rw [if_pos hisKServe] at hfence
    exact ⟨(Option.some.inj (hrouter.symm.trans hs.router)).symm, hfence⟩
  · intro ⟨hprovider, hfence⟩
    refine ⟨?_, ?_, fun fallback backend hbackend => ?_⟩
    · rw [hrouter, hprovider]
    · rw [if_pos hisKServe, hfence]
    · rw [publication_of_valid (.inr hp) hbackend, if_pos hp, publishedKind]
      rw [kserveBindingForSpec] at hfence
      rw [hfence]

/-- Whether the target's binding is the one selected depends on which kinds are left over. -/
theorem Bound.selects_iff (h : spec.Bound newest)
    (hprovider : spec.runtimeProvider = "deployment" ∨ spec.runtimeProvider = "kserve")
    (htarget : newest spec.targetKind = some found) :
    spec.Selects (Sql.boundAs spec.targetKind .runtime found) ↔
      ¬spec.targetKind.Shadowed fun kind => (newest kind).isSome = true := by
  rcases hprovider with hp | hp
  · rw [h.selects_deployment hp htarget, h.router]
    have hkind : spec.targetKind = kindForRuntimeMode spec.runtimeMode := by
      simp [targetKind, hp]
    rw [hkind] at htarget ⊢
    unfold kindForRuntimeMode at htarget ⊢
    split at htarget
    · cases hd : newest .deployment <;> cases hk : newest .kserveInferenceService <;>
        cases hl : newest .kserveLLMInferenceService <;>
        simp_all [ObjectKind.Shadowed]
    · simp_all [ObjectKind.Shadowed]
  · rw [Bound.selects_kserve hp, h.router, h.kserve]
    have hkind : spec.targetKind = kserveKindForMode spec.runtimeMode := by
      simp [targetKind, hp]
    rw [hkind] at htarget ⊢
    unfold kserveKindForMode at htarget ⊢
    split at htarget
    · cases hd : newest .deployment <;> cases hk : newest .kserveInferenceService <;>
        simp_all [ObjectKind.Shadowed, Sql.boundAs]
    · cases hd : newest .deployment <;> simp_all [ObjectKind.Shadowed]

end

end DesiredRuntime

section
variable {db : Db} {namespaceName : String} {tenant service : Uuid} {g : Generation}

/-- Once the binding of the generation is recorded it is the one the router, the fence of the
provider and the publication go by, unless a binding of an earlier generation is left whose kind is
taken before. -/
theorem replacement_selects_target {spec : DesiredRuntime}
    (hspec : Runs (RuntimeSource.currentRuntime namespaceName tenant service g) db spec db)
    (hprovider : spec.runtimeProvider = "deployment" ∨ spec.runtimeProvider = "kserve")
    {row : Binding}
    (hrow : db.bindings.lookup (tenant, service, g, spec.targetKind, .runtime) = some row) :
    spec.Selects (Sql.boundAs spec.targetKind .runtime (g, row)) ↔
      ¬spec.targetKind.Shadowed fun kind =>
        ∃ g' ≤ g, (db.bindings.lookup (tenant, service, g', kind, .runtime)).isSome = true := by
  obtain ⟨_, hbindings, _⟩ := RuntimeSource.runs_currentRuntime hspec
  have hself := Sql.newestBinding_self hrow
  have hmem : Sql.boundAs spec.targetKind .runtime (g, row) ∈ Sql.boundUpTo db tenant service g :=
    Sql.mem_boundUpTo.mpr ⟨_, hself, rfl⟩
  have hlist : spec.bindings = Sql.boundUpTo db tenant service g := by
    rcases (RuntimeSource.runs_currentBindings hbindings).2 with hlist | ⟨hnone, _⟩
    · exact hlist
    · rw [hnone] at hmem
      cases hmem
  have hbound : spec.Bound fun kind => Sql.newestBinding db tenant service kind .runtime g := by
    unfold DesiredRuntime.Bound DesiredRuntime.runtimeBindings
    rw [hlist, Sql.boundUpTo_runtime]
  have hthere : ∀ kind, (Sql.newestBinding db tenant service kind .runtime g).isSome = true ↔
      ∃ g' ≤ g, (db.bindings.lookup (tenant, service, g', kind, .runtime)).isSome = true := by
    intro kind
    rw [← not_iff_not, Bool.not_eq_true, Option.isSome_eq_false_iff, Option.isNone_iff_eq_none,
      Sql.newestBinding_eq_none]
    simp
  rw [hbound.selects_iff hprovider hself]
  simp only [hthere]

end

namespace Sample

/-- A service that KServe runs. -/
def kserveCreate : CreateInput :=
  { create with content := { content with runtimeProvider := "kserve" } }

/-- The executor finds one object, and operations are drawn from `id` on. -/
def observing (object : RuntimeObject) (id : Uuid) : Outside :=
  { outside with
    fresh := ⟨7, id, id + 1⟩
    answers := fun
      | .observeRuntime _ => some (.ok { outside.runtime with objects := [object] })
      | _ => none }

def kserveObject : RuntimeObject :=
  ⟨1, .kserveInferenceService, "tenant", "service", "uid-1", "1", .runtime, "uid-1", "1", false⟩

def deploymentObject : RuntimeObject :=
  ⟨2, .deployment, "tenant", "service", "uid-2", "5", .runtime, "uid-2", "5", false⟩

/-- The service is created and runs; then it is given another content, and its worker takes
turns. -/
def replaced (content : SpecContent) (object : RuntimeObject) (counts : List Nat) :
    List (Process × Nat × Outside) :=
  created kserveCreate createTurns (observing kserveObject 8) ++
  (.request (.update
    { tenantID := 1, serviceID := 7, expectedGeneration := 1, requestID := "update"
      requestHash := "update", actor := "actor", managedOperationID := none, updateMask := []
      content := content, modelCapabilities := none, imageSelection := none, gpuPlan := none
      gpuPlanDigest := "" }), 1, observing object 20) :: turns counts (observing object 20)

end Sample

/-- The service is to run without KServe, and does in the end. -/
def replacedRun : List Event :=
  oneByOne 0 (Sample.replaced { Sample.content with runtimeProvider := "deployment" }
    Sample.deploymentObject Sample.replaceTurns)

set_option maxRecDepth 100000 in
theorem replacement_selects_target_replacedRun :
    (Sql.newestBinding (played .default .configured replacedRun).world.db 1 7
      .kserveInferenceService .runtime 2).isSome = true ∧
    ∃ spec, Runs (RuntimeSource.currentRuntime "tenant" 1 7 2)
        (played .default .configured replacedRun).world.db spec
        (played .default .configured replacedRun).world.db ∧
      spec.Selects ⟨.deployment, "tenant", "service", "uid-2", "5", .runtime, 2⟩ := by
  have hrun : ((RuntimeSource.currentRuntime "tenant" 1 7 2
        (played .default .configured replacedRun).world.db).toOption.map fun t =>
          (t.1.targetKind, t.1.runtimeProvider)) = some (.deployment, "deployment") ∧
      (played .default .configured replacedRun).world.db.bindings.lookup
        (1, 7, 2, .deployment, .runtime) = some ⟨"tenant", "service", "uid-2", "5"⟩ ∧
      (Sql.newestBinding (played .default .configured replacedRun).world.db 1 7
        .kserveInferenceService .runtime 2).isSome = true := by
    decide +kernel
  obtain ⟨hspec, hrow, hleft⟩ := hrun
  obtain ⟨t, ht, hkind⟩ := Option.map_eq_some_iff.mp hspec
  simp only [Prod.mk.injEq] at hkind
  have hread := runs_of_toOption ht
  obtain ⟨hdb, _⟩ := RuntimeSource.runs_currentRuntime hread
  rw [hdb] at hread
  rw [← hkind.1] at hrow
  have hselects := (replacement_selects_target hread (.inl hkind.2) hrow).mpr (by
    rw [hkind.1]
    exact id)
  rw [hkind.1] at hselects
  exact ⟨hleft, t.1, hread, hselects⟩

/-- The service is to run as groups of workers, and the worker goes on until the absence of the
first runtime has been observed and the second has been applied. -/
def regroupRun : List Event :=
  oneByOne 0 (Sample.replaced
    { Sample.content with runtimeProvider := "kserve", runtimeMode := "leader_worker_set" }
    Sample.kserveObject (Sample.replaceTurns.take 9))

/-- The row `applyKServe` upserts for the new object. -/
def regroupBinding : Tx Nat :=
  Sql.upsertRuntimeBindingCAS ⟨1, 7, 2, .kserveLLMInferenceService, .runtime⟩
    ⟨"tenant", "service", "uid-2", "5"⟩ "uid-1" "1"

set_option maxRecDepth 100000 in
/-- After an update to another kind the binding of the first generation is still selected, and the
route goes to the Service of an object that is gone. -/
theorem replacement_selects_leftover :
    ∃ s, Running .default .configured s ∧
      (∃ o, s.world.db.operations.lookup (1, 20) = some o ∧ o.kind = .update ∧
        o.step = .observeRuntime ∧ o.targetGeneration = 2) ∧
      ∃ db spec, Runs regroupBinding s.world.db 1 db ∧
        Runs (RuntimeSource.currentRuntime "tenant" 1 7 2) db spec db ∧
        spec.targetKind = .kserveLLMInferenceService ∧
        spec.kserveBindingForSpec = some
          ⟨.kserveInferenceService, "tenant", "service", "uid-1", "1", .runtime, 1⟩ ∧
        spec.publicationBackend "" = .ok ("service-predictor", 80) := by
  have hrun : ((played .default .configured regroupRun).world.db.operations.lookup (1, 20)).map
        (fun o => (o.kind, o.step, o.targetGeneration)) = some (.update, .observeRuntime, 2) ∧
      ((regroupBinding (played .default .configured regroupRun).world.db).toOption.bind fun r =>
        (RuntimeSource.currentRuntime "tenant" 1 7 2 r.2).toOption.map fun t => (r.1,
          t.1.targetKind, t.1.kserveBindingForSpec, (t.1.publicationBackend "").toOption)) =
      some (1, .kserveLLMInferenceService,
        some ⟨.kserveInferenceService, "tenant", "service", "uid-1", "1", .runtime, 1⟩,
        some ("service-predictor", 80)) := by
    decide +kernel
  obtain ⟨o, ho, hrow⟩ := Option.map_eq_some_iff.mp hrun.1
  obtain ⟨r, hr, hrest⟩ := Option.bind_eq_some_iff.mp hrun.2
  obtain ⟨t, ht, hall⟩ := Option.map_eq_some_iff.mp hrest
  simp only [Prod.mk.injEq] at hrow hall
  obtain ⟨hone, hkind, hbinding, hbackend⟩ := hall
  have hbound := runs_of_toOption hr
  have hread := runs_of_toOption ht
  obtain ⟨hdb, _⟩ := RuntimeSource.runs_currentRuntime hread
  rw [hone] at hbound
  rw [hdb] at hread
  refine ⟨_, running_played .default .configured regroupRun, ⟨o, ho, hrow⟩, r.2, t.1, hbound, hread,
    hkind, hbinding, ?_⟩
  cases hb : t.1.publicationBackend "" with
  | error e =>
    rw [hb] at hbackend
    cases hbackend
  | ok backend =>
    rw [hb] at hbackend
    rw [Option.some.inj hbackend]

end AniInference
