import AniInference.Lib.ObjectStore
import AniInference.Lib.UuidText

namespace AniInference.Gateway
open Lib

/-- Why a publication request fails. -/
inductive Err
  | message (why : String)
  | api (cause : ApiError)
deriving DecidableEq, Repr

/-- `metav1.Condition`, as far as it is read. -/
structure Condition where
  type : String
  status : String
deriving DecidableEq, Repr

/-- `RouteParentStatus`. -/
structure RouteParentStatus where
  name : String
  parentNamespace : Option String
  sectionName : Option String
  controllerName : String
  conditions : List Condition
deriving DecidableEq, Repr

/-- An `HTTPRoute`, with what its controllers report of it. -/
structure HTTPRoute where
  routeNamespace : String
  labels : List (String × String)
  parents : List RouteParentStatus
deriving DecidableEq, Repr

/-- `publication.Publication`. -/
structure Publication where
  tenantID : String
  serviceID : String
  generation : Int
deriving DecidableEq, Repr

/-- `HTTPRoutePublisher`, with the name it hashes a publication to. -/
structure HTTPRoutePublisher where
  hasClient : Bool
  gatewayName : String
  gatewayNamespace : String
  routeNamespace : String
  publicBaseURL : String
  routeName : Publication → String

namespace HTTPRoutePublisher
variable (p : HTTPRoutePublisher)

def validate (pub : Publication) : Except Err Unit :=
  if !p.hasClient then .error (.message "publication Kubernetes client is nil")
  else if pub.tenantID = "" ∨ pub.serviceID = "" ∨ pub.generation < 1 then
    .error (.message "publication tenant, service and positive generation are required")
  else if p.gatewayName = "" ∨ p.gatewayNamespace = "" then
    .error (.message "publication Gateway namespace and name are required")
  else if Lib.Text.blank p.publicBaseURL then
    .error (.message "publication public base URL is required")
  else .ok ()

def matchesGatewayParent (parent : RouteParentStatus) (routeNamespace : String) : Bool :=
  if parent.name ≠ p.gatewayName then false
  else
    let ns := match parent.parentNamespace with
      | some ns => if ns ≠ "" then ns else routeNamespace
      | none => routeNamespace
    ns = p.gatewayNamespace

end HTTPRoutePublisher

/-- The labels a missing key reads as empty. -/
def HTTPRoute.label (route : HTTPRoute) (key : String) : String := (route.labels.lookup key).getD ""

def samePublication (route : HTTPRoute) (pub : Publication) : Bool :=
  route.label "ani.kubercloud.com/tenant-id" = pub.tenantID &&
    route.label "ani.kubercloud.com/service-id" = pub.serviceID &&
    route.label "ani.kubercloud.com/generation" = toString pub.generation

/-- The inner loop of `ConfirmPublished`, over the conditions of one parent. -/
def scanConditions : List Condition → Bool × Bool → Bool × Bool
  | [], found => found
  | c :: cs, (accepted, resolved) =>
    if c.status ≠ "True" then scanConditions cs (accepted, resolved)
    else if c.type = "Accepted" then scanConditions cs (true, resolved)
    else if c.type = "ResolvedRefs" then scanConditions cs (accepted, true)
    else scanConditions cs (accepted, resolved)

/-- Its outer loop, over the parents. -/
def scanParents (p : HTTPRoutePublisher) (routeNamespace : String) :
    List RouteParentStatus → Bool × Bool → Bool × Bool
  | [], found => found
  | parent :: parents, found =>
    if !p.matchesGatewayParent parent routeNamespace then
      scanParents p routeNamespace parents found
    else scanParents p routeNamespace parents (scanConditions parent.conditions found)

/-- `ConfirmPublished`, with what the API server answers. -/
def confirmPublished (p : HTTPRoutePublisher) (pub : Publication)
    (get : String × String → Except ApiError HTTPRoute) : Except Err Bool :=
  match p.validate pub with
  | .error e => .error e
  | .ok _ =>
    match get (p.routeNamespace, p.routeName pub) with
    | .error .notFound => .ok false
    | .error e => .error (.api e)
    | .ok current =>
      if !samePublication current pub then
        .error (.message "HTTPRoute is owned by a different publication")
      else
        let (accepted, resolved) := scanParents p current.routeNamespace current.parents
          (false, false)
        .ok (accepted && resolved)

/-- The condition is reported as true. -/
def holds (type : String) (conditions : List Condition) : Bool :=
  conditions.any fun c => c.status = "True" && c.type = type

def RouteParentStatus.carries (parent : RouteParentStatus) (type : String) : Prop :=
  holds type parent.conditions = true

instance (parent : RouteParentStatus) (type : String) : Decidable (parent.carries type) :=
  inferInstanceAs (Decidable (holds type parent.conditions = true))

/-- What the inner loop adds to what was found before. -/
theorem scanConditions_eq (conditions : List Condition) (accepted resolved : Bool) :
    scanConditions conditions (accepted, resolved) =
      (accepted || holds "Accepted" conditions, resolved || holds "ResolvedRefs" conditions) := by
  induction conditions generalizing accepted resolved with
  | nil => simp [scanConditions, holds]
  | cons c cs ih =>
    simp only [holds] at ih
    simp only [scanConditions, holds, List.any_cons]
    by_cases hstatus : c.status = "True"
    · by_cases haccepted : c.type = "Accepted"
      · simp [hstatus, haccepted, ih]
      · by_cases hresolved : c.type = "ResolvedRefs"
        · simp [hstatus, hresolved, ih]
        · simp [hstatus, haccepted, hresolved, ih]
    · simp [hstatus, ih]

/-- A condition that some parent of the Gateway reports. -/
def Reported (p : HTTPRoutePublisher) (route : HTTPRoute) (type : String) : Prop :=
  ∃ parent ∈ route.parents,
    p.matchesGatewayParent parent route.routeNamespace = true ∧ parent.carries type

/-- The outer loop keeps what the parents before have reported. -/
theorem scanParents_eq_true (p : HTTPRoutePublisher) (ns : String)
    (parents : List RouteParentStatus) (accepted resolved : Bool) :
    ((scanParents p ns parents (accepted, resolved)).1 = true ↔ accepted = true ∨
      ∃ parent ∈ parents, p.matchesGatewayParent parent ns = true ∧ parent.carries "Accepted") ∧
    ((scanParents p ns parents (accepted, resolved)).2 = true ↔ resolved = true ∨
      ∃ parent ∈ parents, p.matchesGatewayParent parent ns = true ∧
        parent.carries "ResolvedRefs") := by
  induction parents generalizing accepted resolved with
  | nil => simp [scanParents]
  | cons parent parents ih =>
    simp only [scanParents, List.exists_mem_cons_iff]
    cases hmatch : p.matchesGatewayParent parent ns with
    | false => simpa [hmatch] using ih accepted resolved
    | true =>
      obtain ⟨haccepted, hresolved⟩ := ih (accepted || holds "Accepted" parent.conditions)
        (resolved || holds "ResolvedRefs" parent.conditions)
      simp only [Bool.not_true, Bool.false_eq_true, if_false, true_and, scanConditions_eq]
      rw [haccepted, hresolved]
      simp only [Bool.or_eq_true, or_assoc, RouteParentStatus.carries, and_self]

/-- The route of the publication was found, and is its own. -/
structure Found (p : HTTPRoutePublisher) (pub : Publication)
    (get : String × String → Except ApiError HTTPRoute) (route : HTTPRoute) : Prop where
  valid : p.validate pub = .ok ()
  read : get (p.routeNamespace, p.routeName pub) = .ok route
  own : samePublication route pub = true

theorem confirmPublished_eq_true {get : String × String → Except ApiError HTTPRoute} :
    confirmPublished p pub get = .ok true ↔ ∃ route, Found p pub get route ∧
      Reported p route "Accepted" ∧ Reported p route "ResolvedRefs" := by
  have hscan : ∀ route, (scanParents p route.routeNamespace route.parents (false, false)).1 = true ∧
      (scanParents p route.routeNamespace route.parents (false, false)).2 = true ↔
        Reported p route "Accepted" ∧ Reported p route "ResolvedRefs" := by
    intro route
    obtain ⟨haccepted, hresolved⟩ :=
      scanParents_eq_true p route.routeNamespace route.parents false false
    rw [haccepted, hresolved]
    simp [Reported]
  unfold confirmPublished
  constructor
  · intro h
    split at h
    · cases h
    · next hvalid =>
      split at h
      · cases h
      · cases h
      · next route hread =>
        split at h
        · cases h
        · next hown =>
          refine ⟨route, ⟨hvalid, hread, by simpa using hown⟩, (hscan route).mp ?_⟩
          simpa using h
  · rintro ⟨route, ⟨hvalid, hread, hown⟩, hreported⟩
    obtain ⟨haccepted, hresolved⟩ := (hscan route).mpr hreported
    simp [hvalid, hread, hown, haccepted, hresolved]

/-- A confirmation comes from one parent of the Gateway exactly where, of two parents that report
one condition each, one or another reports both. -/
theorem confirmed_by_one_parent_iff (p : HTTPRoutePublisher) (pub : Publication)
    (get : String × String → Except ApiError HTTPRoute) :
    (confirmPublished p pub get = .ok true → ∃ route, Found p pub get route ∧
        ∃ parent ∈ route.parents, p.matchesGatewayParent parent route.routeNamespace = true ∧
          parent.carries "Accepted" ∧ parent.carries "ResolvedRefs") ↔
      ∀ route, Found p pub get route → Reported p route "Accepted" →
        Reported p route "ResolvedRefs" →
        ∃ parent ∈ route.parents, p.matchesGatewayParent parent route.routeNamespace = true ∧
          parent.carries "Accepted" ∧ parent.carries "ResolvedRefs" := by
  constructor
  · intro h route hfound haccepted hresolved
    obtain ⟨route', hfound', hboth⟩ :=
      h (confirmPublished_eq_true.mpr ⟨route, hfound, haccepted, hresolved⟩)
    obtain rfl := Except.ok.inj (hfound.read.symm.trans hfound'.read)
    exact hboth
  · intro h hconfirmed
    obtain ⟨route, hfound, haccepted, hresolved⟩ := confirmPublished_eq_true.mp hconfirmed
    exact ⟨route, hfound, h route hfound haccepted hresolved⟩

namespace Sample

def publisher : HTTPRoutePublisher :=
  { hasClient := true, gatewayName := "higress", gatewayNamespace := "gateway"
    routeNamespace := "routes", publicBaseURL := "http://models", routeName := fun _ => "ani-pub" }

def published : Publication := ⟨"tenant", "service", 1⟩

/-- The Gateway is reported on by two controllers: the one accepts the route, and the other resolves
its backends. -/
def split : HTTPRoute :=
  { routeNamespace := "routes"
    labels := [("ani.kubercloud.com/tenant-id", "tenant"),
      ("ani.kubercloud.com/service-id", "service"), ("ani.kubercloud.com/generation", "1")]
    parents := [
      ⟨"higress", some "gateway", some "http", "higress.io/controller",
        [⟨"Accepted", "True"⟩, ⟨"ResolvedRefs", "False"⟩]⟩,
      ⟨"higress", some "gateway", some "http", "other.io/controller",
        [⟨"Accepted", "False"⟩, ⟨"ResolvedRefs", "True"⟩]⟩] }

end Sample

open Sample in
theorem confirmed_by_two_parents :
    confirmPublished publisher published (fun _ => .ok split) = .ok true ∧
      ∀ parent ∈ split.parents,
        ¬(parent.carries "Accepted" ∧ parent.carries "ResolvedRefs") :=
  ⟨rfl, by decide⟩

end AniInference.Gateway
