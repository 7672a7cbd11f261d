import Mathlib.Algebra.Field.Rat
import Mathlib.Data.NNRat.Defs
import Mathlib.Order.WithBot
import ThreescaleTests.Library.Exn
import ThreescaleTests.Library.Sorting

/-!
# The routes of a tenant

The routes of a service are sorted by the tenant that their labels name, once by the
loader of the settings and once by `Routes.for_service`. Routes that name no tenant
come first in the one and last in the other, which cannot do without labels at all.
-/

namespace ThreescaleTests.Openshift

open Library

/-- The labels of a route, of which only `3scale.net/tenant_id` is read. -/
structure Labels where
  tenantId : Option ℚ≥0
deriving DecidableEq

structure TenantRoute where
  name : String
  service : String
  labels : Option Labels
deriving DecidableEq

namespace TenantRoute

def tenantId (route : TenantRoute) : Option ℚ≥0 := route.labels.bind Labels.tenantId

/-! ## The loader of the settings -/

/-- `labels.get("3scale.net/tenant_id", -1)` -/
def settingsKey (route : TenantRoute) : ℚ := (route.tenantId.map fun id => (id : ℚ)).getD (-1)

def groupFrom : List TenantRoute → Dict String (List TenantRoute) →
    Dict String (List TenantRoute)
  | [], mapping => mapping
  | route :: routes, mapping =>
      groupFrom routes
        (mapping.set route.service ((mapping.get? route.service).getD [] ++ [route]))

def getRoutes (routes : List TenantRoute) : Dict String (List TenantRoute) :=
  (groupFrom routes Dict.empty).mapValues (sortedBy settingsKey)

/-! ## The routes of the cluster -/

/-- `labels.get("3scale.net/tenant_id", math.inf)` -/
def portalKey (route : TenantRoute) : WithTop ℚ≥0 := route.tenantId.elim ⊤ fun id => (id : ℚ≥0)

/-- `x["metadata"]["labels"]`, which the key of every route reads. -/
def readLabels (route : TenantRoute) : Except Exn Unit :=
  match route.labels with
  | none => .error (.keyError "labels")
  | some _ => .ok ()

def routesTo (service : String) (routes : List TenantRoute) : List TenantRoute :=
  routes.filter fun route => decide (route.service = service)

def forService (service : String) (routes : List TenantRoute) :
    Except Exn (List TenantRoute) := do
  forEach readLabels (routesTo service routes)
  pure (sortedBy portalKey (routesTo service routes))

/-- Both give the service the same routes, in the same order. -/
def Agree (service : String) (routes : List TenantRoute) : Prop :=
  ∃ sorted, (getRoutes routes).get? service = some sorted ∧ forService service routes = .ok sorted

/-! ## What is sorted -/

theorem get?_groupFrom (service : String) (routes : List TenantRoute)
    (mapping : Dict String (List TenantRoute)) :
    (groupFrom routes mapping).get? service =
      if routesTo service routes = [] then mapping.get? service
      else some ((mapping.get? service).getD [] ++ routesTo service routes) := by
  induction routes generalizing mapping with
  | nil => rfl
  | cons route routes ih =>
      rw [groupFrom, ih, routesTo, routesTo]
      by_cases hservice : route.service = service
      · rw [List.filter_cons_of_pos (by simp [hservice]), Dict.get?_set, if_pos hservice.symm]
        by_cases hnone : routes.filter (fun route => decide (route.service = service)) = []
        · simp [hnone, hservice]
        · simp [hnone, hservice]
      · have hne : service ≠ route.service := fun h => hservice h.symm
        rw [List.filter_cons_of_neg (by simp [hservice]), Dict.get?_set_of_ne _ _ hne]

theorem get?_getRoutes {service : String} {routes : List TenantRoute}
    (h : routesTo service routes ≠ []) :
    (getRoutes routes).get? service = some (sortedBy settingsKey (routesTo service routes)) := by
  rw [getRoutes, Dict.get?_mapValues, get?_groupFrom, if_neg h]
  rfl

theorem forService_eq_ok_iff {service : String} {routes sorted : List TenantRoute} :
    forService service routes = .ok sorted ↔
      (∀ route ∈ routesTo service routes, route.labels.isSome = true) ∧
        sortedBy portalKey (routesTo service routes) = sorted := by
  have hread : ∀ route : TenantRoute, readLabels route = .ok () ↔ route.labels.isSome = true := by
    intro route
    rw [readLabels]
    cases route.labels <;> simp
  rw [forService, seq_eq_ok_iff, forEach_eq_ok_iff]
  simp only [hread, pure, Except.pure, Except.ok.injEq]

theorem agree_iff_sortedBy {service : String} {routes : List TenantRoute}
    (h : routesTo service routes ≠ []) :
    Agree service routes ↔ (∀ route ∈ routesTo service routes, route.labels.isSome = true) ∧
      sortedBy portalKey (routesTo service routes) =
        sortedBy settingsKey (routesTo service routes) := by
  simp only [Agree, get?_getRoutes h, forService_eq_ok_iff, Option.some.injEq, exists_eq_left']

/-! ## The two keys -/

/-- No route stands beside one that names a tenant without naming one itself. -/
def AllOrNone (routes : List TenantRoute) : Prop :=
  (∀ route ∈ routes, route.tenantId.isSome = true) ∨ ∀ route ∈ routes, route.tenantId = none

theorem key_le_iff {route other : TenantRoute} (h : route.tenantId.isSome = other.tenantId.isSome) :
    portalKey route ≤ portalKey other ↔ settingsKey route ≤ settingsKey other := by
  rw [portalKey, portalKey, settingsKey, settingsKey]
  cases hroute : route.tenantId with
  | none =>
      cases hother : other.tenantId with
      | none => simp
      | some id => rw [hroute, hother] at h; cases h
  | some id =>
      cases hother : other.tenantId with
      | none => rw [hroute, hother] at h; cases h
      | some id' => exact WithTop.coe_le_coe.trans NNRat.coe_le_coe.symm

/-- A route without a tenant has the least key for the loader and the greatest for the cluster. -/
theorem settingsKey_lt {route other : TenantRoute} {id : ℚ≥0} (hroute : route.tenantId = none)
    (hother : other.tenantId = some id) : settingsKey route < settingsKey other := by
  rw [settingsKey, settingsKey, hroute, hother]
  exact lt_of_lt_of_le (by decide : (-1 : ℚ) < 0) (NNRat.coe_nonneg id)

theorem portalKey_lt {route other : TenantRoute} {id : ℚ≥0} (hroute : route.tenantId = none)
    (hother : other.tenantId = some id) : portalKey other < portalKey route := by
  rw [portalKey, portalKey, hroute, hother]
  exact WithTop.coe_lt_top id

theorem sortedBy_eq_iff (routes : List TenantRoute) :
    sortedBy portalKey routes = sortedBy settingsKey routes ↔ AllOrNone routes := by
  constructor
  · intro h
    by_contra hmixed
    obtain ⟨hsome, hnone⟩ := not_or.mp hmixed
    push Not at hsome hnone
    obtain ⟨route, hroute, hunnamed⟩ := hsome
    obtain ⟨other, hother, hnamed⟩ := hnone
    rw [ne_eq, Option.isSome_iff_ne_none, not_not] at hunnamed
    obtain ⟨id, hid⟩ := Option.ne_none_iff_exists'.mp hnamed
    have hne : route ≠ other := fun heq => hnamed (heq ▸ hunnamed)
    rcases ordered_of_sortedBy_eq h hroute hother hne with ⟨hle, -⟩ | ⟨-, hle⟩
    · exact absurd hle (not_le.mpr (portalKey_lt hunnamed hid))
    · exact absurd hle (not_le.mpr (settingsKey_lt hunnamed hid))
  · intro h
    refine sortedBy_congr fun route hroute other hother => key_le_iff ?_
    rcases h with hsome | hnone
    · rw [hsome route hroute, hsome other hother]
    · rw [hnone route hroute, hnone other hother]

/-- The orders agree exactly for routes that all have labels and either all name their tenant or
none does. -/
theorem agree_iff {service : String} {routes : List TenantRoute}
    (h : routesTo service routes ≠ []) :
    Agree service routes ↔ (∀ route ∈ routesTo service routes, route.labels.isSome = true) ∧
      AllOrNone (routesTo service routes) := by
  rw [agree_iff_sortedBy h, sortedBy_eq_iff]

/-! ## A route without a tenant -/

def tenantRoute : TenantRoute := ⟨"zync-3scale-provider-abcde", "system-provider", some ⟨some 2⟩⟩

def manualRoute : TenantRoute := ⟨"provider", "system-provider", some ⟨none⟩⟩

/-- Three tenants, of which one has two routes, and a route of another service. -/
def tenantRoutes : List TenantRoute :=
  [⟨"c", "system-provider", some ⟨some 5⟩⟩, ⟨"a", "system-provider", some ⟨some 2⟩⟩,
    ⟨"backend", "backend-listener", none⟩, ⟨"d", "system-provider", some ⟨some 10⟩⟩,
    ⟨"b", "system-provider", some ⟨some 2⟩⟩]

/-- Both take the two routes of one tenant in the order in which they are listed. -/
theorem agree_iff_tenants :
    (getRoutes tenantRoutes).get? "system-provider" =
        some ([1, 4, 0, 3].filterMap fun i => tenantRoutes[i]?) ∧
      Agree "system-provider" tenantRoutes :=
  ⟨by decide, (agree_iff (by decide)).mpr ⟨by decide, .inl (by decide)⟩⟩

/-- The route of the tenant is the last one for the loader and the first one of the service. -/
theorem not_agree : ¬ Agree "system-provider" [tenantRoute, manualRoute] := by
  have hgroup : (getRoutes [tenantRoute, manualRoute]).get? "system-provider" =
      some [manualRoute, tenantRoute] := by decide
  have hservice : forService "system-provider" [tenantRoute, manualRoute] =
      .ok [tenantRoute, manualRoute] := by decide
  intro h
  obtain ⟨sorted, hget, hfor⟩ := h
  rw [hgroup] at hget
  rw [hservice, ← Option.some.inj hget] at hfor
  exact absurd hfor (by decide)

end TenantRoute

end ThreescaleTests.Openshift
