import ThreescaleTests.Toolbox.Constants
import ThreescaleTests.Toolbox.FindAndCmp

/-!
# Comparing two services

The tree of a service as the client returns it, and the comparison of two trees:
one function for each kind of entity, each with its ignored attributes, its
identifying attributes and its recursion. Client calls are fields of the tree.
-/

namespace ThreescaleTests.Toolbox

open Library

/-- Values of attributes that the comparison opens up. -/
class PyValue (V : Type) where
  dict? : V → Option (Attrs V)
  list? : V → Option (List V)

/-- Whether `jsondiff.diff` of two lists reports anything. -/
class JsonDiff (V : Type) where
  differ : List V → List V → Bool

/-- `jsondiff` is empty exactly on equal values. -/
class LawfulJsonDiff (V : Type) [JsonDiff V] : Prop where
  differ_eq_false_iff : ∀ a b : List V, JsonDiff.differ a b = false ↔ a = b

structure Metric (V : Type) where
  attrs : Attrs V
  methods : List (ApiObject V)

/-- An application plan with `limits(metric).list()`, `pricing_rules(metric).list()` and
`service.metrics.list()`. -/
structure AppPlan (V : Type) where
  attrs : Attrs V
  limits : Metric V → List (ApiObject V)
  pricingRules : Metric V → List (ApiObject V)
  serviceMetrics : List (Metric V)

/-- A proxy with `policies_registry.list()` and `configs.latest(env)`. -/
structure Proxy (V : Type) where
  attrs : Attrs V
  policiesRegistry : List V
  latestConfig : String → Attrs V

structure Backend (V : Type) where
  attrs : Attrs V
  metrics : List (Metric V)
  mappingRules : List (ApiObject V)

/-- A service with its lists and `threescale_client.backends.read`; the plans listed below a
service see the metrics of that service. -/
structure Service (V : Type) where
  attrs : Attrs V
  proxy : Proxy V
  metrics : List (Metric V)
  mappingRules : List (ApiObject V)
  appPlans : List (AppPlan V)
  activeDocs : List (ApiObject V)
  backendUsages : List (ApiObject V)
  readBackend : V → Except Exn (Backend V)
  plans_service : ∀ ap ∈ appPlans, ap.serviceMetrics = metrics

instance (V : Type) : Resource (Metric V) V := ⟨Metric.attrs⟩

instance (V : Type) : Resource (AppPlan V) V := ⟨AppPlan.attrs⟩

inductive ProductService where
  | product
  | service
deriving DecidableEq

variable {V : Type} [DecidableEq V] [ApiEq V]

/-- `set(ent.keys()) - ignored` -/
def attrsExcept (ent : Attrs V) (ignored : List String) : List String :=
  ent.keys.filter fun k => decide (k ∉ ignored)

/-- The sub-comparison of entities that have no children. -/
def cmpObjects (ignored : List String) (obj1 obj2 : ApiObject V) : Except Exn Unit :=
  cmpEnts obj1.attrs obj2.attrs (attrsExcept obj1.attrs ignored)

def cmpMethods (metr1 metr2 : Metric V) (cmpLength : Bool) : Except Exn Unit :=
  findAndCmp metr1.methods metr2.methods (cmpObjects metricMethodCmpAttrs) [] cmpLength

def cmpMetrics (metrs1 metrs2 : List (Metric V)) (cmpLength : Bool) : Except Exn Unit :=
  findAndCmp metrs1 metrs2 (fun metr1 metr2 => do
    cmpEnts metr1.attrs metr2.attrs (attrsExcept metr1.attrs metricCmpAttrs)
    cmpMethods metr1 metr2 cmpLength) ["friendly_name"] cmpLength

def cmpMappings (maps1 maps2 : List (ApiObject V)) (cmpLength : Bool) : Except Exn Unit :=
  findAndCmp maps1 maps2 (cmpObjects mappingCmpAttrs) ["pattern"] cmpLength

def cmpLimits (ap1 ap2 : AppPlan V) (cmpLength : Bool) : Except Exn Unit :=
  findAndCmp ap1.serviceMetrics ap2.serviceMetrics (fun metr1 metr2 =>
    findAndCmp (ap1.limits metr1) (ap2.limits metr2) (cmpObjects limitsCmpAttr) ["period"] true)
    ["friendly_name"] cmpLength

def cmpPricingRules (ap1 ap2 : AppPlan V) (cmpLength : Bool) : Except Exn Unit :=
  findAndCmp ap1.serviceMetrics ap2.serviceMetrics (fun metr1 metr2 =>
    findAndCmp (ap1.pricingRules metr1) (ap2.pricingRules metr2)
      (cmpObjects pricingRulesCmpAttrs) ["min", "max"] true)
    ["friendly_name"] cmpLength

/-- `cmp_app_plans`; the rules and limits of a plan are compared with their default
`cmp_length`. -/
def cmpAppPlans (svc1 svc2 : Service V) (cmpLength : Bool) : Except Exn Unit :=
  findAndCmp svc1.appPlans svc2.appPlans (fun ap1 ap2 => do
    cmpEnts ap1.attrs ap2.attrs (attrsExcept ap1.attrs appPlansCmpAttrs)
    cmpPricingRules ap1 ap2 true
    cmpLimits ap1 ap2 true) [] cmpLength

def cmpActiveDocs (svc1 svc2 : Service V) (cmpLength : Bool) : Except Exn Unit :=
  findAndCmp svc1.activeDocs svc2.activeDocs (cmpObjects activedocsCmpAttrs) [] cmpLength

def cmpBackends (back1 back2 : Backend V) (cmpLength : Bool) : Except Exn Unit := do
  assertThat (back1.attrs.size = back2.attrs.size)
  cmpEnts back1.attrs back2.attrs (attrsExcept back1.attrs backendCmpAttrs)
  cmpMetrics back1.metrics back2.metrics cmpLength
  cmpMappings back1.mappingRules back2.mappingRules cmpLength

def cmpBackendUsage (svc1 svc2 : Service V) (cmpLength : Bool) (bus1 bus2 : ApiObject V) :
    Except Exn Unit := do
  cmpEnts bus1.attrs bus2.attrs (attrsExcept bus1.attrs backendUsagesCmpAttrs)
  let serviceId1 ← bus1.attrs.getItem "service_id"
  let id1 ← svc1.attrs.getItem "id"
  assertThat (serviceId1 = id1)
  let serviceId2 ← bus2.attrs.getItem "service_id"
  let id2 ← svc2.attrs.getItem "id"
  assertThat (serviceId2 = id2)
  let backendId1 ← bus1.attrs.getItem "backend_id"
  let back1 ← svc1.readBackend backendId1
  let backendId2 ← bus2.attrs.getItem "backend_id"
  let back2 ← svc2.readBackend backendId2
  cmpBackends back1 back2 cmpLength

/-- `cmp_backend_usages`; the lengths of the usage lists are always compared. -/
def cmpBackendUsages (svc1 svc2 : Service V) (cmpLength : Bool) : Except Exn Unit :=
  findAndCmp svc1.backendUsages svc2.backendUsages (cmpBackendUsage svc1 svc2 cmpLength)
    ["path"] true

section Proxies

variable [PyValue V] [JsonDiff V]

def asDict (v : V) : Except Exn (Attrs V) :=
  match PyValue.dict? v with
  | some d => .ok d
  | none => .error .typeError

def asList (v : V) : Except Exn (List V) :=
  match PyValue.list? v with
  | some vs => .ok vs
  | none => .error .typeError

/-- `cmp_attrs.remove(attr)`, which raises if the attribute is not compared. -/
def removeAttr (attr : String) (cmpAttrs : List String) : Except Exn (List String) :=
  if attr ∈ cmpAttrs then .ok (cmpAttrs.filter fun k => decide (k ≠ attr))
  else .error (.keyError attr)

/-- The loop over `zip(last_proxy1["proxy_rules"], last_proxy1["proxy_rules"])`. -/
def cmpProxyRules (rules1 rules2 : List V) : Except Exn Unit :=
  forEach (fun p => do
    let rule1 ← asDict p.1
    let rule2 ← asDict p.2
    assertThat (rule1.size = rule2.size)
    cmpEnts rule1 rule2 (attrsExcept rule1 proxyRulesCmpAttrs)) (rules1.zip rules2)

def cmpLastProxies (lastProxy1 lastProxy2 : Attrs V) (productService : ProductService) :
    Except Exn Unit := do
  assertThat (lastProxy1.size = lastProxy2.size)
  let cmpAttrs := attrsExcept lastProxy1 proxyConfigContentProxyCmpAttrs
  let cmpAttrs ←
    if productService = .service then removeAttr "api_backend" cmpAttrs else .ok cmpAttrs
  cmpEnts lastProxy1 lastProxy2 cmpAttrs
  if productService = .product then
    let chain1 ← lastProxy1.getItem "policy_chain" >>= asList
    let chain2 ← lastProxy2.getItem "policy_chain" >>= asList
    -- the first item is the policy inserted by the system for backend routing
    assertThat (JsonDiff.differ (chain1.drop 1) (chain2.drop 1) = false)
  -- both operands of the source's `zip` are the rules of the first proxy
  let rules1 ← lastProxy1.getItem "proxy_rules" >>= asList
  cmpProxyRules rules1 rules1

def cmpLastConfigs (proxy1 proxy2 : Proxy V) (productService : ProductService) (env : String) :
    Except Exn Unit := do
  let lastConfig1 ← (proxy1.latestConfig env).getItem "content" >>= asDict
  let lastConfig2 ← (proxy2.latestConfig env).getItem "content" >>= asDict
  assertThat (lastConfig1.size = lastConfig2.size)
  cmpEnts lastConfig1 lastConfig2 (attrsExcept lastConfig1 proxyConfigContentCmpAttrs)
  let lastProxy1 ← lastConfig1.getItem "proxy" >>= asDict
  let lastProxy2 ← lastConfig2.getItem "proxy" >>= asDict
  cmpLastProxies lastProxy1 lastProxy2 productService

def cmpProxies (proxy1 proxy2 : Proxy V) (productService : ProductService) : Except Exn Unit := do
  assertThat (proxy1.attrs.size = proxy2.attrs.size)
  cmpEnts proxy1.attrs proxy2.attrs (attrsExcept proxy1.attrs proxyCmpAttrs)
  assertThat (JsonDiff.differ proxy1.policiesRegistry proxy2.policiesRegistry = false)
  forEach (cmpLastConfigs proxy1 proxy2 productService) ["sandbox"]

def cmpServices (svc1 svc2 : Service V) (productService : ProductService) (cmpLength : Bool) :
    Except Exn Unit := do
  assertThat (svc1.attrs.size = svc2.attrs.size)
  cmpEnts svc1.attrs svc2.attrs (attrsExcept svc1.attrs serviceCmpAttrs)
  cmpProxies svc1.proxy svc2.proxy productService
  cmpMetrics svc1.metrics svc2.metrics cmpLength
  cmpMappings svc1.mappingRules svc2.mappingRules cmpLength
  cmpAppPlans svc1 svc2 cmpLength
  cmpActiveDocs svc1 svc2 cmpLength
  cmpBackendUsages svc1 svc2 cmpLength

end Proxies

end ThreescaleTests.Toolbox
