import ThreescaleTests.Factories.World

/-!
# The factories

The factory fixtures of the test suite, statement by statement. Each returned
function creates one remote object; `custom_app_plan` first creates a service if it
is not given one.
-/

namespace ThreescaleTests.Factories

open Library

/-- A copy of the given parameters, changed by the hooks and annotated. -/
def preparedParams (cfg : Testconfig) (before : List Code) (annotated : Bool) (params : Loc) :
    Prog Memory Loc := do
  let params ← Memory.copy params
  let params ← Code.callAll before params
  if annotated then annotate cfg params
  pure params

/-- `if autoclean and not testconfig["skip_cleanup"]: request.addfinalizer(finalizer)` -/
def addIfAutoclean (cfg : Testconfig) (autoclean : Bool) (finalizer : Finalizer) :
    Prog World Unit :=
  if autoclean && !cfg.skipCleanup then addFinalizer finalizer else pure ()

/-! ## Services -/

structure ServiceArgs where
  params : Loc
  proxyParams : Option Loc
  backends : List (String × Obj)
  autoclean : Bool
  hooks : List Hook
  annotated : Bool

/-- `if not proxy_params: proxy_params = {}` -/
def givenOrEmpty : Option Loc → Prog Memory Loc
  | none => Memory.new (.dict .empty)
  | some l => do
    let c ← Memory.get l
    if c.isEmpty then Memory.new (.dict .empty) else pure l

/-- A finalizer of a service goes to pytest, or is kept aside if there is no autoclean. -/
def registerFinalizer (cfg : Testconfig) (autoclean : Bool) (finalizer : Finalizer) :
    Prog World Unit :=
  if cfg.skipCleanup then pure ()
  else if autoclean then addFinalizer finalizer
  else Prog.modify fun w => { w with orphans := w.orphans ++ [finalizer] }

def serviceParams (cfg : Testconfig) (c : ServiceArgs) : Prog Memory Json := do
  let params ← preparedParams cfg (selectHooks Hook.beforeService c.hooks) c.annotated c.params
  read (.ref params)

/-- `custom_service` up to the finalizer. -/
def createService (cfg : Testconfig) (remote : Remote) (c : ServiceArgs) : Prog World Obj := do
  let d ← onMemory (serviceParams cfg c)
  let svc ← create remote .service (.createService d)
  registerFinalizer cfg c.autoclean ⟨svc, selectHooks Hook.onServiceDelete c.hooks⟩
  pure svc

def createUsages (remote : Remote) (svc : Obj) (backends : List (String × Obj)) :
    Prog World Unit :=
  Prog.forEach (fun b => ask remote (.createUsage svc b.1 b.2)) backends

def proxyHooks (hooks : List Hook) (svc : Obj) : List Code :=
  (selectHooks Hook.beforeProxy hooks).map fun h => h svc

/-- What the proxy is updated with, if with anything. -/
def proxyParams (hooks : List Hook) (svc : Obj) (params : Loc) : Prog Memory (Option Json) := do
  let params ← Code.callAll (proxyHooks hooks svc) params
  let c ← Memory.get params
  if c.isEmpty then pure none
  else do
    let d ← read (.ref params)
    pure (some d)

/-- `custom_service` from the proxy update on. -/
def deployProxy (remote : Remote) (onCreate : List (Obj → Except Exn Unit)) (svc : Obj) :
    Option Json → Prog World Unit
  | none => do
      ask remote (.deployProxy svc)
      Prog.forEach (fun hook => Prog.lift (hook svc)) onCreate
  | some d => do
      let _ ← proxyUpdate remote svc d
      ask remote (.deployProxy svc)
      Prog.forEach (fun hook => Prog.lift (hook svc)) onCreate

/-- `custom_service` from the `before_proxy` hooks on. -/
def setupProxy (remote : Remote) (hooks : List Hook) (svc : Obj) (params : Loc) :
    Prog World Unit := do
  let d ← onMemory (proxyParams hooks svc params)
  deployProxy remote (selectHooks Hook.onServiceCreate hooks) svc d

def customService (cfg : Testconfig) (remote : Remote) (c : ServiceArgs) : Prog World Obj := do
  let params ← onMemory (givenOrEmpty c.proxyParams)
  let svc ← createService cfg remote c
  createUsages remote svc c.backends
  setupProxy remote c.hooks svc params
  pure svc

/-! ## Application plans, active docs and applications -/

structure PlanArgs where
  params : Loc
  service : Option Obj
  serviceProxySettings : Loc
  autoclean : Bool

def planService (cfg : Testconfig) (remote : Remote) (c : PlanArgs) : Prog World Obj :=
  match c.service with
  | some service => pure service
  | none => do
    let name := Val.plain (.str (cfg.blame "svc"))
    let params ← onMemory (Memory.new (.dict (Dict.ofList [("name", name)])))
    customService cfg remote ⟨params, some c.serviceProxySettings, [], true, [], true⟩

/-- `if autoclean: plans.append(plan)` -/
def collectPlan (autoclean : Bool) (plan : Obj) : Prog World Unit :=
  if autoclean then Prog.modify fun w => { w with plans := w.plans ++ [plan] } else pure ()

def customAppPlan (cfg : Testconfig) (remote : Remote) (c : PlanArgs) : Prog World Obj := do
  let service ← planService cfg remote c
  let d ← onMemory (read (.ref c.params))
  let plan ← create remote .appPlan (.createAppPlan service d)
  collectPlan c.autoclean plan
  pure plan

structure DocArgs where
  params : Loc
  autoclean : Bool

/-- `if autoclean: ads.append(acd)` -/
def collectDoc (autoclean : Bool) (acd : Obj) : Prog World Unit :=
  if autoclean then Prog.modify fun w => { w with ads := w.ads ++ [acd] } else pure ()

def customActiveDoc (remote : Remote) (c : DocArgs) : Prog World Obj := do
  let d ← onMemory (read (.ref c.params))
  let acd ← create remote .activeDoc (.createActiveDoc d)
  collectDoc c.autoclean acd
  pure acd

structure ApplicationArgs where
  params : Loc
  autoclean : Bool
  hooks : List Hook
  annotated : Bool

def applicationParams (cfg : Testconfig) (c : ApplicationArgs) : Prog Memory Json := do
  let params ←
    preparedParams cfg (selectHooks Hook.beforeApplication c.hooks) c.annotated c.params
  read (.ref params)

def customApplication (cfg : Testconfig) (remote : Remote) (c : ApplicationArgs) :
    Prog World Obj := do
  let d ← onMemory (applicationParams cfg c)
  let app ← create remote .application (.createApplication d)
  addIfAutoclean cfg c.autoclean ⟨app, selectHooks Hook.onApplicationDelete c.hooks⟩
  Prog.forEach (fun hook => Prog.lift (hook app)) (selectHooks Hook.onApplicationCreate c.hooks)
  pure app

/-! ## Backends and tenants -/

structure BackendArgs where
  name : String
  endpoint : Option String
  autoclean : Bool
  hooks : List Hook
  blameName : Bool

/-- `if endpoint is None: endpoint = private_base_url()` -/
def backendEndpoint (cfg : Testconfig) : Option String → Except Exn String
  | some endpoint => .ok endpoint
  | none => cfg.privateBaseUrl

def backendDict (cfg : Testconfig) (c : BackendArgs) (endpoint : String) : Cell Loc :=
  .dict (Dict.ofList [("name", .plain (.str (if c.blameName then cfg.blame c.name else c.name))),
    ("private_endpoint", .plain (.str endpoint))])

/-- `for hook in hooks: hook(params)` -/
def callEach (hooks : List Code) (params : Loc) : Prog Memory Unit :=
  Prog.forEach (fun hook => do
    let _ ← Code.call hook params
    pure ()) hooks

/-- What the backend is created with; what the hooks return is dropped. -/
def backendParams (cfg : Testconfig) (c : BackendArgs) (endpoint : String) :
    Prog Memory Json := do
  let params ← Memory.new (backendDict cfg c endpoint)
  callEach (selectHooks Hook.beforeBackend c.hooks) params
  read (.ref params)

def customBackend (cfg : Testconfig) (remote : Remote) (c : BackendArgs) : Prog World Obj := do
  let endpoint ← Prog.lift (backendEndpoint cfg c.endpoint)
  let d ← onMemory (backendParams cfg c endpoint)
  let backend ← create remote .backend (.createBackend d)
  addIfAutoclean cfg c.autoclean ⟨backend, selectHooks Hook.onBackendDelete c.hooks⟩
  Prog.forEach (fun hook => Prog.lift (hook backend)) (selectHooks Hook.onBackendCreate c.hooks)
  pure backend

structure TenantArgs where
  name : String
  autoclean : Bool
  username : Option String
  password : Option String

/-- `org_name` where no user name is given -/
def tenantUsername (orgName : String) : Option String → String
  | some username => if username = "" then orgName else username
  | none => orgName

def upgradeTenant (cfg : Testconfig) (remote : Remote) (tenant : Obj) : Prog World Unit :=
  match cfg.planUpgrade with
  | some plan => ask remote (.upgradePlan tenant plan)
  | none => pure ()

def customTenant (cfg : Testconfig) (remote : Remote) (c : TenantArgs) : Prog World Obj := do
  let orgName := cfg.blame c.name
  let username := tenantUsername orgName c.username
  let tenant ← create remote .tenant (.createTenant username c.password orgName)
  ask remote (.waitTenantReady tenant)
  addIfAutoclean cfg c.autoclean ⟨tenant, []⟩
  ask remote (.activateUser tenant username)
  upgradeTenant cfg remote tenant
  pure tenant

structure UiBackendArgs where
  name : String
  systemName : String
  description : String
  endpoint : String
  autoclean : Bool

/-- `if not endpoint: endpoint = private_base_url()` -/
def uiEndpoint (cfg : Testconfig) (endpoint : String) : Except Exn String :=
  if endpoint = "" then cfg.privateBaseUrl else .ok endpoint

def customUiBackend (cfg : Testconfig) (remote : Remote) (c : UiBackendArgs) : Prog World Obj := do
  ask remote .adminLogin
  let endpoint ← Prog.lift (uiEndpoint cfg c.endpoint)
  let _ ← create remote .backend (.createUiBackend c.name c.systemName c.description endpoint)
  let id ← send remote (.readBackend c.systemName) 0
  -- with autoclean the source defines a finalizer here, and does not register it
  pure ⟨.backend, id⟩

/-! ## A configuration and a server that agrees to everything -/

def exampleConfig : Testconfig where
  skipCleanup := false
  blame name := name
  blameDesc _ := .str "created by a test"
  privateBaseUrl := .ok "https://echo.example"
  planUpgrade := none

def exampleRemote : Remote := fun _ _ => .ok 1

end ThreescaleTests.Factories
