import ThreescaleTests.Library.Prog
import ThreescaleTests.Library.Run

/-!
# Routes of an APIcast deployed to OpenShift

The gateway writes down the names of the routes that it adds, and removes routes by
name: one by one, with the service they belong to, and all of them in the end. Any
command of the cluster may fail, and then it has no effect.
-/

namespace ThreescaleTests.Gateways.OpenshiftApicast

open Library

/-! ## The cluster -/

inductive RouteType where
  | edge
  | passthrough
  | reencrypt
deriving DecidableEq

structure Route where
  type : RouteType
  args : List (String × String)
  host : String
deriving DecidableEq

/-- What happened to a route by way of a command. -/
inductive Event where
  | created (name : String)
  | deleted (name : String)
deriving DecidableEq

/-- The routes of the cluster, which of the next commands fail, and what the commands so far did to
routes. -/
structure Cluster where
  routes : Dict String Route
  failures : List Bool
  log : List Event
deriving DecidableEq

namespace Cluster

/-- A command; unless told otherwise it succeeds. -/
def command : Prog Cluster Unit :=
  ⟨fun c =>
    match c.failures with
    | [] => (.ok (), c)
    | fails :: failures =>
        (if fails then .error (.other "OpenShiftPythonException") else .ok (),
          { c with failures := failures })⟩

def contains (name : String) : Prog Cluster Bool := do
  command
  Prog.gets fun c => decide (name ∈ c.routes.keys)

/-- `openshift.do_action("get", ["route", name, …]).out()` -/
def getHost (name : String) : Prog Cluster String := do
  command
  let route ← Prog.gets fun c => c.routes.get? name
  match route with
  | some route => pure route.host
  | none => Prog.lift (.error (.other "OpenShiftPythonException"))

def delItem (name : String) : Prog Cluster Unit := do
  let found ← contains name
  if found then do
    command
    Prog.modify fun c => { c with routes := c.routes.erase name, log := c.log ++ [.deleted name] }
  else Prog.lift (.error (.keyError ""))

/-- `openshift.routes.create`; without a hostname the cluster assigns one. -/
def create (assignedHost : String → String) (name : String) (type : RouteType)
    (args : List (String × String)) : Prog Cluster Route := do
  command
  ⟨fun c =>
    if name ∈ c.routes.keys then (.error (.other "OpenShiftPythonException"), c)
    else
      let route := ⟨type, args, (args.lookup "hostname").getD (assignedHost name)⟩
      (.ok route, { c with routes := c.routes.set name route, log := c.log ++ [.created name] })⟩

end Cluster

/-! ## The gateway -/

inductive Implementation where
  | plain
  | tls (superdomain : String)

/-- What does not change while the gateway lives; `setupCommands` is how many commands `setup_tls`
runs. -/
structure Config where
  name : String
  deploymentName : String
  staging : Bool
  secure : Bool
  pathRouting : Bool
  implementation : Implementation
  assignedHost : String → String
  setupCommands : Nat

/-- The gateway, and the cluster it works on. `_to_delete` holds names of secrets. -/
structure Apicast where
  routes : List String
  baseRoute : Option String
  toDelete : List String
  cluster : Cluster
deriving DecidableEq

def onCluster {α : Type} (m : Prog Cluster α) : Prog Apicast α :=
  Prog.focus Apicast.cluster (fun c gw => { gw with cluster := c }) m

variable (cfg : Config)

/-- `self.deployment.name`; a failure of the command means a deployment config. -/
def deploymentName : Prog Cluster String := do
  Prog.swallow Cluster.command
  pure cfg.deploymentName

def routename (entityId : String) : String := entityId ++ "-" ++ cfg.name

def Implementation.defaultType : Implementation → RouteType
  | .plain => .edge
  | .tls _ => .passthrough

def Implementation.args (name service : String) : Implementation → List (String × String)
  | .plain => [("service", service), ("insecure-policy", "Allow")]
  | .tls superdomain =>
      [("hostname", name ++ "." ++ superdomain), ("service", service), ("port", "httpsproxy")]

def createRoute (name : String) (type : RouteType) (service : String) : Prog Apicast Route := do
  let result ← onCluster
    (Cluster.create cfg.assignedHost name type (cfg.implementation.args name service))
  Prog.modify fun gw => { gw with routes := gw.routes ++ [name] }
  pure result

/-- `self.deployment.name` in `add_route`. `TLSApicast` gets the property of its gateway by
`__getattr__`, which evaluates it once more in `hasattr`. -/
def serviceName : Prog Cluster String := do
  match cfg.implementation with
  | .plain => deploymentName cfg
  | .tls _ => do
      let _ ← deploymentName cfg
      deploymentName cfg

def addRoute (name : String) (kind : Option RouteType) : Prog Apicast Route := do
  let service ← onCluster (serviceName cfg)
  createRoute cfg name (kind.getD cfg.implementation.defaultType) service

def getBaseRoute : Prog Apicast String := do
  let known ← Prog.gets Apicast.baseRoute
  match known with
  | some host => pure host
  | none => do
      let name ← onCluster (deploymentName cfg)
      let host ← onCluster (Cluster.getHost ("base-" ++ name))
      Prog.modify fun gw => { gw with baseRoute := some host }
      pure host

/-- The host that `before_proxy` puts into the parameters. -/
def proxyHost (entityId : String) : Prog Apicast String :=
  if cfg.pathRouting then getBaseRoute cfg
  else do
    let route ← addRoute cfg (routename cfg entityId) none
    pure route.host

def beforeProxy (entityId : String) (proxyParams : Dict String String) :
    Prog Apicast (Dict String String) := do
  let host ← proxyHost cfg entityId
  let key := if cfg.staging then "sandbox_endpoint" else "endpoint"
  let url := (if cfg.secure then "https://" else "http://") ++ host
  pure (proxyParams.set key url)

def removeRoute (name : String) : Prog Apicast Unit := do
  onCluster (Cluster.delItem name)
  Prog.modify fun gw => { gw with routes := gw.routes.erase name }

def deleteRoute (name : String) : Prog Apicast Unit := do
  let known ← Prog.gets fun gw => decide (name ∈ gw.routes)
  if known then do
    let found ← onCluster (Cluster.contains name)
    if found then removeRoute name else pure ()
  else pure ()

def onServiceDelete (entityId : String) : Prog Apicast Unit :=
  if cfg.pathRouting then pure () else deleteRoute (routename cfg entityId)

/-- A number of commands that touch no routes. -/
def otherCommands (n : Nat) : Prog Apicast Unit :=
  Prog.forEach (fun _ => onCluster Cluster.command) (List.range n)

/-- `OpenshiftApicast.create` -/
def createBaseRoute : Prog Apicast Unit :=
  if cfg.pathRouting then do
    let name ← onCluster (deploymentName cfg)
    let _ ← addRoute cfg ("base-" ++ name) none
    pure ()
  else pure ()

/-- What `TLSApicast` does after its gateway, in a number of commands. -/
def tlsCommands (n : Nat) : Prog Apicast Unit :=
  match cfg.implementation with
  | .plain => pure ()
  | .tls _ => otherCommands n

/-- `create`; with certificates also the secret and `setup_tls`. -/
def create : Prog Apicast Unit := do
  createBaseRoute cfg
  tlsCommands cfg (1 + cfg.setupCommands)

def destroyRoute (name : String) : Prog Apicast Unit := do
  let found ← onCluster (Cluster.contains name)
  if found then onCluster (Cluster.delItem name) else pure ()

/-- `destroy`; with certificates also the secret. -/
def destroy : Prog Apicast Unit := do
  let routes ← Prog.gets Apicast.routes
  Prog.forEach destroyRoute routes
  let toDelete ← Prog.gets Apicast.toDelete
  otherCommands toDelete.length
  tlsCommands cfg 1

/-! ## Runs -/

inductive Op where
  | create
  | beforeProxy (entityId : String) (proxyParams : Dict String String)
  | addRoute (name : String) (kind : Option RouteType)
  | deleteRoute (name : String)
  | onServiceDelete (entityId : String)

structure Call where
  op : Op
  failures : List Bool

def perform : Op → Prog Apicast Unit
  | .create => create cfg
  | .beforeProxy entityId proxyParams => do
      let _ ← beforeProxy cfg entityId proxyParams
      pure ()
  | .addRoute name kind => do
      let _ ← addRoute cfg name kind
      pure ()
  | .deleteRoute name => deleteRoute name
  | .onServiceDelete entityId => onServiceDelete cfg entityId

def Apicast.withFailures (gw : Apicast) (failures : List Bool) : Apicast :=
  { gw with cluster := { gw.cluster with failures := failures } }

/-- One call; an exception leaves what was done before. -/
def step (call : Call) (gw : Apicast) : Apicast :=
  ((perform cfg call.op).run (gw.withFailures call.failures)).2

/-- A new gateway on a cluster that has routes already. -/
def init (routes : Dict String Route) (toDelete : List String) : Apicast :=
  ⟨[], none, toDelete, ⟨routes, [], []⟩⟩

end ThreescaleTests.Gateways.OpenshiftApicast
