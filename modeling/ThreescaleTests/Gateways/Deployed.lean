import ThreescaleTests.Gateways.RoutesKept
import ThreescaleTests.Library.Retry

/-!
# Resources of a deployed APIcast

An APIcast of a template deletes its resources by name, one after the other; one of the
operator deletes what it has written down. Both may be destroyed when their `create` did
not come to an end, and any request to the cluster may fail, then without effect.
-/

namespace ThreescaleTests.Gateways.Deployed

open Library OpenshiftApicast

/-! ## The project -/

inductive Kind where
  | secret
  | service
  | deploymentConfig
  | deployment
  | apicast
deriving DecidableEq

structure Resource where
  kind : Kind
  name : String
deriving DecidableEq

/-- The resources of the project other than routes, and what the gateway holds of them:
`_to_delete`, and whether `self.apicast` is set. -/
structure Project where
  resources : List Resource
  toDelete : List Resource
  apicast : Bool
deriving DecidableEq

structure Life where
  gateway : Apicast
  project : Project
deriving DecidableEq

def onGateway {α : Type} (m : Prog Apicast α) : Prog Life α :=
  Prog.focus Life.gateway (fun gateway s => { s with gateway := gateway }) m

def onProject {α : Type} (m : Prog Project α) : Prog Life α :=
  Prog.focus Life.project (fun project s => { s with project := project }) m

def refused : Exn := .other "OpenShiftPythonException"

/-- A request; unless told otherwise it succeeds. -/
def command : Prog Life Unit := onGateway (onCluster Cluster.command)

def Project.create (r : Resource) : Prog Project Unit :=
  ⟨fun p =>
    if r ∈ p.resources then (.error refused, p)
    else (.ok (), { p with resources := p.resources ++ [r] })⟩

def Project.delete (r : Resource) (ignoreNotFound : Bool) : Prog Project Unit :=
  ⟨fun p =>
    if r ∈ p.resources then (.ok (), { p with resources := p.resources.filter (· ≠ r) })
    else if ignoreNotFound then (.ok (), p)
    else (.error refused, p)⟩

def create (r : Resource) : Prog Life Unit := do
  command
  onProject (Project.create r)

def delete (r : Resource) (ignoreNotFound : Bool) : Prog Life Unit := do
  command
  onProject (Project.delete r ignoreNotFound)

/-- `oc create -f -`: what is refused does not keep the rest from being created. -/
def createAll : List Resource → Prog Life Bool
  | [] => pure true
  | r :: rs => do
      let created ← Prog.handle (create r >>= fun _ => pure true) fun _ => pure false
      let rest ← createAll rs
      pure (created && rest)

/-- `openshift.new_app`: the template is processed, and what comes out is created. -/
def newApp (objects : List Resource) : Prog Life Unit := do
  command
  let created ← createAll objects
  if created then pure () else Prog.raise refused

/-- The property `deployment`, by what it finds. -/
def deployment (name : String) : Prog Life Resource :=
  Prog.handle (do
    command
    let p ← Prog.gets Life.project
    if ⟨.deployment, name⟩ ∈ p.resources then pure ⟨.deployment, name⟩ else Prog.raise refused)
    fun _ => pure ⟨.deploymentConfig, name⟩

/-- `OpenshiftApicast.destroy` -/
def destroyRegistered : Prog Life Unit := do
  let s ← Prog.gets id
  onGateway (Prog.forEach destroyRoute s.gateway.routes)
  Prog.forEach (fun r => delete r true) s.project.toDelete

/-! ## The two classes -/

section

variable (cfg : Config)

def service : Resource := ⟨.service, cfg.name⟩

def deploymentConfig : Resource := ⟨.deploymentConfig, cfg.name⟩

namespace TemplateApicast

/-- `template_parameters["CONFIGURATION_URL_SECRET"]` -/
def secret : Resource := ⟨.secret, cfg.name ++ "-secret"⟩

/-- `create`, with the two objects of `apicast.yml` -/
def create : Prog Life Unit := do
  let _ ← deployment cfg.name
  Deployed.create (secret cfg)
  newApp [deploymentConfig cfg, service cfg]
  let _ ← deployment cfg.name
  command
  onGateway (createBaseRoute cfg)

def destroy : Prog Life Unit := do
  destroyRegistered
  -- three reads of the property: two in messages, and one for the name
  let _ ← deployment cfg.name
  let _ ← deployment cfg.name
  let _ ← deployment cfg.name
  delete (service cfg) false
  let _ ← deployment cfg.name
  let found ← deployment cfg.name
  delete found false
  delete (secret cfg) false

end TemplateApicast

namespace OperatorApicast

def secret : Resource := ⟨.secret, cfg.name⟩

def apicast : Resource := ⟨.apicast, cfg.name⟩

def createSecret (r : Resource) : Prog Life Unit := do
  Deployed.create r
  onProject (Prog.modify fun p => { p with toDelete := p.toDelete ++ [r] })

/-- `APIcast.commit`: the object is created, and read again. -/
def commit : Prog Life Unit := do
  Deployed.create (apicast cfg)
  command
  onProject (Prog.modify fun p => { p with apicast := true })

def create : Prog Life Unit := do
  createSecret (secret cfg)
  commit cfg
  let _ ← deployment ("apicast-" ++ cfg.name)
  command
  onGateway (createBaseRoute cfg)

/-- `connect_open_telemetry`, with the commands of `modify_and_apply` and `reload`. -/
def connectOpenTelemetry (commands : Nat) : Prog Life Unit := do
  createSecret ⟨.secret, cfg.name ++ "-jaeger"⟩
  onGateway (otherCommands commands)

def destroy : Prog Life Unit := do
  let held ← Prog.gets fun s : Life => s.project.apicast
  if held then delete (apicast cfg) true else pure ()
  destroyRegistered

end OperatorApicast

/-! ## Runs -/

/-- What is done with a gateway; `commands` are requests that create or delete nothing. -/
inductive Op where
  | create
  | destroy
  | routes (op : OpenshiftApicast.Op)
  | connectOpenTelemetry (commands : Nat)
  | commands (n : Nat)

structure Call where
  op : Op
  failures : List Bool

def Life.withFailures (s : Life) (failures : List Bool) : Life :=
  { s with gateway := s.gateway.withFailures failures }

/-- `connect_open_telemetry` is a method of the operator's class. -/
def TemplateApicast.perform : Op → Prog Life Unit
  | .create => TemplateApicast.create cfg
  | .destroy => TemplateApicast.destroy cfg
  | .routes op => onGateway (OpenshiftApicast.perform cfg op)
  | .connectOpenTelemetry _ => Prog.raise (.other "AttributeError")
  | .commands n => onGateway (otherCommands n)

def OperatorApicast.perform : Op → Prog Life Unit
  | .create => OperatorApicast.create cfg
  | .destroy => OperatorApicast.destroy cfg
  | .routes op => onGateway (OpenshiftApicast.perform cfg op)
  | .connectOpenTelemetry commands => OperatorApicast.connectOpenTelemetry cfg commands
  | .commands n => onGateway (otherCommands n)

/-- One call; an exception leaves what was done before. -/
def step (perform : Op → Prog Life Unit) (call : Call) (s : Life) : Life :=
  ((perform call.op).run (s.withFailures call.failures)).2

/-- A new gateway in a project that has resources already. -/
def init (routes : Dict String Route) (resources : List Resource) : Life where
  gateway := OpenshiftApicast.init routes []
  project := ⟨resources, [], false⟩

end

def exampleConfig : Config where
  name := "apicast"
  deploymentName := "apicast"
  staging := true
  secure := true
  pathRouting := false
  implementation := .plain
  assignedHost name := name
  setupCommands := 0

end ThreescaleTests.Gateways.Deployed
