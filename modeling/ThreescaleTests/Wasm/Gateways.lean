import Mathlib.Logic.Function.Basic
import ThreescaleTests.Library.Retry
import ThreescaleTests.Library.Run

/-!
# Gateways of the WASM extension

Several gateways share a cluster. Each deploys an extension with its own `httpbin` for every
service, all under a label of their own, and deletes by label. Any request to the cluster may
fail, then without effect; what failed in the middle leaves what was created, or not deleted,
before.
-/

namespace ThreescaleTests.Wasm.Gateways

open Library

/-! ## The cluster -/

/-- The two projects that the gateways are given. -/
inductive Project where
  | httpbin
  | mesh
deriving DecidableEq

inductive Kind where
  | deployment
  | service
  | virtualService
  | gateway
  | wasmPlugin
  | requestAuthentication
  | serviceEntry
  | destinationRule
deriving DecidableEq

structure Resource where
  project : Project
  kind : Kind
  name : String
  label : String
deriving DecidableEq

/-- The resources, and which of the next requests fail. -/
structure Cluster where
  resources : List Resource
  failures : List Bool

def refused : Exn := .other "OpenShiftPythonException"

/-- A request; unless told otherwise it succeeds. -/
def command : Prog Cluster Unit :=
  ⟨fun c =>
    match c.failures with
    | true :: failures => (.error refused, { c with failures := failures })
    | false :: failures => (.ok (), { c with failures := failures })
    | [] => (.ok (), c)⟩

/-- There is one object of a kind and name in a project. -/
def Resource.same (r r' : Resource) : Bool :=
  decide (r.project = r'.project ∧ r.kind = r'.kind ∧ r.name = r'.name)

def Cluster.add (r : Resource) : Prog Cluster Unit :=
  ⟨fun c =>
    if c.resources.any r.same then (.error refused, c)
    else (.ok (), { c with resources := c.resources ++ [r] })⟩

def createObject (r : Resource) : Prog Cluster Bool :=
  Prog.handle (do
    command
    Cluster.add r
    pure true) fun _ => pure false

def deleteObject (r : Resource) : Prog Cluster Bool :=
  Prog.handle (do
    command
    Prog.modify fun c => { c with resources := c.resources.filter (· ≠ r) }
    pure true) fun _ => pure false

/-- `oc` takes the objects one by one: one that is refused does not keep it from the rest, but from
ending well. -/
def eachObject (f : Resource → Prog Cluster Bool) : List Resource → Prog Cluster Bool
  | [] => pure true
  | r :: rs => do
      let done ← f r
      let rest ← eachObject f rs
      pure (done && rest)

/-- `new_app`: the template is processed, and what comes out is created. -/
def newApp (objects : List Resource) : Prog Cluster Unit := do
  command
  let created ← eachObject createObject objects
  if created then pure () else Prog.raise refused

/-- `delete_app`, with the kinds that `resources` stands for: what has the label is looked up, and
deleted. -/
def deleteApp (project : Project) (label : String) (kinds : List Kind) : Prog Cluster Unit := do
  command
  let found ← Prog.gets fun c => c.resources.filter fun r =>
    decide (r.project = project ∧ r.label = label ∧ r.kind ∈ kinds)
  let deleted ← eachObject deleteObject found
  if deleted then pure () else Prog.raise refused

/-! ## Objects of the templates -/

/-- The label of a service: `f"{parent_label}-{service['id']}"` -/
def serviceLabel (label id : String) : String := label ++ "-" ++ id

def httpbinObjects (label id : String) : List Resource :=
  [.deployment, .service, .virtualService, .gateway].map fun kind =>
    ⟨.httpbin, kind, "httpbin-" ++ id, serviceLabel label id⟩

def pluginObjects (label id : String) : List Resource :=
  [⟨.httpbin, .wasmPlugin, "threescale-extension-" ++ id, serviceLabel label id⟩]

def entryObjects (label name : String) : List Resource :=
  [.serviceEntry, .destinationRule].map fun kind => ⟨.mesh, kind, name ++ label, label⟩

def policyObject (label name id : String) : Resource :=
  ⟨.httpbin, .requestAuthentication, name, serviceLabel label id⟩

def serviceId (name : String) : Option String :=
  (name.toList.splitOn '-')[1]?.map String.ofList

/-! ## One gateway -/

/-- A gateway, with the services whose extensions it holds. -/
structure Gateway where
  cluster : Cluster
  extensions : List String

def onCluster (m : Prog Cluster Unit) : Prog Gateway Unit :=
  Prog.focus Gateway.cluster (fun cluster g => { g with cluster := cluster }) m

def extensionInit (label id : String) : Prog Cluster Unit := do
  newApp (httpbinObjects label id)
  newApp (pluginObjects label id)
  command

/-- `WASMExtension.delete`: `all,wasmplugin,gateways.networking.istio.io,virtualservice` -/
def extensionDelete (label id : String) : Prog Cluster Unit :=
  deleteApp .httpbin (serviceLabel label id)
    [.deployment, .service, .wasmPlugin, .gateway, .virtualService]

/-- What is done with a gateway; patches of its extensions create and delete nothing. -/
inductive Op where
  | create
  | destroy
  | onServiceCreate (id : String)
  | onServiceDelete (id : String)
  | createPolicy (name : String)
  | removePolicy (name : String)

def indexError : Exn := .other "IndexError"

def perform (label : String) : Op → Prog Gateway Unit
  | .create => onCluster do
      newApp (entryObjects label "system-entry-")
      newApp (entryObjects label "backend-entry-")
  | .destroy => onCluster (deleteApp .mesh label [.serviceEntry, .destinationRule])
  | .onServiceCreate id => do
      onCluster (extensionInit label id)
      Prog.modify fun g =>
        { g with extensions := if id ∈ g.extensions then g.extensions else g.extensions ++ [id] }
  | .onServiceDelete id => do
      let extensions ← Prog.gets Gateway.extensions
      if id ∈ extensions then do
        onCluster (extensionDelete label id)
        Prog.modify fun g => { g with extensions := g.extensions.filter (· ≠ id) }
      else Prog.raise (.keyError id)
  | .createPolicy name =>
      match serviceId name with
      | none => Prog.raise indexError
      | some id => onCluster (newApp [policyObject label name id])
  | .removePolicy name =>
      match serviceId name with
      | none => Prog.raise indexError
      | some id =>
          onCluster (deleteApp .httpbin (serviceLabel label id) [.requestAuthentication])

/-! ## Several gateways -/

/-- What a gateway has been asked to create and not seen deleted: whether its entries may be there,
the services whose extension was not created to the end, and the policies; beside them the services
whose extension was not deleted to the end. -/
structure Account where
  entries : Bool
  broken : List String
  policies : List String
  undeleted : List String

def Account.next (account : Account) : Op → Except Exn Unit → Account
  | .create, _ => { account with entries := true }
  | .destroy, .ok _ => { account with entries := false }
  | .onServiceCreate id, .ok _ => { account with undeleted := account.undeleted.filter (· ≠ id) }
  | .onServiceCreate id, .error _ => { account with broken := id :: account.broken }
  | .onServiceDelete id, .ok _ => { account with broken := account.broken.filter (· ≠ id) }
  | .onServiceDelete id, .error _ => { account with undeleted := id :: account.undeleted }
  | .createPolicy name, _ => { account with policies := name :: account.policies }
  | .removePolicy name, .ok _ =>
      { account with
        policies := account.policies.filter fun policy => serviceId policy ≠ serviceId name }
  | _, _ => account

/-- The cluster and its gateways, each with its extensions and its account. -/
structure World (κ : Type) where
  resources : List Resource
  extensions : κ → List String
  accounts : κ → Account

structure Call (κ : Type) where
  gateway : κ
  op : Op
  failures : List Bool

section

variable {κ : Type} [DecidableEq κ] (labels : κ → String)

def World.step (call : Call κ) (w : World κ) : World κ :=
  let result := (perform (labels call.gateway) call.op).run
    ⟨⟨w.resources, call.failures⟩, w.extensions call.gateway⟩
  { resources := result.2.cluster.resources
    extensions := Function.update w.extensions call.gateway result.2.extensions
    accounts := Function.update w.accounts call.gateway
      ((w.accounts call.gateway).next call.op result.1) }

/-- New gateways in a cluster that has resources already. -/
def World.init (resources : List Resource) : World κ where
  resources := resources
  extensions := fun _ => []
  accounts := fun _ => ⟨false, [], [], []⟩

end

end ThreescaleTests.Wasm.Gateways
