import Mathlib.Data.List.Sort
import ThreescaleTests.Configuration.Construction

/-!
# Gateways from settings

A gateway is built from the default block of the settings, the block named after its
class and the arguments of the function. `SelfManagedApicast` is built like any
other, but its `__new__` chooses another class and starts again with what it was
given.
-/

namespace ThreescaleTests.Gateways

open Library ThreescaleTests.Configuration

/-! ## Building a gateway of a given class -/

/-- How a kind of gateway is given. -/
inductive Kind where
  | name (name : String)
  | cls (cls : Callable)

def className : Callable → String
  | .cls name _ _ _ => name
  | .function name _ => name

variable {O : Type}

def settingsItem (settings : Value O) (name : String) : Except Exn (Value O) :=
  match settings with
  | .mapping fields =>
      match fields.lookup name with
      | some value => .ok value
      | none => .error (.keyError name)
  | _ => .error .typeError

def copiedDefault (settings : Value O) : Except Exn (Block O) := do
  match ← settingsItem settings "default" with
  | .mapping block => pure block
  | _ => .error (.other "AttributeError")

/-- The entries with which `update` is called. -/
def entries : Value O → Except Exn (Block O)
  | .mapping block => .ok block
  | .str text =>
      if text = "" then .ok []
      else .error (.valueError
        "dictionary update sequence element #0 has length 1; 2 is required")
  | .callable _ | .object _ => .error .typeError

def hasBlock (settings : Value O) (name : String) : Bool :=
  match settings with
  | .mapping fields => (fields.lookup name).isSome
  | _ => false

/-- The block named after a class, if there is one. -/
def ownBlock (settings : Value O) (cls : Callable) : Except Exn (Block O) :=
  if hasBlock settings (className cls) then settingsItem settings (className cls) >>= entries
  else .ok []

def defaultKind (kinds : Dict String Callable) (default : Block O) : Except Exn Callable :=
  match default.lookup "kind" with
  | some (.str name) => kinds.getItem name
  | some (.mapping _) => .error .typeError
  | _ => .error (.keyError "kind")

/-- The class of a gateway; without a kind the default block names it. -/
def classOf (kinds : Dict String Callable) (default : Block O) : Option Kind → Except Exn Callable
  | some (.name name) => kinds.getItem name
  | some (.cls cls) => .ok cls
  | none => defaultKind kinds default

/-- The `configuration` that is handed to the parser. -/
def configuration (settings : Value O) (cls : Callable) (default own kwargs : Block O) :
    Dict String (Value O) :=
  ((((Dict.ofList default).update own).update kwargs).set "kind" (.callable cls)).set
    "settings" settings

/-- What the parser knows, and how objects are constructed. -/
structure Parser (O : Type) where
  kinds : Dict String Callable
  construct : Callable → Args O → Except Exn O

def stagingGlobals (staging : Value O) : Dict String (Value O) :=
  Dict.ofList [("staging", staging)]

/-- `new_gateway`, up to the call of the class. -/
def newGateway (parser : Parser O) (kinds : Dict String Callable) (settings : Value O)
    (kind : Option Kind) (staging : Value O) (kwargs : Block O) : Except Exn (Call O) := do
  refuse ["kinds", "settings_", "kind", "staging"] (kwargs.map Prod.fst)
  let default ← copiedDefault settings
  let cls ← classOf kinds default kind
  let own ← ownBlock settings cls
  construction parser.kinds parser.construct (stagingGlobals staging)
    (configuration settings cls default own kwargs).items

/-! ## Choosing a class -/

/-- A class that extends `OpenshiftApicast`, with the parameters of its constructor. -/
structure Subclass where
  name : String
  init : List String
  priority : Int

def Subclass.callable (subclass : Subclass) : Callable := .ofInit subclass.name subclass.init

def templateApicast : Subclass where
  name := "TemplateApicast"
  init := ["staging", "openshift", "template", "name", "image", "portal_endpoint",
    "generate_name", "path_routing"]
  priority := 100

def operatorApicast : Subclass where
  name := "OperatorApicast"
  init := ["staging", "openshift", "name", "portal_endpoint", "image", "generate_name",
    "path_routing"]
  priority := 1000

/-- What the choice depends on: the subclasses, whether they fit to a client, and what the objects
are that the settings hold. -/
structure Deployments (O : Type) extends Parser O where
  subclasses : List Subclass
  fits : Subclass → Value O → Except Exn Bool
  truthy : O → Bool
  isClient : O → Bool
  none : O
  truthy_none : truthy none = false

variable (deployments : Deployments O)

/-- `SelfManagedApicast.expected_init_args`; order and repetitions do not matter, as in a set. -/
def expectedInitArgs : List String :=
  (["cls", "staging", "openshift", "settings", "force", "kwargs"] ++
    deployments.subclasses.flatMap fun subclass => "self" :: subclass.init).filter
      fun name => name ≠ "self" ∧ name ≠ "kwargs"

def selfManagedApicast : Callable :=
  .cls "SelfManagedApicast" ["staging", "openshift", "settings", "force", "kwargs"]
    ["self", "staging", "openshift", "settings", "force", "kwargs"]
    (some (expectedInitArgs deployments))

def truthy : Value O → Bool
  | .str text => text ≠ ""
  | .callable _ => true
  | .object object => deployments.truthy object
  | .mapping fields => !fields.isEmpty

def customOpenshift (settings : Value O) (name : String) : Value O :=
  match settings with
  | .mapping fields =>
      match fields.lookup name with
      | some (.mapping block) => (block.lookup "openshift").getD (.object deployments.none)
      | _ => .object deployments.none
  | _ => .object deployments.none

def openShiftClient : Callable :=
  .ofInit "OpenShiftClient" ["project_name", "server_url", "token"]

/-- `OpenShiftClient(custom.get("project_name"), custom.get("url"), custom.get("token"))` -/
def clientFor (custom : Block O) : Except Exn (Value O) :=
  let value (key : String) := (custom.lookup key).getD (.object deployments.none)
  let args := Dict.ofList [("project_name", value "project_name"), ("server_url", value "url"),
    ("token", value "token")]
  (deployments.construct openShiftClient fun name => args.get? name).map Value.object

/-- `_openshift` -/
def openshiftFor (settings openshift : Value O) (subclass : Subclass) : Except Exn (Value O) :=
  let custom := customOpenshift deployments settings subclass.name
  if truthy deployments custom then
    match custom with
    | .object client =>
        if deployments.isClient client then .ok custom else .error (.other "AttributeError")
    | .mapping block => clientFor deployments block
    | .str _ | .callable _ => .error (.other "AttributeError")
  else .ok openshift

/-- The fitting subclass of the highest priority; among equals the last one. -/
def bestCandidate (settings openshift : Value O) : Except Exn (Option Subclass) := do
  let candidates ← deployments.subclasses.filterM fun subclass => do
    let client ← openshiftFor deployments settings openshift subclass
    deployments.fits subclass client
  pure (candidates.insertionSort fun a b => a.priority ≤ b.priority).getLast?

/-- The class that is forced, or else the best candidate. -/
def chooseKind (force : Option (Value O)) (settings openshift : Value O) :
    Except Exn (Option Kind) :=
  match force.filter (truthy deployments) with
  | some (.str name) =>
      match deployments.subclasses.find? fun subclass => subclass.name = name with
      | some subclass => .ok (some (.cls subclass.callable))
      | none => .ok (some (.name name))
  | some (.callable cls) => .ok (some (.cls cls))
  | some _ => .error (.other "AttributeError")
  | none => do
      let candidate ← bestCandidate deployments settings openshift
      pure (candidate.map fun subclass => .cls subclass.callable)

/-- The parameters of `__new__`; they are not passed on. -/
def ownParameters : List String := ["cls", "staging", "openshift", "settings", "force"]

/-- What `__new__` passes on as `**kwargs`. -/
def passedOn (args : Args O) : Block O :=
  ((expectedInitArgs deployments).filter fun name => name ∉ ownParameters).filterMap
    fun name => (args name).map fun value => (name, value)

structure Received (O : Type) where
  staging : Value O
  openshift : Value O
  settings : Value O
  force : Option (Value O)
  kwargs : Block O

def receive (args : Args O) : Except Exn (Received O) :=
  match args "cls", args "staging", args "openshift", args "settings" with
  | none, some staging, some openshift, some settings =>
      .ok ⟨staging, openshift, settings, args "force", passedOn deployments args⟩
  | _, _, _, _ => .error .typeError

/-- `SelfManagedApicast.__new__`, up to the call of the chosen class. -/
def newSelfManaged (args : Args O) : Except Exn (Call O) := do
  let received ← receive deployments args
  let kind ← chooseKind deployments received.force received.settings received.openshift
  match kind with
  | none => .error (.other "NoSuitableApicastError")
  | some kind =>
      newGateway deployments.toParser
        (Dict.ofList (deployments.subclasses.map fun subclass =>
          (subclass.name, subclass.callable)))
        received.settings (some kind) received.staging received.kwargs

/-- The call of a constructor in which building a gateway ends. -/
def buildGateway (kinds : Dict String Callable) (settings : Value O) (kind : Option Kind)
    (staging : Value O) (kwargs : Block O) : Except Exn (Call O) := do
  let call ← newGateway deployments.toParser kinds settings kind staging kwargs
  if call.1 = selfManagedApicast deployments then newSelfManaged deployments call.2 else pure call

end ThreescaleTests.Gateways
