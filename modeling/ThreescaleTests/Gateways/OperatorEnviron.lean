import ThreescaleTests.Library.Json
import ThreescaleTests.Library.Prog
import ThreescaleTests.Library.Run

/-!
# The environment of an APIcast deployed by the operator

Variables are translated to fields of the APIcast resource. A change runs on the
local model of the resource first; then the model is sent to the server, and is read
back when the server has accepted it. Which characters are decimal digits is a
parameter, as are the client's dictionaries and what the server and the wait decide.
-/

namespace ThreescaleTests.Gateways

open Library

/-- A value as the resource stores it and as `str` shows it. -/
structure EnvValue where
  json : Json
  str : String
deriving DecidableEq

/-- The `spec` of the resource; the overrides are a map of strings in its schema. -/
structure Spec where
  fields : Dict String Json
  serviceConfigurationVersionOverride : Option (Dict String String)
deriving DecidableEq

namespace Spec

def get (spec : Spec) (key : String) : Json := (spec.fields.get? key).getD .null

def set (spec : Spec) (key : String) (value : Json) : Spec :=
  { spec with fields := spec.fields.set key value }

end Spec

/-- What `spec.get(item, default=None)` and `del spec[key]` come to in the client's library. A
deletion that raises has changed nothing. -/
structure ClientModel where
  get : Dict String Json → String → Except Exn Json
  del : Dict String Json → String → Except Exn (Dict String Json)

/-- A dictionary, whose `get` takes no keyword arguments. -/
def ClientModel.dict : ClientModel where
  get _ _ := .error .typeError
  del fields key := if key ∈ fields.keys then .ok (fields.erase key) else .error (.keyError key)

/-- What a name stands for: a field, or the function `apicast_service_list`. -/
inductive Target where
  | field (key : String)
  | apicastServiceList
deriving DecidableEq

def names : List (String × Target) :=
  [("APICAST_SERVICES_FILTER_BY_URL", .field "servicesFilterByURL"),
    ("APICAST_SERVICES_LIST", .apicastServiceList),
    ("APICAST_UPSTREAM_RETRY_CASES", .field "upstreamRetryCases"),
    ("APICAST_HTTPS_VERIFY_DEPTH", .field "httpsVerifyDepth"),
    ("APICAST_PATH_ROUTING", .field "pathRoutingEnabled"),
    ("HTTP_PROXY", .field "httpProxy"),
    ("HTTPS_PROXY", .field "httpsProxy"),
    ("NO_PROXY", .field "noProxy"),
    ("ALL_PROXY", .field "allProxy"),
    ("APICAST_LOAD_SERVICES_WHEN_NEEDED", .field "loadServicesWhenNeeded"),
    ("APICAST_CACHE_STATUS_CODES", .field "cacheStatusCodes"),
    ("APICAST_CACHE_MAX_TIME", .field "cacheMaxTime"),
    ("APICAST_CONFIGURATION_LOADER", .field "configurationLoadMode"),
    ("APICAST_CONFIGURATION_CACHE", .field "cacheConfigurationSeconds"),
    ("APICAST_LOG_LEVEL", .field "logLevel")]

/-- The service of a name that `APICAST_SERVICE_(\d+)_CONFIGURATION_VERSION` matches; a match
need not reach the end of the name. -/
def versionService (isDecimal : Char → Bool) (name : String) : Option String :=
  let start := "APICAST_SERVICE_".toList
  let rest := name.toList.drop start.length
  let digits := rest.takeWhile isDecimal
  if start <+: name.toList ∧ digits ≠ [] ∧
      "_CONFIGURATION_VERSION".toList <+: rest.drop digits.length then
    some (String.ofList digits)
  else none

def notImplementedYet (name : String) : Exn :=
  .notImplementedError
    ("Env variable " ++ name ++ " doesn't exists or is not yet implemented in operator")

/-! ## Modifiers of the model -/

def apicastServiceList (services : EnvValue) (spec : Spec) : Spec :=
  spec.set "enabledServices"
    (.arr ((services.str.toList.splitOn ',').map fun service => .str (String.ofList service)))

def setConfigurationVersion (service : String) (version : EnvValue) (spec : Spec) : Spec :=
  let overrides := spec.serviceConfigurationVersionOverride.getD Dict.empty
  { spec with serviceConfigurationVersionOverride := some (overrides.set service version.str) }

/-- `OperatorEnviron._set` -/
def setName (isDecimal : Char → Bool) (name : String) (value : EnvValue) : Prog Spec Unit :=
  match names.lookup name with
  | some (.field key) => Prog.modify fun spec => spec.set key value.json
  | some .apicastServiceList => Prog.modify (apicastServiceList value)
  | none =>
      match versionService isDecimal name with
      | some service => Prog.modify (setConfigurationVersion service value)
      | none => Prog.lift (.error (notImplementedYet name))

/-- `APIcast.__delitem__` -/
def deleteField (client : ClientModel) (key : String) : Prog Spec Unit :=
  ⟨fun spec =>
    match client.del spec.fields key with
    | .ok fields => (.ok (), { spec with fields := fields })
    | .error e => (.error e, spec)⟩

/-- `OperatorEnviron._delete` -/
def deleteName (client : ClientModel) (name : String) : Prog Spec Unit :=
  match names.lookup name with
  | some (.field key) => deleteField client key
  | some .apicastServiceList => Prog.lift (.error (.notImplementedError
      ("Callable env variable " ++ name ++ " cannot be deleted yet")))
  | none => Prog.lift (.error (notImplementedYet name))

/-! ## The object and the server -/

/-- The local model of the resource and the resource of the server. -/
structure APIcast where
  model : Spec
  server : Spec
deriving DecidableEq

def modifyAndApply (modifier : Prog Spec Unit) (accepted : Bool) : Prog APIcast Unit :=
  ⟨fun apicast =>
    match modifier.run apicast.model with
    | (.error e, spec) => (.error e, { apicast with model := spec })
    | (.ok (), spec) =>
        if accepted then (.ok (), ⟨spec, spec⟩)
        else (.error .assertionError, { apicast with model := spec })⟩

/-- What the environment decides: whether the server accepts the resource, and what
`wait_function` does. -/
structure Outcome where
  accepted : Bool
  waited : Except Exn Unit

namespace OperatorEnviron

def change (modifier : Prog Spec Unit) (outcome : Outcome) : Prog APIcast Unit := do
  modifyAndApply modifier outcome.accepted
  Prog.lift outcome.waited

def setMany (isDecimal : Char → Bool) (envs : List (String × EnvValue)) (outcome : Outcome) :
    Prog APIcast Unit :=
  change (Prog.forEach (fun e => setName isDecimal e.1 e.2) envs) outcome

def getItem (client : ClientModel) (name : String) : Prog APIcast Json :=
  match names.lookup name with
  | some (.field key) => ⟨fun apicast => (client.get apicast.model.fields key, apicast)⟩
  | some .apicastServiceList => Prog.lift (.error (.notImplementedError
      ("Callable env variable " ++ name ++ " cannot be read yet")))
  | none => Prog.lift (.error (notImplementedYet name))

def setItem (isDecimal : Char → Bool) (name : String) (value : EnvValue) (outcome : Outcome) :
    Prog APIcast Unit :=
  change (setName isDecimal name value) outcome

def delItem (client : ClientModel) (name : String) (outcome : Outcome) : Prog APIcast Unit :=
  change (deleteName client name) outcome

/-- No variable can be read when the client's model is a dictionary. -/
theorem getItem_dict_raises (name : String) (apicast : APIcast) :
    ∃ e, (getItem .dict name).run apicast = (.error e, apicast) := by
  unfold getItem
  cases names.lookup name with
  | none => exact ⟨_, rfl⟩
  | some target =>
      cases target with
      | field key => exact ⟨.typeError, rfl⟩
      | apicastServiceList => exact ⟨_, rfl⟩

/-! ## Runs -/

inductive Op where
  | setMany (envs : List (String × EnvValue)) (outcome : Outcome)
  | setItem (name : String) (value : EnvValue) (outcome : Outcome)
  | delItem (name : String) (outcome : Outcome)
  | getItem (name : String)

def perform (isDecimal : Char → Bool) (client : ClientModel) : Op → Prog APIcast Unit
  | .setMany envs outcome => setMany isDecimal envs outcome
  | .setItem name value outcome => setItem isDecimal name value outcome
  | .delItem name outcome => delItem client name outcome
  | .getItem name => do
      let _ ← getItem client name
      pure ()

/-- One operation, which may raise. -/
def step (isDecimal : Char → Bool) (client : ClientModel) (o : Op) (apicast : APIcast) : APIcast :=
  ((perform isDecimal client o).run apicast).2

end OperatorEnviron

end ThreescaleTests.Gateways
