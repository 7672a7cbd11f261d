import ThreescaleTests.Library.Dict
import ThreescaleTests.Library.Pattern
import ThreescaleTests.Library.Prog

/-!
# Environment variables of a deployment

An `Environ` reads the variables of a deployment from the listing that the command
line client prints and writes them with further commands. What it has read is kept
until it writes.
-/

namespace ThreescaleTests.Openshift

open Library

/-- Where a variable has its value from: the three classes of variables. -/
inductive Source where
  | plain (value : Text)
  | secret (resource key : Text)
  | configMap (resource key : Text)
deriving DecidableEq

/-! ## Reading a listing -/

def plainPattern : Pattern := [.group, .lit "=".toList, .group]

def secretPattern : Pattern :=
  [.lit "# ".toList, .group, .lit " from secret ".toList, .group, .lit ", key ".toList, .group]

def configMapPattern : Pattern :=
  [.lit "# ".toList, .group, .lit " from configmap ".toList, .group, .lit ", key ".toList, .group]

def plainVariable : List Text → Option (Text × Source)
  | [name, value] => some (name, .plain value)
  | _ => none

def secretVariable : List Text → Option (Text × Source)
  | [name, resource, key] => some (name, .secret resource key)
  | _ => none

def configMapVariable : List Text → Option (Text × Source)
  | [name, resource, key] => some (name, .configMap resource key)
  | _ => none

/-- `Environ.types`: the patterns are tried in this order. -/
def types : List (Pattern × (List Text → Option (Text × Source))) :=
  [(plainPattern, plainVariable), (secretPattern, secretVariable),
    (configMapPattern, configMapVariable)]

def parseLine (line : Text) : Option (Text × Source) :=
  types.findSome? fun t => (t.1.find line).bind t.2

/-- The variables of the output of `oc set env --list`, under their names. -/
def parseListing (out : Text) : Dict Text Source :=
  (out.splitOn '\n').foldl
    (fun envs line =>
      match parseLine line with
      | some (name, source) => envs.set name source
      | none => envs)
    Dict.empty

/-! ## Values -/

inductive Value where
  | text (value : Text)
  | bool (value : Bool)
  | bytes (value : List UInt8)
deriving DecidableEq

def hexDigit (n : Nat) : Char := "0123456789abcdef".toList.getD n '0'

/-- A byte as `repr` shows it between the given quotes. -/
def byteRepr (quote : Char) (b : UInt8) : Text :=
  let c := Char.ofNat b.toNat
  if c = quote then ['\\', c]
  else if c = '\\' then "\\\\".toList
  else if c = '\t' then "\\t".toList
  else if c = '\n' then "\\n".toList
  else if c = '\r' then "\\r".toList
  else if b.toNat < 32 ∨ 127 ≤ b.toNat then
    ['\\', 'x', hexDigit (b.toNat / 16), hexDigit (b.toNat % 16)]
  else [c]

def bytesRepr (bytes : List UInt8) : Text :=
  let quote := if 39 ∈ bytes ∧ 34 ∉ bytes then '"' else '\''
  'b' :: quote :: bytes.flatMap (byteRepr quote) ++ [quote]

def Value.str : Value → Text
  | .text value => value
  | .bool true => "True".toList
  | .bool false => "False".toList
  | .bytes value => bytesRepr value

/-- APIcast does not recognise `True`. -/
def Value.lowerTrue : Value → Value
  | .bool true => .text "true".toList
  | value => value

def assignment (name : Text) (value : Value) : Text := name ++ '=' :: value.str

/-! ## Commands -/

/-- What the client library does for one deployment. -/
class Oc (D : Type) where
  /-- The output of `oc set env RESOURCE --list`. -/
  list : Prog D Text
  /-- `oc set env RESOURCE args…` -/
  setEnv : List Text → Prog D Unit
  /-- `deployment.wait_for()` -/
  waitFor : Prog D Unit
  /-- `openshift.secrets[secret][key]`, decoded -/
  secretValue : Text → Text → Prog D (List UInt8)
  /-- `openshift.config_maps[config][key]` -/
  configMapValue : Text → Text → Prog D Text

section Variables

variable {D : Type} [Oc D]

def Source.get : Source → Prog D Value
  | .plain value => pure (.text value)
  | .secret resource key => do
      let bytes ← Oc.secretValue resource key
      pure (.bytes bytes)
  | .configMap resource key => do
      let text ← Oc.configMapValue resource key
      pure (.text text)

def Source.set (name : Text) (value : Value) : Source → Prog D Unit
  | .plain _ => do
      Oc.setEnv [assignment name value]
      Oc.waitFor
  | _ => Prog.lift (.error (.notImplementedError ""))

def Source.delete (name : Text) : Source → Prog D Unit
  | .plain _ => do
      Oc.setEnv [name ++ ['-']]
      Oc.waitFor
  | _ => Prog.lift (.error (.notImplementedError ""))

end Variables

/-! ## Environ -/

/-- An `Environ` object, with the deployment it is about. -/
structure Environ (D : Type) where
  deployment : D
  envs : Option (Dict Text Source)

namespace Environ

variable {D : Type} [Oc D]

def onDeployment {α : Type} (m : Prog D α) : Prog (Environ D) α :=
  Prog.focus Environ.deployment (fun d env => { env with deployment := d }) m

omit [Oc D] in
theorem onDeployment_run {α : Type} {m : Prog D α} {env : Environ D} {r : Except Exn α} {d : D}
    (h : m.run env.deployment = (r, d)) :
    (onDeployment m).run env = (r, { env with deployment := d }) := by
  rw [onDeployment, Prog.focus_run, h]

def setEnvs (envs : Option (Dict Text Source)) : Prog (Environ D) Unit :=
  Prog.modify fun env => { env with envs := envs }

def refresh : Prog (Environ D) Unit := do
  setEnvs (some Dict.empty)
  let out ← onDeployment Oc.list
  setEnvs (some (parseListing out))

def readEnvs : Prog (Environ D) (Dict Text Source) := do
  let envs ← Prog.gets Environ.envs
  match envs with
  | some envs => pure envs
  | none => do
      refresh
      Prog.gets fun env => env.envs.getD Dict.empty

def setMany (envs : List (Text × Value)) : Prog (Environ D) Unit := do
  onDeployment (Oc.setEnv (envs.map fun e => assignment e.1 e.2.lowerTrue))
  onDeployment Oc.waitFor
  setEnvs none

def missing {α : Type} (name : Text) : Prog (Environ D) α :=
  Prog.lift (.error (.keyError (String.ofList name)))

def getItem (name : Text) : Prog (Environ D) Value := do
  let envs ← readEnvs
  match envs.get? name with
  | none => missing name
  | some source => onDeployment source.get

/-- The write of `__setitem__`, for the variable that was read under the name. -/
def writeItem (name : Text) (value : Value) : Option Source → Prog (Environ D) Unit
  | some source => onDeployment (source.set name value)
  | none => do
      onDeployment (Oc.setEnv [assignment name value.lowerTrue])
      onDeployment Oc.waitFor

def setItem (name : Text) (value : Value) : Prog (Environ D) Unit := do
  let envs ← readEnvs
  writeItem name value (envs.get? name)
  setEnvs none

def eraseItem (name : Text) : Option Source → Prog (Environ D) Unit
  | none => missing name
  | some source => onDeployment (source.delete name)

def delItem (name : Text) : Prog (Environ D) Unit := do
  let envs ← readEnvs
  eraseItem name (envs.get? name)
  setEnvs none

end Environ

end ThreescaleTests.Openshift
