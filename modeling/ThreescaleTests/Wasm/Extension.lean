import ThreescaleTests.Library.Exn
import ThreescaleTests.Library.Json
import ThreescaleTests.Library.Run

/-!
# Credentials of the WASM extension

The credentials are held in three places: the production proxy configuration of
the service, the list remembered by the extension object and the deployed
resource. The operations below read and write them as the source does; which reads
and patches fail is decided by the environment.
-/

namespace ThreescaleTests.Wasm

open Library

inductive CredentialLabel where
  | userKey
  | appId
  | appKey
deriving DecidableEq

def CredentialLabel.text : CredentialLabel → String
  | .userKey => "user_key"
  | .appId => "app_id"
  | .appKey => "app_key"

/-- The labels in the order in which the source lists them. -/
def allLabels : List CredentialLabel := [.userKey, .appId, .appKey]

/-- One credential; those of OIDC have no key. -/
structure Credential where
  label : CredentialLabel
  key : Option Json
  credentialLocation : String
deriving DecidableEq

/-- The constants of the client library's `Service` that name authentication methods. -/
structure AuthMethods where
  userKey : String
  appIdKey : String
  oidc : String

/-- The extension object and what it talks to: the deployed resource, and the `proxy` part of
the latest production configuration. -/
structure World where
  credentials : Option (List Credential)
  deployed : Json
  config : Dict String Json

/-! ## Patches -/

def credentialsPath : List String := ["spec", "pluginConfig", "services", "0", "credentials"]

/-- Remove the list of a label and add an empty one. -/
def resetOps (label : CredentialLabel) : List Json.PatchOp :=
  [.remove [] label.text, .add [] label.text (.arr [])]

def credentialObj (cred : Credential) : Except Exn Json :=
  if cred.credentialLocation ∈ ["query_string", "header"] then
    match cred.key with
    | some key => .ok (.obj [(cred.credentialLocation, .obj [("keys", .arr [key])])])
    | none => .error (.keyError "key")
  else if cred.credentialLocation = "authorization" then .error (.notImplementedError "")
  else if cred.credentialLocation = "oidc" then
    .ok (.obj [("filter", .obj [("path", .arr [.str "envoy.filters.http.jwt_authn", .str "0"]),
      ("keys", .arr [.str "azp", .str "aud"]),
      ("ops", .arr [.obj [("take", .obj [("head", .num 1)])]])])])
  else .ok .null

/-- The operations that append the credentials to their lists. -/
def addOps : List Credential → Except Exn (List Json.PatchOp)
  | [] => .ok []
  | cred :: credentials => do
    let obj ← credentialObj cred
    let ops ← addOps credentials
    .ok (.add [cred.label.text] "-" obj :: ops)

/-- `httpbin.patch`: the operations are located below the credentials of the resource. A patch
that the server rejects, or that does not apply, leaves the resource as it is. -/
def patch (accepted : Bool) (ops : List Json.PatchOp) (w : World) : Except Exn Unit × World :=
  if accepted then
    match Json.applyPatch (ops.map (Json.PatchOp.under credentialsPath)) w.deployed with
    | some doc => (.ok (), { w with deployed := doc })
    | none => (.error (.other "OpenShiftPythonException"), w)
  else (.error (.other "OpenShiftPythonException"), w)

def replaceCredentials (accepted : Bool) (credentials : List Credential) (w : World) :
    Except Exn Unit × World :=
  match addOps credentials with
  | .error e => (.error e, w)
  | .ok ops => patch accepted (allLabels.flatMap resetOps ++ ops) w

def removeCredentials (accepted : Bool) (labels : List CredentialLabel) (w : World) :
    Except Exn Unit × World :=
  patch accepted (labels.flatMap resetOps) w

def removeAllCredentials (accepted : Bool) (w : World) : Except Exn Unit × World :=
  removeCredentials accepted allLabels w

/-! ## Synchronisation -/

/-- 3scale location values as WASM location values. -/
def translate : Json → Except Exn String
  | .str "query" => .ok "query_string"
  | .str "headers" => .ok "header"
  | .str "authorization" => .ok "authorization"
  | .str location => .error (.keyError location)
  | _ => .error .typeError

/-- The credentials that the production configuration asks for. -/
def configCredentials (auth : AuthMethods) (proxy : Dict String Json) :
    Except Exn (List Credential) := do
  let authAppId ← proxy.getItem "auth_app_id"
  let authAppKey ← proxy.getItem "auth_app_key"
  let authUserKey ← proxy.getItem "auth_user_key"
  let location ← proxy.getItem "credentials_location"
  let credentialsLocation ← translate location
  let authMethod ← proxy.getItem "authentication_method"
  .ok (if authMethod = .str auth.userKey then
      [⟨.userKey, some authUserKey, credentialsLocation⟩]
    else if authMethod = .str auth.appIdKey then
      [⟨.appId, some authAppId, credentialsLocation⟩,
        ⟨.appKey, some authAppKey, credentialsLocation⟩]
    else if authMethod = .str auth.oidc then [⟨.appId, none, "oidc"⟩]
    else [])

/-- `not self.credentials or self.credentials != credentials` -/
def outdated (cached : Option (List Credential)) (credentials : List Credential) : Bool :=
  cached = none ∨ cached = some [] ∨ cached ≠ some credentials

/-- `synchronise_credentials`; `readFails` is the exception of a failed read. -/
def synchroniseCredentials (auth : AuthMethods) (readFails : Option Exn) (accepted : Bool)
    (w : World) : Except Exn Bool × World :=
  match readFails with
  | some e => (.error e, w)
  | none =>
    match configCredentials auth w.config with
    | .error e => (.error e, w)
    | .ok credentials =>
      if outdated w.credentials credentials then
        -- remembered before it is deployed
        match replaceCredentials accepted credentials
            { w with credentials := some credentials } with
        | (.error e, w') => (.error e, w')
        | (.ok (), w') => (.ok true, w')
      else (.ok false, w)

/-! ## Runs -/

/-- The part of `plugin.yaml` that the patches edit. -/
def pluginTemplate : Json :=
  let keys (location key : String) : Json := .obj [(location, .obj [("keys", .arr [.str key])])]
  .obj [("spec", .obj [("pluginConfig", .obj [("services", .arr [.obj [
    ("authorities", .arr [.str "*"]), ("credentials", .obj [
      ("user_key", .arr [keys "query_string" "user_key", keys "header" "user_key"]),
      ("app_id", .arr [keys "header" "app_id", keys "query_string" "app_id"]),
      ("app_key", .arr [keys "header" "app_key", keys "query_string" "app_key"])])]])])])]

def World.create (config : Dict String Json) : World := ⟨none, pluginTemplate, config⟩

inductive Op where
  | changeConfig (proxy : Dict String Json)
  | synchronise (readFails : Option Exn) (accepted : Bool)
  | replace (credentials : List Credential) (accepted : Bool)
  | remove (labels : List CredentialLabel) (accepted : Bool)
  | removeAll (accepted : Bool)

def step (auth : AuthMethods) : Op → World → World
  | .changeConfig proxy, w => { w with config := proxy }
  | .synchronise readFails accepted, w => (synchroniseCredentials auth readFails accepted w).2
  | .replace credentials accepted, w => (replaceCredentials accepted credentials w).2
  | .remove labels accepted, w => (removeCredentials accepted labels w).2
  | .removeAll accepted, w => (removeAllCredentials accepted w).2

end ThreescaleTests.Wasm
