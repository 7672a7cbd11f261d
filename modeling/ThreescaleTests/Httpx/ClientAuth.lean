import ThreescaleTests.Library.Base64
import ThreescaleTests.Library.Exn

/-!
# Client authentication

The three authentication classes of the HTTP client write credentials into a
request at one of three locations. URLs and headers belong to the client library;
the laws below are what its documentation says about them.
-/

namespace ThreescaleTests.Httpx

open Library

/-! ## The client library -/

class Url (U : Type) where
  path : U → String
  params : U → List (String × String)
  /-- `URL(url, params=params)` -/
  withParams : U → Dict String String → U

class Headers (H : Type) where
  /-- The values sent under a name. -/
  getList : H → String → List String
  /-- `headers[name] = value` -/
  set : H → String → String → H

class LawfulUrl (U : Type) [Url U] : Prop where
  path_withParams : ∀ (url : U) (params : Dict String String),
    Url.path (Url.withParams url params) = Url.path url
  params_withParams : ∀ (url : U) (params : Dict String String),
    Url.params (Url.withParams url params) = params.items

/-- Header names are compared without regard to case. -/
class LawfulHeaders (H : Type) [Headers H] : Prop where
  getList_set : ∀ (headers : H) (name value other : String),
    Headers.getList (Headers.set headers name value) other =
      if other.toLower = name.toLower then [value] else Headers.getList headers other

attribute [simp] LawfulUrl.path_withParams LawfulUrl.params_withParams LawfulHeaders.getList_set

structure Request (U H : Type) where
  method : String
  url : U
  headers : H
  body : List UInt8

structure Response where
  statusCode : Nat

/-! ## Credentials -/

def utf8 (s : String) : List UInt8 := s.toList.flatMap String.utf8EncodeChar

def basicAuthString (key value : String) : String :=
  "Basic " ++ String.ofList (Base64.encode (utf8 key ++ 58 :: utf8 value))

/-- What the constructors of the three classes obtain. -/
inductive Credentials where
  | userKey (name key : String)
  | appIdKey (idName id keyName key : String)
  | oidc (token : String)
deriving DecidableEq

structure ClientAuth where
  location : String
  credentials : Credentials
deriving DecidableEq

/-- The part of an application and of its service's proxy that the constructors read. -/
structure Application where
  authUserKey : String
  authAppId : String
  authAppKey : String
  credentialsLocation : String
  userKey : String
  applicationId : String
  keys : List String

def userKeyAuth (app : Application) (location : Option String) : ClientAuth where
  location := location.getD app.credentialsLocation
  credentials := .userKey app.authUserKey app.userKey

def appIdKeyAuth (app : Application) (location : Option String) : Except Exn ClientAuth :=
  match app.keys.getLast? with
  | some key => .ok {
      location := location.getD app.credentialsLocation
      credentials := .appIdKey app.authAppId app.applicationId app.authAppKey key }
  | none => .error (.other "IndexError")

/-- `HttpxOidcClientAuth(service_rhsso_info, app, location)` -/
def oidcClientAuth (accessToken : Except Exn String) (app : Application)
    (location : Option String) : Except Exn ClientAuth := do
  let token ← accessToken
  .ok { location := location.getD app.credentialsLocation, credentials := .oidc token }

namespace Credentials

def dict : Credentials → Dict String String
  | .userKey name key => .ofList [(name, key)]
  | .appIdKey idName id keyName key => .ofList [(idName, id), (keyName, key)]
  | .oidc token => .ofList [("access_token", token)]

def items : Credentials → List (String × String)
  | .userKey name key => [(name, key)]
  | .appIdKey idName id keyName key => [(idName, id), (keyName, key)]
  | .oidc token => [("access_token", token)]

def names (credentials : Credentials) : List String := credentials.items.map Prod.fst

theorem dict_items {credentials : Credentials} (h : credentials.names.Nodup) :
    credentials.dict.items = credentials.items := by
  cases credentials with
  | userKey name key => rfl
  | appIdKey idName id keyName key =>
      have hne : idName ≠ keyName := by simpa [names, items] using h
      simp [dict, items, Dict.ofList, Dict.set, Dict.setEntry, Dict.empty, hne]
  | oidc token => rfl

end Credentials

/-! ## Authentication -/

section Flow

variable {U H : Type} [Url U] [Headers H]

def prepareHeaders (credentials : Dict String String) (request : Request U H) : Request U H :=
  { request with
    headers := credentials.items.foldl (fun headers e => Headers.set headers e.1 e.2)
      request.headers }

/-- `key, value = credentials.values()` -/
def unpackTwo (values : List String) : Except Exn (String × String) :=
  match values with
  | [key, value] => .ok (key, value)
  | [] => .error (.valueError "not enough values to unpack (expected 2, got 0)")
  | [_] => .error (.valueError "not enough values to unpack (expected 2, got 1)")
  | _ => .error (.valueError "too many values to unpack (expected 2)")

def unknownLocation (location : String) : Exn :=
  .valueError ("Unknown credentials location '" ++ location ++ "'")

/-- `HttpxBaseClientAuth.auth_flow` before it yields. -/
def baseAuthenticate (location : String) (credentials : Dict String String)
    (request : Request U H) : Except Exn (Request U H) :=
  if location = "authorization" then do
    let (key, value) ← unpackTwo credentials.values
    .ok { request with
      headers := Headers.set request.headers "Authorization" (basicAuthString key value) }
  else if location = "headers" then .ok (prepareHeaders credentials request)
  else if location = "query" then
    .ok { request with url := Url.withParams request.url credentials }
  else .error (unknownLocation location)

def addCredentials (location token : String) (request : Request U H) :
    Except Exn (Request U H) :=
  if location = "authorization" then
    .ok { request with
      headers := Headers.set request.headers "Authorization" ("Bearer " ++ token) }
  else if location = "headers" then
    .ok { request with headers := Headers.set request.headers "access_token" token }
  else if location = "query" then
    .ok { request with
      url := Url.withParams request.url (.ofList [("access_token", token)]) }
  else .error (unknownLocation location)

/-- What each class does to the request before it yields it for the first time. -/
def authenticate (auth : ClientAuth) (request : Request U H) : Except Exn (Request U H) :=
  match auth.credentials with
  | .userKey name key =>
      if auth.location = "authorization" then
        .ok { request with
          headers := Headers.set request.headers "Authorization" (basicAuthString key "") }
      else baseAuthenticate auth.location (Credentials.userKey name key).dict request
  | .appIdKey idName id keyName key =>
      baseAuthenticate auth.location (Credentials.appIdKey idName id keyName key).dict request
  | .oidc token => addCredentials auth.location token request

/-- What follows the response to the request `sent`; `renew` is what a second call of
`access_token` gives. -/
def afterResponse (renew : Except Exn String) (auth : ClientAuth) (sent : Request U H)
    (response : Response) : Flow (Request U H) Response :=
  match auth.credentials with
  | .oidc _ =>
      if response.statusCode = 403 then
        -- the request object that was sent is changed once more
        .once (renew >>= fun token => addCredentials auth.location token sent)
      else .done
  | _ => .done

/-- The `auth_flow` of the three classes; a yielded request is shown as it is then. -/
def authFlow (renew : Except Exn String) (auth : ClientAuth) (request : Request U H) :
    Flow (Request U H) Response :=
  match authenticate auth request with
  | .error e => .raise e
  | .ok request => .yield request (afterResponse renew auth request)

end Flow

/-! ## URLs and headers as lists -/

structure PlainUrl where
  path : String
  params : List (String × String)

instance : Url PlainUrl where
  path := PlainUrl.path
  params := PlainUrl.params
  withParams url params := { url with params := params.items }

instance : LawfulUrl PlainUrl where
  path_withParams _ _ := rfl
  params_withParams _ _ := rfl

structure PlainHeaders where
  entries : List (String × String)

instance : Headers PlainHeaders where
  getList headers name :=
    (headers.entries.filter (fun e => e.1.toLower == name.toLower)).map Prod.snd
  set headers name value :=
    ⟨headers.entries.filter (fun e => e.1.toLower != name.toLower) ++ [(name, value)]⟩

instance : LawfulHeaders PlainHeaders where
  getList_set headers name value other := by
    by_cases h : other.toLower = name.toLower
    · have hgone : (headers.entries.filter (fun e => e.1.toLower != name.toLower)).filter
          (fun e => e.1.toLower == name.toLower) = [] := by
        rw [List.filter_filter, List.filter_eq_nil_iff]
        intro e _
        by_cases he : e.1.toLower = name.toLower <;> simp [he]
      simp [Headers.getList, Headers.set, h, hgone]
    · have hkept : (headers.entries.filter (fun e => e.1.toLower != name.toLower)).filter
          (fun e => e.1.toLower == other.toLower) =
          headers.entries.filter (fun e => e.1.toLower == other.toLower) := by
        rw [List.filter_filter]
        apply List.filter_congr
        intro e _
        by_cases he : e.1.toLower = other.toLower <;> simp [he, h]
      have hne : (name.toLower == other.toLower) = false := by
        rw [beq_eq_false_iff_ne]
        exact fun he => h he.symm
      simp [Headers.getList, Headers.set, h, hkept, hne]

end ThreescaleTests.Httpx
