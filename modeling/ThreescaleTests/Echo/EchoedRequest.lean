import ThreescaleTests.Library.Exn
import ThreescaleTests.Library.Json
import ThreescaleTests.Library.Strings

/-!
# Echoed requests

The backends of the tests answer with the request they received, each in its own
format. `create` guesses the backend from the answer; the constructors bring headers
and parameters to one shape.
-/

namespace ThreescaleTests.Echo

open Library

/-! ## Case-insensitive dictionaries -/

/-- `CaseInsensitiveDict`: under each key in lower case the key as it was given, and the value. -/
structure CaseInsensitiveDict (ν : Type) where
  store : Dict String (String × ν)

namespace CaseInsensitiveDict

variable {ν : Type}

def empty : CaseInsensitiveDict ν := ⟨Dict.empty⟩

def get? (d : CaseInsensitiveDict ν) (key : String) : Option ν :=
  (d.store.get? (lower key)).map Prod.snd

def getItem (d : CaseInsensitiveDict ν) (key : String) : Except Exn ν :=
  match d.get? key with
  | some value => .ok value
  | none => .error (.keyError key)

def set (d : CaseInsensitiveDict ν) (key : String) (value : ν) : CaseInsensitiveDict ν :=
  ⟨d.store.set (lower key) (key, value)⟩

def items (d : CaseInsensitiveDict ν) : List (String × ν) := d.store.values

def keys (d : CaseInsensitiveDict ν) : List String := d.items.map Prod.fst

def update (d : CaseInsensitiveDict ν) (entries : List (String × ν)) : CaseInsensitiveDict ν :=
  entries.foldl (fun d e => d.set e.1 e.2) d

/-- A dictionary made from the items of another mapping; made from a dictionary of its own kind it
is a copy. -/
def ofList (entries : List (String × ν)) : CaseInsensitiveDict ν := empty.update entries

theorem update_cons (d : CaseInsensitiveDict ν) (e : String × ν) (entries : List (String × ν)) :
    d.update (e :: entries) = (d.set e.1 e.2).update entries := rfl

theorem store_update (d : CaseInsensitiveDict ν) (entries : List (String × ν)) :
    (d.update entries).store = d.store.update (entries.map fun e => (lower e.1, e)) := by
  induction entries generalizing d with
  | nil => rfl
  | cons e entries ih =>
      rw [update_cons, ih]
      rfl

theorem get?_update_of_not_mem {entries : List (String × ν)} {key : String}
    (h : ∀ e ∈ entries, lower e.1 ≠ lower key) (d : CaseInsensitiveDict ν) :
    (d.update entries).get? key = d.get? key := by
  rw [get?, store_update, Dict.get?_update_of_not_mem]
  · rfl
  · intro hkey
    rw [List.map_map, List.mem_map] at hkey
    obtain ⟨e, he, hlower⟩ := hkey
    exact h e he hlower

theorem get?_update_of_mem {entries : List (String × ν)}
    (hn : (entries.map fun e => lower e.1).Nodup) {e : String × ν} (he : e ∈ entries) {key : String}
    (hkey : lower e.1 = lower key) (d : CaseInsensitiveDict ν) :
    (d.update entries).get? key = some e.2 := by
  have hnodup : ((entries.map fun e => (lower e.1, e)).map Prod.fst).Nodup := by
    rw [List.map_map]
    exact hn
  have hmem : (lower key, e) ∈ entries.map fun e => (lower e.1, e) :=
    List.mem_map.mpr ⟨e, he, by rw [hkey]⟩
  rw [get?, store_update, Dict.get?_update_of_mem hnodup hmem]
  rfl

theorem get?_ofList_of_not_mem {entries : List (String × ν)} {key : String}
    (h : ∀ e ∈ entries, lower e.1 ≠ lower key) : (ofList entries).get? key = none :=
  get?_update_of_not_mem h empty

theorem items_ofList {entries : List (String × ν)} (hn : (entries.map fun e => lower e.1).Nodup) :
    (ofList entries).items = entries := by
  have hnodup : ((entries.map fun e => (lower e.1, e)).map Prod.fst).Nodup := by
    rw [List.map_map]
    exact hn
  have hitems := Dict.items_ofList hnodup
  show (ofList entries).store.items.map Prod.snd = entries
  rw [ofList, store_update]
  show (Dict.ofList _).items.map Prod.snd = entries
  rw [hitems, List.map_map]
  exact List.map_id entries

/-- The items come from the entries, and each is found under its key. -/
theorem mem_items_ofList {entries : List (String × ν)} {e : String × ν}
    (h : e ∈ (ofList entries).items) : e ∈ entries ∧ (ofList entries).get? e.1 = some e.2 := by
  obtain ⟨⟨key, e'⟩, hmem, rfl⟩ := List.mem_map.mp h
  have hget : (ofList entries).store.get? key = some e' := Dict.get?_eq_some_iff.mpr hmem
  have hstore : (ofList entries).store = Dict.ofList (entries.map fun e => (lower e.1, e)) :=
    store_update empty entries
  obtain ⟨e'', he'', heq⟩ := List.mem_map.mp (Dict.mem_of_get?_ofList (hstore ▸ hget))
  cases heq
  exact ⟨he'', by rw [get?, hget]; rfl⟩

/-- What has a value still has one. -/
theorem isSome_get?_set {d : CaseInsensitiveDict ν} {key : String} (h : (d.get? key).isSome = true)
    (key' : String) (value : ν) : ((d.set key' value).get? key).isSome = true := by
  rw [get?, Option.isSome_map] at h ⊢
  rw [set, Dict.get?_set]
  split
  · rfl
  · exact h

end CaseInsensitiveDict

/-! ## The wrappers -/

/-- What the wrappers use of `urllib.parse`: the values of a query, and the path of a URL. -/
structure UrlParse where
  parseQs : String → List (String × List String)
  path : String → String

structure EchoedRequest where
  headers : CaseInsensitiveDict Json
  params : Json
  body : Json
  path : Json

def getField (data : Dict String Json) (key : String) (default : Json) : Json :=
  (data.get? key).getD default

/-- A list of one value becomes the value. -/
def flattenSingle : Json → Json
  | .arr [value] => value
  | value => value

/-- A query is parsed, and what is no query is kept. -/
def parseParams (url : UrlParse) : Json → Json
  | .str query =>
      if query = "" then .str query
      else .obj ((url.parseQs query).map fun param =>
        (param.1, flattenSingle (.arr (param.2.map Json.str))))
  | params => params

/-- The headers of an answer; `headers` is an object, or missing. -/
def receivedHeaders (data : Dict String Json) : Except Exn (CaseInsensitiveDict Json) :=
  match getField data "headers" .null with
  | .null => .ok CaseInsensitiveDict.empty
  | .obj headers => .ok (CaseInsensitiveDict.ofList headers)
  | _ => .error .typeError

def EchoedRequest.init (url : UrlParse) (data : Dict String Json) : Except Exn EchoedRequest := do
  let headers ← receivedHeaders data
  pure {
    headers := headers
    params := parseParams url (getField data "args" .null)
    body := getField data "body" (getField data "data" .null)
    path := getField data "path" .null }

/-- The name of a header for its CGI name. -/
def newKey (key : String) : String := replace "_" "-" (replace "HTTP_" "" key)

def processHeaders (headers : CaseInsensitiveDict Json) : Except Exn (CaseInsensitiveDict Json) :=
  (headers.keys.filter (startsWith "HTTP_")).foldlM (fun headers key => do
    let value ← headers.getItem key
    pure (headers.set (newKey key) value)) headers

def echoApiRequest (url : UrlParse) (data : Dict String Json) : Except Exn EchoedRequest := do
  let request ← EchoedRequest.init url data
  let headers ← processHeaders request.headers
  let params := if request.params = .str "" then .obj [] else request.params
  pure { request with headers := headers, params := params }

def joinValues : List Json → Except Exn String
  | [] => .ok ""
  | [.str value] => .ok value
  | .str value :: values => (joinValues values).map fun joined => value ++ "," ++ joined
  | _ => .error .typeError

def flatten (dict : CaseInsensitiveDict Json) : Except Exn (CaseInsensitiveDict Json) :=
  dict.items.foldlM (fun dict e =>
    match e.2 with
    | .arr values => (joinValues values).map fun joined => dict.set e.1 (.str joined)
    | _ => .ok dict) dict

def flattenSingleParams : Json → Except Exn Json
  | .null => .ok .null
  | .obj params => .ok (.obj (params.map fun param => (param.1, flattenSingle param.2)))
  | _ => .error (.other "AttributeError")

def urlPath (url : UrlParse) : Json → Except Exn Json
  | .str text => .ok (.str (url.path text))
  | _ => .error (.other "AttributeError")

/-- The path of the URL that the backend reports under either name. -/
def reportedPath (url : UrlParse) (data : Dict String Json) (path : Json) : Except Exn Json :=
  match data.get? "url", data.get? "URL" with
  | some address, _ => urlPath url address
  | none, some address => urlPath url address
  | none, none => .ok path

def httpbinGoRequest (url : UrlParse) (data : Dict String Json) : Except Exn EchoedRequest := do
  let request ← EchoedRequest.init url data
  let headers ← flatten request.headers
  let params ← flattenSingleParams request.params
  let path ← reportedPath url data request.path
  pure { request with headers := headers, params := params, path := path }

def mockServerRequest (url : UrlParse) (data : Dict String Json) : Except Exn EchoedRequest := do
  let request ← EchoedRequest.init url data
  let headers ← flatten request.headers
  let params ← flattenSingleParams (getField data "queryStringParameters" (.obj []))
  pure { request with headers := headers, params := params }

/-! ## The choice of a wrapper -/

def isList : Json → Bool
  | .arr _ => true
  | _ => false

/-- Whether an element that is iterated over is a list of one value. -/
def isSingleList : Json → Except Exn Bool
  | .arr values => .ok (values.length = 1)
  | .str _ | .obj _ => .ok false
  | _ => .error .typeError

/-- The last guess of `create`; the keys of an object and the characters of a text are no lists. -/
def argsHaveList : Json → Except Exn Bool
  | .obj _ | .str _ => .ok false
  | .arr args => (args.mapM isSingleList).map fun lists => lists.any id
  | _ => .error .typeError

def fromMockServer (data : Dict String Json) : Bool :=
  ((data.get? "keepAlive").isSome && (data.get? "secure").isSome) ||
    (data.get? "queryStringParameters").isSome

def create (url : UrlParse) (data : Dict String Json) : Except Exn EchoedRequest :=
  match getField data "headers" (.obj []) with
  | .obj headers =>
      if headers.any fun h => h.1 = "HTTP_HOST" then echoApiRequest url data
      else if fromMockServer data then mockServerRequest url data
      else if headers.any fun h => isList h.2 then httpbinGoRequest url data
      else do
        let haveList ← argsHaveList (getField data "args" (.obj []))
        if haveList then httpbinGoRequest url data else EchoedRequest.init url data
  | _ => .error .typeError

end ThreescaleTests.Echo
