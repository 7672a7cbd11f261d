import ThreescaleTests.Library.Exn
import ThreescaleTests.Library.Xml

/-!
# Webhooks that were received

One client looks for a webhook in the requests that a bin lists, the newest first. The
other one lets the server match what it has received, the oldest first, and takes the last
match. Both try again as long as they find nothing.
-/

namespace ThreescaleTests.Webhooks

open Library Library.Xml Library.Xml.Node

/-! ## Requests -/

/-- The body of a request, with what it parses to. -/
structure Request where
  body : String
  xml : Except Exn Node

/-- A request in the log of the server. -/
structure Logged where
  method : String
  path : String
  request : Request

/-- Try up to `n` times more as long as nothing is found; the `k`-th try comes first. -/
def poll {α : Type} (attempt : Nat → Except Exn (Option α)) : Nat → Nat → Except Exn (Option α)
  | k, 0 => attempt k
  | k, n + 1 =>
      match attempt k with
      | .ok none => poll attempt (k + 1) n
      | r => r

/-- The retries after the first try: `max_tries=5` -/
def maxRetries : Nat := 4

/-! ## Looking at the tree -/

/-- The text up to the first element. -/
def leadingText : List Node → String
  | [] => ""
  | .text s :: rest => s ++ leadingText rest
  | .other _ :: rest => leadingText rest
  | .element _ _ _ :: _ => ""

/-- `element.text`, which is `None` if there is no text. -/
def textOf (node : Node) : Option String :=
  if leadingText node.children = "" then none else some (leadingText node.children)

/-- `xml_find` after the search, where `None` is a text. -/
def found (result : Option Node) : Option String :=
  match result with
  | none => some ""
  | some node => textOf node

/-- A name that a path takes for a tag. -/
def isTag (name : String) : Bool :=
  decide (name ≠ "") && name.toList.all fun c => c.isAlphanum || c == '_' || c == '-'

def findTag (tag : String) (xml : Node) : Option Node := (elements tag xml.children).head?

/-- `xml.find(".//tag/child")`. No type of a webhook has what else a path may hold. -/
def findChild (tag child : String) (xml : Node) : Except Exn (Option Node) :=
  if isTag tag then .ok ((elements tag xml.children).flatMap (childrenOf child)).head?
  else .error (.other "SyntaxError")

/-- The text nodes of an element: `text()` -/
def textNodes (node : Node) : List String :=
  node.children.filterMap fun
    | .text s => some s
    | .element _ _ _ => none
    | .other _ => none

/-! ## The client of a bin -/

/-- The loop of `RequestBinClient.get_webhook`, where webhooks without a body are left out. -/
def RequestBin.search (action entityId : String) : List Request → Except Exn (Option String)
  | [] => .ok none
  | webhook :: webhooks =>
      if webhook.body = "" then RequestBin.search action entityId webhooks
      else do
        let xml ← webhook.xml
        let webhookId ← findChild ((found (findTag "type" xml)).getD "None") "id" xml
        if found webhookId = some entityId ∧ found (findTag "action" xml) = some action then
          .ok (some webhook.body)
        else RequestBin.search action entityId webhooks

/-- `RequestBinClient.get_webhook`, with what the bin lists at each try. -/
def RequestBin.getWebhook (action entityId : String) (listing : Nat → List Request) :
    Except Exn (Option String) :=
  poll (fun k => RequestBin.search action entityId (listing k)) 0 maxRetries

/-! ## The client of the server -/

/-- What the path of the matcher selects is there:
`/event[action/text() = A]/object/*[local-name() = /event/type/text()]/id[text() = E]`, where no
double quote in the action or the ID ends its string early. -/
def selects (action entityId : String) (xml : Node) : Bool :=
  xml.isElement "event" &&
    (childrenOf "action" xml).any (fun node => decide (action ∈ textNodes node)) &&
    (childrenOf "object" xml).any fun object =>
      object.children.any fun node =>
        ((childrenOf "type" xml).flatMap textNodes).any (fun name => node.isElement name) &&
          (childrenOf "id" node).any fun id => decide (entityId ∈ textNodes id)

/-- The server's matcher. -/
def Logged.matched (webhook action entityId : String) (logged : Logged) : Bool :=
  decide (logged.method = "POST") && decide (logged.path = webhook) &&
    match logged.request.xml with
    | .ok xml => selects action entityId xml
    | .error _ => false

def httpError : Exn := .other "HTTPError"

/-- One try of `Mockserver.get_webhook`, with the log of the server if it answers. -/
def Mockserver.retrieve (webhook action entityId : String) :
    Except Exn (List Logged) → Except Exn (Option String)
  | .error e => if e = httpError then .ok none else .error e
  | .ok log =>
      .ok ((log.filter (Logged.matched webhook action entityId)).getLast?.map fun logged =>
        logged.request.body)

def Mockserver.getWebhook (webhook action entityId : String)
    (log : Nat → Except Exn (List Logged)) : Except Exn (Option String) :=
  poll (fun k => Mockserver.retrieve webhook action entityId (log k)) 0 maxRetries

/-! ## Events -/

/-- What a webhook tells: an action on an object of some type. Between the elements there is text
at most. The first child of the object is its ID, and it has no other. -/
structure Event where
  action : String
  type : String
  id : String
  attributes : List (String × String)
  space : Nat → List Node
  rest : List Node
  some_action : action ≠ ""
  some_id : id ≠ ""
  tag_type : isTag type = true
  blank : ∀ i, ∀ node ∈ space i, ∃ s, node = .text s
  one_id : rest.filter (isElement "id") = []

/-- The children of the object. -/
def Event.fields (e : Event) : List Node :=
  e.space 0 ++ .element "id" e.attributes [.text e.id] :: e.rest

def Event.object (e : Event) : Node :=
  .element "object" [] (e.space 1 ++ .element e.type [] e.fields :: e.space 2)

def Event.content (e : Event) : List Node :=
  e.space 3 ++ .element "action" [] [.text e.action] ::
    (e.space 4 ++ .element "type" [] [.text e.type] :: (e.space 5 ++ e.object :: e.space 6))

/-- The document. -/
def Event.xml (e : Event) : Node := .element "event" [] e.content

end ThreescaleTests.Webhooks
