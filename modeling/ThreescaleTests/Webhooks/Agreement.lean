import ThreescaleTests.Webhooks.Clients

/-!
# Two clients for webhooks

On the requests that tell an event the matcher of the server selects what the client of the
bin looks for. The newest match is the first one in the listing of the bin and the last one
in the log of the server.
-/

namespace ThreescaleTests.Webhooks

open Library Library.Xml Library.Xml.Node

/-! ## Text between elements -/

def Blank (nodes : List Node) : Prop := ∀ node ∈ nodes, ∃ s, node = .text s

section

variable {nodes : List Node}

theorem Blank.elements (h : Blank nodes) (name : String) : elements name nodes = [] := by
  rw [elements_eq_flatMap, List.flatMap_eq_nil_iff]
  intro node hnode
  obtain ⟨s, rfl⟩ := h node hnode
  rfl

theorem Blank.filter (h : Blank nodes) (name : String) : nodes.filter (isElement name) = [] := by
  rw [List.filter_eq_nil_iff]
  intro node hnode
  obtain ⟨s, rfl⟩ := h node hnode
  exact Bool.false_ne_true

theorem elements_blank_append (h : Blank nodes) (name : String) (rest : List Node) :
    elements name (nodes ++ rest) = elements name rest := by
  rw [elements_eq_flatMap, List.flatMap_append, ← elements_eq_flatMap, ← elements_eq_flatMap,
    h.elements, List.nil_append]

theorem filter_blank_append (h : Blank nodes) (name : String) (rest : List Node) :
    (nodes ++ rest).filter (isElement name) = rest.filter (isElement name) := by
  rw [List.filter_append, h.filter, List.nil_append]

/-- An element that holds a text is the only one in it. -/
theorem elements_leaf (name n value : String) :
    elements name [.element n [] [.text value]] =
      if n == name then [.element n [] [.text value]] else [] := by
  rw [elements_element]
  split <;> rfl

theorem textOf_leaf {n value : String} {attributes : List (String × String)} (h : value ≠ "") :
    textOf (.element n attributes [.text value]) = some value := by
  have hleading : leadingText [.text value] = value := String.append_empty
  rw [textOf, children_element, hleading, if_neg h]

end

/-! ## What the client of the bin finds -/

namespace Event

variable (e : Event)

theorem findTag_action : found (findTag "action" e.xml) = some e.action := by
  rw [findTag, xml, children_element, content, elements_blank_append (e.blank 3), elements_cons,
    elements_leaf, if_pos (by decide)]
  exact textOf_leaf e.some_action

theorem ne_empty_of_isTag {name : String} (h : isTag name = true) : name ≠ "" := by
  rw [isTag, Bool.and_eq_true] at h
  exact of_decide_eq_true h.1

theorem findTag_type : found (findTag "type" e.xml) = some e.type := by
  rw [findTag, xml, children_element, content, elements_blank_append (e.blank 3), elements_cons,
    elements_leaf, if_neg (by decide), List.nil_append, elements_blank_append (e.blank 4),
    elements_cons, elements_leaf, if_pos (by decide)]
  exact textOf_leaf (ne_empty_of_isTag e.tag_type)

/-- The ID of the object. -/
def idNode : Node := .element "id" e.attributes [.text e.id]

theorem filter_fields : e.fields.filter (isElement "id") = [e.idNode] := by
  rw [fields, filter_blank_append (e.blank 0), List.filter_cons, if_pos (by simp), e.one_id]
  rfl

theorem filter_object {name : String} (h : e.type ≠ name) :
    e.object.children.filter (isElement name) = [] := by
  rw [object, children_element, filter_blank_append (e.blank 1), List.filter_cons,
    if_neg (by simpa using h)]
  exact Blank.filter (e.blank 2) name

theorem flatMap_leaf (name n value : String) :
    (elements name [.element n [] [.text value]]).flatMap (childrenOf "id") = [] := by
  rw [elements_leaf]
  split <;> rfl

/-- The first ID in an element of the type is the one of the object, also where the type is the name
of another element of the document. -/
theorem findChild_id : findChild e.type "id" e.xml = .ok (some e.idNode) := by
  have hobject : ∃ more, (elements e.type [e.object]).flatMap (childrenOf "id") =
      e.idNode :: more := by
    have hinside : elements e.type e.object.children =
        .element e.type [] e.fields :: (elements e.type e.fields ++ []) := by
      rw [object, children_element, elements_blank_append (e.blank 1), elements_cons,
        elements_element, if_pos (by simp), Blank.elements (e.blank 2)]
      rfl
    have htyped : childrenOf "id" (.element e.type [] e.fields) = [e.idNode] := e.filter_fields
    rw [show e.object = .element "object" [] e.object.children from rfl, elements_element, hinside]
    split
    · rename_i hname
      have hne : e.type ≠ "id" := fun heq => by
        rw [heq] at hname
        exact absurd hname (by decide)
      rw [List.flatMap_cons, show childrenOf "id" (.element "object" [] e.object.children) = []
        from e.filter_object hne, List.nil_append, List.flatMap_cons, htyped]
      exact ⟨_, rfl⟩
    · rw [List.flatMap_cons, htyped]
      exact ⟨_, rfl⟩
  obtain ⟨more, hobject⟩ := hobject
  rw [findChild, if_pos e.tag_type, xml, children_element, content,
    elements_blank_append (e.blank 3), elements_cons, List.flatMap_append, flatMap_leaf,
    List.nil_append, elements_blank_append (e.blank 4), elements_cons, List.flatMap_append,
    flatMap_leaf, List.nil_append, elements_blank_append (e.blank 5), elements_cons,
    List.flatMap_append, hobject]
  rfl

/-! ## What the matcher selects -/

theorem filter_content (name : String) : e.content.filter (isElement name) =
    (if "action" == name then [.element "action" [] [.text e.action]] else []) ++
      (if "type" == name then [.element "type" [] [.text e.type]] else []) ++
        if "object" == name then [e.object] else [] := by
  have hobject : e.object.isElement name = ("object" == name) := rfl
  rw [content, filter_blank_append (e.blank 3), List.filter_cons, isElement_element,
    filter_blank_append (e.blank 4), List.filter_cons, isElement_element,
    filter_blank_append (e.blank 5), List.filter_cons, hobject, Blank.filter (e.blank 6)]
  split <;> split <;> split <;> rfl

theorem childrenOf_action : childrenOf "action" e.xml = [.element "action" [] [.text e.action]] :=
  e.filter_content "action"

theorem childrenOf_type : childrenOf "type" e.xml = [.element "type" [] [.text e.type]] :=
  e.filter_content "type"

theorem childrenOf_object : childrenOf "object" e.xml = [e.object] := e.filter_content "object"

theorem any_blank {nodes : List Node} (h : Blank nodes) {p : Node → Bool}
    (hp : ∀ s, p (.text s) = false) : nodes.any p = false := by
  rw [List.any_eq_false]
  intro node hnode
  obtain ⟨s, rfl⟩ := h node hnode
  rw [hp]
  exact Bool.false_ne_true

/-- The matcher selects a document exactly if it tells of the action on the object. -/
theorem selects_xml (action entityId : String) :
    selects action entityId e.xml = (decide (e.action = action) && decide (e.id = entityId)) := by
  have htyped : childrenOf "id" (.element e.type [] e.fields) = [e.idNode] := e.filter_fields
  have htypes : (childrenOf "type" e.xml).flatMap textNodes = [e.type] := by
    rw [childrenOf_type]
    rfl
  have hobject : (e.object.children.any fun node =>
      ([e.type].any fun name => node.isElement name) &&
        (childrenOf "id" node).any fun id => decide (entityId ∈ textNodes id)) =
          decide (e.id = entityId) := by
    rw [object, children_element, List.any_append, any_blank (e.blank 1) (fun s => rfl),
      List.any_cons, any_blank (e.blank 2) (fun s => rfl), htyped]
    simp [idNode, textNodes, eq_comm]
  rw [selects, childrenOf_action, childrenOf_object, htypes, List.any_cons, List.any_nil,
    List.any_cons, List.any_nil, hobject, xml, isElement_element]
  simp [textNodes, eq_comm]

end Event

/-! ## Agreement -/

/-- A request that tells an event, or has no body. -/
inductive Request.Received : Request → Prop where
  | event (e : Event) (body : String) (h : body ≠ "") : Request.Received ⟨body, .ok e.xml⟩
  | empty (err : Exn) : Request.Received ⟨"", .error err⟩

def Request.tells (action entityId : String) (request : Request) : Bool :=
  match request.xml with
  | .ok xml => selects action entityId xml
  | .error _ => false

theorem RequestBin.search_eq {listing : List Request}
    (h : ∀ request ∈ listing, Request.Received request) (action entityId : String) :
    RequestBin.search action entityId listing =
      .ok ((listing.find? (Request.tells action entityId)).map Request.body) := by
  induction listing with
  | nil => rfl
  | cons webhook webhooks ih =>
      obtain ⟨hfirst, hrest⟩ := List.forall_mem_cons.mp h
      cases hfirst with
      | empty err =>
          rw [RequestBin.search, if_pos rfl, ih hrest, List.find?_cons_of_neg]
          exact Bool.false_ne_true
      | event e body hbody =>
          have hid : found (some e.idNode) = some e.id := textOf_leaf e.some_id
          have htells : Request.tells action entityId ⟨body, .ok e.xml⟩ =
              (decide (e.action = action) && decide (e.id = entityId)) :=
            e.selects_xml action entityId
          rw [RequestBin.search, if_neg hbody, ok_bind, e.findTag_type, Option.getD_some,
            e.findChild_id, ok_bind, e.findTag_action, hid]
          by_cases hmatch : e.action = action ∧ e.id = entityId
          · rw [if_pos ⟨congrArg some hmatch.2, congrArg some hmatch.1⟩, List.find?_cons_of_pos]
            · rfl
            · simpa [htells] using hmatch
          · rw [if_neg fun hfound => hmatch ⟨Option.some.inj hfound.2, Option.some.inj hfound.1⟩,
              ih hrest, List.find?_cons_of_neg]
            simpa [htells] using hmatch

/-- What came in for the webhook, the oldest first. -/
def received (webhook : String) (log : List Logged) : List Request :=
  (log.filter fun logged => logged.method = "POST" ∧ logged.path = webhook).map Logged.request

theorem getLast?_eq_find?_reverse {α : Type} (p : α → Bool) (l : List α) :
    (l.filter p).getLast? = l.reverse.find? p := by
  rw [← List.head?_reverse, ← List.filter_reverse, List.head?_filter]

theorem Mockserver.retrieve_eq (webhook action entityId : String) (log : List Logged) :
    Mockserver.retrieve webhook action entityId (.ok log) =
      .ok (((received webhook log).reverse.find? (Request.tells action entityId)).map
        Request.body) := by
  have hfilter : log.filter (Logged.matched webhook action entityId) =
      (log.filter fun logged => logged.method = "POST" ∧ logged.path = webhook).filter
        fun logged => Request.tells action entityId logged.request := by
    rw [List.filter_filter]
    congr 1
    funext logged
    have hboth : (decide (logged.method = "POST") && decide (logged.path = webhook)) =
        decide (logged.method = "POST" ∧ logged.path = webhook) := (Bool.decide_and _ _).symm
    exact (congrArg (· && logged.request.tells action entityId) hboth).trans (Bool.and_comm _ _)
  rw [Mockserver.retrieve, hfilter, received, ← getLast?_eq_find?_reverse, List.filter_map,
    List.getLast?_map, Option.map_map]
  rfl

theorem poll_ok {α : Type} (f : Nat → Option α) (k n : Nat) :
    poll (fun k => .ok (f k)) k n = .ok ((List.range' k (n + 1)).findSome? f) := by
  induction n generalizing k with
  | zero =>
      rw [poll, List.range'_one, List.findSome?_singleton]
  | succ n ih =>
      rw [poll, List.range'_succ, List.findSome?_cons]
      cases f k with
      | none => exact ih (k + 1)
      | some a => rfl

/-- The newest webhook that tells of the action on the object. -/
def newest (webhook action entityId : String) (log : List Logged) : Option String :=
  ((received webhook log).reverse.find? (Request.tells action entityId)).map Request.body

/-- On webhooks that tell events, both clients return the body of the newest one that tells of the
action on the object, at the first of five tries at which there is one. -/
theorem getWebhook_newest (webhook action entityId : String) (log : Nat → List Logged)
    (listing : Nat → List Request) (hlisting : ∀ k, listing k = (received webhook (log k)).reverse)
    (hreceived : ∀ k, ∀ request ∈ listing k, Request.Received request) :
    let first := (List.range 5).findSome? fun k => newest webhook action entityId (log k)
    RequestBin.getWebhook action entityId listing = .ok first ∧
      Mockserver.getWebhook webhook action entityId (fun k => .ok (log k)) = .ok first := by
  have hbin (k : Nat) : RequestBin.search action entityId (listing k) =
      .ok (newest webhook action entityId (log k)) := by
    rw [RequestBin.search_eq (hreceived k), hlisting, newest]
  have hserver (k : Nat) : Mockserver.retrieve webhook action entityId (.ok (log k)) =
      .ok (newest webhook action entityId (log k)) := Mockserver.retrieve_eq _ _ _ _
  rw [RequestBin.getWebhook, Mockserver.getWebhook, funext hbin, funext hserver, poll_ok,
    List.range_eq_range']
  exact ⟨rfl, rfl⟩

def exampleEvent (id : String) (hid : id ≠ "") : Event where
  action := "created"
  type := "account"
  id := id
  attributes := [("type", "integer")]
  space := fun _ => [.text "\n"]
  rest := [.element "org_name" [] [.text "tests"]]
  some_action := by decide
  some_id := hid
  tag_type := by decide
  blank := fun _ node hnode => ⟨"\n", List.mem_singleton.mp hnode⟩
  one_id := rfl

/-- Webhooks that come in before the second try, with requests for another path and of another
method, and one without a body. -/
def exampleLog (k : Nat) : List Logged :=
  if k = 0 then [⟨"POST", "/webhook/x", ⟨"other", .ok (exampleEvent "7" (by decide)).xml⟩⟩]
  else
    [⟨"POST", "/webhook/x", ⟨"other", .ok (exampleEvent "7" (by decide)).xml⟩⟩,
      ⟨"POST", "/webhook/x", ⟨"first", .ok (exampleEvent "5" (by decide)).xml⟩⟩,
      ⟨"GET", "/webhook/x", ⟨"listing", .ok (exampleEvent "5" (by decide)).xml⟩⟩,
      ⟨"POST", "/webhook/x", ⟨"second", .ok (exampleEvent "5" (by decide)).xml⟩⟩,
      ⟨"POST", "/webhook/y", ⟨"third", .ok (exampleEvent "5" (by decide)).xml⟩⟩,
      ⟨"POST", "/webhook/x", ⟨"", .error (.other "ParseError")⟩⟩]

theorem exampleLog_received (k : Nat) :
    ∀ logged ∈ exampleLog k, Request.Received logged.request := by
  have hevent {id : String} (hid : id ≠ "") {body : String} (hbody : body ≠ "") :
      Request.Received ⟨body, .ok (exampleEvent id hid).xml⟩ := .event _ body hbody
  unfold exampleLog
  split
  · exact List.forall_mem_singleton.mpr (hevent _ (by decide))
  · simp only [List.forall_mem_cons]
    exact ⟨hevent _ (by decide), hevent _ (by decide), hevent _ (by decide), hevent _ (by decide),
      hevent _ (by decide), .empty _, nofun⟩

theorem getWebhook_newest_of_several :
    RequestBin.getWebhook "created" "5"
        (fun k => (received "/webhook/x" (exampleLog k)).reverse) = .ok (some "second") ∧
      Mockserver.getWebhook "/webhook/x" "created" "5" (fun k => .ok (exampleLog k)) =
        .ok (some "second") := by
  have hfirst : ((List.range 5).findSome? fun k =>
      newest "/webhook/x" "created" "5" (exampleLog k)) = some "second" := by decide +kernel
  rw [← hfirst]
  refine getWebhook_newest "/webhook/x" "created" "5" exampleLog _ (fun _ => rfl)
    fun k request h => ?_
  rw [List.mem_reverse, received, List.mem_map] at h
  obtain ⟨logged, hlogged, rfl⟩ := h
  exact exampleLog_received k logged (List.mem_of_mem_filter hlogged)

end ThreescaleTests.Webhooks
