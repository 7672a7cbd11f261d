import Mathlib.Data.List.Basic

/-!
# Trees of XML

Elements with their attributes and children, text, and everything else. A tree never
keeps two texts side by side: putting a node before a list of nodes joins it with the
text it comes to stand before. The elements of one name that stand in no other of that
name are found by a walk that does not enter what it finds.
-/

namespace Library

namespace Xml

/-! ## Nodes -/

/-- A node of a document; comments and instructions are told apart by nobody. -/
inductive Node where
  | element (name : String) (attributes : List (String × String)) (children : List Node)
  | text (value : String)
  | other (value : String)

namespace Node

def isElement (name : String) : Node → Bool
  | element n _ _ => n == name
  | text _ => false
  | other _ => false

def attributes : Node → List (String × String)
  | element _ attributes _ => attributes
  | text _ => []
  | other _ => []

def children : Node → List Node
  | element _ _ children => children
  | text _ => []
  | other _ => []

/-- The value of an attribute: `@key` -/
def valueOf? (key : String) (node : Node) : Option String :=
  node.attributes.lookup key

/-- An attribute that is not there reads as the empty string. -/
def valueOf (key : String) (node : Node) : String :=
  (node.valueOf? key).getD ""

/-- The children of one name: `./name` -/
def childrenOf (name : String) (node : Node) : List Node :=
  node.children.filter (isElement name)

def hasChild (name : String) (node : Node) : Bool :=
  node.children.any (isElement name)

@[simp] theorem attributes_element (name : String) (attributes : List (String × String))
    (children : List Node) : (element name attributes children).attributes = attributes := rfl

@[simp] theorem children_element (name : String) (attributes : List (String × String))
    (children : List Node) : (element name attributes children).children = children := rfl

@[simp] theorem isElement_element (name n : String) (attributes : List (String × String))
    (children : List Node) : (element n attributes children).isElement name = (n == name) := rfl

@[simp] theorem isElement_text (name value : String) : (text value).isElement name = false := rfl

@[simp] theorem isElement_other (name value : String) :
    (other value).isElement name = false := rfl

end Node

open Node

/-! ## Text that meets text -/

/-- Put a node before others; a text joins the text it would stand next to. -/
def glue : Node → List Node → List Node
  | text s, text t :: rest => text (s ++ t) :: rest
  | node, rest => node :: rest

/-- Put nodes before others, where the last may join the first of them. -/
def paste (nodes rest : List Node) : List Node := nodes.foldr glue rest

@[simp] theorem glue_element (name : String) (attributes : List (String × String))
    (children rest : List Node) :
    glue (element name attributes children) rest = element name attributes children :: rest := by
  cases rest <;> rfl

@[simp] theorem glue_other (value : String) (rest : List Node) :
    glue (other value) rest = other value :: rest := by
  cases rest <;> rfl

theorem glue_glue_text (s t : String) (rest : List Node) :
    glue (text s) (glue (text t) rest) = glue (text (s ++ t)) rest := by
  cases rest with
  | nil => rfl
  | cons node rest => cases node <;> simp [glue, String.append_assoc]

/-- Put a node before others, if there is one. -/
def put : Option Node → List Node → List Node
  | none, rest => rest
  | some node, rest => glue node rest

/-- Whether a node and the nodes after it stand side by side without joining. -/
def apart : Node → List Node → Bool
  | text _, text _ :: _ => false
  | _, _ => true

theorem glue_of_apart {node : Node} {rest : List Node} (h : apart node rest = true) :
    glue node rest = node :: rest := by
  cases node with
  | element name attributes children => rw [glue_element]
  | other value => rw [glue_other]
  | text s =>
      cases rest with
      | nil => rfl
      | cons next rest => cases next <;> first | rfl | cases h

/-- What is said of elements only does not notice that texts were joined. -/
theorem any_glue {p : Node → Bool} (htext : ∀ s, p (text s) = false) (node : Node)
    (rest : List Node) : (glue node rest).any p = (p node || rest.any p) := by
  cases node with
  | element name attributes children => simp
  | other value => simp
  | text s =>
      cases rest with
      | nil => rfl
      | cons next rest => cases next <;> simp [glue, htext]

theorem flatMap_glue {β : Type} {f : Node → List β} (htext : ∀ s, f (text s) = [])
    (node : Node) (rest : List Node) :
    (glue node rest).flatMap f = f node ++ rest.flatMap f := by
  cases node with
  | element name attributes children => simp
  | other value => simp
  | text s =>
      cases rest with
      | nil => rfl
      | cons next rest => cases next <;> simp [glue, htext]

theorem flatMap_paste {β : Type} {f : Node → List β} (htext : ∀ s, f (text s) = [])
    (nodes rest : List Node) :
    (paste nodes rest).flatMap f = nodes.flatMap f ++ rest.flatMap f := by
  induction nodes with
  | nil => rfl
  | cons node nodes ih =>
      rw [paste] at ih
      rw [paste, List.foldr_cons, flatMap_glue htext, ih, List.flatMap_cons, List.append_assoc]

/-! ## Trees without texts side by side -/

mutual

/-- No two texts stand side by side at any depth. -/
def separated : Node → Bool
  | element _ _ children => separatedAll children
  | text _ => true
  | other _ => true

def separatedAll : List Node → Bool
  | [] => true
  | node :: rest => separated node && apart node rest && separatedAll rest

end

/-! ## Walks -/

mutual

/-- The text below a node: `string(.)` -/
def stringValue : Node → String
  | element _ _ children => stringValues children
  | text value => value
  | other _ => ""

def stringValues : List Node → String
  | [] => ""
  | node :: rest => stringValue node ++ stringValues rest

end

mutual

/-- Every node with the nodes it stands among, in document order. -/
def located (siblings : List Node) : Node → List (List Node × Node)
  | element name attributes children =>
      (siblings, element name attributes children) :: locatedAll children children
  | text value => [(siblings, text value)]
  | other value => [(siblings, other value)]

def locatedAll (siblings : List Node) : List Node → List (List Node × Node)
  | [] => []
  | node :: rest => located siblings node ++ locatedAll siblings rest

end

/-- The nodes of a document in their order: `//node()` -/
def descendants (document : List Node) : List Node :=
  (locatedAll document document).map Prod.snd

/-- The elements of a name at any depth, in their order: `//name` -/
def elements (name : String) (document : List Node) : List Node :=
  (descendants document).filter (isElement name)

theorem map_snd_locatedAll (siblings document : List Node) :
    (locatedAll siblings document).map Prod.snd = descendants document := by
  have hnode (s t : List Node) (node : Node) :
      (located s node).map Prod.snd = (located t node).map Prod.snd := by
    cases node <;> rfl
  have hall (s t nodes : List Node) :
      (locatedAll s nodes).map Prod.snd = (locatedAll t nodes).map Prod.snd := by
    induction nodes with
    | nil => rfl
    | cons node rest ih =>
        rw [locatedAll, List.map_append, hnode s t, ih, locatedAll, List.map_append]
  exact hall siblings document document

theorem descendants_cons (node : Node) (rest : List Node) :
    descendants (node :: rest) = descendants [node] ++ descendants rest := by
  rw [descendants, locatedAll, List.map_append, map_snd_locatedAll, ← map_snd_locatedAll
    (node :: rest) [node], locatedAll, locatedAll, List.append_nil]

theorem descendants_element (name : String) (attributes : List (String × String))
    (children : List Node) :
    descendants [element name attributes children] =
      element name attributes children :: descendants children := by
  rw [descendants, locatedAll, locatedAll, List.append_nil, located, List.map_cons,
    map_snd_locatedAll]

theorem elements_eq_flatMap (name : String) (nodes : List Node) :
    elements name nodes = nodes.flatMap fun node => elements name [node] := by
  induction nodes with
  | nil => rfl
  | cons node rest ih =>
      rw [elements, descendants_cons, List.filter_append, ← elements, ← elements, ih,
        List.flatMap_cons]

theorem elements_cons (name : String) (node : Node) (rest : List Node) :
    elements name (node :: rest) = elements name [node] ++ elements name rest := by
  rw [elements, descendants_cons, List.filter_append, ← elements, ← elements]

theorem elements_element (name n : String) (attributes : List (String × String))
    (children : List Node) :
    elements name [element n attributes children] =
      if n == name then element n attributes children :: elements name children
      else elements name children := by
  rw [elements, descendants_element, List.filter_cons, isElement_element, ← elements]

theorem elements_subset_of_mem_children (name : String) {child node : Node}
    (h : child ∈ node.children) : elements name [child] ⊆ elements name [node] := by
  cases node with
  | element n attributes children =>
      have hchildren : elements name [child] ⊆ elements name children := by
        intro found hfound
        rw [elements_eq_flatMap]
        exact List.mem_flatMap.mpr ⟨child, h, hfound⟩
      rw [elements_element]
      split
      · exact List.subset_cons_of_subset _ hchildren
      · exact hchildren
  | text value => cases h
  | other value => cases h

theorem elements_paste (name : String) (nodes rest : List Node) :
    elements name (paste nodes rest) = elements name nodes ++ elements name rest := by
  rw [elements_eq_flatMap, elements_eq_flatMap name nodes, elements_eq_flatMap name rest]
  exact flatMap_paste (fun s => rfl) nodes rest

theorem elements_put (name : String) (node : Option Node) (rest : List Node) :
    elements name (put node rest) = elements name node.toList ++ elements name rest := by
  cases node with
  | none => rfl
  | some n => exact elements_paste name [n] rest

mutual

/-- The elements of a name that stand in no element of that name. -/
def topmost (name : String) : Node → List Node
  | element n attributes children =>
      if n == name then [element n attributes children] else topmostAll name children
  | text _ => []
  | other _ => []

def topmostAll (name : String) : List Node → List Node
  | [] => []
  | node :: rest => topmost name node ++ topmostAll name rest

end

theorem topmostAll_eq_flatMap (name : String) (nodes : List Node) :
    topmostAll name nodes = nodes.flatMap (topmost name) := by
  induction nodes with
  | nil => rfl
  | cons node rest ih => rw [topmostAll, List.flatMap_cons, ih]

theorem topmostAll_paste (name : String) (nodes rest : List Node) :
    topmostAll name (paste nodes rest) = topmostAll name nodes ++ topmostAll name rest := by
  simp only [topmostAll_eq_flatMap]
  exact flatMap_paste (fun s => topmost.eq_2 name s) nodes rest

theorem topmostAll_put (name : String) (node : Option Node) (rest : List Node) :
    topmostAll name (put node rest) = topmostAll name node.toList ++ topmostAll name rest := by
  cases node with
  | none => rfl
  | some n => exact topmostAll_paste name [n] rest

mutual

/-- What is found is an element of that name. -/
theorem isElement_of_mem_topmost {name : String} {found : Node} :
    (node : Node) → found ∈ topmost name node → found.isElement name = true
  | element n attributes children, h => by
      rw [topmost] at h
      split at h
      · rename_i hname
        rw [List.mem_singleton.mp h]
        exact hname
      · exact isElement_of_mem_topmostAll children h
  | text value, h => by
      rw [topmost] at h
      cases h
  | other value, h => by
      rw [topmost] at h
      cases h

theorem isElement_of_mem_topmostAll {name : String} {found : Node} :
    (nodes : List Node) → found ∈ topmostAll name nodes → found.isElement name = true
  | [], h => by
      rw [topmostAll] at h
      cases h
  | node :: rest, h => by
      rw [topmostAll, List.mem_append] at h
      exact h.elim (isElement_of_mem_topmost node) (isElement_of_mem_topmostAll rest)

end

end Xml

end Library
