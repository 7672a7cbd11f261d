import ThreescaleTests.Library.Xml

/-!
# Polished reports

Before a junit report is uploaded a stylesheet copies it without the cases that were
skipped, on request without those that failed, and without what the passing ones
logged. Each template of the stylesheet looks at an element, at its children and at
most at two of its ancestors, so that what the walk has to carry down are two answers:
whether the parent is a case that passed, and whether this is the text of its log.
-/

namespace ThreescaleTests.Reports

open Library.Xml
open Library.Xml.Node

/-! ## Parameters and patterns -/

/-- The parameters of the stylesheet: `rmfails`, `rmlogs` and `polarionProperties` -/
structure Params where
  rmfails : Bool
  rmlogs : Bool
  polarionProperties : Bool

/-- What is not passed: only `rmlogs` is true by itself. -/
def Params.default : Params := ⟨false, true, false⟩

def failed (node : Node) : Bool := node.hasChild "failure" || node.hasChild "error"

def skipped (node : Node) : Bool := node.hasChild "skipped"

def isLog (name : String) : Bool := "system-".toList.isPrefixOf name.toList

/-- `testsuite/@skipped`, the only attributes that have a template of their own -/
def polishAttributes (name : String) (attributes : List (String × String)) :
    List (String × String) :=
  if name = "testsuite" then
    attributes.map fun a => if a.1 = "skipped" then (a.1, "0") else a
  else attributes

/-! ## The templates -/

mutual

/-- What the templates put in the place of a node: itself with its content polished, or
nothing. `passing` tells that the parent is a case that did not fail, `log` that this
would be the text in a log of one. A case that failed is matched by the last template,
whether or not it was skipped as well. -/
def polishNode (params : Params) (passing log : Bool) : Node → Option Node
  | element name attributes children =>
      let node := element name attributes children
      let polished := element name (polishAttributes name attributes)
        (polishNodes params (name == "testcase" && !failed node) (passing && isLog name) children)
      if name == "testcase" && failed node then
        if params.rmfails then none else some polished
      else if name == "testcase" && skipped node then none
      else some polished
  | text value => if log && params.rmlogs then none else some (text value)
  | other value => some (other value)

def polishNodes (params : Params) (passing log : Bool) : List Node → List Node
  | [] => []
  | node :: rest =>
      put (polishNode params passing log node) (polishNodes params passing log rest)

end

inductive TransformError where
  /-- Attribute nodes must be added before any child nodes to an element. -/
  | attributeAfterChildren
  deriving DecidableEq

/-- `copy-of` of `./testsuite/properties` -/
def copiedProperties (params : Params) (testsuites : Node) : List Node :=
  if params.polarionProperties then
    (testsuites.childrenOf "testsuite").flatMap (childrenOf "properties")
  else []

/-- The report with this root. The copies of `/testsuites` come before its attributes. -/
def polish (params : Params) (root : Node) : Except TransformError (Option Node) :=
  match root with
  | element "testsuites" attributes children =>
      let copied := copiedProperties params (element "testsuites" attributes children)
      if copied.isEmpty || attributes.isEmpty then
        .ok (some (element "testsuites" attributes
          (paste copied (polishNodes params false false children))))
      else .error .attributeAfterChildren
  | root => .ok (polishNode params false false root)

/-! ## One node -/

def kept (params : Params) (case : Node) : Bool :=
  if failed case then !params.rmfails else !skipped case

/-- An element of the report with its content polished. -/
def polished (params : Params) (passing : Bool) (name : String)
    (attributes : List (String × String)) (children : List Node) : Node :=
  element name (polishAttributes name attributes)
    (polishNodes params (name == "testcase" && !failed (element name attributes children))
      (passing && isLog name) children)

theorem polishNode_testcase (params : Params) (passing log : Bool)
    (attributes : List (String × String)) (children : List Node) :
    polishNode params passing log (element "testcase" attributes children) =
      if kept params (element "testcase" attributes children) then
        some (polished params passing "testcase" attributes children)
      else none := by
  rw [polishNode, kept, polished]
  cases failed (element "testcase" attributes children) <;>
    cases params.rmfails <;> cases skipped (element "testcase" attributes children) <;> rfl

theorem polishNode_element {name : String} (hname : name ≠ "testcase") (params : Params)
    (passing log : Bool) (attributes : List (String × String)) (children : List Node) :
    polishNode params passing log (element name attributes children) =
      some (polished params passing name attributes children) := by
  have hfalse : (name == "testcase") = false := beq_eq_false_iff_ne.mpr hname
  simp only [polishNode, polished, hfalse, Bool.false_and, Bool.false_eq_true, if_false]

/-- A node keeps its name, or is removed for being a case. -/
theorem isElement_polishNode {name : String} (hname : name ≠ "testcase") (params : Params)
    (passing log : Bool) (node : Node) :
    (polishNode params passing log node).any (isElement name) = node.isElement name := by
  cases node with
  | element n attributes children =>
      by_cases hn : n = "testcase"
      · subst hn
        have hne : ("testcase" == name) = false := beq_eq_false_iff_ne.mpr hname.symm
        rw [polishNode_testcase, isElement_element, hne]
        split
        · rw [Option.any_some, polished, isElement_element, hne]
        · rfl
      · rw [polishNode_element hn, Option.any_some, polished, isElement_element, isElement_element]
  | text value =>
      rw [polishNode]
      split <;> rfl
  | other value => rfl

theorem any_put {p : Node → Bool} (htext : ∀ s, p (text s) = false) (node : Option Node)
    (rest : List Node) : (put node rest).any p = (node.any p || rest.any p) := by
  cases node with
  | none => rfl
  | some n => exact any_glue htext n rest

theorem any_polishNodes {name : String} (hname : name ≠ "testcase") (params : Params)
    (passing log : Bool) (nodes : List Node) :
    (polishNodes params passing log nodes).any (isElement name) = nodes.any (isElement name) := by
  induction nodes with
  | nil => rfl
  | cons node rest ih =>
      rw [polishNodes, any_put (isElement_text name), isElement_polishNode hname, ih,
        List.any_cons]

/-- Polishing changes nobody's outcome. -/
theorem failed_polished (params : Params) (passing : Bool) (name : String)
    (attributes : List (String × String)) (children : List Node) :
    failed (polished params passing name attributes children) =
      failed (element name attributes children) := by
  simp only [failed, hasChild, polished, children_element]
  rw [any_polishNodes (by decide), any_polishNodes (by decide)]

theorem skipped_polished (params : Params) (passing : Bool) (name : String)
    (attributes : List (String × String)) (children : List Node) :
    skipped (polished params passing name attributes children) =
      skipped (element name attributes children) := by
  simp only [skipped, hasChild, polished, children_element]
  rw [any_polishNodes (by decide)]

/-! ## Polishing twice -/

/-- What either of the two removes. -/
def Params.both (first second : Params) : Params :=
  ⟨first.rmfails || second.rmfails, first.rmlogs || second.rmlogs, false⟩

theorem kept_both (first second : Params) (case : Node) :
    kept (first.both second) case = (kept first case && kept second case) := by
  unfold kept
  split
  · exact Bool.not_or ..
  · rw [Bool.and_self]

theorem polishAttributes_polishAttributes (name : String) (attributes : List (String × String)) :
    polishAttributes name (polishAttributes name attributes) =
      polishAttributes name attributes := by
  unfold polishAttributes
  split
  · rw [List.map_map]
    refine List.map_congr_left fun a _ => ?_
    by_cases ha : a.1 = "skipped"
    · simp [ha]
    · simp [ha]
  · rfl

theorem polishNodes_glue (params : Params) (passing log : Bool) (node : Node)
    (rest : List Node) :
    polishNodes params passing log (glue node rest) =
      put (polishNode params passing log node) (polishNodes params passing log rest) := by
  cases node with
  | element name attributes children => rw [glue_element, polishNodes]
  | other value => rw [glue_other, polishNodes]
  | text s =>
      cases rest with
      | nil => rfl
      | cons next rest =>
          cases next with
          | element name attributes children => rfl
          | other value => rfl
          | text t =>
              simp only [glue, polishNodes, polishNode]
              split
              · rfl
              · exact (glue_glue_text s t _).symm

theorem polishNodes_put (params : Params) (passing log : Bool) (node : Option Node)
    (rest : List Node) :
    polishNodes params passing log (put node rest) =
      put (node.bind (polishNode params passing log)) (polishNodes params passing log rest) := by
  cases node with
  | none => rfl
  | some n => exact polishNodes_glue params passing log n rest

mutual

theorem polishNode_bind (first second : Params) (passing log : Bool) :
    (node : Node) → (polishNode first passing log node).bind (polishNode second passing log) =
      polishNode (first.both second) passing log node
  | element name attributes children => by
      have hchildren : polished second passing name
          (polished first passing name attributes children).attributes
          (polished first passing name attributes children).children =
          polished (first.both second) passing name attributes children := by
        have hsame := failed_polished first passing name attributes children
        rw [polished] at hsame
        simp only [polished, attributes_element, children_element]
        rw [hsame, polishAttributes_polishAttributes, polishNodes_polishNodes]
      by_cases hname : name = "testcase"
      · subst hname
        rw [polishNode_testcase, polishNode_testcase, kept_both]
        cases kept first (element "testcase" attributes children) with
        | false => rfl
        | true =>
            have hkept : kept second (polished first passing "testcase" attributes children) =
                kept second (element "testcase" attributes children) := by
              rw [kept, failed_polished, skipped_polished, kept]
            rw [if_pos rfl, Option.bind_some, Bool.true_and, polished, polishNode_testcase,
              ← polished, hkept]
            split
            · exact congrArg some hchildren
            · rfl
      · rw [polishNode_element hname, polishNode_element hname, Option.bind_some, polished,
          polishNode_element hname]
        exact congrArg some hchildren
  | text value => by
      rw [polishNode, polishNode, Params.both, Bool.and_or_distrib_left]
      cases log && first.rmlogs with
      | true => rfl
      | false => rw [if_neg Bool.false_ne_true, Option.bind_some, polishNode, Bool.false_or]
  | other value => rfl

theorem polishNodes_polishNodes (first second : Params) (passing log : Bool) :
    (nodes : List Node) →
      polishNodes second passing log (polishNodes first passing log nodes) =
        polishNodes (first.both second) passing log nodes
  | [] => rfl
  | node :: rest => by
      rw [polishNodes, polishNodes_put, polishNode_bind, polishNodes_polishNodes, ← polishNodes]

end

/-- Without the copies for Polarion the stylesheet is one walk from the root. -/
theorem polish_eq_polishNode {params : Params} (hparams : params.polarionProperties = false)
    (root : Node) : polish params root = .ok (polishNode params false false root) := by
  unfold polish
  split
  · rename_i attributes children
    have hcopied : copiedProperties params (element "testsuites" attributes children) = [] := by
      rw [copiedProperties, if_neg (by rw [hparams]; decide)]
    simp only [hcopied]
    rfl
  · rfl

/-- Two runs of the stylesheet are one that removes what either of them removes. -/
theorem polish_polish {first second : Params} (hfirst : first.polarionProperties = false)
    (hsecond : second.polarionProperties = false) (root : Node) :
    (polish first root >>= fun
      | some report => polish second report
      | none => .ok none) = polish (first.both second) root := by
  have hboth : (first.both second).polarionProperties = false := rfl
  rw [polish_eq_polishNode hfirst, polish_eq_polishNode hboth, ← polishNode_bind]
  cases polishNode first false false root with
  | none => rfl
  | some report => exact polish_eq_polishNode hsecond report

/-- A report for the launch and one for Polarion without failures, of one run. -/
theorem polish_polish_skip_fails :
    (polish .default (element "testsuite" [("skipped", "1")]
        [element "testcase" [] [element "failure" [] []],
          element "testcase" [] [element "system-out" [] [text "log"]],
          element "testcase" [] [element "skipped" [] []]]) >>= fun
      | some report => polish ⟨true, false, false⟩ report
      | none => .ok none) =
      .ok (some (element "testsuite" [("skipped", "0")]
        [element "testcase" [] [element "system-out" [] []]])) := by
  rw [polish_polish rfl rfl]
  rfl

/-! ## What stays -/

/-- The case that stands for a case that stays. -/
def polishedCase (params : Params) : Node → Node
  | element name attributes children => polished params false name attributes children
  | node => node

mutual

theorem topmost_polishNode (params : Params) (passing log : Bool) :
    (node : Node) → topmostAll "testcase" (polishNode params passing log node).toList =
      ((topmost "testcase" node).filter (kept params)).map (polishedCase params)
  | element name attributes children => by
      by_cases hname : name = "testcase"
      · subst hname
        have hself (attributes : List (String × String)) (children : List Node) :
            topmost "testcase" (element "testcase" attributes children) =
              [element "testcase" attributes children] := by
          rw [topmost, if_pos BEq.rfl]
        have hinside : polished params passing "testcase" attributes children =
            polishedCase params (element "testcase" attributes children) := by
          have hnot : isLog "testcase" = false := by decide +kernel
          rw [polishedCase, polished, polished, hnot, Bool.and_false, Bool.and_false]
        rw [polishNode_testcase, hself]
        cases hkept : kept params (element "testcase" attributes children) with
        | false => rw [List.filter_cons_of_neg (by rw [hkept]; decide)]; rfl
        | true =>
            rw [List.filter_cons_of_pos hkept, if_pos rfl, Option.toList_some, topmostAll,
              polished, hself, ← polished, hinside]
            rfl
      · have hne : (name == "testcase") = false := beq_eq_false_iff_ne.mpr hname
        rw [polishNode_element hname, Option.toList_some, topmostAll, topmostAll,
          List.append_nil, polished, topmost, topmost, hne, if_neg Bool.false_ne_true,
          if_neg Bool.false_ne_true, topmost_polishNodes]
  | text value => by
      rw [polishNode]
      split <;> rfl
  | other value => rfl

theorem topmost_polishNodes (params : Params) (passing log : Bool) :
    (nodes : List Node) → topmostAll "testcase" (polishNodes params passing log nodes) =
      ((topmostAll "testcase" nodes).filter (kept params)).map (polishedCase params)
  | [] => rfl
  | node :: rest => by
      rw [polishNodes, topmostAll_put, topmost_polishNode params passing log node,
        topmost_polishNodes params passing log rest, topmostAll, List.filter_append,
        List.map_append]

end

/-! ## What a case that stays looks like -/

mutual

/-- No case and no suite stands below. -/
def plain : Node → Bool
  | element name _ children => name != "testcase" && name != "testsuite" && plainAll children
  | text _ => true
  | other _ => true

def plainAll : List Node → Bool
  | [] => true
  | node :: rest => plain node && plainAll rest

end

mutual

/-- Where no log loses its text, a plain node is copied as it is. -/
theorem polishNode_plain {params : Params} {passing log : Bool}
    (hquiet : params.rmlogs = true → passing = false ∧ log = false) :
    (node : Node) → plain node = true → separated node = true →
      polishNode params passing log node = some node
  | element name attributes children, hplain, hseparated => by
      rw [plain, Bool.and_eq_true, Bool.and_eq_true, bne_iff_ne, bne_iff_ne] at hplain
      rw [separated] at hseparated
      have hne : (name == "testcase") = false := beq_eq_false_iff_ne.mpr hplain.1.1
      have hbelow : params.rmlogs = true → false = false ∧ (passing && isLog name) = false :=
        fun h => ⟨rfl, by rw [(hquiet h).1, Bool.false_and]⟩
      rw [polishNode_element hplain.1.1, polished, hne, Bool.false_and,
        polishNodes_plain hbelow children hplain.2 hseparated, polishAttributes,
        if_neg hplain.1.2]
  | text value, _, _ => by
      have hkeeps : (log && params.rmlogs) = false := by
        cases h : params.rmlogs with
        | false => exact Bool.and_false log
        | true => rw [(hquiet h).2, Bool.false_and]
      rw [polishNode, hkeeps, if_neg Bool.false_ne_true]
  | other value, _, _ => rfl

theorem polishNodes_plain {params : Params} {passing log : Bool}
    (hquiet : params.rmlogs = true → passing = false ∧ log = false) :
    (nodes : List Node) → plainAll nodes = true → separatedAll nodes = true →
      polishNodes params passing log nodes = nodes
  | [], _, _ => rfl
  | node :: rest, hplain, hseparated => by
      rw [plainAll, Bool.and_eq_true] at hplain
      rw [separatedAll, Bool.and_eq_true, Bool.and_eq_true] at hseparated
      rw [polishNodes, polishNode_plain hquiet node hplain.1 hseparated.1.1,
        polishNodes_plain hquiet rest hplain.2 hseparated.2, put,
        glue_of_apart hseparated.1.2]

end

def isText : Node → Bool
  | text _ => true
  | element _ _ _ => false
  | other _ => false

/-- A log without its text. -/
def emptied : Node → Node
  | element name attributes children =>
      element name attributes
        (if isLog name then children.filter fun child => !isText child else children)
  | node => node

def withoutLogs : Node → Node
  | element name attributes children => element name attributes (children.map emptied)
  | node => node

/-- The text of a log goes; what else is in a log stays. -/
theorem polishNodes_log {params : Params} (hlogs : params.rmlogs = true) {nodes : List Node}
    (hplain : plainAll nodes = true) (hseparated : separatedAll nodes = true) :
    polishNodes params false true nodes = nodes.filter fun node => !isText node := by
  induction nodes with
  | nil => rfl
  | cons node rest ih =>
      rw [plainAll, Bool.and_eq_true] at hplain
      rw [separatedAll, Bool.and_eq_true, Bool.and_eq_true] at hseparated
      rw [polishNodes, ih hplain.2 hseparated.2]
      cases node with
      | text value =>
          rw [polishNode, hlogs]
          rfl
      | other value =>
          rw [polishNode, put, glue_other]
          rfl
      | element name attributes children =>
          have hsame : polishNode params false true (element name attributes children) =
              polishNode params false false (element name attributes children) := by
            rw [polishNode, polishNode]
          rw [hsame, polishNode_plain (fun _ => ⟨rfl, rfl⟩) _ hplain.1 hseparated.1.1, put,
            glue_element]
          rfl

theorem polishNodes_passing {params : Params} (hlogs : params.rmlogs = true) {nodes : List Node}
    (hplain : plainAll nodes = true) (hseparated : separatedAll nodes = true) :
    polishNodes params true false nodes = nodes.map emptied := by
  induction nodes with
  | nil => rfl
  | cons node rest ih =>
      rw [plainAll, Bool.and_eq_true] at hplain
      rw [separatedAll, Bool.and_eq_true, Bool.and_eq_true] at hseparated
      have hnode : polishNode params true false node = some (emptied node) := by
        cases node with
        | text value => rfl
        | other value => rfl
        | element name attributes children =>
            rw [plain, Bool.and_eq_true, Bool.and_eq_true, bne_iff_ne, bne_iff_ne] at hplain
            have hne : (name == "testcase") = false := beq_eq_false_iff_ne.mpr hplain.1.1.1
            rw [polishNode_element hplain.1.1.1, polished, hne, Bool.false_and, Bool.true_and,
              polishAttributes, if_neg hplain.1.1.2, emptied]
            cases hlog : isLog name with
            | true => rw [polishNodes_log hlogs hplain.1.2 hseparated.1.1, if_pos rfl]
            | false =>
                rw [polishNodes_plain (fun _ => ⟨rfl, rfl⟩) children hplain.1.2 hseparated.1.1,
                  if_neg Bool.false_ne_true]
      have hapart : apart (emptied node) (rest.map emptied) = true := by
        have hsides := hseparated.1.2
        cases node with
        | text value =>
            cases rest with
            | nil => rfl
            | cons next rest => cases next <;> first | rfl | exact hsides
        | other value => cases rest <;> rfl
        | element name attributes children => cases rest <;> rfl
      rw [polishNodes, hnode, ih hplain.2 hseparated.2, put, glue_of_apart hapart, List.map_cons]

/-- A case that stays: as it was, or without the text of its logs if it passed. -/
theorem polishedCase_of_plain (params : Params) {attributes : List (String × String)}
    {children : List Node} (hplain : plainAll children = true)
    (hseparated : separatedAll children = true) :
    polishedCase params (element "testcase" attributes children) =
      if failed (element "testcase" attributes children) || !params.rmlogs then
        element "testcase" attributes children
      else withoutLogs (element "testcase" attributes children) := by
  have hattributes : polishAttributes "testcase" attributes = attributes :=
    if_neg (by decide)
  rw [polishedCase, polished, BEq.rfl, Bool.true_and, Bool.false_and, hattributes, withoutLogs]
  cases failed (element "testcase" attributes children) with
  | true =>
      rw [Bool.true_or, if_pos rfl, Bool.not_true,
        polishNodes_plain (fun _ => ⟨rfl, rfl⟩) children hplain hseparated]
  | false =>
      rw [Bool.false_or, Bool.not_false]
      cases hlogs : params.rmlogs with
      | true => rw [polishNodes_passing hlogs hplain hseparated]; rfl
      | false =>
          rw [polishNodes_plain (fun h => by rw [hlogs] at h; cases h) children hplain hseparated]
          rfl

/-! ## Reports -/

mutual

/-- No case stands below properties. -/
def tidy : Node → Bool
  | element name _ children =>
      (name != "properties" && name != "property" ||
        (topmostAll "testcase" children).isEmpty) && tidyAll children
  | text _ => true
  | other _ => true

def tidyAll : List Node → Bool
  | [] => true
  | node :: rest => tidy node && tidyAll rest

end

/-- What a run of the tests writes: cases do not hold cases or suites, and properties hold
no cases. -/
structure JUnit (root : Node) : Prop where
  separated : separated root = true
  cases : ∀ case ∈ topmost "testcase" root, plainAll case.children = true
  properties : tidy root = true

theorem tidyAll_iff (nodes : List Node) :
    tidyAll nodes = true ↔ ∀ node ∈ nodes, tidy node = true := by
  induction nodes with
  | nil => simp [tidyAll]
  | cons node rest ih => rw [tidyAll, Bool.and_eq_true, ih, List.forall_mem_cons]

theorem tidy_children {node child : Node} (h : tidy node = true) (hchild : child ∈ node.children) :
    tidy child = true := by
  cases node with
  | element name attributes children =>
      rw [tidy, Bool.and_eq_true] at h
      exact (tidyAll_iff children).mp h.2 child hchild
  | text value => cases hchild
  | other value => cases hchild

theorem topmost_of_tidy {node : Node} {name : String} (h : tidy node = true)
    (hname : name = "properties" ∨ name = "property") (hnode : node.isElement name = true) :
    topmost "testcase" node = [] := by
  cases node with
  | element n attributes children =>
      obtain rfl : n = name := by simpa using hnode
      rw [tidy, Bool.and_eq_true, Bool.or_eq_true, List.isEmpty_iff] at h
      have hne : ¬ (n == "testcase") = true := by
        rcases hname with rfl | rfl <;> decide
      rw [topmost, if_neg hne]
      refine h.1.resolve_left ?_
      rcases hname with rfl | rfl <;> decide
  | text value => rfl
  | other value => rfl

mutual

theorem separated_of_mem_topmost {name : String} {found : Node} :
    (node : Node) → separated node = true → found ∈ topmost name node →
      separated found = true
  | element n attributes children, hseparated, h => by
      rw [topmost] at h
      split at h
      · rw [List.mem_singleton.mp h]
        exact hseparated
      · exact separated_of_mem_topmostAll children hseparated h
  | text value, _, h => by cases h
  | other value, _, h => by cases h

theorem separated_of_mem_topmostAll {name : String} {found : Node} :
    (nodes : List Node) → separatedAll nodes = true → found ∈ topmostAll name nodes →
      separated found = true
  | [], _, h => by cases h
  | node :: rest, hseparated, h => by
      rw [separatedAll, Bool.and_eq_true, Bool.and_eq_true] at hseparated
      rw [topmostAll, List.mem_append] at h
      exact h.elim (separated_of_mem_topmost node hseparated.1.1)
        (separated_of_mem_topmostAll rest hseparated.2)

end

theorem mem_copiedProperties {params : Params} {root copied : Node}
    (h : copied ∈ copiedProperties params root) :
    ∃ suite ∈ root.childrenOf "testsuite", copied ∈ suite.childrenOf "properties" := by
  unfold copiedProperties at h
  split at h
  · exact List.mem_flatMap.mp h
  · cases h

/-! ## Polished reports are reports -/

mutual

/-- Whatever stays keeps its attributes, except for the counts of suites. -/
theorem attributes_polishNode {name : String} (hname : name ≠ "testsuite") (params : Params)
    (passing log : Bool) :
    (node : Node) →
      (elements name (polishNode params passing log node).toList).map Node.attributes ⊆
        (elements name [node]).map Node.attributes
  | element n attributes children => by
      have hchildren := attributes_polishNodes hname params
        (n == "testcase" && !failed (element n attributes children)) (passing && isLog n) children
      have hpolished :
          (elements name [polished params passing n attributes children]).map Node.attributes ⊆
            (elements name [element n attributes children]).map Node.attributes := by
        rw [polished, elements_element, elements_element]
        split
        · rename_i hn
          rw [polishAttributes, if_neg (by rw [beq_iff_eq.mp hn]; exact hname), List.map_cons,
            List.map_cons]
          exact List.cons_subset_cons _ hchildren
        · exact hchildren
      by_cases hn : n = "testcase"
      · subst hn
        rw [polishNode_testcase]
        split
        · exact hpolished
        · exact List.nil_subset _
      · rw [polishNode_element hn]
        exact hpolished
  | text value => by
      rw [polishNode]
      split
      · exact List.nil_subset _
      · exact List.Subset.refl _
  | other value => List.Subset.refl _

theorem attributes_polishNodes {name : String} (hname : name ≠ "testsuite") (params : Params)
    (passing log : Bool) :
    (nodes : List Node) →
      (elements name (polishNodes params passing log nodes)).map Node.attributes ⊆
        (elements name nodes).map Node.attributes
  | [] => List.Subset.refl _
  | node :: rest => by
      rw [polishNodes, elements_put, elements_cons, List.map_append, List.map_append]
      exact List.append_subset.mpr
        ⟨List.subset_append_of_subset_left _ (attributes_polishNode hname params passing log node),
          List.subset_append_of_subset_right _
            (attributes_polishNodes hname params passing log rest)⟩

end

theorem tidyAll_glue {node : Node} {rest : List Node} (hnode : tidy node = true)
    (hrest : tidyAll rest = true) : tidyAll (glue node rest) = true := by
  cases node with
  | element name attributes children => rw [glue_element, tidyAll, hnode, hrest, Bool.and_self]
  | other value => rw [glue_other, tidyAll, hnode, hrest, Bool.and_self]
  | text s =>
      cases rest with
      | nil => rfl
      | cons next rest =>
          rw [tidyAll, Bool.and_eq_true] at hrest
          cases next with
          | text t =>
              rw [glue, tidyAll, hrest.2]
              rfl
          | element name attributes children =>
              rw [glue_of_apart rfl, tidyAll, tidyAll, hnode, hrest.1, hrest.2]
              rfl
          | other value =>
              rw [glue_of_apart rfl, tidyAll, tidyAll, hnode, hrest.2]
              rfl

theorem tidyAll_paste {nodes rest : List Node} (hnodes : ∀ node ∈ nodes, tidy node = true)
    (hrest : tidyAll rest = true) : tidyAll (paste nodes rest) = true := by
  induction nodes with
  | nil => exact hrest
  | cons node nodes ih =>
      exact tidyAll_glue (hnodes node List.mem_cons_self)
        (ih fun n hn => hnodes n (List.mem_cons_of_mem node hn))

mutual

theorem tidy_polishNode (params : Params) (passing log : Bool) :
    (node : Node) → tidy node = true →
      ∀ result, polishNode params passing log node = some result → tidy result = true
  | element name attributes children, h, result, hresult => by
      rw [tidy, Bool.and_eq_true] at h
      have hpolished : tidy (polished params passing name attributes children) = true := by
        rw [polished, tidy, Bool.and_eq_true, topmost_polishNodes]
        refine ⟨?_, tidy_polishNodes params _ _ children h.2⟩
        cases hnames : (name != "properties" && name != "property") with
        | true => rfl
        | false =>
            rw [hnames, Bool.false_or, List.isEmpty_iff] at h
            rw [h.1]
            rfl
      by_cases hname : name = "testcase"
      · subst hname
        rw [polishNode_testcase] at hresult
        split at hresult
        · exact Option.some.inj hresult ▸ hpolished
        · cases hresult
      · rw [polishNode_element hname] at hresult
        exact Option.some.inj hresult ▸ hpolished
  | text value, _, result, hresult => by
      rw [polishNode] at hresult
      split at hresult
      · cases hresult
      · exact Option.some.inj hresult ▸ rfl
  | other value, _, result, hresult => Option.some.inj hresult ▸ rfl

theorem tidy_polishNodes (params : Params) (passing log : Bool) :
    (nodes : List Node) → tidyAll nodes = true →
      tidyAll (polishNodes params passing log nodes) = true
  | [], _ => rfl
  | node :: rest, h => by
      rw [tidyAll, Bool.and_eq_true] at h
      have hrest := tidy_polishNodes params passing log rest h.2
      rw [polishNodes]
      cases hnode : polishNode params passing log node with
      | none => exact hrest
      | some result =>
          exact tidyAll_glue (tidy_polishNode params passing log node h.1 result hnode) hrest

end

/-- The result is the root polished, under `testsuites` after the copied properties. -/
theorem polish_cases_of_ok {params : Params} {root report : Node}
    (h : polish params root = .ok (some report)) :
    polishNode params false false root = some report ∨
      ∃ attributes children, root = element "testsuites" attributes children ∧
        report = element "testsuites" attributes (paste (copiedProperties params root)
          (polishNodes params false false children)) := by
  unfold polish at h
  split at h
  · rename_i attributes children
    dsimp only at h
    split at h
    · refine .inr ⟨attributes, children, rfl, ?_⟩
      exact (Option.some.inj (Except.ok.inj h)).symm
    · cases h
  · exact .inl (Except.ok.inj h)

theorem attributes_polish {name : String} (hname : name ≠ "testsuite")
    (hroots : name ≠ "testsuites") {params : Params} {root report : Node}
    (h : polish params root = .ok (some report)) :
    (elements name [report]).map Node.attributes ⊆
      (elements name [root]).map Node.attributes := by
  rcases polish_cases_of_ok h with hnode | ⟨attributes, children, rfl, rfl⟩
  · have hsubset := attributes_polishNode hname params false false root
    rwa [hnode] at hsubset
  · have hne : ¬ ("testsuites" == name) = true := fun hbeq => hroots (beq_iff_eq.mp hbeq).symm
    rw [elements_element, if_neg hne, elements_paste, List.map_append, List.append_subset]
    constructor
    · refine List.map_subset _ fun found hfound => ?_
      rw [elements_eq_flatMap] at hfound
      obtain ⟨copied, hcopied, hfound⟩ := List.mem_flatMap.mp hfound
      obtain ⟨suite, hsuite, hproperties⟩ := mem_copiedProperties hcopied
      exact elements_subset_of_mem_children name (List.mem_filter.mp hsuite).1
        (elements_subset_of_mem_children name (List.mem_filter.mp hproperties).1 hfound)
    · rw [elements_element, if_neg hne]
      exact attributes_polishNodes hname params false false children

theorem tidy_polish {params : Params} {root report : Node} (hroot : tidy root = true)
    (h : polish params root = .ok (some report)) : tidy report = true := by
  rcases polish_cases_of_ok h with hnode | ⟨attributes, children, rfl, rfl⟩
  · exact tidy_polishNode params false false root hroot report hnode
  · have hchildren : tidyAll children = true := by
      rw [tidy, Bool.and_eq_true] at hroot
      exact hroot.2
    rw [tidy, Bool.and_eq_true]
    refine ⟨rfl, tidyAll_paste (fun copied hcopied => ?_)
      (tidy_polishNodes params false false children hchildren)⟩
    obtain ⟨suite, hsuite, hproperties⟩ := mem_copiedProperties hcopied
    exact tidy_children (tidy_children hroot (List.mem_filter.mp hsuite).1)
      (List.mem_filter.mp hproperties).1

/-- The cases of a polished report are the cases that stay, in their order. -/
theorem topmost_polish {params : Params} {root report : Node} (hroot : tidy root = true)
    (h : polish params root = .ok (some report)) :
    topmost "testcase" report =
      ((topmost "testcase" root).filter (kept params)).map (polishedCase params) := by
  rcases polish_cases_of_ok h with hnode | ⟨attributes, children, rfl, rfl⟩
  · have htop := topmost_polishNode params false false root
    rwa [hnode, Option.toList_some, topmostAll, topmostAll, List.append_nil] at htop
  · have hcopied : topmostAll "testcase" (copiedProperties params
        (element "testsuites" attributes children)) = [] := by
      rw [topmostAll_eq_flatMap, List.flatMap_eq_nil_iff]
      intro copied hmem
      obtain ⟨suite, hsuite, hproperties⟩ := mem_copiedProperties hmem
      have hsuite' := List.mem_filter.mp hsuite
      have hproperties' := List.mem_filter.mp hproperties
      exact topmost_of_tidy (tidy_children (tidy_children hroot hsuite'.1) hproperties'.1)
        (.inl rfl) hproperties'.2
    have hne : ¬ ("testsuites" == "testcase") = true := by decide
    rw [topmost, if_neg hne, topmostAll_paste, hcopied, List.nil_append, topmost_polishNodes,
      topmost, if_neg hne]

/-- The cases of a polished report are those that were not skipped, and did not fail where
failures are not wanted, in their order; a case that failed is untouched, and one that
passed has lost only the text of its logs. -/
theorem polish_keeps_cases {params : Params} {root report : Node} (hroot : JUnit root)
    (h : polish params root = .ok (some report)) :
    topmost "testcase" report =
      ((topmost "testcase" root).filter (kept params)).map fun case =>
        if failed case || !params.rmlogs then case else withoutLogs case := by
  rw [topmost_polish hroot.properties h]
  refine List.map_congr_left fun case hcase => ?_
  have hmem := (List.mem_filter.mp hcase).1
  have hname := isElement_of_mem_topmost root hmem
  have hseparated := separated_of_mem_topmost root hroot.separated hmem
  have hplain := hroot.cases case hmem
  cases case with
  | element name attributes children =>
      obtain rfl : name = "testcase" := by simpa using hname
      exact polishedCase_of_plain params hplain hseparated
  | text value => cases hname
  | other value => cases hname

/-- A report of three cases, as it goes to Polarion -/
theorem polish_keeps_cases_of_three :
    topmost "testcase" (element "testsuites" []
        [element "properties" [] [element "property" [("name", "project")] []],
          element "testsuite" [("skipped", "0")]
            [element "properties" [] [element "property" [("name", "project")] []],
              element "testcase" [("name", "passed")] [element "system-out" [] []],
              element "testcase" [("name", "both")]
                [element "error" [] [], element "skipped" [] [],
                  element "system-out" [] [text "log"]]]]) =
      [element "testcase" [("name", "passed")] [element "system-out" [] []],
        element "testcase" [("name", "both")]
          [element "error" [] [], element "skipped" [] [],
            element "system-out" [] [text "log"]]] :=
  @polish_keeps_cases ⟨false, true, true⟩ (element "testsuites" []
    [element "testsuite" [("skipped", "2")]
      [element "properties" [] [element "property" [("name", "project")] []],
        element "testcase" [("name", "passed")] [element "system-out" [] [text "log"]],
        element "testcase" [("name", "skipped")] [element "skipped" [] []],
        element "testcase" [("name", "both")]
          [element "error" [] [], element "skipped" [] [],
            element "system-out" [] [text "log"]]]]) _
    ⟨rfl, by decide +kernel, rfl⟩ rfl

/-- Only the copies for Polarion can fail: under a root that has attributes. -/
theorem polish_eq_error_iff {params : Params} {root : Node} :
    polish params root = .error .attributeAfterChildren ↔
      root.isElement "testsuites" = true ∧ root.attributes ≠ [] ∧
        copiedProperties params root ≠ [] := by
  unfold polish
  split
  · rename_i attributes children
    simp only [isElement_element, BEq.rfl, attributes_element, ne_eq, true_and]
    split
    · rename_i hempty
      rw [Bool.or_eq_true, List.isEmpty_iff, List.isEmpty_iff] at hempty
      constructor
      · intro h
        cases h
      · rintro ⟨hattributes, hcopied⟩
        exact (hempty.elim hcopied hattributes).elim
    · rename_i hempty
      rw [Bool.or_eq_true, List.isEmpty_iff, List.isEmpty_iff, not_or] at hempty
      exact ⟨fun _ => ⟨hempty.2, hempty.1⟩, fun _ => rfl⟩
  · rename_i hroot
    constructor
    · intro h
      cases h
    · rintro ⟨hname, -, -⟩
      cases root with
      | element name attributes children =>
          obtain rfl : name = "testsuites" := by simpa using hname
          exact (hroot attributes children rfl).elim
      | text value => cases hname
      | other value => cases hname

end ThreescaleTests.Reports
