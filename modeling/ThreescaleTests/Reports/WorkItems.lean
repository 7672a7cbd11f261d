import Mathlib.Data.List.Dedup
import ThreescaleTests.Reports.Polish

/-!
# Requirements and test cases

Two more stylesheets turn a polished report into what is imported before it: the
requirements, one for each issue the cases name and one for all the rest, and the test
cases with links to the requirements they verify. The links are made of the properties
the templates come across, the requirements of every property of the document.
-/

namespace ThreescaleTests.Reports

open Library.Xml
open Library.Xml.Node

/-! ## Properties -/

def isProperty (name : String) (node : Node) : Bool :=
  node.isElement "property" && node.valueOf? "name" == some name

/-- `{//property[@name = 'polarion-project-id']/@value}`: the first of the values -/
def projectId (document : List Node) : String :=
  (((descendants document).filter (isProperty "polarion-project-id")).filterMap
    (valueOf? "value")).headD ""

/-- The text that fills an element, if there is any. -/
def content (value : String) : List Node := if value = "" then [] else [text value]

def lookupProperties : Node :=
  element "properties" [] [element "property" [("name", "lookup-method"), ("value", "name")] []]

def customField (id content : String) : Node :=
  element "custom-field" [("id", id), ("content", content)] []

/-! ## Requirements -/

/-- `//property[@name='issue-id']`, each with its siblings -/
def issueIds (document : List Node) : List (List Node × Node) :=
  (locatedAll document document).filter fun located => isProperty "issue-id" located.2

/-- The first of each value, as the key `issue-ids` finds it. -/
def firstOfValue (seen : List String) : List (List Node × Node) → List (List Node × String)
  | [] => []
  | (siblings, node) :: rest =>
      match node.valueOf? "value" with
      | none => firstOfValue seen rest
      | some value =>
          if value ∈ seen then firstOfValue seen rest
          else (siblings, value) :: firstOfValue (value :: seen) rest

/-- `../property[@name = 'issue']/@value` -/
def issueOf (siblings : List Node) : String :=
  ((siblings.filter (isProperty "issue")).filterMap (valueOf? "value")).headD ""

def e2eTesting (approver : String) : Node :=
  element "requirement"
    [("severity-id", "should_have"), ("priority-id", "high"),
      ("approver-ids", approver ++ ":approved"), ("status-id", "approved")]
    [element "title" [] [text "E2E Testing"],
      element "description" []
        [text "All the (automation?) testing that doesn't fall elsewhere"],
      element "custom-fields" [] [customField "reqtype" "functional"]]

def requirement (approver : String) (issue : List Node × String) : Node :=
  element "requirement"
    [("id", issue.2), ("severity-id", "should_have"), ("priority-id", "high"),
      ("approver-ids", approver ++ ":approved"), ("assignee-id", approver),
      ("status-id", "approved")]
    [element "title" [] (content issue.2), element "description" [] (content (issueOf issue.1)),
      element "custom-fields" [] [customField "reqtype" "functional"]]

def requirements (approver : String) (document : List Node) : Node :=
  element "requirements" [("project-id", projectId document)]
    (lookupProperties :: e2eTesting approver ::
      (firstOfValue [] (issueIds document)).map (requirement approver))

/-! ## Test cases -/

def caseName (case : Node) : String := case.valueOf "classname" ++ "." ++ case.valueOf "name"

def linkedWorkItem (workitemId : String) : Node :=
  element "linked-work-item"
    [("lookup-method", "name"), ("role-id", "verifies"), ("workitem-id", workitemId)] []

def testcase (approver name : String) (links : List Node) : Node :=
  element "testcase"
    [("id", name), ("approver-ids", approver ++ ":approved"), ("status-id", "approved")]
    [element "title" [] (content name), element "description" [] (content name),
      element "custom-fields" []
        [customField "caseautomation" "automated", customField "testtype" "functional",
          customField "subtype1" "integration", customField "caselevel" "integration",
          customField "caseimportance" "high",
          customField "automation_script"
            "https://gitlab.cee.redhat.com/3scale-qe/3scale-py-testsuite"],
      element "linked-work-items" [] (linkedWorkItem "E2E Testing" :: links)]

mutual

/-- What the templates make of a node. Elements without a template, as everywhere in
stylesheets, stand for what is in them, and text for itself. -/
def workItems (approver : String) : Node → List Node
  | element name attributes children =>
      if name = "testcase" then
        [testcase approver (caseName (element name attributes children))
          (propertiesItems approver children)]
      else if isProperty "issue-id" (element name attributes children) then
        [linkedWorkItem ((element name attributes children).valueOf "value")]
      else workItemsAll approver children
  | text value => [text value]
  | other _ => []

def workItemsAll (approver : String) : List Node → List Node
  | [] => []
  | node :: rest => paste (workItems approver node) (workItemsAll approver rest)

/-- The children of a case: `properties/property` -/
def propertiesItems (approver : String) : List Node → List Node
  | [] => []
  | element name _ children :: rest =>
      if name = "properties" then
        paste (propertyItems approver children) (propertiesItems approver rest)
      else propertiesItems approver rest
  | text _ :: rest => propertiesItems approver rest
  | other _ :: rest => propertiesItems approver rest

/-- The children of the properties of a case. -/
def propertyItems (approver : String) : List Node → List Node
  | [] => []
  | node :: rest =>
      if node.isElement "property" then
        paste (workItems approver node) (propertyItems approver rest)
      else propertyItems approver rest

end

def testcases (approver : String) (document : List Node) : Node :=
  element "testcases" [("project-id", projectId document)]
    (lookupProperties :: workItemsAll approver document)

/-! ## One requirement for each value -/

def values (issues : List (List Node × Node)) : List String :=
  issues.filterMap fun located => located.2.valueOf? "value"

theorem firstOfValue_spec (issues : List (List Node × Node)) (seen : List String) :
    ((firstOfValue seen issues).map Prod.snd).Nodup ∧
      ∀ value, value ∈ (firstOfValue seen issues).map Prod.snd ↔
        value ∈ values issues ∧ value ∉ seen := by
  induction issues generalizing seen with
  | nil => exact ⟨List.nodup_nil, by simp [firstOfValue, values]⟩
  | cons located rest ih =>
      obtain ⟨siblings, node⟩ := located
      rw [firstOfValue, values, List.filterMap_cons, ← values]
      cases hvalue : node.valueOf? "value" with
      | none => exact ih seen
      | some first =>
          dsimp only
          split
          · rename_i hseen
            refine ⟨(ih seen).1, fun value => ?_⟩
            rw [(ih seen).2 value, List.mem_cons]
            constructor
            · exact fun h => ⟨.inr h.1, h.2⟩
            · rintro ⟨rfl | h, hnot⟩
              · exact (hnot hseen).elim
              · exact ⟨h, hnot⟩
          · rename_i hseen
            obtain ⟨hnodup, hmem⟩ := ih (first :: seen)
            refine ⟨?_, fun value => ?_⟩
            · rw [List.map_cons, List.nodup_cons, hmem first]
              exact ⟨fun h => h.2 List.mem_cons_self, hnodup⟩
            · rw [List.map_cons, List.mem_cons, hmem value, List.mem_cons, List.mem_cons, not_or]
              by_cases hfirst : value = first
              · subst hfirst
                exact ⟨fun _ => ⟨.inl rfl, hseen⟩, fun _ => .inl rfl⟩
              · simp [hfirst]

theorem mem_values_issueIds {document : List Node} {value : String} :
    value ∈ values (issueIds document) ↔
      ∃ property ∈ elements "property" document, isProperty "issue-id" property = true ∧
        property.valueOf? "value" = some value := by
  rw [values, List.mem_filterMap]
  constructor
  · rintro ⟨located, hlocated, hvalue⟩
    obtain ⟨hmem, hissue⟩ := List.mem_filter.mp hlocated
    have hproperty : located.2.isElement "property" = true := (Bool.and_eq_true _ _ ▸ hissue).1
    exact ⟨located.2,
      List.mem_filter.mpr ⟨List.mem_map.mpr ⟨located, hmem, rfl⟩, hproperty⟩, hissue, hvalue⟩
  · rintro ⟨property, hmem, hissue, hvalue⟩
    obtain ⟨located, hlocated, rfl⟩ := List.mem_map.mp (List.mem_filter.mp hmem).1
    exact ⟨located, List.mem_filter.mpr ⟨hlocated, hissue⟩, hvalue⟩

/-- The ids of the requirements of an import; the one for all the rest has none. -/
def requirementIds (imported : Node) : List String :=
  (imported.childrenOf "requirement").filterMap (valueOf? "id")

/-- The titles by which the requirements of an import are found. -/
def titles (imported : Node) : List String :=
  ((imported.childrenOf "requirement").flatMap (childrenOf "title")).map stringValue

theorem stringValue_title (value : String) :
    stringValue (element "title" [] (content value)) = value := by
  rw [stringValue]
  unfold content
  split
  · rename_i hempty
    exact hempty.symm
  · rw [stringValues, stringValue, stringValues, String.append_empty]

theorem requirement_children (approver : String) (document : List Node) :
    (requirements approver document).childrenOf "requirement" =
      e2eTesting approver ::
        (firstOfValue [] (issueIds document)).map (requirement approver) := by
  rw [requirements, childrenOf, children_element, List.filter_cons_of_neg (by decide),
    List.filter_cons_of_pos rfl, List.filter_eq_self.mpr]
  intro node hnode
  obtain ⟨issue, -, rfl⟩ := List.mem_map.mp hnode
  rfl

theorem requirementIds_requirements (approver : String) (document : List Node) :
    requirementIds (requirements approver document) =
      (firstOfValue [] (issueIds document)).map Prod.snd := by
  have hid (issue : List Node × String) :
      (valueOf? "id" ∘ requirement approver) issue = some issue.2 := rfl
  rw [requirementIds, requirement_children, List.filterMap_cons_none rfl, List.filterMap_map]
  simp only [funext hid]
  rw [← List.filterMap_eq_map]
  rfl

theorem titles_requirements (approver : String) (document : List Node) :
    titles (requirements approver document) =
      "E2E Testing" :: (firstOfValue [] (issueIds document)).map Prod.snd := by
  have htitle (issue : List Node × String) :
      (requirement approver issue).childrenOf "title" =
        [element "title" [] (content issue.2)] := rfl
  have hfirst : ((e2eTesting approver).childrenOf "title").map stringValue = ["E2E Testing"] :=
    rfl
  rw [titles, requirement_children, List.flatMap_cons, List.map_append, hfirst,
    List.cons_append, List.nil_append, List.flatMap_map]
  simp only [htitle]
  rw [← List.map_eq_flatMap, List.map_map]
  congr 1
  exact List.map_congr_left fun issue _ => stringValue_title issue.2

/-! ## What the links name -/

/-- A link to the requirement for all the rest, or to the one of an issue of the document. -/
def Linked (document : List Node) (link : Node) : Prop :=
  link.valueOf "workitem-id" = "E2E Testing" ∨
    ∃ issue ∈ elements "property" document, isProperty "issue-id" issue = true ∧
      link.valueOf "workitem-id" = issue.valueOf "value"

theorem Linked.of_elements_subset {document larger : List Node} {link : Node}
    (hsubset : elements "property" document ⊆ elements "property" larger)
    (h : Linked document link) : Linked larger link := by
  rcases h with he2e | ⟨issue, hmem, hissue⟩
  · exact .inl he2e
  · exact .inr ⟨issue, hsubset hmem, hissue⟩

theorem Linked.cons {node : Node} {rest : List Node} {link : Node}
    (h : Linked [node] link ∨ Linked rest link) : Linked (node :: rest) link := by
  have hcons := elements_cons "property" node rest
  rcases h with hnode | hrest
  · exact hnode.of_elements_subset (by rw [hcons]; exact List.subset_append_left _ _)
  · exact hrest.of_elements_subset (by rw [hcons]; exact List.subset_append_right _ _)

theorem Linked.element {name : String} {attributes : List (String × String)}
    {children : List Node} {link : Node} (h : Linked children link) :
    Linked [element name attributes children] link := by
  refine h.of_elements_subset ?_
  rw [elements_element]
  split
  · exact List.subset_cons_self _ _
  · exact List.Subset.refl _

theorem elements_linkedWorkItem (workitemId : String) :
    elements "linked-work-item" [linkedWorkItem workitemId] = [linkedWorkItem workitemId] := rfl

theorem elements_content (name value : String) : elements name (content value) = [] := by
  unfold content
  split <;> rfl

theorem elements_testcase (approver name : String) (links : List Node) :
    elements "linked-work-item" [testcase approver name links] =
      linkedWorkItem "E2E Testing" :: elements "linked-work-item" links := by
  have htitle (n : String) (hn : ¬ (n == "linked-work-item") = true) :
      elements "linked-work-item" [element n [] (content name)] = [] := by
    rw [elements_element, if_neg hn, elements_content]
  rw [testcase, elements_element, if_neg (by decide), elements_cons, htitle "title" (by decide),
    elements_cons, htitle "description" (by decide), elements_cons]
  have hfields (fields : List (String × String)) :
      elements "linked-work-item"
        [element "custom-fields" [] (fields.map fun f => customField f.1 f.2)] = [] := by
    rw [elements_element, if_neg (by decide)]
    induction fields with
    | nil => rfl
    | cons f fields ih =>
        rw [List.map_cons, elements_cons, ih]
        rfl
  have hcustom := hfields
    [("caseautomation", "automated"), ("testtype", "functional"), ("subtype1", "integration"),
      ("caselevel", "integration"), ("caseimportance", "high"), ("automation_script",
        "https://gitlab.cee.redhat.com/3scale-qe/3scale-py-testsuite")]
  simp only [List.map_cons, List.map_nil] at hcustom
  rw [hcustom, elements_element, if_neg (by decide), elements_cons, elements_linkedWorkItem]
  rfl

theorem linked_paste {nodes rest : List Node} {node : Node} {after : List Node} {link : Node}
    (hnode : ∀ link ∈ elements "linked-work-item" nodes, Linked [node] link)
    (hrest : ∀ link ∈ elements "linked-work-item" rest, Linked after link)
    (h : link ∈ elements "linked-work-item" (paste nodes rest)) : Linked (node :: after) link := by
  rw [elements_paste, List.mem_append] at h
  exact Linked.cons (h.imp (hnode link) (hrest link))

mutual

theorem linked_workItems (approver : String) :
    (node : Node) → ∀ link ∈ elements "linked-work-item" (workItems approver node),
      Linked [node] link
  | element name attributes children, link, h => by
      rw [workItems] at h
      split at h
      · rw [elements_testcase, List.mem_cons] at h
        rcases h with rfl | h
        · exact .inl rfl
        · exact (linked_propertiesItems approver children link h).element
      · split at h
        · rename_i hissue
          rw [elements_linkedWorkItem, List.mem_singleton] at h
          subst h
          have hproperty : (element name attributes children).isElement "property" = true :=
            (Bool.and_eq_true _ _ ▸ hissue).1
          refine .inr ⟨element name attributes children, ?_, hissue, rfl⟩
          rw [elements_element, ← isElement_element, if_pos hproperty]
          exact List.mem_cons_self
        · exact (linked_workItemsAll approver children link h).element
  | text value, link, h => by cases h
  | other value, link, h => by cases h

theorem linked_workItemsAll (approver : String) :
    (nodes : List Node) → ∀ link ∈ elements "linked-work-item" (workItemsAll approver nodes),
      Linked nodes link
  | [], link, h => by cases h
  | node :: rest, link, h =>
      linked_paste (linked_workItems approver node) (linked_workItemsAll approver rest) h

theorem linked_propertiesItems (approver : String) :
    (nodes : List Node) → ∀ link ∈ elements "linked-work-item" (propertiesItems approver nodes),
      Linked nodes link
  | [], link, h => by cases h
  | element name attributes children :: rest, link, h => by
      rw [propertiesItems] at h
      split at h
      · exact linked_paste (fun l hl => (linked_propertyItems approver children l hl).element)
          (linked_propertiesItems approver rest) h
      · exact Linked.cons (.inr (linked_propertiesItems approver rest link h))
  | text value :: rest, link, h => Linked.cons (.inr (linked_propertiesItems approver rest link h))
  | other value :: rest, link, h =>
      Linked.cons (.inr (linked_propertiesItems approver rest link h))

theorem linked_propertyItems (approver : String) :
    (nodes : List Node) → ∀ link ∈ elements "linked-work-item" (propertyItems approver nodes),
      Linked nodes link
  | [], link, h => by cases h
  | node :: rest, link, h => by
      rw [propertyItems] at h
      split at h
      · exact linked_paste (linked_workItems approver node) (linked_propertyItems approver rest) h
      · exact Linked.cons (.inr (linked_propertyItems approver rest link h))

end

theorem elements_testcases (approver : String) (document : List Node) :
    elements "linked-work-item" [testcases approver document] =
      elements "linked-work-item" (workItemsAll approver document) := by
  rw [testcases, elements_element, if_neg (by decide), elements_cons]
  rfl

/-! ## The names of the cases -/

mutual

theorem topmost_workItems (approver : String) :
    (node : Node) → tidy node = true →
      (topmostAll "testcase" (workItems approver node)).map (valueOf "id") =
        (topmost "testcase" node).map caseName
  | element name attributes children, h => by
      rw [workItems]
      split
      · rename_i hname
        rw [topmost, if_pos (beq_iff_eq.mpr hname)]
        rfl
      · rename_i hname
        split
        · rename_i hissue
          have hproperty : (element name attributes children).isElement "property" = true :=
            (Bool.and_eq_true _ _ ▸ hissue).1
          rw [topmost_of_tidy h (.inr rfl) hproperty]
          rfl
        · rw [tidy, Bool.and_eq_true] at h
          rw [topmost, if_neg fun hbeq => hname (beq_iff_eq.mp hbeq)]
          exact topmost_workItemsAll approver children h.2
  | text value, _ => rfl
  | other value, _ => rfl

theorem topmost_workItemsAll (approver : String) :
    (nodes : List Node) → tidyAll nodes = true →
      (topmostAll "testcase" (workItemsAll approver nodes)).map (valueOf "id") =
        (topmostAll "testcase" nodes).map caseName
  | [], _ => rfl
  | node :: rest, h => by
      rw [tidyAll, Bool.and_eq_true] at h
      rw [workItemsAll, topmostAll_paste, List.map_append,
        topmost_workItems approver node h.1, topmost_workItemsAll approver rest h.2, topmostAll,
        List.map_append]

end

/-! ## An upload -/

/-- What is imported, in the order in which it is posted. -/
structure Imports where
  requirements : Node
  testcases : Node
  xunit : Node

/-- The documents `upload` makes of a report; nothing is made of one whose root is a case
that is removed. -/
def upload (username : String) (skipFails : Bool) (root : Node) :
    Except TransformError (Option Imports) := do
  let polished ← polish ⟨skipFails, true, true⟩ root
  return polished.map fun polished =>
    ⟨requirements username [polished], testcases username [polished], polished⟩

theorem upload_ok {username : String} {skipFails : Bool} {root : Node} {imports : Imports}
    (h : upload username skipFails root = .ok (some imports)) :
    polish ⟨skipFails, true, true⟩ root = .ok (some imports.xunit) ∧
      imports.requirements = requirements username [imports.xunit] ∧
      imports.testcases = testcases username [imports.xunit] := by
  unfold upload at h
  cases hpolish : polish ⟨skipFails, true, true⟩ root with
  | error e => rw [hpolish] at h; cases h
  | ok report =>
      rw [hpolish] at h
      cases report with
      | none => cases h
      | some report =>
          obtain rfl := Option.some.inj (Except.ok.inj h)
          exact ⟨rfl, rfl, rfl⟩

theorem caseName_polishedCase (params : Params) {case : Node}
    (hcase : case.isElement "testcase" = true) :
    caseName (polishedCase params case) = caseName case := by
  cases case with
  | element name attributes children =>
      obtain rfl : name = "testcase" := by simpa using hcase
      have hattributes : polishAttributes "testcase" attributes = attributes :=
        if_neg (by decide)
      rw [polishedCase, polished, hattributes]
      rfl
  | text value => cases hcase
  | other value => cases hcase

/-- The cases that are imported are named as those of the imported results, which are the
cases that stay in the report, in their order. -/
theorem upload_testcase_ids {username : String} {skipFails : Bool} {root : Node}
    {imports : Imports} (hroot : tidy root = true)
    (h : upload username skipFails root = .ok (some imports)) :
    (topmost "testcase" imports.testcases).map (valueOf "id") =
        (topmost "testcase" imports.xunit).map caseName ∧
      (topmost "testcase" imports.xunit).map caseName =
        ((topmost "testcase" root).filter (kept ⟨skipFails, true, true⟩)).map caseName := by
  obtain ⟨hpolish, -, htestcases⟩ := upload_ok h
  constructor
  · have hreport : tidyAll [imports.xunit] = true := by
      rw [tidyAll, tidy_polish hroot hpolish]
      rfl
    have hids := topmost_workItemsAll username [imports.xunit] hreport
    rw [topmostAll, topmostAll, List.append_nil] at hids
    rw [htestcases, ← hids]
    rfl
  · rw [topmost_polish hroot hpolish, List.map_map]
    refine List.map_congr_left fun case hcase => ?_
    exact caseName_polishedCase _ (isElement_of_mem_topmost root (List.mem_filter.mp hcase).1)

def skippedReport : Node :=
  element "testsuite" []
    [element "testcase" [("classname", "apicast"), ("name", "auth")] [],
      element "testcase" [("classname", "apicast"), ("name", "ssl")] [element "skipped" [] []],
      element "testcase" [("classname", "apicast"), ("name", "sso")]
        [element "system-out" [] [text "log"]],
      element "testcase" [("classname", "apicast"), ("name", "tls")] [element "failure" [] []]]

/-- Cases that were skipped, or have failed, are not imported. -/
theorem upload_testcase_ids_of_skipped :
    ∃ imports, upload "qe" true skippedReport = .ok (some imports) ∧
      (topmost "testcase" imports.testcases).map (valueOf "id") =
        ["apicast.auth", "apicast.sso"] := by
  obtain ⟨imports, himports⟩ : ∃ imports, upload "qe" true skippedReport = .ok (some imports) :=
    ⟨⟨_, _, _⟩, rfl⟩
  obtain ⟨hids, hnames⟩ := upload_testcase_ids rfl himports
  exact ⟨imports, himports, hids.trans (hnames.trans (by decide +kernel))⟩

/-- The requirements that are imported have different ids, those of the issues that the
imported results name; if no issue is named without a value, each of the imported cases is
linked to requirements that are imported before it only. -/
theorem upload_links {username : String} {skipFails : Bool} {root : Node} {imports : Imports}
    (hvalues : ∀ property ∈ elements "property" [root], isProperty "issue-id" property = true →
      (property.valueOf? "value").isSome = true)
    (h : upload username skipFails root = .ok (some imports)) :
    (requirementIds imports.requirements).Nodup ∧
      (∀ value, value ∈ requirementIds imports.requirements ↔
        ∃ property ∈ elements "property" [imports.xunit],
          isProperty "issue-id" property = true ∧ property.valueOf? "value" = some value) ∧
      ∀ link ∈ elements "linked-work-item" [imports.testcases],
        link.valueOf "workitem-id" ∈ titles imports.requirements := by
  obtain ⟨hpolish, hrequirements, htestcases⟩ := upload_ok h
  obtain ⟨hnodup, hmem⟩ := firstOfValue_spec (issueIds [imports.xunit]) []
  have hids (value : String) : value ∈ (firstOfValue [] (issueIds [imports.xunit])).map Prod.snd ↔
      ∃ property ∈ elements "property" [imports.xunit],
        isProperty "issue-id" property = true ∧ property.valueOf? "value" = some value := by
    rw [hmem value, mem_values_issueIds]
    simp
  rw [hrequirements, htestcases, requirementIds_requirements, titles_requirements]
  refine ⟨hnodup, hids, fun link hlink => ?_⟩
  rw [elements_testcases] at hlink
  have hlinked := linked_workItemsAll username [imports.xunit] link hlink
  rcases hlinked with he2e | ⟨issue, hissue, his, heq⟩
  · rw [he2e]
    exact List.mem_cons_self
  · -- The property stands in the report of the run with the same attributes.
    obtain ⟨property, hproperty, hattributes⟩ := List.mem_map.mp
      (attributes_polish (by decide) (by decide) hpolish (List.mem_map.mpr ⟨issue, hissue, rfl⟩))
    have hsame (key : String) : property.valueOf? key = issue.valueOf? key := by
      rw [valueOf?, hattributes, valueOf?]
    have hname : property.isElement "property" = true := (List.mem_filter.mp hproperty).2
    have hsome : (issue.valueOf? "value").isSome = true := by
      rw [← hsame]
      refine hvalues property hproperty ?_
      rw [isProperty, Bool.and_eq_true] at his ⊢
      exact ⟨hname, hsame "name" ▸ his.2⟩
    obtain ⟨value, hvalue⟩ := Option.isSome_iff_exists.mp hsome
    rw [heq, valueOf, hvalue, Option.getD_some]
    exact List.mem_cons_of_mem _ ((hids value).mpr ⟨issue, hissue, his, hvalue⟩)

/-- Two cases of one issue -/
theorem upload_links_of_one_issue :
    (requirementIds (requirements "qe" [element "testsuite" []
        [element "testcase" [("name", "auth")]
          [element "properties" []
            [element "property" [("name", "issue-id"), ("value", "THREESCALE-1")] [],
              element "property" [("name", "issue-id"), ("value", "THREESCALE-1")] []]]]])) =
      ["THREESCALE-1"] ∧
    ∀ link ∈ elements "linked-work-item" [testcases "qe" [element "testsuite" []
        [element "testcase" [("name", "auth")]
          [element "properties" []
            [element "property" [("name", "issue-id"), ("value", "THREESCALE-1")] [],
              element "property" [("name", "issue-id"), ("value", "THREESCALE-1")] []]]]]],
      link.valueOf "workitem-id" ∈ ["E2E Testing", "THREESCALE-1"] :=
  ⟨rfl, (@upload_links "qe" false (element "testsuite" []
    [element "testcase" [("name", "auth")]
      [element "properties" []
        [element "property" [("name", "issue-id"), ("value", "THREESCALE-1")] [],
          element "property" [("name", "issue-id"), ("value", "THREESCALE-1")] []]]])
    ⟨_, _, _⟩ (by decide +kernel) rfl).2.2⟩

end ThreescaleTests.Reports
