import Mathlib.Data.List.DropRight
import Mathlib.Data.List.Infix
import ThreescaleTests.Library.Splits
import ThreescaleTests.Selection.Sandbag

/-!
# The collected items

When all items are collected, the options of the run decide which of them are kept.
Some options let in items that are left out otherwise, others leave out more.
-/

namespace ThreescaleTests.Selection

open Library

structure CollectionOptions where
  disruptive : Bool
  fuzz : Bool
  images : Bool
  performance : Bool
  toolCheck : Bool
  toolbox : Bool
  ui : Bool
  dropFuzz : Bool
  dropNopersistence : Bool
  ssoOnly : Bool
deriving DecidableEq

/-- An item, with what the collection hook reads and writes. -/
structure CollectedItem (A : Type) extends Item A where
  nodeid : String
  fixturenames : List String
  userProperties : List (String × String)

/-- The values that stand in a marker for strings. -/
class StringArg (A : Type) where
  asStr : A → Option String

/-- The items kept, and the ones that pytest is told to be deselected. -/
structure Collection (A : Type) where
  items : List (CollectedItem A)
  deselected : List (CollectedItem A)

/-! ## The hook -/

def issueId (issue : String) : String :=
  String.ofList (((issue.toList.rdropWhile (· = '/')).splitOn '/').getLastD [])

example : issueId "https://issues.example/browse/THREESCALE-1/" = "THREESCALE-1" := by decide

section

variable {A : Type} [StringArg A]

/-- `marker.args[0]`, which must be a string to be split. -/
def markedIssue (mark : Mark A) : Except Exn String :=
  match mark.args with
  | [] => .error (.other "IndexError")
  | arg :: _ =>
    match StringArg.asStr arg with
    | some issue => .ok issue
    | none => .error (.other "AttributeError")

def CollectedItem.addProperties (item : CollectedItem A) (properties : List (String × String)) :
    CollectedItem A := { item with userProperties := item.userProperties ++ properties }

/-- The loop over the `issue` markers of an item. -/
def recordIssues : List (Mark A) → CollectedItem A → Except Exn (CollectedItem A)
  | [], item => .ok item
  | mark :: marks, item => do
    let issue ← markedIssue mark
    recordIssues marks (item.addProperties [("issue", issue), ("issue-id", issueId issue)])

def CollectedItem.under (item : CollectedItem A) (part : String) : Bool :=
  decide (part.toList <:+: item.nodeid.toList)

def ssoFixture : String := "rhsso_setup"

/-- What needs an option to run, and has not got it. -/
def leftOut (config : CollectionOptions) (item : CollectedItem A) : Bool :=
  (!config.disruptive && decide ("disruptive" ∈ item.marks)) ||
    (!config.fuzz && decide ("fuzz" ∈ item.marks)) ||
    (!config.images && item.under "/images/") ||
    (!config.performance && decide ("performance" ∈ item.marks)) ||
    (!config.toolCheck && item.under "/tools/") ||
    (!config.toolbox && item.under "/toolbox/") ||
    (!config.ui && item.under "/ui/")

/-- What an option drops. -/
def dropped (config : CollectionOptions) (item : CollectedItem A) : Bool :=
  (config.dropFuzz && decide ("fuzz" ∈ item.marks)) ||
    (config.dropNopersistence && decide ("nopersistence" ∈ item.marks))

def collectFrom (config : CollectionOptions) :
    List (CollectedItem A) → Collection A → Except Exn (Collection A)
  | [], c => .ok c
  | item :: items, c => do
    let item ← recordIssues (item.iterMarkers "issue") item
    if leftOut config item then
      collectFrom config items { c with deselected := c.deselected ++ [item] }
    else if dropped config item then
      collectFrom config items { c with deselected := c.deselected ++ [item] }
    else if config.ssoOnly then
      if ssoFixture ∈ item.fixturenames then
        collectFrom config items { c with items := c.items ++ [item] }
      else collectFrom config items { c with deselected := c.deselected ++ [item] }
    else collectFrom config items { c with items := c.items ++ [item] }

def pytestCollectionModifyitems (config : CollectionOptions) (items : List (CollectedItem A)) :
    Except Exn (Collection A) := collectFrom config items ⟨[], []⟩

/-! ## The loop as a filter -/

def selects (config : CollectionOptions) (item : CollectedItem A) : Bool :=
  !leftOut config item && !dropped config item &&
    (!config.ssoOnly || decide (ssoFixture ∈ item.fixturenames))

/-- The items with their properties. -/
def recorded (items : List (CollectedItem A)) : Except Exn (List (CollectedItem A)) :=
  items.mapM fun item => recordIssues (item.iterMarkers "issue") item

theorem collectFrom_cons_ok (config : CollectionOptions) {item item' : CollectedItem A}
    (h : recordIssues (item.iterMarkers "issue") item = .ok item') (items : List (CollectedItem A))
    (c : Collection A) :
    collectFrom config (item :: items) c =
      collectFrom config items (if selects config item' then
        { c with items := c.items ++ [item'] }
      else { c with deselected := c.deselected ++ [item'] }) := by
  rw [collectFrom, h]
  simp only [bind, Except.bind, selects]
  by_cases hleft : leftOut config item' = true
  · simp [hleft]
  · by_cases hdropped : dropped config item' = true
    · simp [hleft, hdropped]
    · by_cases honly : config.ssoOnly = true
      · by_cases hsso : ssoFixture ∈ item'.fixturenames
        · simp [hleft, hdropped, honly, hsso]
        · simp [hleft, hdropped, honly, hsso]
      · simp [hleft, hdropped, honly]

/-- The loop records the issues of all items, and then divides the items. -/
theorem collectFrom_eq (config : CollectionOptions) (items : List (CollectedItem A))
    (c : Collection A) :
    collectFrom config items c = (recorded items).map fun items' =>
      ⟨c.items ++ items'.filter (selects config),
        c.deselected ++ items'.filter fun item => !selects config item⟩ := by
  induction items generalizing c with
  | nil => simp [collectFrom, recorded, pure, Except.pure, Except.map]
  | cons item items ih =>
      rw [recorded, List.mapM_cons]
      cases hitem : recordIssues (item.iterMarkers "issue") item with
      | error e =>
          rw [collectFrom, hitem]
          rfl
      | ok item' =>
          rw [collectFrom_cons_ok config hitem, ih, ← recorded]
          cases recorded items with
          | error e => rfl
          | ok items' =>
              by_cases hselects : selects config item' = true
              · simp [hselects, pure, Except.pure, Except.map]
              · simp [hselects, pure, Except.pure, Except.map]

theorem collection_eq_ok_iff (config : CollectionOptions) (items : List (CollectedItem A))
    (c : Collection A) :
    pytestCollectionModifyitems config items = .ok c ↔
      ∃ items', recorded items = .ok items' ∧
        c = ⟨items'.filter (selects config), items'.filter fun item => !selects config item⟩ := by
  rw [pytestCollectionModifyitems, collectFrom_eq]
  cases recorded items with
  | error e => simp [Except.map]
  | ok items' => simp [Except.map, eq_comm]

/-! ## Issues -/

/-- Every `issue` marker of the item has a string for its first argument. -/
def CollectedItem.NamesIssues (item : CollectedItem A) : Prop :=
  ∀ mark ∈ item.iterMarkers "issue", ∃ issue, markedIssue mark = .ok issue

/-- The same item, with some more properties. -/
def SameTest (item item' : CollectedItem A) : Prop :=
  ∃ properties, item' = item.addProperties properties

theorem recordIssues_ok {marks : List (Mark A)} {item item' : CollectedItem A}
    (h : recordIssues marks item = .ok item') : SameTest item item' := by
  induction marks generalizing item with
  | nil =>
      cases h
      exact ⟨[], by simp [CollectedItem.addProperties]⟩
  | cons mark marks ih =>
      obtain ⟨issue, -, hrest⟩ := bind_eq_ok_iff.mp h
      obtain ⟨properties, heq⟩ := ih hrest
      refine ⟨[("issue", issue), ("issue-id", issueId issue)] ++ properties, ?_⟩
      rw [heq]
      simp [CollectedItem.addProperties]

theorem recordIssues_ok_iff (marks : List (Mark A)) (item : CollectedItem A) :
    (∃ item', recordIssues marks item = .ok item') ↔
      ∀ mark ∈ marks, ∃ issue, markedIssue mark = .ok issue := by
  induction marks generalizing item with
  | nil => simp [recordIssues]
  | cons mark marks ih =>
      rw [recordIssues, List.forall_mem_cons]
      cases markedIssue mark with
      | error e => simp
      | ok issue => simp [ih]

theorem recorded_ok_iff (items : List (CollectedItem A)) :
    (∃ items', recorded items = .ok items') ↔ ∀ item ∈ items, item.NamesIssues := by
  induction items with
  | nil => simp [recorded, pure, Except.pure]
  | cons item items ih =>
      rw [List.forall_mem_cons, ← ih, CollectedItem.NamesIssues,
        ← recordIssues_ok_iff (item.iterMarkers "issue") item, recorded, List.mapM_cons, ← recorded]
      cases recordIssues (item.iterMarkers "issue") item with
      | error e => simp
      | ok item' =>
          cases recorded items with
          | error e => simp
          | ok items' => simp [pure, Except.pure]

theorem recorded_ok {items items' : List (CollectedItem A)} (h : recorded items = .ok items') :
    List.Forall₂ SameTest items items' := by
  induction items generalizing items' with
  | nil =>
      cases h
      exact List.Forall₂.nil
  | cons item items ih =>
      rw [recorded, List.mapM_cons] at h
      obtain ⟨item', hitem, h⟩ := bind_eq_ok_iff.mp h
      obtain ⟨rest, hrest, h⟩ := bind_eq_ok_iff.mp h
      cases h
      exact List.Forall₂.cons (recordIssues_ok hitem) (ih hrest)

/-! ## Options that let in and options that leave out -/

inductive Inclusion where
  | disruptive
  | fuzz
  | images
  | performance
  | toolCheck
  | toolbox
  | ui

inductive Restriction where
  | dropFuzz
  | dropNopersistence
  | ssoOnly

/-- Turn an option on that lets items in. -/
def CollectionOptions.including (config : CollectionOptions) : Inclusion → CollectionOptions
  | .disruptive => { config with disruptive := true }
  | .fuzz => { config with fuzz := true }
  | .images => { config with images := true }
  | .performance => { config with performance := true }
  | .toolCheck => { config with toolCheck := true }
  | .toolbox => { config with toolbox := true }
  | .ui => { config with ui := true }

/-- Turn an option on that leaves items out. -/
def CollectionOptions.restrictedBy (config : CollectionOptions) : Restriction → CollectionOptions
  | .dropFuzz => { config with dropFuzz := true }
  | .dropNopersistence => { config with dropNopersistence := true }
  | .ssoOnly => { config with ssoOnly := true }

/-- What is on for `narrow` and lets items in is on for `wide`, and what is on for `wide` and leaves
items out is on for `narrow`. -/
structure Wider (narrow wide : CollectionOptions) : Prop where
  disruptive : narrow.disruptive = true → wide.disruptive = true
  fuzz : narrow.fuzz = true → wide.fuzz = true
  images : narrow.images = true → wide.images = true
  performance : narrow.performance = true → wide.performance = true
  toolCheck : narrow.toolCheck = true → wide.toolCheck = true
  toolbox : narrow.toolbox = true → wide.toolbox = true
  ui : narrow.ui = true → wide.ui = true
  dropFuzz : wide.dropFuzz = true → narrow.dropFuzz = true
  dropNopersistence : wide.dropNopersistence = true → narrow.dropNopersistence = true
  ssoOnly : wide.ssoOnly = true → narrow.ssoOnly = true

theorem Wider.refl (config : CollectionOptions) : Wider config config := by
  constructor <;> exact id

theorem wider_including (config : CollectionOptions) (flag : Inclusion) :
    Wider config (config.including flag) := by
  have hself := Wider.refl config
  cases flag with
  | disruptive => exact { hself with disruptive := fun _ => rfl }
  | fuzz => exact { hself with fuzz := fun _ => rfl }
  | images => exact { hself with images := fun _ => rfl }
  | performance => exact { hself with performance := fun _ => rfl }
  | toolCheck => exact { hself with toolCheck := fun _ => rfl }
  | toolbox => exact { hself with toolbox := fun _ => rfl }
  | ui => exact { hself with ui := fun _ => rfl }

theorem wider_of_restrictedBy (config : CollectionOptions) (flag : Restriction) :
    Wider (config.restrictedBy flag) config := by
  have hself := Wider.refl config
  cases flag with
  | dropFuzz => exact { hself with dropFuzz := fun _ => rfl }
  | dropNopersistence => exact { hself with dropNopersistence := fun _ => rfl }
  | ssoOnly => exact { hself with ssoOnly := fun _ => rfl }

section

variable {narrow wide : CollectionOptions}

omit [StringArg A] in
theorem leftOut_of_wider (h : Wider narrow wide) (item : CollectedItem A) :
    leftOut wide item = true → leftOut narrow item = true := by
  obtain ⟨hdisruptive, hfuzz, himages, hperformance, htoolCheck, htoolbox, hui, -, -, -⟩ := h
  unfold leftOut
  grind

omit [StringArg A] in
theorem dropped_of_wider (h : Wider narrow wide) (item : CollectedItem A) :
    dropped wide item = true → dropped narrow item = true := by
  obtain ⟨-, -, -, -, -, -, -, hdropFuzz, hdropNopersistence, -⟩ := h
  unfold dropped
  grind

omit [StringArg A] in
theorem selects_of_wider (h : Wider narrow wide) (item : CollectedItem A)
    (hselects : selects narrow item = true) : selects wide item = true := by
  have hleft := leftOut_of_wider h item
  have hdropped := dropped_of_wider h item
  have honly := h.ssoOnly
  unfold selects at hselects ⊢
  grind

/-- With wider options the same items are collected, more of them are kept, and fewer deselected. -/
theorem collection_of_wider (h : Wider narrow wide) {items : List (CollectedItem A)}
    {c c' : Collection A} (hc : pytestCollectionModifyitems narrow items = .ok c)
    (hc' : pytestCollectionModifyitems wide items = .ok c') :
    c.items.Sublist c'.items ∧ c'.deselected.Sublist c.deselected := by
  obtain ⟨items', hrecorded, rfl⟩ := (collection_eq_ok_iff narrow items c).mp hc
  obtain ⟨items'', hrecorded', rfl⟩ := (collection_eq_ok_iff wide items c').mp hc'
  have hsame : items' = items'' := Except.ok.inj (hrecorded.symm.trans hrecorded')
  subst hsame
  have hselects : ∀ item : CollectedItem A, selects narrow item = true → selects wide item = true :=
    selects_of_wider h
  refine ⟨List.monotone_filter_right items' hselects, List.monotone_filter_right items' ?_⟩
  intro item hnot
  cases hnarrow : selects narrow item with
  | false => rfl
  | true =>
      rw [hselects item hnarrow] at hnot
      cases hnot

end

/-- The hook returns where all issues are named, whatever the options. Then every item is kept or
deselected, in order; an option that lets items in deselects none that was kept, and an option that
leaves items out keeps none that was deselected. -/
theorem collection_partition (items : List (CollectedItem A)) :
    (∀ config : CollectionOptions, (∃ c, pytestCollectionModifyitems config items = .ok c) ↔
      ∀ item ∈ items, item.NamesIssues) ∧
    ∀ (config : CollectionOptions) (c : Collection A),
      pytestCollectionModifyitems config items = .ok c →
        (∃ items', List.Forall₂ SameTest items items' ∧ Splits items' c.items c.deselected) ∧
        (∀ flag c', pytestCollectionModifyitems (config.including flag) items = .ok c' →
          c.items.Sublist c'.items ∧ c'.deselected.Sublist c.deselected) ∧
        ∀ flag c', pytestCollectionModifyitems (config.restrictedBy flag) items = .ok c' →
          c'.items.Sublist c.items ∧ c.deselected.Sublist c'.deselected := by
  constructor
  · intro config
    rw [← recorded_ok_iff items]
    simp only [collection_eq_ok_iff]
    exact ⟨fun ⟨_, items', h, _⟩ => ⟨items', h⟩, fun ⟨items', h⟩ => ⟨_, items', h, rfl⟩⟩
  · intro config c hc
    refine ⟨?_, ?_, ?_⟩
    · obtain ⟨items', hrecorded, rfl⟩ := (collection_eq_ok_iff config items c).mp hc
      exact ⟨items', recorded_ok hrecorded, Splits.filter (selects config) items'⟩
    · intro flag c' hc'
      exact collection_of_wider (wider_including config flag) hc hc'
    · intro flag c' hc'
      exact collection_of_wider (wider_of_restrictedBy config flag) hc' hc

end

/-! ## An issue that is not named -/

instance : StringArg String := ⟨some⟩

def noOptions : CollectionOptions :=
  ⟨false, false, false, false, false, false, false, false, false, false⟩

/-- A test marked with `pytest.mark.issue()`. -/
def unnamedIssue : CollectedItem String where
  markers := [⟨"issue", []⟩]
  nodeid := "testsuite/tests/test_service.py::test_get"
  fixturenames := []
  userProperties := []

/-- Nothing is collected. -/
theorem collection_not_partitioned :
    ¬ ∃ c, pytestCollectionModifyitems noOptions [unnamedIssue] = .ok c := by
  intro h
  obtain ⟨c, hc⟩ := h
  have herror : pytestCollectionModifyitems noOptions [unnamedIssue] =
      .error (.other "IndexError") := by rfl
  rw [herror] at hc
  cases hc

end ThreescaleTests.Selection
