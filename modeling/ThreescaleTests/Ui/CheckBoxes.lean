import Mathlib.Algebra.Ring.Parity
import Mathlib.Data.List.Count
import ThreescaleTests.Library.Prog

/-!
# Groups of check boxes

A group is checked by clearing it and clicking what is wanted. `CheckBoxGroup` clears
list items, which are never selected, so that what was selected before stays selected.
`PfCheckBoxGroup` clears the check boxes, but clicks those that are named by identifiers
without a look at them, so that a second click takes the first one back.
-/

namespace ThreescaleTests.Ui.CheckBoxes

open Library

/-! ## The page -/

inductive Element (O : Type) where
  | input (option : O)
  | item (position : Nat)

/-- What the browser finds of a group with the options `O`: the check boxes, the number of the list
items around them, and the check box that an identifier or a text stands for. What a click on a list
item does is up to the page. -/
structure Page (O : Type) where
  inputs : List O
  mem_inputs : ∀ option, option ∈ inputs
  items : Nat
  byId : String → Except Exn O
  byText : String → Except Exn O
  clickItem : Nat → (O → Bool) → O → Bool

section

variable {O : Type}

def isSelected : Element O → Prog (O → Bool) Bool
  | .input option => Prog.gets fun selected => selected option
  | .item _ => pure false

/-- A loop over names, each of which is put into the locator of `self.browser.element`. -/
def forEachFound (find : String → Except Exn O) (act : Element O → Prog (O → Bool) Unit) :
    List String → Prog (O → Bool) Unit :=
  Prog.forEach fun name => do
    let option ← Prog.lift (find name)
    act (.input option)

/-- The options that the names stand for. -/
def named (find : String → Except Exn O) (names : List String) : List O :=
  names.filterMap fun name => (find name).toOption

def AllFound (find : String → Except Exn O) (names : List String) : Prop :=
  ∀ name ∈ names, ∃ option, find name = .ok option

inductive Call where
  | check (options : List String)
  | checkByText (options : List String)
  | pfCheck (ids labels : Option (List String))

namespace Call

variable (page : Page O)

def requested : Call → List O
  | check options => named page.byId options
  | checkByText options => named page.byText options
  | pfCheck ids labels => named page.byId (ids.getD []) ++ named page.byText (labels.getD [])

def Known : Call → Prop
  | check options => AllFound page.byId options
  | checkByText options => AllFound page.byText options
  | pfCheck ids labels =>
      AllFound page.byId (ids.getD []) ∧ AllFound page.byText (labels.getD [])

end Call

/-- A loop over names that stand for options is a loop over the options. -/
theorem forEachFound_run {find : String → Except Exn O} {act : Element O → Prog (O → Bool) Unit}
    {names : List String} (h : AllFound find names) (selected : O → Bool) :
    (forEachFound find act names).run selected =
      (Prog.forEach (fun option => act (.input option)) (named find names)).run selected := by
  induction names generalizing selected with
  | nil => rfl
  | cons name names ih =>
      obtain ⟨option, hoption⟩ := h name List.mem_cons_self
      have hrest := ih fun name hname => h name (List.mem_cons_of_mem _ hname)
      have hnamed : named find (name :: names) = option :: named find names := by
        simp [named, hoption, Except.toOption]
      rw [forEachFound, Prog.forEach, hnamed, Prog.forEach, Prog.bind_assoc_run,
        Prog.lift_bind_of_ok hoption]
      cases hact : (act (.input option)).run selected with
      | mk r selected' =>
          cases r with
          | error e => rw [Prog.bind_of_error hact, Prog.bind_of_error hact]
          | ok u =>
              rw [Prog.bind_of_ok hact, Prog.bind_of_ok hact]
              exact hrest selected'

/-- A loop over names returns only if all of them are found. -/
theorem allFound_of_forEachFound_ok {find : String → Except Exn O}
    {act : Element O → Prog (O → Bool) Unit} {names : List String} {selected selected' : O → Bool}
    (h : (forEachFound find act names).run selected = (.ok (), selected')) :
    AllFound find names := by
  induction names generalizing selected with
  | nil =>
      intro name hname
      cases hname
  | cons name names ih =>
      obtain ⟨u, between, hfirst, hrest⟩ := Prog.exists_of_bind_ok h
      obtain ⟨option, hoption, -⟩ := Prog.exists_of_lift_bind_ok hfirst
      exact List.forall_mem_cons.mpr ⟨⟨option, hoption⟩, ih hrest⟩

/-! ## The groups -/

variable [DecidableEq O]

/-- One option changes its state. -/
def flip (option : O) (selected : O → Bool) : O → Bool :=
  Function.update selected option (!selected option)

variable (page : Page O)

def click : Element O → Prog (O → Bool) Unit
  | .input option => Prog.modify (flip option)
  | .item position => Prog.modify (page.clickItem position)

def clickSelected (element : Element O) : Prog (O → Bool) Unit := do
  let selected ← isSelected element
  if selected then click page element else pure ()

def clickUnselected (element : Element O) : Prog (O → Bool) Unit := do
  let selected ← isSelected element
  if selected then pure () else click page element

def clearAll : Prog (O → Bool) Unit :=
  Prog.forEach (clickSelected page) ((List.range page.items).map .item)

def check (options : List String) : Prog (O → Bool) Unit := do
  clearAll page
  forEachFound page.byId (clickUnselected page) options

def checkByText (options : List String) : Prog (O → Bool) Unit := do
  clearAll page
  forEachFound page.byText (clickUnselected page) options

def uncheckAll : Prog (O → Bool) Unit :=
  Prog.forEach (clickSelected page) (page.inputs.map .input)

/-- `PfCheckBoxGroup.check` -/
def pfCheck (ids labels : Option (List String)) : Prog (O → Bool) Unit := do
  uncheckAll page
  forEachFound page.byId (click page) (ids.getD [])
  forEachFound page.byText (clickUnselected page) (labels.getD [])

namespace Call

def perform : Call → Prog (O → Bool) Unit
  | check options => CheckBoxes.check page options
  | checkByText options => CheckBoxes.checkByText page options
  | pfCheck ids labels => CheckBoxes.pfCheck page ids labels

/-- The call selects what is requested, and nothing else. -/
def SelectsRequested (call : Call) (selected : O → Bool) : Prop :=
  ∃ selected', (call.perform page).run selected = (.ok (), selected') ∧
    ∀ option, selected' option = true ↔ option ∈ call.requested page

/-- Only what is requested is selected before; or, where the check boxes are cleared, the
identifiers stand an odd number of times for an option that no label stands for. -/
def Harmless (selected : O → Bool) : Call → Prop
  | check options => ∀ option, selected option = true → option ∈ named page.byId options
  | checkByText options => ∀ option, selected option = true → option ∈ named page.byText options
  | pfCheck ids labels =>
      ∀ option ∈ named page.byId (ids.getD []), option ∉ named page.byText (labels.getD []) →
        Odd ((named page.byId (ids.getD [])).count option)

end Call

/-! ## One element -/

variable {page}

theorem clickSelected_input_run (option : O) (selected : O → Bool) :
    (clickSelected page (.input option)).run selected =
      (.ok (), Function.update selected option false) := by
  rw [clickSelected, isSelected, Prog.gets_bind_run]
  cases hstate : selected option with
  | true =>
      rw [if_pos rfl, click, Prog.modify_run, flip, hstate]
      rfl
  | false =>
      rw [if_neg (by decide), Prog.pure_run, ← hstate, Function.update_eq_self]

theorem clickUnselected_input_run (option : O) (selected : O → Bool) :
    (clickUnselected page (.input option)).run selected =
      (.ok (), Function.update selected option true) := by
  rw [clickUnselected, isSelected, Prog.gets_bind_run]
  cases hstate : selected option with
  | true => rw [if_pos rfl, Prog.pure_run, ← hstate, Function.update_eq_self]
  | false =>
      rw [if_neg (by decide), click, Prog.modify_run, flip, hstate]
      rfl

/-- List items are never clicked. -/
theorem clickSelected_item_run (position : Nat) (selected : O → Bool) :
    (clickSelected page (.item position)).run selected = (.ok (), selected) := rfl

/-! ## The loops -/

theorem foldl_update (value : Bool) (options : List O) (selected : O → Bool) (option : O) :
    options.foldl (fun selected option => Function.update selected option value) selected option =
      if option ∈ options then value else selected option := by
  induction options generalizing selected with
  | nil => simp
  | cons first options ih =>
      rw [List.foldl_cons, ih]
      by_cases heq : option = first <;> simp [heq]

/-- What counts is the parity of the clicks. -/
theorem foldl_flip (options : List O) (selected : O → Bool) (option : O) :
    options.foldl (fun selected option => flip option selected) selected option =
      (selected option ^^ decide (Odd (options.count option))) := by
  induction options generalizing selected with
  | nil => simp
  | cons first options ih =>
      rw [List.foldl_cons, ih, flip]
      by_cases heq : option = first
      · subst heq
        rw [Function.update_self, List.count_cons_self]
        by_cases hodd : Odd (options.count option) <;> simp [hodd, Nat.odd_add_one]
      · rw [Function.update_of_ne heq, List.count_cons_of_ne (Ne.symm heq)]

theorem clearAll_run (selected : O → Bool) :
    (clearAll page).run selected = (.ok (), selected) := by
  rw [clearAll, Prog.forEach_map, Prog.forEach_run clickSelected_item_run, List.foldl_fixed]

theorem uncheckAll_run (selected : O → Bool) :
    (uncheckAll page).run selected = (.ok (), fun _ => false) := by
  rw [uncheckAll, Prog.forEach_map, Prog.forEach_run clickSelected_input_run]
  congr 1
  funext option
  rw [foldl_update, if_pos (page.mem_inputs option)]

theorem forEachFound_clickUnselected_run {find : String → Except Exn O} {names : List String}
    (h : AllFound find names) (selected : O → Bool) :
    (forEachFound find (clickUnselected page) names).run selected =
      (.ok (), fun option => if option ∈ named find names then true else selected option) := by
  rw [forEachFound_run h, Prog.forEach_run clickUnselected_input_run]
  congr 1
  funext option
  exact foldl_update true (named find names) selected option

theorem forEachFound_click_run {find : String → Except Exn O} {names : List String}
    (h : AllFound find names) (selected : O → Bool) :
    (forEachFound find (click page) names).run selected =
      (.ok (), fun option =>
        selected option ^^ decide (Odd ((named find names).count option))) := by
  have hclick : ∀ (option : O) (selected : O → Bool),
      (click page (.input option)).run selected = (.ok (), flip option selected) :=
    fun _ _ => rfl
  rw [forEachFound_run h, Prog.forEach_run hclick]
  congr 1
  funext option
  exact foldl_flip (named find names) selected option

/-! ## The calls -/

theorem check_run {options : List String} (h : AllFound page.byId options) (selected : O → Bool) :
    (check page options).run selected =
      (.ok (), fun option =>
        if option ∈ named page.byId options then true else selected option) := by
  rw [check, Prog.bind_of_ok (clearAll_run selected)]
  exact forEachFound_clickUnselected_run h selected

theorem checkByText_run {options : List String} (h : AllFound page.byText options)
    (selected : O → Bool) :
    (checkByText page options).run selected =
      (.ok (), fun option =>
        if option ∈ named page.byText options then true else selected option) := by
  rw [checkByText, Prog.bind_of_ok (clearAll_run selected)]
  exact forEachFound_clickUnselected_run h selected

theorem pfCheck_run {ids labels : Option (List String)} (hids : AllFound page.byId (ids.getD []))
    (hlabels : AllFound page.byText (labels.getD [])) (selected : O → Bool) :
    (pfCheck page ids labels).run selected =
      (.ok (), fun option => if option ∈ named page.byText (labels.getD []) then true
        else (false ^^ decide (Odd ((named page.byId (ids.getD [])).count option)))) := by
  rw [pfCheck, Prog.bind_of_ok (uncheckAll_run selected),
    Prog.bind_of_ok (forEachFound_click_run hids _)]
  exact forEachFound_clickUnselected_run hlabels _

namespace Call

/-- A group that is not cleared has what was selected before as well. -/
theorem added_iff (options : List O) (selected : O → Bool) :
    (∀ option, (if option ∈ options then true else selected option) = true ↔ option ∈ options) ↔
      ∀ option, selected option = true → option ∈ options := by
  refine forall_congr' fun option => ?_
  by_cases hmem : option ∈ options <;> simp [hmem]

/-- Of the options that are clicked in any case, those stay selected that are clicked an odd number
of times. -/
theorem toggled_iff (clicked options : List O) :
    (∀ option, (if option ∈ options then true
        else (false ^^ decide (Odd (clicked.count option)))) = true ↔
      option ∈ clicked ++ options) ↔
      ∀ option ∈ clicked, option ∉ options → Odd (clicked.count option) := by
  refine forall_congr' fun option => ?_
  by_cases hmem : option ∈ options
  · simp [hmem]
  · have hnone : option ∉ clicked → ¬ Odd (clicked.count option) := by
      intro h
      rw [List.count_eq_zero_of_not_mem h]
      decide
    simp only [hmem, if_false, Bool.false_xor, decide_eq_true_eq, List.mem_append, or_false,
      not_false_eq_true, true_implies]
    exact ⟨Iff.mpr, fun h => ⟨not_imp_not.mp hnone, h⟩⟩

theorem selectsRequested_of_run {page : Page O} {call : Call} {selected selected' : O → Bool}
    (h : (call.perform page).run selected = (.ok (), selected')) :
    call.SelectsRequested page selected ↔
      ∀ option, selected' option = true ↔ option ∈ call.requested page := by
  rw [SelectsRequested, h]
  simp only [Prod.mk.injEq, true_and, exists_eq_left']

theorem known_of_perform_ok {page : Page O} {call : Call} {selected selected' : O → Bool}
    (h : (call.perform page).run selected = (.ok (), selected')) : call.Known page := by
  cases call with
  | check options =>
      obtain ⟨u, between, hclear, hcheck⟩ := Prog.exists_of_bind_ok h
      exact allFound_of_forEachFound_ok hcheck
  | checkByText options =>
      obtain ⟨u, between, hclear, hcheck⟩ := Prog.exists_of_bind_ok h
      exact allFound_of_forEachFound_ok hcheck
  | pfCheck ids labels =>
      obtain ⟨u, between, hclear, h⟩ := Prog.exists_of_bind_ok h
      obtain ⟨u, clicked, hids, hlabels⟩ := Prog.exists_of_bind_ok h
      exact ⟨allFound_of_forEachFound_ok hids, allFound_of_forEachFound_ok hlabels⟩

theorem selectsRequested_of_known {page : Page O} {call : Call} (h : call.Known page)
    (selected : O → Bool) :
    call.SelectsRequested page selected ↔ call.Harmless page selected := by
  cases call with
  | check options =>
      have hrun : ((check options).perform page).run selected = _ := check_run h selected
      exact (selectsRequested_of_run hrun).trans (added_iff _ _)
  | checkByText options =>
      have hrun : ((checkByText options).perform page).run selected = _ :=
        checkByText_run h selected
      exact (selectsRequested_of_run hrun).trans (added_iff _ _)
  | pfCheck ids labels =>
      have hrun : ((pfCheck ids labels).perform page).run selected = _ :=
        pfCheck_run h.1 h.2 selected
      exact (selectsRequested_of_run hrun).trans (toggled_iff _ _)

/-- A call selects what is requested exactly if that is there, and neither what was selected before
nor a second click does harm. -/
theorem selectsRequested_iff (page : Page O) (call : Call) (selected : O → Bool) :
    call.SelectsRequested page selected ↔ call.Known page ∧ call.Harmless page selected := by
  constructor
  · intro h
    obtain ⟨selected', hrun, -⟩ := id h
    have hknown := known_of_perform_ok hrun
    exact ⟨hknown, (selectsRequested_of_known hknown selected).mp h⟩
  · exact fun h => (selectsRequested_of_known h.1 selected).mpr h.2

/-! ## A group that is not cleared and a second click -/

/-- Two options that are found by their names. -/
def twoOptions : Page Bool where
  inputs := [true, false]
  mem_inputs := by decide
  items := 2
  byId := fun id =>
    if id = "read" then .ok true else if id = "write" then .ok false
    else .error (.other "NoSuchElementException")
  byText := fun _ => .error (.other "NoSuchElementException")
  clickItem := fun _ selected => selected

/-- What was selected before stays selected in the one group; in the other, what is requested twice
is not selected. -/
theorem not_selectsRequested :
    ¬ (check ["read"]).SelectsRequested twoOptions (fun _ => true) ∧
    ¬ (pfCheck (some ["read", "read"]) none).SelectsRequested twoOptions fun _ => false := by
  constructor
  · intro h
    rcases h with ⟨selected', hrun, hall⟩
    cases hrun
    have hwrite := (hall false).mp (by decide)
    exact absurd hwrite (by decide)
  · intro h
    rcases h with ⟨selected', hrun, hall⟩
    cases hrun
    have hread := (hall true).mpr (by decide)
    exact absurd hread (by decide)

end Call

end

end ThreescaleTests.Ui.CheckBoxes
