import ThreescaleTests.Library.Prog

/-!
# The navigator

To reach a view the navigator first goes back over the prerequisites to a view that
is displayed, and collects the pages in a deque that lives on the navigator. It then
performs one step after the other, and takes the pages out of the deque from the
other end.
-/

namespace ThreescaleTests.Ui

open Library

/-! ## Views -/

/-- The argument of the decorator `step`: a class or a text. -/
inductive KeyWord (C : Type) where
  | text (word : String)
  | cls (cls : C)
deriving DecidableEq

/-- A method decorated with `step`, with its parameters and their defaults. -/
structure Method (C V : Type) where
  name : String
  keyWord : KeyWord C
  parameters : List (String × Option V)
deriving DecidableEq

structure Page (C V : Type) where
  cls : C
  kwargs : List (String × V)
deriving DecidableEq

/-- What a step method is called with. -/
inductive Args (V : Type) where
  | bound (args : List (String × V))
  | path (path : String)
deriving DecidableEq

/-- The view classes `C`, over a browser with states `S`. Everything that a view asks of the browser
may act on it and may raise; `members` is the reading of all members of a page. The last three are
the texts that Python shows of a page, of a method of a page and of a method's `__dict__`. -/
structure Views (C V S : Type) where
  name : C → String
  parameters : C → List String
  construct : C → List (String × V) → Except Exn Unit
  path : Page C V → Except Exn String
  prerequisite : C → List (String × V) → Except Exn (Option C)
  wellFounded : WellFounded fun c' c => ∃ kwargs, prerequisite c kwargs = .ok (some c')
  isDisplayed : Page C V → Prog S Bool
  members : Page C V → Prog S Unit
  steps : C → List (Method C V)
  call : Page C V → Method C V → Args V → Prog S Unit
  postNavigate : Page C V → List (String × V) → Prog S Unit
  refresh : Prog S Unit
  waitDisplayed : Page C V → Prog S Unit
  str : Page C V → String
  strMethod : Page C V → Method C V → String
  strDict : Method C V → String

/-! ## The navigator and its record -/

/-- What a navigation does to the browser, beyond looking at it. -/
inductive Event (C V : Type) where
  | step (page dest : Page C V) (method : Method C V) (args : Args V)
  | postNavigate (page : Page C V)
  | refresh
  | waitDisplayed (page : Page C V)
deriving DecidableEq

/-- The navigator; the right end of the deque `page_chain` comes first. -/
structure Navigator (C V S : Type) where
  pageChain : List (Page C V)
  browser : S
  log : List (Event C V)

section

variable {C V S : Type}

def onBrowser {α : Type} (m : Prog S α) : Prog (Navigator C V S) α :=
  Prog.focus Navigator.browser (fun browser nav => { nav with browser := browser }) m

def setChain (pageChain : List (Page C V)) : Prog (Navigator C V S) Unit :=
  Prog.modify fun nav => { nav with pageChain := pageChain }

/-- An action on the browser that is written down. -/
def act (event : Event C V) (m : Prog S Unit) : Prog (Navigator C V S) Unit := do
  Prog.modify fun nav => { nav with log := nav.log ++ [event] }
  onBrowser m

/-- Arguments of these names are taken already; the call raises. -/
def refuse (names : List String) (kwargs : List (String × V)) : Except Exn Unit :=
  if kwargs.any fun arg => names.contains arg.1 then .error .typeError else .ok ()

/-- The arguments that a signature takes. -/
def filterKwargs (parameters : List String) (kwargs : List (String × V)) : List (String × V) :=
  kwargs.filter fun arg => parameters.contains arg.1

/-- `signature.bind` and `apply_defaults`. -/
def bindArgs (kwargs : List (String × V)) : List (String × Option V) →
    Except Exn (List (String × V))
  | [] => .ok []
  | (name, default) :: parameters =>
      match (kwargs.lookup name).or default with
      | none => .error .typeError
      | some value => (bindArgs kwargs parameters).map fun args => (name, value) :: args

def KeyWord.startsWith (start : String) : KeyWord C → Bool
  | .text word => start.toList.isPrefixOf word.toList
  | .cls _ => false

variable (views : Views C V S)

def newPage (cls : C) (kwargs : List (String × V)) : Prog (Navigator C V S) (Page C V) := do
  let filtered := filterKwargs (views.parameters cls) kwargs
  Prog.lift (views.construct cls filtered)
  pure ⟨cls, filtered⟩

/-! ## Exceptions -/

/-- The `ValueError` for the left and the right end of the deque. -/
def backtrackError (left right : Page C V) : Exn :=
  .valueError ("An error occurred during backtracking of " ++ views.str left ++
    ". None prerequisite was found for " ++ views.str right)

/-- `", ".join(pairs)`; a pair is no string. -/
def joinPairs {α β : Type} : List (α × β) → Option String
  | [] => some ""
  | _ :: _ => none

/-- `inspect.getmembers(page, lambda o: hasattr(o, "_class_name"))` -/
def possibleSteps (page : Page C V) : List (String × Method C V) :=
  (views.steps page.cls).map fun method => (method.name, method)

def stepNotFound (current dest : Page C V) (possibilities : List (String × Method C V)) : Exn :=
  .custom "NavigationStepNotFound" ((joinPairs possibilities).map fun steps =>
    "Couldn't find step to destination View: [" ++ views.str dest ++ "] from current View: [" ++
      views.str current ++ "]. Following steps were available: [" ++ steps ++ "]")

/-- `NavigationStepException`, which is given the `__dict__` of the method as the current view, and
shows the two views the other way round. -/
def stepException (page dest : Page C V) (method : Method C V) : Exn :=
  .custom "NavigationStepException" (some ("Step from current [" ++ views.str dest ++
    "] View to destination [" ++ views.strDict method ++
    "] View failed during method invocation: [" ++ views.strMethod page method ++ "]"))

/-! ## Navigating -/

/-- The exception for a view without prerequisite, whose message takes pages from both ends. -/
def noPrerequisite : Prog (Navigator C V S) Unit := do
  let chain ← Prog.gets Navigator.pageChain
  setChain chain.dropLast.tail
  Prog.lift (match chain.getLast?, chain.dropLast.head? with
    | some left, some right => .error (backtrackError views left right)
    | _, _ => .error (.other "IndexError"))

/-- A page that is displayed ends the search; the page that was asked for is refreshed. -/
def arrive (page : Page C V) : Prog (Navigator C V S) Unit := do
  let chain ← Prog.gets Navigator.pageChain
  if chain.length = 1 then do
    act .refresh views.refresh
    act (.waitDisplayed page) (views.waitDisplayed page)
  else pure ()

def backtrace (cls : C) (kwargs : List (String × V)) : Prog (Navigator C V S) Unit := do
  let page ← newPage views cls kwargs
  Prog.modify fun nav => { nav with pageChain := page :: nav.pageChain }
  let displayed ← onBrowser (views.isDisplayed page)
  if displayed then arrive views page
  else
    match _h : views.prerequisite cls (filterKwargs (views.parameters cls) kwargs) with
    | .error e => Prog.lift (.error e)
    | .ok none => noPrerequisite views
    | .ok (some prerequisite) => backtrace prerequisite kwargs
termination_by views.wellFounded.wrap cls
decreasing_by exact ⟨_, _h⟩

def invokeAlternativeStep (page dest : Page C V) :
    List (Method C V) → Prog (Navigator C V S) Bool
  | [] => pure false
  | method :: methods =>
      if method.keyWord.startsWith "@href" then do
        let path ← Prog.raiseInstead (stepException views page dest method)
          (Prog.lift (views.path dest))
        Prog.raiseInstead (stepException views page dest method)
          (act (.step page dest method (.path path)) (views.call page method (.path path)))
        pure true
      else invokeAlternativeStep page dest methods

def invokeStepFrom (page dest : Page C V) (kwargs : List (String × V)) :
    List (Method C V) → List (Method C V) → Prog (Navigator C V S) Bool
  | [], alternatives => invokeAlternativeStep views page dest alternatives
  | method :: methods, alternatives =>
      match method.keyWord with
      | .cls _ => Prog.lift (.error (.other "AttributeError"))
      | .text word =>
          if word = views.name dest.cls then do
            let args ← Prog.lift (bindArgs kwargs method.parameters)
            Prog.raiseInstead (stepException views page dest method)
              (act (.step page dest method (.bound args)) (views.call page method (.bound args)))
            pure true
          else if method.keyWord.startsWith "@" then
            invokeStepFrom page dest kwargs methods (alternatives ++ [method])
          else invokeStepFrom page dest kwargs methods alternatives

def invokeStep (page dest : Page C V) (kwargs : List (String × V)) :
    Prog (Navigator C V S) Bool := do
  Prog.lift (refuse ["possible_steps", "destination"] kwargs)
  invokeStepFrom views page dest kwargs (views.steps page.cls) []

/-- `_perform_steps`, on the pages of the deque. -/
def performSteps (kwargs : List (String × V)) :
    List (Page C V) → Prog (Navigator C V S) (Page C V)
  | [] => Prog.lift (.error (.other "IndexError"))
  | [page] => pure page
  | page :: dest :: chain => do
      setChain (dest :: chain)
      onBrowser (views.members page)
      let invoked ← invokeStep views page dest kwargs
      if invoked then do
        act (.postNavigate dest) (views.postNavigate dest kwargs)
        performSteps kwargs (dest :: chain)
      else Prog.lift (.error (stepNotFound views page dest (possibleSteps views page)))

def navigate (cls : C) (kwargs : List (String × V)) : Prog (Navigator C V S) (Page C V) := do
  Prog.lift (refuse ["self", "cls"] kwargs)
  setChain []
  backtrace views cls kwargs
  let chain ← Prog.gets Navigator.pageChain
  performSteps views kwargs chain

end

/-! ## The dashboard and what it needs -/

inductive AdminView where
  | baseAdminView
  | dashboardView
deriving DecidableEq

namespace AdminView

def name : AdminView → String
  | baseAdminView => "BaseAdminView"
  | dashboardView => "DashboardView"

def prerequisite : AdminView → Option AdminView
  | baseAdminView => none
  | dashboardView => some baseAdminView

theorem prerequisite_wellFounded :
    WellFounded fun c' c : AdminView => ∃ _ : List (String × String),
      (.ok c.prerequisite : Except Exn (Option AdminView)) = .ok (some c') := by
  have hbase : Acc (fun c' c : AdminView => ∃ _ : List (String × String),
      (.ok c.prerequisite : Except Exn (Option AdminView)) = .ok (some c')) baseAdminView := by
    constructor
    intro c' h
    obtain ⟨_, h⟩ := h
    cases h
  constructor
  intro c
  cases c with
  | baseAdminView => exact hbase
  | dashboardView =>
      constructor
      intro c' h
      obtain ⟨_, h⟩ := h
      cases h
      exact hbase

/-- The two views on a browser that shows one of them. -/
def views : Views AdminView String AdminView where
  name := name
  parameters := fun _ => ["parent", "logger", "kwargs"]
  construct := fun _ _ => .ok ()
  path := fun page =>
    match page.cls with
    | baseAdminView => .ok ""
    | dashboardView => .ok "/p/admin/dashboard"
  prerequisite := fun c _ => .ok c.prerequisite
  wellFounded := prerequisite_wellFounded
  isDisplayed := fun page => Prog.gets fun shown => decide (shown = page.cls)
  members := fun _ => pure ()
  steps := fun c =>
    match c with
    | baseAdminView => [⟨"dashboard", .text "DashboardView", []⟩]
    | dashboardView => []
  call := fun _ _ _ => Prog.modify fun _ => dashboardView
  postNavigate := fun _ _ => pure ()
  refresh := pure ()
  waitDisplayed := fun _ => pure ()
  str := fun page => page.cls.name
  strMethod := fun page method => "<bound method " ++ page.cls.name ++ "." ++ method.name ++ ">"
  strDict := fun method =>
    match method.keyWord with
    | .text word => "\x7b'_class_name': '" ++ word ++ "', '_kwargs': \x7b\x7d\x7d"
    | .cls c => "\x7b'_class_name': " ++ c.name ++ ", '_kwargs': \x7b\x7d\x7d"

end AdminView

end ThreescaleTests.Ui
