import ThreescaleTests.Ui.NeededSteps

/-!
# How a navigation fails

A navigation fails where nothing on the way up is displayed, where a step is missing
and where a step fails; for these it has exceptions of its own. It also fails where a
view raises, and in a few places by an exception that the navigator does not mean.
-/

namespace ThreescaleTests.Ui

open Library

/-- What a navigation fails of. -/
inductive Failure (C V : Type) where
  | noAncestor (first last : Page C V)
  | noStep (page dest : Page C V)
  | stepFailed (page dest : Page C V) (method : Method C V)
  /-- nothing is displayed, and there is one page only to be reported -/
  | alone (page : Page C V)
  /-- a step that is declared for a class comes first -/
  | classKeyWord (method : Method C V)
  /-- the arguments do not fit the step -/
  | misfit (method : Method C V) (e : Exn)
  /-- an argument has the name of a parameter of the navigator -/
  | refused (e : Exn)
  /-- a view or the browser raises -/
  | raised (e : Exn)

section

variable {C V S : Type} (views : Views C V S) (kwargs : List (String × V))

def Failure.exn : Failure C V → Exn
  | .noAncestor first last => backtrackError views first last
  | .noStep page dest => stepNotFound views page dest (possibleSteps views page)
  | .stepFailed page dest method => stepException views page dest method
  | .alone _ => .other "IndexError"
  | .classKeyWord _ => .other "AttributeError"
  | .misfit _ e => e
  | .refused e => e
  | .raised e => e

/-- The failures that have an exception of their own. -/
def Failure.Documented : Failure C V → Prop
  | .noAncestor _ _ => True
  | .noStep _ _ => True
  | .stepFailed _ _ _ => True
  | _ => False

/-- The failure is documented, and where a step is missing there is none on the page at all. -/
def Failure.Reported : Failure C V → Prop
  | .noAncestor _ _ => True
  | .noStep page _ => views.steps page.cls = []
  | .stepFailed _ _ _ => True
  | _ => False

/-! ## The way up -/

def pageOf (cls : C) : Page C V := ⟨cls, filterKwargs (views.parameters cls) kwargs⟩

/-- What the navigator learns of a view. -/
inductive Sight (C : Type) where
  | displayed
  | hidden (prerequisite : Option C)

/-- An action of a view or of the browser. -/
def ran {α : Type} (m : Prog S α) (browser : S) : Except (Failure C V) (α × S) :=
  match m.run browser with
  | (.ok a, browser') => .ok (a, browser')
  | (.error e, _) => .error (.raised e)

/-- A view is built, and asked whether it is displayed and what it needs. -/
def look (cls : C) (browser : S) : Except (Failure C V) (Sight C × S) :=
  match views.construct cls (filterKwargs (views.parameters cls) kwargs) with
  | .error e => .error (.raised e)
  | .ok () =>
    match ran (views.isDisplayed (pageOf views kwargs cls)) browser with
    | .error f => .error f
    | .ok (true, browser') => .ok (.displayed, browser')
    | .ok (false, browser') =>
      match views.prerequisite cls (filterKwargs (views.parameters cls) kwargs) with
      | .error e => .error (.raised e)
      | .ok prerequisite => .ok (.hidden prerequisite, browser')

/-- A displayed page is reached; without pages below, it is the one asked for. -/
def arrivedAt (page : Page C V) (below : List (Page C V)) (browser : S) :
    Except (Failure C V) (List (Page C V) × S) :=
  match below with
  | [] =>
    match ran views.refresh browser with
    | .error f => .error f
    | .ok (_, browser') =>
      match ran (views.waitDisplayed page) browser' with
      | .error f => .error f
      | .ok (_, browser'') => .ok ([page], browser'')
  | _ :: _ => .ok (page :: below, browser)

/-- A page without prerequisite is not displayed. -/
def stuckAt (page : Page C V) (below : List (Page C V)) : Failure C V :=
  match below.getLast? with
  | none => .alone page
  | some first => .noAncestor first page

/-- How the way up from a view ends, with the pages below it. -/
inductive Ascends :
    List (Page C V) → S → C → Except (Failure C V) (List (Page C V) × S) → Prop where
  | raised {below : List (Page C V)} {browser : S} {cls : C} {f : Failure C V}
      (seen : look views kwargs cls browser = .error f) : Ascends below browser cls (.error f)
  | displayed {below : List (Page C V)} {browser browser' : S} {cls : C}
      (seen : look views kwargs cls browser = .ok (.displayed, browser')) :
      Ascends below browser cls (arrivedAt views (pageOf views kwargs cls) below browser')
  | stuck {below : List (Page C V)} {browser browser' : S} {cls : C}
      (seen : look views kwargs cls browser = .ok (.hidden none, browser')) :
      Ascends below browser cls (.error (stuckAt (pageOf views kwargs cls) below))
  | above {below : List (Page C V)} {browser browser' : S} {cls prerequisite : C}
      {outcome : Except (Failure C V) (List (Page C V) × S)}
      (seen : look views kwargs cls browser = .ok (.hidden (some prerequisite), browser'))
      (rest : Ascends (pageOf views kwargs cls :: below) browser' prerequisite outcome) :
      Ascends below browser cls outcome

/-! ## The way down -/

/-- The step is declared for the destination, or for a class. -/
def decides (dest : Page C V) (method : Method C V) : Bool :=
  match method.keyWord with
  | .cls _ => true
  | .text word => word = views.name dest.cls

def called (page dest : Page C V) (method : Method C V) (args : Args V) (browser : S) :
    Except (Failure C V) S :=
  match (views.call page method args).run browser with
  | (.ok _, browser') => .ok browser'
  | (.error _, _) => .error (.stepFailed page dest method)

/-- The step that is declared by path, among some methods. -/
def hrefStep (page dest : Page C V) (methods : List (Method C V)) (browser : S) :
    Except (Failure C V) S :=
  match methods.find? fun m => m.keyWord.startsWith "@href" with
  | none => .error (.noStep page dest)
  | some method =>
    match views.path dest with
    | .error _ => .error (.stepFailed page dest method)
    | .ok path => called views page dest method (.path path) browser

def decidedStep (page dest : Page C V) (method : Method C V) (browser : S) :
    Except (Failure C V) S :=
  match method.keyWord, bindArgs kwargs method.parameters with
  | .cls _, _ => .error (.classKeyWord method)
  | .text _, .error e => .error (.misfit method e)
  | .text _, .ok args => called views page dest method (.bound args) browser

def stepTo (page dest : Page C V) (browser : S) : Except (Failure C V) S :=
  match refuse ["possible_steps", "destination"] kwargs with
  | .error e => .error (.refused e)
  | .ok () =>
    match (views.steps page.cls).find? (decides views dest) with
    | none => hrefStep views page dest (views.steps page.cls) browser
    | some method => decidedStep views kwargs page dest method browser

/-- From a page to the next one: its members are read, the step is performed and the next page is
told. -/
def advance (page dest : Page C V) (browser : S) : Except (Failure C V) S :=
  match ran (views.members page) browser with
  | .error f => .error f
  | .ok (_, browser') =>
    match stepTo views kwargs page dest browser' with
    | .error f => .error f
    | .ok browser'' =>
      match ran (views.postNavigate dest kwargs) browser'' with
      | .error f => .error f
      | .ok (_, browser''') => .ok browser'''

/-- How the way down over some pages ends. -/
inductive Descends : S → List (Page C V) → Except (Failure C V) (Page C V) → Prop where
  | arrived (browser : S) (page : Page C V) : Descends browser [page] (.ok page)
  | failed {browser : S} {page dest : Page C V} {chain : List (Page C V)} {f : Failure C V}
      (next : advance views kwargs page dest browser = .error f) :
      Descends browser (page :: dest :: chain) (.error f)
  | next {browser browser' : S} {page dest : Page C V} {chain : List (Page C V)}
      {outcome : Except (Failure C V) (Page C V)}
      (next : advance views kwargs page dest browser = .ok browser')
      (rest : Descends browser' (dest :: chain) outcome) :
      Descends browser (page :: dest :: chain) outcome

/-- How a navigation ends. -/
inductive Ends (browser : S) (cls : C) : Except (Failure C V) (Page C V) → Prop where
  | refused {e : Exn} (names : refuse ["self", "cls"] kwargs = .error e) :
      Ends browser cls (.error (.refused e))
  | up {f : Failure C V} (names : refuse ["self", "cls"] kwargs = .ok ())
      (way : Ascends views kwargs [] browser cls (.error f)) : Ends browser cls (.error f)
  | down {pages : List (Page C V)} {browser' : S} {outcome : Except (Failure C V) (Page C V)}
      (names : refuse ["self", "cls"] kwargs = .ok ())
      (up : Ascends views kwargs [] browser cls (.ok (pages, browser')))
      (way : Descends views kwargs browser' pages outcome) : Ends browser cls outcome

/-! ## The step -/

/-- What `_invoke_step` answers: a step that is missing is no exception yet. -/
def answer : Except (Failure C V) S → Except Exn Bool
  | .ok _ => .ok true
  | .error (.noStep _ _) => .ok false
  | .error f => .error (f.exn views)

/-- A run has the answer of the outcome, leaves the deque alone and ends in the browser's state. -/
structure Answers (outcome : Except (Failure C V) S) (nav : Navigator C V S)
    (run : Except Exn Bool × Navigator C V S) : Prop where
  result : run.1 = answer views outcome
  pageChain : run.2.pageChain = nav.pageChain
  browser : ∀ browser, outcome = .ok browser → run.2.browser = browser

theorem noStep_or_answer (f : Failure C V) : (∃ page dest, f = .noStep page dest) ∨
    answer views (.error f : Except (Failure C V) S) = .error (f.exn views) := by
  cases f with
  | noStep page dest => exact Or.inl ⟨page, dest, rfl⟩
  | _ => exact Or.inr rfl

theorem called_answers (page dest : Page C V) (method : Method C V) (args : Args V)
    (nav : Navigator C V S) :
    Answers views (called views page dest method args nav.browser) nav ((do
      Prog.raiseInstead (stepException views page dest method)
        (act (.step page dest method args) (views.call page method args))
      pure true : Prog (Navigator C V S) Bool).run nav) := by
  have hact : (act (.step page dest method args) (views.call page method args)).run nav =
      (((views.call page method args).run nav.browser).1, { nav with
        browser := ((views.call page method args).run nav.browser).2
        log := nav.log ++ [.step page dest method args] }) := rfl
  rw [called]
  cases hrun : (views.call page method args).run nav.browser with
  | mk result browser' =>
      rw [hrun] at hact
      cases result with
      | ok u =>
          rw [Prog.bind_of_ok (Prog.raiseInstead_of_ok hact)]
          exact ⟨rfl, rfl, fun browser h => Except.ok.inj h⟩
      | error e =>
          rw [Prog.bind_of_error (Prog.raiseInstead_of_error hact)]
          exact ⟨rfl, rfl, fun browser h => by cases h⟩

theorem hrefStep_answers (page dest : Page C V) (methods : List (Method C V))
    (nav : Navigator C V S) :
    Answers views (hrefStep views page dest methods nav.browser) nav
      ((invokeAlternativeStep views page dest methods).run nav) := by
  unfold hrefStep
  induction methods with
  | nil => exact ⟨rfl, rfl, fun browser h => by cases h⟩
  | cons method methods ih =>
      rw [invokeAlternativeStep]
      cases hhref : method.keyWord.startsWith "@href" with
      | false =>
          simp only [List.find?_cons, hhref]
          exact ih
      | true =>
          simp only [List.find?_cons, hhref, if_true]
          cases views.path dest with
          | error e =>
              have hlift : (Prog.lift (.error e) : Prog (Navigator C V S) String).run nav =
                  (.error e, nav) := rfl
              rw [Prog.bind_of_error (Prog.raiseInstead_of_error hlift)]
              exact ⟨rfl, rfl, fun browser h => by cases h⟩
          | ok path =>
              have hlift : (Prog.lift (.ok path) : Prog (Navigator C V S) String).run nav =
                  (.ok path, nav) := rfl
              rw [Prog.bind_of_ok (Prog.raiseInstead_of_ok hlift)]
              exact called_answers views page dest method (.path path) nav

/-- The loop over the methods looks for the first one that decides, and keeps the alternatives. -/
theorem invokeStepFrom_answers (page dest : Page C V) (methods alternatives : List (Method C V))
    (nav : Navigator C V S) :
    Answers views
      (match methods.find? (decides views dest) with
        | none => hrefStep views page dest
            (alternatives ++ methods.filter fun m => m.keyWord.startsWith "@") nav.browser
        | some method => decidedStep views kwargs page dest method nav.browser)
      nav ((invokeStepFrom views page dest kwargs methods alternatives).run nav) := by
  induction methods generalizing alternatives with
  | nil =>
      rw [invokeStepFrom, List.filter_nil, List.append_nil]
      exact hrefStep_answers views page dest alternatives nav
  | cons method methods ih =>
      rw [invokeStepFrom]
      cases hword : method.keyWord with
      | cls c =>
          have hdecides : decides views dest method = true := by rw [decides, hword]
          simp only [List.find?_cons, hdecides, decidedStep, hword]
          exact ⟨rfl, rfl, fun browser h => by cases h⟩
      | text word =>
          by_cases hname : word = views.name dest.cls
          · have hdecides : decides views dest method = true := by simp [decides, hword, hname]
            simp only [List.find?_cons, hdecides, decidedStep, hword, if_pos hname]
            cases bindArgs kwargs method.parameters with
            | error e => exact ⟨rfl, rfl, fun browser h => by cases h⟩
            | ok args => exact called_answers views page dest method (.bound args) nav
          · have hdecides : decides views dest method = false := by simp [decides, hword, hname]
            simp only [List.find?_cons, hdecides, if_neg hname]
            cases hat : method.keyWord.startsWith "@" with
            | false =>
                rw [hword] at hat
                simp only [hat, List.filter_cons, hword]
                exact ih alternatives
            | true =>
                rw [hword] at hat
                have hrest := ih (alternatives ++ [method])
                rw [List.append_assoc] at hrest
                simp only [hat, List.filter_cons, hword]
                exact hrest

theorem invokeStep_answers (page dest : Page C V) (nav : Navigator C V S) :
    Answers views (stepTo views kwargs page dest nav.browser) nav
      ((invokeStep views page dest kwargs).run nav) := by
  rw [invokeStep, stepTo]
  cases hnames : refuse ["possible_steps", "destination"] kwargs with
  | error e =>
      rw [Prog.bind_of_error (Prog.lift_run _ _)]
      exact ⟨rfl, rfl, fun browser h => by cases h⟩
  | ok u =>
      rw [Prog.bind_of_ok (Prog.lift_run _ _)]
      have hloop := invokeStepFrom_answers views kwargs page dest
        (views.steps page.cls) [] nav
      rw [List.nil_append, hrefStep, find?_href_filter] at hloop
      exact hloop

theorem called_error {page dest : Page C V} {method : Method C V} {args : Args V} {browser : S}
    {f : Failure C V} (h : called views page dest method args browser = .error f) :
    f = .stepFailed page dest method := by
  unfold called at h
  split at h
  · cases h
  · exact (Except.error.inj h).symm

/-- The step that is missing is the one from the page to the destination. -/
theorem stepTo_noStep {page dest page' dest' : Page C V} {browser : S}
    (h : stepTo views kwargs page dest browser = .error (.noStep page' dest')) :
    page' = page ∧ dest' = dest := by
  unfold stepTo hrefStep decidedStep at h
  split at h
  · cases h
  · split at h
    · split at h
      · cases h
        exact ⟨rfl, rfl⟩
      · split at h
        · cases h
        · cases called_error views h
    · split at h
      · cases h
      · cases h
      · cases called_error views h

/-! ## The program ends as described -/

theorem onBrowser_run {α : Type} (m : Prog S α) (nav : Navigator C V S) :
    (onBrowser m).run nav =
      ((m.run nav.browser).1, { nav with browser := (m.run nav.browser).2 }) := rfl

theorem act_run (event : Event C V) (m : Prog S Unit) (nav : Navigator C V S) :
    (act event m).run nav = ((m.run nav.browser).1, { nav with
      browser := (m.run nav.browser).2, log := nav.log ++ [event] }) := rfl

/-- One round of `_perform_steps` raises, or goes on from the next page. -/
theorem performSteps_step (page dest : Page C V) (chain : List (Page C V))
    (nav : Navigator C V S) :
    (∃ f nav', advance views kwargs page dest nav.browser = .error f ∧
      (performSteps views kwargs (page :: dest :: chain)).run nav = (.error (f.exn views), nav')) ∨
    ∃ nav', advance views kwargs page dest nav.browser = .ok nav'.browser ∧
      (performSteps views kwargs (page :: dest :: chain)).run nav =
        (performSteps views kwargs (dest :: chain)).run nav' := by
  have hchain : (setChain (dest :: chain)).run nav =
      (.ok (), { nav with pageChain := dest :: chain }) := rfl
  have hmembers := onBrowser_run (views.members page) { nav with pageChain := dest :: chain }
  rw [performSteps, Prog.bind_of_ok hchain, advance, ran]
  cases hread : (views.members page).run nav.browser with
  | mk result browser =>
      rw [hread] at hmembers
      cases result with
      | error e => exact Or.inl ⟨.raised e, _, rfl, Prog.bind_of_error hmembers⟩
      | ok u =>
          rw [Prog.bind_of_ok hmembers]
          obtain ⟨hresult, -, hbrowser⟩ := invokeStep_answers views kwargs page dest
            { nav with pageChain := dest :: chain, browser := browser }
          cases hinvoke : (invokeStep views page dest kwargs).run
              { nav with pageChain := dest :: chain, browser := browser } with
          | mk answered nav2 =>
              rw [hinvoke] at hresult hbrowser
              simp only at hresult hbrowser ⊢
              cases hstep : stepTo views kwargs page dest browser with
              | error f =>
                  left
                  rw [hstep] at hresult
                  rcases noStep_or_answer views f with ⟨page', dest', rfl⟩ | hanswer
                  · obtain ⟨rfl, rfl⟩ := stepTo_noStep views kwargs hstep
                    rw [Prog.bind_of_ok (hinvoke.trans (by rw [hresult]; rfl))]
                    exact ⟨_, nav2, rfl, rfl⟩
                  · rw [hresult, hanswer] at hinvoke
                    exact ⟨f, nav2, rfl, Prog.bind_of_error hinvoke⟩
              | ok browser' =>
                  rw [hstep] at hresult
                  have hpost := act_run (.postNavigate dest) (views.postNavigate dest kwargs) nav2
                  rw [hbrowser browser' hstep] at hpost
                  rw [Prog.bind_of_ok (hinvoke.trans (by rw [hresult]; rfl)), if_pos rfl]
                  cases htold : (views.postNavigate dest kwargs).run browser' with
                  | mk result browser'' =>
                      rw [htold] at hpost
                      cases result with
                      | error e => exact Or.inl ⟨.raised e, _, by simp [ran, htold],
                          Prog.bind_of_error hpost⟩
                      | ok u => exact Or.inr ⟨_, by simp [ran, htold], Prog.bind_of_ok hpost⟩

theorem performSteps_descends (page : Page C V) (chain : List (Page C V)) (nav : Navigator C V S) :
    ∃ outcome nav', Descends views kwargs nav.browser (page :: chain) outcome ∧
      (performSteps views kwargs (page :: chain)).run nav =
        (outcome.mapError (Failure.exn views), nav') := by
  induction chain generalizing page nav with
  | nil => exact ⟨_, nav, Descends.arrived nav.browser page, rfl⟩
  | cons dest chain ih =>
      rcases performSteps_step views kwargs page dest chain nav with
        ⟨f, nav', hadvance, hrun⟩ | ⟨nav', hadvance, hrun⟩
      · exact ⟨_, nav', Descends.failed hadvance, hrun⟩
      · obtain ⟨outcome, nav'', hrest, hrun'⟩ := ih dest nav'
        exact ⟨outcome, nav'', Descends.next hadvance hrest, hrun.trans hrun'⟩

theorem noPrerequisite_run (page : Page C V) (below : List (Page C V)) (nav : Navigator C V S)
    (h : nav.pageChain = page :: below) :
    ∃ nav', (noPrerequisite views).run nav = (.error ((stuckAt page below).exn views), nav') := by
  rw [noPrerequisite, Prog.gets_bind_run, h, Prog.bind_of_ok rfl, stuckAt]
  cases below with
  | nil => exact ⟨_, rfl⟩
  | cons second rest =>
      rw [List.getLast?_cons_cons]
      cases hlast : (second :: rest).getLast? with
      | none => exact absurd (List.getLast?_eq_none_iff.mp hlast) (List.cons_ne_nil _ _)
      | some first => exact ⟨_, rfl⟩

theorem arrive_run (page : Page C V) (below : List (Page C V)) (nav : Navigator C V S)
    (h : nav.pageChain = page :: below) :
    ∃ nav', (arrive views page).run nav =
        ((arrivedAt views page below nav.browser).mapError (Failure.exn views) |>.map fun _ => (),
          nav') ∧
      ∀ pages browser, arrivedAt views page below nav.browser = .ok (pages, browser) →
        nav'.pageChain = pages ∧ nav'.browser = browser := by
  rw [arrive, Prog.gets_bind_run, h]
  cases below with
  | cons second rest =>
      refine ⟨nav, rfl, fun pages browser heq => ?_⟩
      cases heq
      exact ⟨h, rfl⟩
  | nil =>
      have hrefresh := act_run .refresh views.refresh nav
      rw [if_pos (List.length_singleton), arrivedAt, ran]
      cases hran : views.refresh.run nav.browser with
      | mk result browser =>
          rw [hran] at hrefresh
          cases result with
          | error e =>
              exact ⟨_, Prog.bind_of_error hrefresh, fun pages browser heq => by cases heq⟩
          | ok u =>
              rw [Prog.bind_of_ok hrefresh]
              have hwait := act_run (.waitDisplayed page) (views.waitDisplayed page)
                { nav with browser := browser, log := nav.log ++ [.refresh] }
              simp only [ran]
              cases hshown : (views.waitDisplayed page).run browser with
              | mk result browser' =>
                  rw [hshown] at hwait
                  cases result with
                  | error e => exact ⟨_, hwait, fun pages browser heq => by cases heq⟩
                  | ok u =>
                      refine ⟨_, hwait, fun pages browser heq => ?_⟩
                      cases heq
                      exact ⟨h, rfl⟩

theorem newPage_run (cls : C) (nav : Navigator C V S) : (newPage views cls kwargs).run nav =
    ((views.construct cls (filterKwargs (views.parameters cls) kwargs)).map fun _ =>
      pageOf views kwargs cls, nav) := by
  cases hbuilt : views.construct cls (filterKwargs (views.parameters cls) kwargs) with
  | error e => rw [newPage, hbuilt]; rfl
  | ok u => rw [newPage, hbuilt]; rfl

/-- The search, by induction over the prerequisites. -/
theorem backtrace_ascends (cls : C) : ∀ nav : Navigator C V S,
    ∃ outcome nav', Ascends views kwargs nav.pageChain nav.browser cls outcome ∧
      (backtrace views cls kwargs).run nav =
        ((outcome.mapError (Failure.exn views)).map fun _ => (), nav') ∧
      ∀ pages browser, outcome = .ok (pages, browser) →
        nav'.pageChain = pages ∧ nav'.browser = browser := by
  induction cls using views.wellFounded.induction with
  | _ cls ih =>
  intro nav
  have hpage := newPage_run views kwargs cls nav
  rw [backtrace]
  cases hbuilt : views.construct cls (filterKwargs (views.parameters cls) kwargs) with
  | error e =>
      have hseen : look views kwargs cls nav.browser = .error (.raised e) := by simp [look, hbuilt]
      rw [hbuilt] at hpage
      exact ⟨_, nav, Ascends.raised hseen, Prog.bind_of_error hpage,
        fun pages browser h => by cases h⟩
  | ok u =>
      rw [hbuilt] at hpage
      rw [Prog.bind_of_ok hpage, Prog.bind_of_ok (Prog.modify_run _ _)]
      have hask := onBrowser_run (views.isDisplayed (pageOf views kwargs cls))
        { nav with pageChain := pageOf views kwargs cls :: nav.pageChain }
      cases hran : (views.isDisplayed (pageOf views kwargs cls)).run nav.browser with
      | mk result browser =>
          rw [hran] at hask
          cases result with
          | error e =>
              have hseen : look views kwargs cls nav.browser = .error (.raised e) := by
                simp [look, hbuilt, ran, hran]
              exact ⟨_, _, Ascends.raised hseen, Prog.bind_of_error hask,
                fun pages browser h => by cases h⟩
          | ok displayed =>
              rw [Prog.bind_of_ok hask]
              cases displayed with
              | true =>
                  have hseen : look views kwargs cls nav.browser = .ok (.displayed, browser) := by
                    simp [look, hbuilt, ran, hran]
                  obtain ⟨nav', hrun, hend⟩ := arrive_run views (pageOf views kwargs cls)
                    nav.pageChain ⟨pageOf views kwargs cls :: nav.pageChain, browser, nav.log⟩ rfl
                  exact ⟨_, nav', Ascends.displayed hseen, hrun, hend⟩
              | false =>
                  simp only [Bool.false_eq_true, if_false]
                  split
                  · rename_i e hnext
                    have hseen : look views kwargs cls nav.browser = .error (.raised e) := by
                      simp [look, hbuilt, ran, hran, hnext]
                    exact ⟨_, _, Ascends.raised hseen, rfl, fun pages browser h => by cases h⟩
                  · rename_i hnext
                    have hseen : look views kwargs cls nav.browser =
                        .ok (.hidden none, browser) := by
                      simp [look, hbuilt, ran, hran, hnext]
                    obtain ⟨nav', hrun⟩ := noPrerequisite_run views (pageOf views kwargs cls)
                      nav.pageChain ⟨pageOf views kwargs cls :: nav.pageChain, browser, nav.log⟩ rfl
                    exact ⟨_, nav', Ascends.stuck hseen, hrun, fun pages browser h => by cases h⟩
                  · rename_i prerequisite hnext
                    have hseen : look views kwargs cls nav.browser =
                        .ok (.hidden (some prerequisite), browser) := by
                      simp [look, hbuilt, ran, hran, hnext]
                    obtain ⟨outcome, nav', hrest, hrun, hend⟩ := ih prerequisite ⟨_, hnext⟩
                      ⟨pageOf views kwargs cls :: nav.pageChain, browser, nav.log⟩
                    exact ⟨outcome, nav', Ascends.above hseen hrest, hrun, hend⟩

variable {views kwargs}

theorem arrivedAt_cons {page : Page C V} {below pages : List (Page C V)} {browser browser' : S}
    (h : arrivedAt views page below browser = .ok (pages, browser')) :
    ∃ first rest, pages = first :: rest := by
  unfold arrivedAt at h
  split at h
  · split at h
    · cases h
    · split at h
      · cases h
      · cases h
        exact ⟨page, [], rfl⟩
  · cases h
    exact ⟨page, _, rfl⟩

theorem Ascends.cons {below : List (Page C V)} {browser : S} {cls : C}
    {outcome : Except (Failure C V) (List (Page C V) × S)}
    (h : Ascends views kwargs below browser cls outcome) {pages : List (Page C V)} {browser' : S}
    (hend : outcome = .ok (pages, browser')) : ∃ first rest, pages = first :: rest := by
  induction h with
  | raised seen => cases hend
  | stuck seen => cases hend
  | displayed seen => exact arrivedAt_cons hend
  | above seen rest ih => exact ih hend

variable (views kwargs) in
theorem navigate_ends (cls : C) (nav : Navigator C V S) :
    ∃ outcome nav', Ends views kwargs nav.browser cls outcome ∧
      (navigate views cls kwargs).run nav = (outcome.mapError (Failure.exn views), nav') := by
  rw [navigate]
  cases hnames : refuse ["self", "cls"] kwargs with
  | error e => exact ⟨_, nav, Ends.refused hnames, rfl⟩
  | ok u =>
      obtain ⟨outcome, nav', hup, hrun, hend⟩ := backtrace_ascends views kwargs cls
        { nav with pageChain := [] }
      have hchain : (setChain []).run nav = (.ok (), { nav with pageChain := [] }) := rfl
      rw [Prog.bind_of_ok (Prog.lift_run _ _), Prog.bind_of_ok hchain]
      cases outcome with
      | error f => exact ⟨_, nav', Ends.up hnames hup, Prog.bind_of_error hrun⟩
      | ok reached =>
          obtain ⟨pages, browser⟩ := reached
          obtain ⟨hpages, hbrowser⟩ := hend pages browser rfl
          obtain ⟨first, rest, hcons⟩ := hup.cons rfl
          obtain ⟨outcome, nav'', hdown, hrun'⟩ := performSteps_descends views kwargs
            first rest nav'
          rw [← hcons, hbrowser] at hdown
          rw [← hcons] at hrun'
          refine ⟨outcome, nav'', Ends.down hnames hup hdown, ?_⟩
          rw [Prog.bind_of_ok hrun, Prog.gets_bind_run, hpages]
          exact hrun'

/-! ## There is one end -/

theorem Ascends.unique {below : List (Page C V)} {browser : S} {cls : C}
    {outcome outcome' : Except (Failure C V) (List (Page C V) × S)}
    (h : Ascends views kwargs below browser cls outcome)
    (h' : Ascends views kwargs below browser cls outcome') : outcome = outcome' := by
  induction h generalizing outcome' with
  | raised seen =>
      cases h' with
      | raised seen' => rw [Except.error.inj (seen.symm.trans seen')]
      | displayed seen' => cases seen.symm.trans seen'
      | stuck seen' => cases seen.symm.trans seen'
      | above seen' rest' => cases seen.symm.trans seen'
  | displayed seen =>
      cases h' with
      | raised seen' => cases seen.symm.trans seen'
      | displayed seen' =>
          cases seen.symm.trans seen'
          rfl
      | stuck seen' => cases seen.symm.trans seen'
      | above seen' rest' => cases seen.symm.trans seen'
  | stuck seen =>
      cases h' with
      | raised seen' => cases seen.symm.trans seen'
      | displayed seen' => cases seen.symm.trans seen'
      | stuck seen' => rfl
      | above seen' rest' => cases seen.symm.trans seen'
  | above seen rest ih =>
      cases h' with
      | raised seen' => cases seen.symm.trans seen'
      | displayed seen' => cases seen.symm.trans seen'
      | stuck seen' => cases seen.symm.trans seen'
      | above seen' rest' =>
          cases seen.symm.trans seen'
          exact ih rest'

theorem Descends.unique {browser : S} {pages : List (Page C V)}
    {outcome outcome' : Except (Failure C V) (Page C V)}
    (h : Descends views kwargs browser pages outcome)
    (h' : Descends views kwargs browser pages outcome') : outcome = outcome' := by
  induction h with
  | arrived browser page =>
      cases h'
      rfl
  | failed next =>
      cases h' with
      | failed next' => rw [Except.error.inj (next.symm.trans next')]
      | next next' rest' => cases next.symm.trans next'
  | next next rest ih =>
      cases h' with
      | failed next' => cases next.symm.trans next'
      | next next' rest' =>
          cases next.symm.trans next'
          exact ih rest'

theorem Ends.unique {browser : S} {cls : C} {outcome outcome' : Except (Failure C V) (Page C V)}
    (h : Ends views kwargs browser cls outcome) (h' : Ends views kwargs browser cls outcome') :
    outcome = outcome' := by
  cases h with
  | refused names =>
      cases h' with
      | refused names' => rw [Except.error.inj (names.symm.trans names')]
      | up names' way' => cases names.symm.trans names'
      | down names' up' way' => cases names.symm.trans names'
  | up names way =>
      cases h' with
      | refused names' => cases names.symm.trans names'
      | up names' way' => rw [Except.error.inj (way.unique way')]
      | down names' up' way' => cases way.unique up'
  | down names up way =>
      cases h' with
      | refused names' => cases names.symm.trans names'
      | up names' way' => cases up.unique way'
      | down names' up' way' =>
          cases up.unique up'
          exact way.unique way'

/-! ## What is reported -/

/-- A documented failure is reported, unless the message lists the steps of a page that has some. -/
theorem renders_iff_reported {f : Failure C V} (h : f.Documented) :
    (f.exn views).Renders ↔ f.Reported views := by
  cases f with
  | noAncestor first last => exact Iff.rfl
  | stepFailed page dest method => simp [Failure.exn, Failure.Reported, stepException, Exn.Renders]
  | noStep page dest =>
      simp only [Failure.exn, Failure.Reported, stepNotFound, Exn.Renders, possibleSteps]
      cases views.steps page.cls with
      | nil => simp [joinPairs]
      | cons method methods => simp [joinPairs]
  | _ => exact h.elim

theorem Failure.Reported.documented {f : Failure C V} (h : f.Reported views) : f.Documented := by
  cases f with
  | noAncestor first last => trivial
  | noStep page dest => trivial
  | stepFailed page dest method => trivial
  | _ => exact h.elim

/-- What a navigation raises is the documented exception of what it failed of, with a message that
can be shown, exactly where it fails of nothing else and misses no step on a page with steps. -/
theorem navigate_reports_iff (views : Views C V S) (kwargs : List (String × V)) (cls : C)
    (nav : Navigator C V S) :
    (∀ e, ((navigate views cls kwargs).run nav).1 = .error e →
      ∃ f, Ends views kwargs nav.browser cls (.error f) ∧ f.Documented ∧ e = f.exn views ∧
        e.Renders) ↔
      ∀ f, Ends views kwargs nav.browser cls (.error f) → f.Reported views := by
  obtain ⟨outcome, nav', hends, hrun⟩ := navigate_ends views kwargs cls nav
  rw [hrun]
  constructor
  · intro h f hf
    cases hends.unique hf
    obtain ⟨f', hf', hdocumented, heq, hrenders⟩ := h (f.exn views) rfl
    cases hf.unique hf'
    exact (renders_iff_reported hdocumented).mp hrenders
  · intro h e he
    cases outcome with
    | ok page => cases he
    | error f =>
        cases he
        have hreported := h f hends
        exact ⟨f, hends, hreported.documented, rfl,
          (renders_iff_reported hreported.documented).mpr hreported⟩

end

/-! ## A view without prerequisite -/

namespace AdminView

/-- The browser shows the dashboard, and the base view is asked for. -/
theorem navigate_baseAdminView :
    ((navigate views baseAdminView []).run ⟨[], dashboardView, []⟩).1 =
      .error (.other "IndexError") := by
  rw [navigate, Prog.bind_of_ok rfl, Prog.bind_of_ok rfl, backtrace]
  rfl

theorem navigate_not_reported :
    ¬ ∀ e, ((navigate views baseAdminView []).run ⟨[], dashboardView, []⟩).1 = .error e →
      ∃ f, Ends views [] dashboardView baseAdminView (.error f) ∧ f.Documented ∧
        e = f.exn views ∧ e.Renders := by
  intro h
  obtain ⟨f, -, hdocumented, heq, -⟩ := h _ navigate_baseAdminView
  cases f with
  | noAncestor first last => cases heq
  | noStep page dest => cases heq
  | stepFailed page dest method => cases heq
  | _ => exact hdocumented

end AdminView

end ThreescaleTests.Ui
