import Mathlib.Data.List.Chain
import Mathlib.Order.WellFounded
import ThreescaleTests.Ui.Navigator

/-!
# A navigation runs the needed steps

The pages from the view asked for up to the nearest displayed one are the whole
deque, whatever earlier navigations left in it. Performing the steps walks the same
pages back, one step and one `post_navigate` for each.
-/

namespace ThreescaleTests.Ui

open Library

section

variable {C V S : Type} (views : Views C V S) (kwargs : List (String × V))

/-! ## What is needed -/

/-- The pages from a view up to the nearest one that answers to be displayed. The browser is asked
page by page, and ends in another state. -/
inductive Climbs : S → C → List (Page C V) → S → Prop where
  | displayed {browser browser' : S} {cls : C}
      (built : views.construct cls (filterKwargs (views.parameters cls) kwargs) = .ok ())
      (answer : (views.isDisplayed ⟨cls, filterKwargs (views.parameters cls) kwargs⟩).run browser =
        (.ok true, browser')) :
      Climbs browser cls [⟨cls, filterKwargs (views.parameters cls) kwargs⟩] browser'
  | hidden {browser browser' browser'' : S} {cls prerequisite : C} {pages : List (Page C V)}
      (built : views.construct cls (filterKwargs (views.parameters cls) kwargs) = .ok ())
      (answer : (views.isDisplayed ⟨cls, filterKwargs (views.parameters cls) kwargs⟩).run browser =
        (.ok false, browser'))
      (next : views.prerequisite cls (filterKwargs (views.parameters cls) kwargs) =
        .ok (some prerequisite))
      (above : Climbs browser' prerequisite pages browser'') :
      Climbs browser cls (⟨cls, filterKwargs (views.parameters cls) kwargs⟩ :: pages) browser''

def KeyWord.isName (name : String) : KeyWord C → Bool
  | .text word => word = name
  | .cls _ => false

/-- The step from a page to another: the one declared for the name of the class, and only without
such a step the one declared by path. -/
inductive Chosen (page dest : Page C V) : Method C V → Args V → Prop where
  | byName {method : Method C V} {args : List (String × V)}
      (first : (views.steps page.cls).find? (fun m => m.keyWord.isName (views.name dest.cls)) =
        some method)
      (takes : bindArgs kwargs method.parameters = .ok args) :
      Chosen page dest method (.bound args)
  | byHref {method : Method C V} {path : String}
      (unnamed : (views.steps page.cls).find? (fun m => m.keyWord.isName (views.name dest.cls)) =
        none)
      (first : (views.steps page.cls).find? (fun m => m.keyWord.startsWith "@href") = some method)
      (leads : views.path dest = .ok path) :
      Chosen page dest method (.path path)

/-- The events of a walk over the pages: one step to each next page and its `post_navigate`. -/
inductive Walks : List (Page C V) → List (Event C V) → Prop where
  | arrived (page : Page C V) : Walks [page] []
  | step {page dest : Page C V} {pages : List (Page C V)} {method : Method C V} {args : Args V}
      {events : List (Event C V)} (chosen : Chosen views kwargs page dest method args)
      (walks : Walks (dest :: pages) events) :
      Walks (page :: dest :: pages)
        (.step page dest method args :: .postNavigate dest :: events)

variable {views kwargs}

/-- The climb starts with the page of the view that was asked for. -/
theorem Climbs.head {browser browser' : S} {cls : C} {pages : List (Page C V)}
    (h : Climbs views kwargs browser cls pages browser') :
    ∃ above, pages = ⟨cls, filterKwargs (views.parameters cls) kwargs⟩ :: above := by
  cases h with
  | displayed => exact ⟨[], rfl⟩
  | hidden _ _ _ _ => exact ⟨_, rfl⟩

/-- One class is the prerequisite of the other. -/
def Needs (views : Views C V S) (cls prerequisite : C) : Prop :=
  ∃ kwargs, views.prerequisite cls kwargs = .ok (some prerequisite)

theorem Climbs.chain {browser browser' : S} {cls : C} {pages : List (Page C V)}
    (h : Climbs views kwargs browser cls pages browser') :
    (pages.map Page.cls).IsChain (Needs views) := by
  induction h with
  | displayed => exact List.IsChain.singleton _
  | hidden built answer next above ih =>
      obtain ⟨rest, hrest⟩ := above.head
      rw [hrest, List.map_cons] at ih
      rw [hrest, List.map_cons, List.map_cons]
      exact List.isChain_cons_cons.mpr ⟨⟨_, next⟩, ih⟩

/-- No view is visited twice. -/
theorem Climbs.nodup {browser browser' : S} {cls : C} {pages : List (Page C V)}
    (h : Climbs views kwargs browser cls pages browser') : (pages.map Page.cls).Nodup := by
  have hchain : (pages.map Page.cls).IsChain (Relation.TransGen (Needs views)) :=
    h.chain.imp fun _ _ => Relation.TransGen.single
  refine (List.isChain_iff_pairwise.mp hchain).imp ?_
  intro c c' hneeds heq
  have hloop : Relation.TransGen (Function.swap (Needs views)) c c :=
    Relation.transGen_swap.mpr (heq ▸ hneeds)
  exact views.wellFounded.transGen.irrefl.irrefl c hloop

/-! ## Going back -/

/-- A page is built where its constructor returns. -/
theorem newPage_ok {cls : C} {page : Page C V} {nav nav' : Navigator C V S}
    (h : (newPage views cls kwargs).run nav = (.ok page, nav')) :
    nav' = nav ∧ page = ⟨cls, filterKwargs (views.parameters cls) kwargs⟩ ∧
      views.construct cls (filterKwargs (views.parameters cls) kwargs) = .ok () := by
  obtain ⟨_, hbuilt, hpage⟩ := Prog.exists_of_lift_bind_ok h
  rw [Prog.pure_run, Prod.mk.injEq, Except.ok.injEq] at hpage
  exact ⟨hpage.2.symm, hpage.1.symm, hbuilt⟩

theorem noPrerequisite_ne_ok {nav nav' : Navigator C V S} :
    ((noPrerequisite views).run nav) ≠ (.ok (), nav') := by
  intro h
  obtain ⟨chain, s, -, h⟩ := Prog.exists_of_bind_ok h
  obtain ⟨_, t, -, h⟩ := Prog.exists_of_bind_ok h
  rw [Prog.lift_run] at h
  split at h
  · cases h
  · cases h

/-- What a search leaves behind: the pages on the deque, and a record of the refresh where the first
page is displayed at once. -/
structure Climbed (views : Views C V S) (cls : C) (kwargs : List (String × V))
    (pages : List (Page C V)) (nav nav' : Navigator C V S) : Prop where
  climbs : ∃ browser, Climbs views kwargs nav.browser cls pages browser
  pageChain : nav'.pageChain = pages.reverse ++ nav.pageChain
  log : nav'.log = nav.log ++
    if pages.length = 1 ∧ nav.pageChain = [] then
      [.refresh, .waitDisplayed ⟨cls, filterKwargs (views.parameters cls) kwargs⟩]
    else []

theorem act_ok {event : Event C V} {m : Prog S Unit} {nav nav' : Navigator C V S}
    (h : (act event m).run nav = (.ok (), nav')) :
    nav'.pageChain = nav.pageChain ∧ nav'.log = nav.log ++ [event] := by
  obtain ⟨_, s, hrecord, hm⟩ := Prog.exists_of_bind_ok h
  cases hrecord
  obtain ⟨browser, -, rfl⟩ := Prog.exists_of_focus_ok hm
  exact ⟨rfl, rfl⟩

theorem arrive_ok {page : Page C V} {nav nav' : Navigator C V S}
    (h : (arrive views page).run nav = (.ok (), nav')) :
    nav'.pageChain = nav.pageChain ∧
      nav'.log = nav.log ++ if nav.pageChain.length = 1 then [.refresh, .waitDisplayed page]
        else [] := by
  obtain ⟨chain, s, hchain, h⟩ := Prog.exists_of_bind_ok h
  cases hchain
  by_cases hone : nav.pageChain.length = 1
  · rw [if_pos hone] at h ⊢
    obtain ⟨_, t, hrefresh, hwait⟩ := Prog.exists_of_bind_ok h
    obtain ⟨hchain, hlog⟩ := act_ok hrefresh
    obtain ⟨hchain', hlog'⟩ := act_ok hwait
    refine ⟨hchain'.trans hchain, ?_⟩
    rw [hlog', hlog, List.append_assoc]
    rfl
  · rw [if_neg hone] at h ⊢
    cases h
    exact ⟨rfl, (List.append_nil _).symm⟩

/-- The search, by induction over the prerequisites. -/
theorem backtrace_ok (cls : C) : ∀ {nav nav' : Navigator C V S},
    (backtrace views cls kwargs).run nav = (.ok (), nav') →
      ∃ pages, Climbed views cls kwargs pages nav nav' := by
  induction cls using views.wellFounded.induction with
  | _ cls ih =>
  intro nav nav' h
  rw [backtrace] at h
  obtain ⟨page, s, hpage, h⟩ := Prog.exists_of_bind_ok h
  obtain ⟨rfl, rfl, hbuilt⟩ := newPage_ok hpage
  obtain ⟨_, t, happend, h⟩ := Prog.exists_of_bind_ok h
  cases happend
  obtain ⟨displayed, u, hasked, h⟩ := Prog.exists_of_bind_ok h
  obtain ⟨browser, hanswer, rfl⟩ := Prog.exists_of_focus_ok hasked
  cases displayed with
  | true =>
      obtain ⟨hchain, hlog⟩ := arrive_ok h
      refine ⟨[_], ⟨browser, Climbs.displayed hbuilt hanswer⟩, hchain, ?_⟩
      rw [hlog]
      simp
  | false =>
      simp only [Bool.false_eq_true, if_false] at h
      split at h
      · cases h
      · exact absurd h noPrerequisite_ne_ok
      · rename_i prerequisite hnext
        obtain ⟨pages, ⟨browser', hclimbs⟩, hchain, hlog⟩ := ih prerequisite ⟨_, hnext⟩ h
        refine ⟨_ :: pages, ⟨browser', Climbs.hidden hbuilt hanswer hnext hclimbs⟩, ?_, ?_⟩
        · rw [hchain]
          simp
        · rw [hlog]
          obtain ⟨above, habove⟩ := hclimbs.head
          simp [habove]

/-! ## Stepping forward -/

/-- One step was performed, and nothing else. -/
structure Invoked (page dest : Page C V) (method : Method C V) (args : Args V)
    (nav nav' : Navigator C V S) : Prop where
  pageChain : nav'.pageChain = nav.pageChain
  log : nav'.log = nav.log ++ [.step page dest method args]

theorem invoke_ok {page dest : Page C V} {method : Method C V} {args : Args V}
    {invoked : Bool} {e : Exn} {nav nav' : Navigator C V S}
    (h : ((Prog.raiseInstead e
      (act (.step page dest method args) (views.call page method args))) >>=
        fun _ => (pure true : Prog (Navigator C V S) Bool)).run nav = (.ok invoked, nav')) :
    Invoked page dest method args nav nav' := by
  obtain ⟨_, s, hact, hpure⟩ := Prog.exists_of_bind_ok h
  cases hpure
  obtain ⟨hchain, hlog⟩ := act_ok (Prog.run_eq_of_raiseInstead_ok hact)
  exact ⟨hchain, hlog⟩

theorem invokeAlternativeStep_ok {page dest : Page C V} {methods : List (Method C V)}
    {nav nav' : Navigator C V S}
    (h : (invokeAlternativeStep views page dest methods).run nav = (.ok true, nav')) :
    ∃ method path, methods.find? (fun m => m.keyWord.startsWith "@href") = some method ∧
      views.path dest = .ok path ∧ Invoked page dest method (.path path) nav nav' := by
  induction methods with
  | nil => cases h
  | cons method methods ih =>
      rw [invokeAlternativeStep] at h
      by_cases hhref : method.keyWord.startsWith "@href"
      · rw [if_pos hhref] at h
        obtain ⟨path, s, hpath, h⟩ := Prog.exists_of_bind_ok h
        have hlift := Prog.run_eq_of_raiseInstead_ok hpath
        rw [Prog.lift_run, Prod.mk.injEq] at hlift
        obtain ⟨hleads, rfl⟩ := hlift
        exact ⟨method, path, List.find?_cons_of_pos hhref, hleads, invoke_ok h⟩
      · rw [if_neg hhref] at h
        obtain ⟨found, path, hfound, hleads, hinvoked⟩ := ih h
        refine ⟨found, path, ?_, hleads, hinvoked⟩
        rw [← hfound]
        exact List.find?_cons_of_neg hhref

/-- What the loop finds with the alternatives collected so far. -/
def Found (views : Views C V S) (kwargs : List (String × V)) (dest : Page C V)
    (methods alternatives : List (Method C V)) (method : Method C V) : Args V → Prop
  | .bound args =>
      methods.find? (fun m => m.keyWord.isName (views.name dest.cls)) = some method ∧
        bindArgs kwargs method.parameters = .ok args
  | .path path =>
      methods.find? (fun m => m.keyWord.isName (views.name dest.cls)) = none ∧
        (alternatives ++ methods.filter fun m => m.keyWord.startsWith "@").find?
          (fun m => m.keyWord.startsWith "@href") = some method ∧
        views.path dest = .ok path

/-- A method that is not declared for the name is passed over, and kept if it is an alternative. -/
theorem Found.cons {dest : Page C V} {m method : Method C V}
    {methods alternatives : List (Method C V)} {args : Args V}
    (hm : m.keyWord.isName (views.name dest.cls) = false)
    (h : Found views kwargs dest methods
      (if m.keyWord.startsWith "@" then alternatives ++ [m] else alternatives) method args) :
    Found views kwargs dest (m :: methods) alternatives method args := by
  have hfind : (m :: methods).find? (fun m => m.keyWord.isName (views.name dest.cls)) =
      methods.find? fun m => m.keyWord.isName (views.name dest.cls) :=
    List.find?_cons_of_neg (by simp [hm])
  cases args with
  | bound args => exact ⟨hfind.trans h.1, h.2⟩
  | path path =>
      refine ⟨hfind.trans h.1, ?_, h.2.2⟩
      rw [← h.2.1]
      by_cases hat : m.keyWord.startsWith "@"
      · simp [hat]
      · simp [hat]

theorem invokeStepFrom_ok {page dest : Page C V} {methods alternatives : List (Method C V)}
    {nav nav' : Navigator C V S}
    (h : (invokeStepFrom views page dest kwargs methods alternatives).run nav = (.ok true, nav')) :
    ∃ method args, Found views kwargs dest methods alternatives method args ∧
      Invoked page dest method args nav nav' := by
  induction methods generalizing alternatives with
  | nil =>
      rw [invokeStepFrom] at h
      obtain ⟨method, path, hfound, hpath, hinvoked⟩ := invokeAlternativeStep_ok h
      exact ⟨method, .path path, ⟨rfl, by simpa using hfound, hpath⟩, hinvoked⟩
  | cons m methods ih =>
      rw [invokeStepFrom] at h
      cases hword : m.keyWord with
      | cls c =>
          simp only [hword] at h
          cases h
      | text word =>
          simp only [hword] at h
          by_cases hname : word = views.name dest.cls
          · rw [if_pos hname] at h
            obtain ⟨args, hbind, h⟩ := Prog.exists_of_lift_bind_ok h
            have hm : m.keyWord.isName (views.name dest.cls) = true := by
              rw [hword]
              exact decide_eq_true hname
            exact ⟨m, .bound args, ⟨List.find?_cons_of_pos hm, hbind⟩, invoke_ok h⟩
          · rw [if_neg hname, ← hword] at h
            have hm : m.keyWord.isName (views.name dest.cls) = false := by
              rw [hword]
              exact decide_eq_false hname
            have hrest : (invokeStepFrom views page dest kwargs methods
                (if m.keyWord.startsWith "@" then alternatives ++ [m] else alternatives)).run nav =
                  (.ok true, nav') := by
              split at h
              · rw [if_pos ‹_›]
                exact h
              · rw [if_neg ‹_›]
                exact h
            obtain ⟨method, args, hfound, hinvoked⟩ := ih hrest
            exact ⟨method, args, hfound.cons hm, hinvoked⟩

/-- Every word that starts with `@href` starts with `@`. -/
theorem startsWith_at_of_href {keyWord : KeyWord C} (h : keyWord.startsWith "@href") :
    keyWord.startsWith "@" := by
  cases keyWord with
  | cls c => cases h
  | text word =>
      have hhref : "@href".toList <+: word.toList := List.isPrefixOf_iff_prefix.mp h
      have hat : "@".toList <+: "@href".toList := ⟨"href".toList, rfl⟩
      exact List.isPrefixOf_iff_prefix.mpr (hat.trans hhref)

/-- Among the alternatives are all methods declared by path. -/
theorem find?_href_filter (methods : List (Method C V)) :
    (methods.filter fun m => m.keyWord.startsWith "@").find?
        (fun m => m.keyWord.startsWith "@href") =
      methods.find? fun m => m.keyWord.startsWith "@href" := by
  rw [List.find?_filter]
  congr 1
  funext m
  by_cases hhref : m.keyWord.startsWith "@href"
  · simp [hhref, startsWith_at_of_href hhref]
  · simp [hhref]

theorem Found.chosen {page dest : Page C V} {method : Method C V} {args : Args V}
    (h : Found views kwargs dest (views.steps page.cls) [] method args) :
    Chosen views kwargs page dest method args := by
  cases args with
  | bound args => exact Chosen.byName h.1 h.2
  | path path =>
      have hfound := h.2.1
      rw [List.nil_append, find?_href_filter] at hfound
      exact Chosen.byHref h.1 hfound h.2.2

theorem invokeStep_ok {page dest : Page C V} {nav nav' : Navigator C V S}
    (h : (invokeStep views page dest kwargs).run nav = (.ok true, nav')) :
    ∃ method args, Chosen views kwargs page dest method args ∧
      Invoked page dest method args nav nav' := by
  obtain ⟨_, -, h⟩ := Prog.exists_of_lift_bind_ok h
  obtain ⟨method, args, hfound, hinvoked⟩ := invokeStepFrom_ok h
  exact ⟨method, args, hfound.chosen, hinvoked⟩

/-- The walk over the pages of the deque ends at its last page. -/
theorem performSteps_ok {pages : List (Page C V)} {page : Page C V} {nav nav' : Navigator C V S}
    (h : (performSteps views kwargs pages).run nav = (.ok page, nav')) :
    pages.getLast? = some page ∧
      ∃ events, Walks views kwargs pages events ∧ nav'.log = nav.log ++ events := by
  induction pages generalizing nav with
  | nil => cases h
  | cons first pages ih =>
      cases pages with
      | nil =>
          cases h
          exact ⟨rfl, [], Walks.arrived page, (List.append_nil _).symm⟩
      | cons dest chain =>
          rw [performSteps] at h
          obtain ⟨_, s, hchain, h⟩ := Prog.exists_of_bind_ok h
          cases hchain
          obtain ⟨_, t, hmembers, h⟩ := Prog.exists_of_bind_ok h
          obtain ⟨browser, -, rfl⟩ := Prog.exists_of_focus_ok hmembers
          obtain ⟨invoked, u, hstep, h⟩ := Prog.exists_of_bind_ok h
          cases invoked with
          | false => cases h
          | true =>
              obtain ⟨method, args, hchosen, hinvoked⟩ := invokeStep_ok hstep
              obtain ⟨_, v, hpost, h⟩ := Prog.exists_of_bind_ok h
              obtain ⟨-, hlog⟩ := act_ok hpost
              obtain ⟨hlast, events, hwalks, hevents⟩ := ih h
              refine ⟨?_, _, Walks.step hchosen hwalks, ?_⟩
              · rw [List.getLast?_cons_cons]
                exact hlast
              · rw [hevents, hlog, hinvoked.log]
                simp

/-! ## A whole navigation -/

/-- What earlier navigations left in the deque does not matter. -/
theorem navigate_leftover (cls : C) (pageChain : List (Page C V)) (nav : Navigator C V S)
    (h : refuse ["self", "cls"] kwargs = .ok ()) :
    (navigate views cls kwargs).run { nav with pageChain := pageChain } =
      (navigate views cls kwargs).run nav := by
  have hrefuse (nav : Navigator C V S) : (Prog.lift (refuse ["self", "cls"] kwargs)).run nav =
      (.ok (), nav) := by
    rw [Prog.lift_run, h]
  rw [navigate, Prog.bind_of_ok (hrefuse _), Prog.bind_of_ok (hrefuse _)]
  rfl

/-- A navigation that returns, on a navigator left in any state, returns the view that was asked
for. With the view displayed it only refreshes; otherwise it performs one step from each page down
from the nearest displayed one, runs `post_navigate` after each, and does nothing else. -/
theorem navigate_needed_steps (cls : C) (kwargs : List (String × V)) (nav nav' : Navigator C V S)
    (page : Page C V) (h : (navigate views cls kwargs).run nav = (.ok page, nav')) :
    page.cls = cls ∧ ∃ pages browser, Climbs views kwargs nav.browser cls pages browser ∧
      pages.head? = some page ∧ (pages.map Page.cls).Nodup ∧
      ((pages = [page] ∧ nav'.log = nav.log ++ [.refresh, .waitDisplayed page]) ∨
        (pages ≠ [page] ∧ ∃ events, Walks views kwargs pages.reverse events ∧
          nav'.log = nav.log ++ events)) := by
  obtain ⟨_, -, h⟩ := Prog.exists_of_lift_bind_ok h
  obtain ⟨_, t, hchain, h⟩ := Prog.exists_of_bind_ok h
  cases hchain
  obtain ⟨_, u, hback, h⟩ := Prog.exists_of_bind_ok h
  obtain ⟨pages, ⟨browser, hclimbs⟩, hpages, hlog⟩ := backtrace_ok cls hback
  obtain ⟨chain, v, hgets, h⟩ := Prog.exists_of_bind_ok h
  cases hgets
  obtain ⟨hlast, events, hwalks, hevents⟩ := performSteps_ok h
  rw [hpages, List.append_nil] at hlast hwalks
  obtain ⟨above, rfl⟩ := hclimbs.head
  rw [List.getLast?_reverse, List.head?_cons, Option.some.injEq] at hlast
  rw [← hlast]
  refine ⟨rfl, _, browser, hclimbs, rfl, hclimbs.nodup, ?_⟩
  cases above with
  | nil =>
      left
      cases hwalks
      exact ⟨rfl, by simpa using hevents.trans (congrArg (· ++ []) hlog)⟩
  | cons second above =>
      right
      refine ⟨by simp, events, hwalks, ?_⟩
      rw [hevents, hlog]
      simp

end

namespace AdminView

theorem backtrace_dashboard (log : List (Event AdminView String)) :
    (backtrace views dashboardView []).run ⟨[], baseAdminView, log⟩ =
      (.ok (), ⟨[⟨baseAdminView, []⟩, ⟨dashboardView, []⟩], baseAdminView, log⟩) := by
  rw [backtrace]
  show (backtrace views baseAdminView []).run
    ⟨[⟨dashboardView, []⟩], baseAdminView, log⟩ = _
  rw [backtrace]
  rfl

/-- The state that an interrupted navigation left, and the next navigation. -/
theorem navigate_dashboard :
    (navigate views dashboardView []).run ⟨[⟨dashboardView, []⟩], baseAdminView, []⟩ =
      (.ok ⟨dashboardView, []⟩, ⟨[⟨dashboardView, []⟩], dashboardView,
        [.step ⟨baseAdminView, []⟩ ⟨dashboardView, []⟩ ⟨"dashboard", .text "DashboardView", []⟩
            (.bound []),
          .postNavigate ⟨dashboardView, []⟩]⟩) := by
  rw [navigate, Prog.bind_of_ok rfl, Prog.bind_of_ok rfl]
  exact (Prog.bind_of_ok (backtrace_dashboard [])).trans rfl

end AdminView

theorem navigate_needed_steps_dashboard :
    ∃ pages browser, Climbs AdminView.views [] .baseAdminView .dashboardView pages browser ∧
      pages ≠ [⟨.dashboardView, []⟩] := by
  obtain ⟨-, pages, browser, hclimbs, -, -, hlog⟩ :=
    navigate_needed_steps AdminView.dashboardView [] _ _ _ AdminView.navigate_dashboard
  rcases hlog with ⟨-, hlog⟩ | ⟨hpages, -⟩
  · cases hlog
  · exact ⟨pages, browser, hclimbs, hpages⟩

end ThreescaleTests.Ui
