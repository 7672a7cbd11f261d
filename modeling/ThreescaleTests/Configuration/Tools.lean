import ThreescaleTests.Library.Exn
import ThreescaleTests.Library.Memo
import ThreescaleTests.Library.Strings

/-!
# Tools of the testing environment

The URL of a tool is looked up in several sources, one after the other. Those in the
cluster keep the URLs that they found; the cluster goes on changing.
-/

namespace ThreescaleTests.Configuration

open Library

/-! ## URLs of a project -/

/-- The hosts of the routes and the services of a project, as far as it answers. -/
structure Cluster where
  routeHost : String → Option String
  hasService : String → Bool

/-- `text.split(separator, 1)`, if the separator is there -/
def splitOnce (separator : Char) : List Char → Option (List Char × List Char)
  | [] => none
  | c :: text =>
      if c = separator then some ([], text)
      else (splitOnce separator text).map fun e => (c :: e.1, e.2)

def tr : List (String × String) :=
  [("echo_api", "mockserver+ssl"), ("httpbin", "go-httpbin+ssl"), ("httpbin_nossl", "go-httpbin"),
    ("httpbin_go", "go-httpbin+ssl"), ("httpbin_service", "go-httpbin+svc"),
    ("httpbin_go_service", "go-httpbin+svc"), ("jaeger", "jaeger-query")]

def url (cluster : Cluster) (name projectNamespace : String) : Except Exn String :=
  let translated := (tr.lookup name).getD name
  let parts := splitOnce '+' translated.toList
  let key := (parts.map fun e => String.ofList e.1).getD translated
  let option := (parts.map fun e => e.2).getD []
  if "svc".toList <+: option then
    let port := ((splitOnce ':' option).map fun e => String.ofList e.2).getD "8080"
    if cluster.hasService key then
      .ok ("http://" ++ key ++ "." ++ projectNamespace ++ ".svc:" ++ port)
    else .error (.other "OpenShiftPythonException")
  else
    match cluster.routeHost key with
    | some hostname =>
        .ok (if option = "ssl".toList then "https://" ++ hostname ++ ":443"
          else "http://" ++ hostname ++ ":80")
    | none => .error (.keyError "")

/-! ## Sources -/

variable {W : Type}

/-- A project in worlds of `W`, with its client if there is one. -/
structure OpenshiftProject (W : Type) where
  projectNamespace : String
  oc : Option (W → Cluster)

def OpenshiftProject.fetch (project : OpenshiftProject W) (w : W) (name : String) :
    Option String :=
  project.oc.bind fun oc => (url (oc w) name project.projectNamespace).toOption

/-- `OpenshiftProject.__getitem__`, with the cache -/
def OpenshiftProject.getItem (project : OpenshiftProject W) (w : W) (name : String)
    (cache : Dict String String) : Except Exn (Option String) × Dict String String :=
  match project.oc with
  | none => (.error (.keyError name), cache)
  | some _ =>
      match Memo.get (project.fetch w) name cache with
      | (some value, cache) => (.ok (some value), cache)
      | (none, cache) => (.error (.keyError name), cache)

/-- What the settings hold, where `None` is a value. -/
structure Settings where
  rhssoUrl : Except Exn (Option String)
  backend : String → Except Exn (Option String)

/-- `name.replace("+", "_plus_").replace(":", "_port_")` -/
def environmentName (name : String) : String :=
  replace ":" "_port_" (replace "+" "_plus_" name)

def Settings.getItem (settings : Settings) (name : String) : Except Exn (Option String) :=
  if name ∈ ["no-ssl-sso", "no-ssl-rhbk", "ssl-rhbk+ssl"] then settings.rhssoUrl
  else
    match settings.backend name with
    | .ok value => .ok value
    | .error (.keyError key) =>
        if '+' ∈ name.toList ∨ ':' ∈ name.toList then
          match settings.backend (environmentName name) with
          | .ok value => .ok value
          | .error (.keyError _) => .error (.keyError key)
          | .error e => .error e
        else .error (.keyError key)
    | .error e => .error e

inductive Source (W : Type) where
  | settings (s : Settings)
  | rhoam (project : OpenshiftProject W)
  | openshiftProject (project : OpenshiftProject W)

def Source.project : Source W → Option (OpenshiftProject W)
  | .settings _ => none
  | .rhoam project => some project
  | .openshiftProject project => some project

def rhoamNames : List String := ["no-ssl-sso", "no-ssl-rhbk"]

/-- `source[name]`, with the cache of the source -/
def Source.getItem (w : W) (name : String) (cache : Dict String String) :
    Source W → Except Exn (Option String) × Dict String String
  | .settings s => (s.getItem name, cache)
  | .rhoam project =>
      if name ∈ rhoamNames then project.getItem w "keycloak+ssl" cache
      else (.error (.keyError name), cache)
  | .openshiftProject project => project.getItem w name cache

/-! ## Tools -/

/-- The sources in their order, each with its cache. -/
abbrev Tools (W : Type) := List (Source W × Dict String String)

def Tools.init (sources : List (Source W)) : Tools W := sources.map fun source => (source, .empty)

def Tools.getItem (w : W) (name : String) : Tools W → Except Exn String × Tools W
  | [] => (.error (.keyError name), [])
  | (source, cache) :: tools =>
      match source.getItem w name cache with
      | (.ok (some value), cache) => (.ok value, (source, cache) :: tools)
      | (_, cache) =>
          let (r, tools) := Tools.getItem w name tools
          (r, (source, cache) :: tools)

/-- The tools after lookups, each in a world of its own. -/
def Tools.after (lookups : List (W × String)) (tools : Tools W) : Tools W :=
  lookups.foldl (fun tools lookup => (tools.getItem lookup.1 lookup.2).2) tools

/-! ## Answers of a source -/

/-- What the source gives for the name, with its cache. -/
def Source.value (w : W) (name : String) (e : Source W × Dict String String) : Option String :=
  (e.1.getItem w name e.2).1.toOption.join

def Source.next (w : W) (name : String) (e : Source W × Dict String String) :
    Source W × Dict String String :=
  (e.1, (e.1.getItem w name e.2).2)

/-- What the source would give if it kept nothing. -/
def Source.plain (w : W) (name : String) (source : Source W) : Option String :=
  Source.value w name (source, .empty)

/-- A project without a client finds nothing. -/
theorem OpenshiftProject.getItem_of_none {project : OpenshiftProject W} (h : project.oc = none)
    (w : W) (name : String) (cache : Dict String String) :
    project.getItem w name cache = (.error (.keyError name), cache) := by
  simp only [OpenshiftProject.getItem, h]

theorem OpenshiftProject.getItem_of_some {project : OpenshiftProject W} {oc : W → Cluster}
    (h : project.oc = some oc) (w : W) (name : String) (cache : Dict String String) :
    (project.getItem w name cache).1.toOption.join = (Memo.get (project.fetch w) name cache).1 ∧
      (project.getItem w name cache).2 = (Memo.get (project.fetch w) name cache).2 := by
  simp only [OpenshiftProject.getItem, h]
  cases hget : Memo.get (project.fetch w) name cache with
  | mk value cache' => cases value <;> exact ⟨rfl, rfl⟩

/-- How a source answers: always the same, never, or as a project does that it asks for a key. -/
inductive Source.Answers (name : String) : Source W → Prop where
  | fixed {source : Source W} (value : Option String)
      (h : ∀ w cache, Source.value w name (source, cache) = value)
      (hnext : ∀ w cache, Source.next w name (source, cache) = (source, cache)) :
      Source.Answers name source
  | kept {source : Source W} (project : OpenshiftProject W) (key : String)
      (hproject : source.project = some project)
      (h : ∀ w cache, Source.value w name (source, cache) =
        (Memo.get (project.fetch w) key cache).1)
      (hnext : ∀ w cache, Source.next w name (source, cache) =
        (source, (Memo.get (project.fetch w) key cache).2)) : Source.Answers name source

theorem Source.answers (name : String) (source : Source W) : Source.Answers name source := by
  cases source with
  | settings s => exact .fixed (s.getItem name).toOption.join (fun _ _ => rfl) fun _ _ => rfl
  | rhoam project =>
      by_cases hname : name ∈ rhoamNames
      · cases hoc : project.oc with
        | none =>
            refine .fixed none (fun w cache => ?_) fun w cache => ?_
            · simp only [Source.value, Source.getItem, if_pos hname,
                OpenshiftProject.getItem_of_none hoc]
              rfl
            · simp only [Source.next, Source.getItem, if_pos hname,
                OpenshiftProject.getItem_of_none hoc]
        | some oc =>
            refine .kept project "keycloak+ssl" rfl (fun w cache => ?_) fun w cache => ?_
            · simp only [Source.value, Source.getItem, if_pos hname]
              exact (OpenshiftProject.getItem_of_some hoc w _ cache).1
            · simp only [Source.next, Source.getItem, if_pos hname,
                (OpenshiftProject.getItem_of_some hoc w _ cache).2]
      · refine .fixed none (fun w cache => ?_) fun w cache => ?_
        · simp only [Source.value, Source.getItem, if_neg hname]
          rfl
        · simp only [Source.next, Source.getItem, if_neg hname]
  | openshiftProject project =>
      cases hoc : project.oc with
      | none =>
          refine .fixed none (fun w cache => ?_) fun w cache => ?_
          · simp only [Source.value, Source.getItem, OpenshiftProject.getItem_of_none hoc]
            rfl
          · simp only [Source.next, Source.getItem, OpenshiftProject.getItem_of_none hoc]
      | some oc =>
          refine .kept project name rfl (fun w cache => ?_) fun w cache => ?_
          · exact (OpenshiftProject.getItem_of_some hoc w name cache).1
          · simp only [Source.next, Source.getItem,
              (OpenshiftProject.getItem_of_some hoc w name cache).2]

theorem Source.next_extends (w : W) (name : String) (e : Source W × Dict String String) :
    Memo.Extends e.2 (Source.next w name e).2 := by
  obtain ⟨source, cache⟩ := e
  cases Source.answers name source with
  | fixed value h hnext => rw [hnext]; exact Memo.Extends.refl cache
  | kept project key hproject h hnext => rw [hnext]; exact Memo.get_extends

/-- The source will give the value for the name, whatever it keeps more. -/
def Source.Holds (name value : String) (e : Source W × Dict String String) : Prop :=
  ∀ cache, Memo.Extends e.2 cache → ∀ w, Source.value w name (e.1, cache) = some value

theorem Source.holds_next {w : W} {name value : String} {e : Source W × Dict String String}
    (hvalue : Source.value w name e = some value) :
    Source.Holds name value (Source.next w name e) := by
  obtain ⟨source, cache⟩ := e
  intro cache' hextends w'
  cases Source.answers name source with
  | fixed v h hnext =>
      rw [h] at hvalue
      exact (h w' cache').trans hvalue
  | kept project key hproject h hnext =>
      rw [h] at hvalue
      rw [hnext] at hextends
      have hkept := hextends key value (Memo.kept_of_get hvalue)
      exact (h w' cache').trans (by rw [Memo.get_of_kept hkept])

theorem Source.Holds.next {name value : String} {e : Source W × Dict String String}
    (h : Source.Holds name value e) (w : W) (name' : String) :
    Source.Holds name value (Source.next w name' e) :=
  fun cache hextends => h cache ((Source.next_extends w name' e).trans hextends)

theorem Source.Holds.value {name value : String} {e : Source W × Dict String String}
    (h : Source.Holds name value e) (w : W) : Source.value w name e = some value :=
  h e.2 (Memo.Extends.refl e.2) w

/-! ## Answers of the tools -/

/-- The place of the first source that answers. -/
def Tools.foundAt (w : W) (name : String) (tools : Tools W) : Option Nat :=
  tools.findIdx? fun e => (Source.value w name e).isSome

section

variable {w : W} {name : String} {e : Source W × Dict String String} {tools : Tools W}

theorem Tools.getItem_cons_of_some {value : String} (h : Source.value w name e = some value) :
    Tools.getItem w name (e :: tools) = (.ok value, Source.next w name e :: tools) := by
  obtain ⟨source, cache⟩ := e
  unfold Source.value at h
  cases hget : source.getItem w name cache with
  | mk r cache' =>
      rw [hget] at h
      match r, h with
      | .ok (some _), rfl => simp only [Tools.getItem, Source.next, hget]

theorem Tools.getItem_cons_of_none (h : Source.value w name e = none) :
    Tools.getItem w name (e :: tools) =
      ((Tools.getItem w name tools).1, Source.next w name e :: (Tools.getItem w name tools).2) := by
  obtain ⟨source, cache⟩ := e
  unfold Source.value at h
  cases hget : source.getItem w name cache with
  | mk r cache' =>
      rw [hget] at h
      match r, h with
      | .error e, _ => simp only [Tools.getItem, Source.next, hget]
      | .ok none, _ => simp only [Tools.getItem, Source.next, hget]

theorem Tools.foundAt_cons_of_some {value : String} (h : Source.value w name e = some value) :
    Tools.foundAt w name (e :: tools) = some 0 := by
  simp [Tools.foundAt, List.findIdx?_cons, h]

theorem Tools.foundAt_cons_of_none (h : Source.value w name e = none) :
    Tools.foundAt w name (e :: tools) = (Tools.foundAt w name tools).map (· + 1) := by
  simp [Tools.foundAt, List.findIdx?_cons, h]

end

/-- The source at the place will give the value for the name. -/
def Tools.HoldsAt (name value : String) : Nat → Tools W → Prop
  | _, [] => False
  | 0, e :: _ => Source.Holds name value e
  | i + 1, _ :: tools => Tools.HoldsAt name value i tools

section

variable {w : W} {name value : String} {i : Nat} {tools : Tools W}

theorem Tools.holdsAt_of_found (hvalue : (tools.getItem w name).1 = .ok value)
    (hfound : tools.foundAt w name = some i) : (tools.getItem w name).2.HoldsAt name value i := by
  induction tools generalizing i with
  | nil => cases hfound
  | cons e tools ih =>
      cases hfirst : Source.value w name e with
      | some v =>
          rw [getItem_cons_of_some hfirst] at hvalue ⊢
          rw [foundAt_cons_of_some hfirst] at hfound
          cases hvalue
          cases hfound
          exact Source.holds_next hfirst
      | none =>
          rw [getItem_cons_of_none hfirst] at hvalue ⊢
          rw [foundAt_cons_of_none hfirst, Option.map_eq_some_iff] at hfound
          obtain ⟨i', hfound', rfl⟩ := hfound
          exact ih hvalue hfound'

theorem Tools.HoldsAt.step (h : tools.HoldsAt name value i) (w : W) (name' : String) :
    (tools.getItem w name').2.HoldsAt name value i := by
  induction tools generalizing i with
  | nil => exact h
  | cons e tools ih =>
      cases hfirst : Source.value w name' e with
      | some v =>
          rw [getItem_cons_of_some hfirst]
          cases i with
          | zero => exact Source.Holds.next h w name'
          | succ i => exact h
      | none =>
          rw [getItem_cons_of_none hfirst]
          cases i with
          | zero => exact Source.Holds.next h w name'
          | succ i => exact ih h

theorem Tools.HoldsAt.after (h : tools.HoldsAt name value i) (lookups : List (W × String)) :
    (tools.after lookups).HoldsAt name value i := by
  induction lookups generalizing tools with
  | nil => exact h
  | cons lookup lookups ih => exact ih (h.step lookup.1 lookup.2)

/-- A value that is held is given, unless an earlier source gives one. -/
theorem Tools.HoldsAt.answer (h : tools.HoldsAt name value i) (w : W) :
    ∃ value' i', (tools.getItem w name).1 = .ok value' ∧ tools.foundAt w name = some i' ∧
      i' ≤ i ∧ (i' = i → value' = value) := by
  induction tools generalizing i with
  | nil => cases i <;> exact False.elim h
  | cons e tools ih =>
      cases hfirst : Source.value w name e with
      | some v =>
          refine ⟨v, 0, by rw [getItem_cons_of_some hfirst], foundAt_cons_of_some hfirst,
            Nat.zero_le i, ?_⟩
          rintro rfl
          rw [Source.Holds.value h w] at hfirst
          exact (Option.some.inj hfirst).symm
      | none =>
          cases i with
          | zero =>
              rw [Source.Holds.value h w] at hfirst
              cases hfirst
          | succ i =>
              obtain ⟨value', i', hvalue, hfound, hle, heq⟩ := ih h
              refine ⟨value', i' + 1, ?_, ?_, Nat.succ_le_succ hle, ?_⟩
              · rw [getItem_cons_of_none hfirst]
                exact hvalue
              · rw [foundAt_cons_of_none hfirst, hfound]
                rfl
              · exact fun hi => heq (Nat.succ.inj hi)

/-- Once a name was answered it always is, in whatever way the cluster changes and whatever else is
looked up: with the same value, or by an earlier source. -/
theorem Tools.answer_persists (tools : Tools W) (w : W) (name value : String) (i : Nat)
    (hvalue : (tools.getItem w name).1 = .ok value) (hfound : tools.foundAt w name = some i)
    (lookups : List (W × String)) (w' : W) :
    let later := (tools.getItem w name).2.after lookups
    ∃ value' i', (later.getItem w' name).1 = .ok value' ∧ later.foundAt w' name = some i' ∧
      i' ≤ i ∧ (i' = i → value' = value) :=
  ((Tools.holdsAt_of_found hvalue hfound).after lookups).answer w'

end

/-- A project whose route is there in one of two worlds. -/
def exampleProject : OpenshiftProject Bool where
  projectNamespace := "tools"
  oc := some fun exposed =>
    { routeHost := fun name =>
        if exposed ∧ name = "go-httpbin" then some "httpbin.tools" else none
      hasService := fun _ => false }

def exampleSources : List (Source Bool) :=
  [.settings
      { rhssoUrl := .error (.keyError "url"), backend := fun name => .error (.keyError name) },
    .openshiftProject exampleProject]

theorem Tools.answer_persists_without_route :
    let later := ((Tools.init exampleSources).getItem true "httpbin").2.after [(false, "jaeger")]
    ∃ value' i', (later.getItem false "httpbin").1 = .ok value' ∧
      later.foundAt false "httpbin" = some i' ∧ i' ≤ 1 ∧
        (i' = 1 → value' = "https://httpbin.tools:443") :=
  Tools.answer_persists (Tools.init exampleSources) true "httpbin" "https://httpbin.tools:443" 1
    (by decide +kernel) (by decide +kernel) [(false, "jaeger")] false

/-! ## Where answers come from -/

/-- All that the source keeps was found in one of the worlds. -/
def Source.Sound (worlds : List W) (e : Source W × Dict String String) : Prop :=
  ∀ project, e.1.project = some project → ∀ key value, e.2.get? key = some value →
    ∃ w ∈ worlds, project.fetch w key = some value

section

variable {worlds : List W} {w : W} {name value : String} {e : Source W × Dict String String}

theorem Source.Sound.next (h : Source.Sound worlds e) (w : W) (name : String) :
    Source.Sound (w :: worlds) (Source.next w name e) := by
  obtain ⟨source, cache⟩ := e
  intro project' hproject' key' value' hkept
  have earlier : cache.get? key' = some value' →
      ∃ w' ∈ w :: worlds, project'.fetch w' key' = some value' := by
    intro hcache
    obtain ⟨w', hw', hfetch⟩ := h project' hproject' key' value' hcache
    exact ⟨w', List.mem_cons_of_mem _ hw', hfetch⟩
  cases Source.answers name source with
  | fixed v h hnext =>
      rw [hnext] at hkept
      exact earlier hkept
  | kept project key hproject h hnext =>
      rw [hnext] at hkept
      rcases Memo.get_cases hkept with hcache | ⟨rfl, hfetch⟩
      · exact earlier hcache
      · cases hproject.symm.trans hproject'
        exact ⟨w, List.mem_cons_self, hfetch⟩

theorem Source.Sound.mono {worlds' : List W} (h : Source.Sound worlds e)
    (hsubset : worlds ⊆ worlds') : Source.Sound worlds' e := by
  intro project hproject key value hkept
  obtain ⟨w, hw, hfetch⟩ := h project hproject key value hkept
  exact ⟨w, hsubset hw, hfetch⟩

/-- What is given is found now or was found in one of the worlds. -/
theorem Source.Sound.plain_of_value (h : Source.Sound worlds e)
    (hvalue : Source.value w name e = some value) :
    ∃ w' ∈ w :: worlds, e.1.plain w' name = some value := by
  obtain ⟨source, cache⟩ := e
  cases Source.answers name source with
  | fixed v hfixed hnext =>
      rw [hfixed] at hvalue
      exact ⟨w, List.mem_cons_self, (hfixed w .empty).trans hvalue⟩
  | kept project key hproject hkept hnext =>
      have hplain (w' : W) : source.plain w' name = project.fetch w' key := by
        rw [Source.plain, hkept, Memo.get_fst]
        rfl
      rw [hkept, Memo.get_fst] at hvalue
      cases hcache : cache.get? key with
      | some v =>
          rw [hcache] at hvalue
          cases hvalue
          obtain ⟨w', hw', hfetch⟩ := h project hproject key value hcache
          exact ⟨w', List.mem_cons_of_mem _ hw', (hplain w').trans hfetch⟩
      | none =>
          rw [hcache] at hvalue
          exact ⟨w, List.mem_cons_self, (hplain w).trans hvalue⟩

/-- A source that is given nothing would find nothing. -/
theorem Source.plain_eq_none (h : Source.value w name e = none) : e.1.plain w name = none := by
  obtain ⟨source, cache⟩ := e
  cases Source.answers name source with
  | fixed v hfixed hnext => exact (hfixed w .empty).trans ((hfixed w cache).symm.trans h)
  | kept project key hproject hkept hnext =>
      rw [hkept, Memo.get_fst, Option.or_eq_none_iff] at h
      rw [Source.plain, hkept, Memo.get_fst]
      exact h.2

end

/-- All sources are sound. -/
def Tools.Sound (worlds : List W) (tools : Tools W) : Prop :=
  ∀ e ∈ tools, Source.Sound worlds e

section

variable {worlds : List W} {tools : Tools W} {w : W} {name value : String}

theorem Tools.sound_init (sources : List (Source W)) : (Tools.init sources).Sound [] := by
  intro e he project _ key value hkept
  obtain ⟨source, -, rfl⟩ := List.mem_map.mp he
  cases hkept

theorem Tools.Sound.step (h : tools.Sound worlds) (w : W) (name : String) :
    (tools.getItem w name).2.Sound (w :: worlds) := by
  induction tools with
  | nil => exact List.forall_mem_nil _
  | cons e tools ih =>
      have hfirst := Source.Sound.next (h e List.mem_cons_self) w name
      have hrest : Tools.Sound worlds tools := fun e he => h e (List.mem_cons_of_mem _ he)
      cases hvalue : Source.value w name e with
      | some v =>
          rw [getItem_cons_of_some hvalue]
          exact List.forall_mem_cons.mpr
            ⟨hfirst, fun e he => (hrest e he).mono (List.subset_cons_self _ _)⟩
      | none =>
          rw [getItem_cons_of_none hvalue]
          exact List.forall_mem_cons.mpr ⟨hfirst, ih hrest⟩

theorem Tools.sources_getItem (tools : Tools W) (w : W) (name : String) :
    (tools.getItem w name).2.map Prod.fst = tools.map Prod.fst := by
  induction tools with
  | nil => rfl
  | cons e tools ih =>
      cases hvalue : Source.value w name e with
      | some v =>
          rw [getItem_cons_of_some hvalue]
          rfl
      | none =>
          rw [getItem_cons_of_none hvalue, List.map_cons, List.map_cons, ih]
          rfl

/-- The first source that answers, and that no earlier one would. -/
theorem Tools.Sound.answer (h : tools.Sound worlds)
    (hvalue : (tools.getItem w name).1 = .ok value) :
    ∃ earlier source later, tools.map Prod.fst = earlier ++ source :: later ∧
      (∀ source' ∈ earlier, source'.plain w name = none) ∧
        ∃ w' ∈ w :: worlds, source.plain w' name = some value := by
  induction tools with
  | nil => cases hvalue
  | cons e tools ih =>
      cases hfirst : Source.value w name e with
      | some v =>
          rw [getItem_cons_of_some hfirst] at hvalue
          cases hvalue
          exact ⟨[], e.1, tools.map Prod.fst, rfl, List.forall_mem_nil _,
            (h e List.mem_cons_self).plain_of_value hfirst⟩
      | none =>
          rw [getItem_cons_of_none hfirst] at hvalue
          obtain ⟨earlier, source, later, heq, hnone, hfound⟩ :=
            ih (fun e he => h e (List.mem_cons_of_mem _ he)) hvalue
          refine ⟨e.1 :: earlier, source, later, by rw [List.map_cons, heq, List.cons_append],
            List.forall_mem_cons.mpr ⟨Source.plain_eq_none hfirst, hnone⟩, hfound⟩

theorem Tools.sound_after (h : tools.Sound worlds) (lookups : List (W × String)) :
    (tools.after lookups).Sound ((lookups.map Prod.fst).reverse ++ worlds) := by
  induction lookups generalizing tools worlds with
  | nil => exact h
  | cons lookup lookups ih =>
      rw [List.map_cons, List.reverse_cons, List.append_assoc]
      exact ih (h.step lookup.1 lookup.2)

theorem Tools.sources_after (tools : Tools W) (lookups : List (W × String)) :
    (tools.after lookups).map Prod.fst = tools.map Prod.fst := by
  induction lookups generalizing tools with
  | nil => rfl
  | cons lookup lookups ih => exact (ih _).trans (tools.sources_getItem lookup.1 lookup.2)

/-- An answer is what a source finds now or found in the world of an earlier lookup, and now no
source before it would find anything. -/
theorem Tools.answer_found (sources : List (Source W)) (lookups : List (W × String)) (w : W)
    (name value : String)
    (hvalue : (((Tools.init sources).after lookups).getItem w name).1 = .ok value) :
    ∃ earlier source later, sources = earlier ++ source :: later ∧
      (∀ source' ∈ earlier, source'.plain w name = none) ∧
        ∃ w' ∈ w :: lookups.map Prod.fst, source.plain w' name = some value := by
  have hsound := sound_after (sound_init sources) lookups
  obtain ⟨earlier, source, later, heq, hnone, w', hw', hfound⟩ := hsound.answer hvalue
  rw [sources_after, init, List.map_map] at heq
  refine ⟨earlier, source, later, ?_, hnone, w', ?_, hfound⟩
  · rw [← heq]
    exact (List.map_id sources).symm
  · rw [List.append_nil] at hw'
    simpa only [List.mem_cons, List.mem_reverse] using hw'

theorem Tools.answer_found_without_route :
    ∃ earlier source later, exampleSources = earlier ++ source :: later ∧
      (∀ source' ∈ earlier, source'.plain false "httpbin" = none) ∧
        ∃ w' ∈ [false, true], source.plain w' "httpbin" = some "https://httpbin.tools:443" :=
  Tools.answer_found exampleSources [(true, "httpbin")] false "httpbin" "https://httpbin.tools:443"
    (by decide +kernel)

/-! ## Nothing changes -/

theorem Source.Sound.value_eq_plain {e : Source W × Dict String String}
    (h : Source.Sound worlds e) (hsteady : ∀ w' ∈ worlds, w' = w) :
    Source.value w name e = e.1.plain w name := by
  cases hvalue : Source.value w name e with
  | none => exact (Source.plain_eq_none hvalue).symm
  | some value =>
      obtain ⟨w', hw', hplain⟩ := h.plain_of_value hvalue
      rcases List.mem_cons.mp hw' with rfl | hw'
      · exact hplain.symm
      · rw [← hsteady w' hw', hplain]

/-- The tools answer as the first source that gives a value. -/
theorem Tools.getItem_fst (tools : Tools W) (w : W) (name : String) :
    (tools.getItem w name).1 =
      match tools.findSome? (Source.value w name) with
      | some value => .ok value
      | none => .error (.keyError name) := by
  induction tools with
  | nil => rfl
  | cons e tools ih =>
      cases hfirst : Source.value w name e with
      | some value =>
          rw [getItem_cons_of_some hfirst, List.findSome?_cons_of_isSome (by simp [hfirst]), hfirst]
      | none =>
          rw [getItem_cons_of_none hfirst, List.findSome?_cons_of_isNone (by simp [hfirst])]
          exact ih

theorem Tools.Sound.findSome?_value (h : tools.Sound worlds) (hsteady : ∀ w' ∈ worlds, w' = w) :
    tools.findSome? (Source.value w name) =
      (tools.map Prod.fst).findSome? (Source.plain w name) := by
  induction tools with
  | nil => rfl
  | cons e tools ih =>
      rw [List.map_cons, List.findSome?_cons, List.findSome?_cons,
        (h e List.mem_cons_self).value_eq_plain hsteady,
        ih fun e he => h e (List.mem_cons_of_mem _ he)]

/-- As long as the cluster does not change, the tools answer as if they kept nothing. -/
theorem Tools.getItem_of_steady (sources : List (Source W)) (names : List String) (w : W)
    (name : String) :
    (((Tools.init sources).after (names.map fun name => (w, name))).getItem w name).1 =
      ((Tools.init sources).getItem w name).1 := by
  have hsound := sound_after (sound_init sources) (names.map fun name => (w, name))
  rw [getItem_fst, getItem_fst, hsound.findSome?_value (w := w) ?_, sources_after,
    (sound_init sources).findSome?_value (w := w) nofun]
  intro w' hw'
  rw [List.append_nil, List.mem_reverse, List.mem_map] at hw'
  obtain ⟨lookup, hlookup, rfl⟩ := hw'
  obtain ⟨name', -, rfl⟩ := List.mem_map.mp hlookup
  rfl

end

end ThreescaleTests.Configuration
