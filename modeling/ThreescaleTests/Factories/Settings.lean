import ThreescaleTests.Factories.Course
import ThreescaleTests.Library.Renaming

/-!
# What happens to the settings a caller passes

`custom_service` copies `params` before the hooks see them, but not what `params` holds, and
passes `proxy_params` on as they are. The requests of a call depend on what the two dictionaries
look like only, so a call is independent of earlier ones as long as the hooks of those left what
the caller holds as it was.
-/

namespace ThreescaleTests.Factories

open Library

def ServiceArgs.refs (c : ServiceArgs) : List Loc := c.params :: c.proxyParams.toList

/-! ## Two memories that look the same -/

section

variable {f : Loc → Loc} {D : Set Loc} {m m' : Memory} (cfg : Testconfig)

theorem read_parallel (h : Renames f D m m') {v : Val Loc} (hv : ∀ r ∈ v.refs, r ∈ D) :
    Parallel Renames SameValue f D ((read v).run m) ((read (v.map f)).run m') := by
  have hcontents := h.contents_eq recursionLimit hv
  unfold read
  dsimp only
  rw [hcontents]
  cases m.contents recursionLimit v with
  | none => exact Parallel.of_outcome h (.error rfl)
  | some j => exact Parallel.of_outcome h (.ok rfl)

theorem read_ref_parallel (h : Renames f D m m') {l : Loc} (hl : l ∈ D) :
    Parallel Renames SameValue f D ((read (.ref l)).run m) ((read (.ref (f l))).run m') :=
  read_parallel h fun _ hr => List.mem_singleton.mp hr ▸ hl

theorem description_parallel (h : Renames f D m m') {d : Dict String (Val Loc)}
    (hd : ∀ r ∈ (Cell.dict d).refs, r ∈ D) :
    Parallel Renames SameValue f D ((description d).run m)
      ((description (d.mapValues (Val.map f))).run m') := by
  unfold description
  rw [Dict.get?_mapValues]
  cases hget : d.get? "description" with
  | none => exact Parallel.pure h rfl
  | some v =>
      have hmem : v ∈ (Cell.dict d).vals :=
        List.mem_map_of_mem (f := Prod.snd) (Dict.get?_eq_some_iff.mp hget)
      have hv : ∀ r ∈ v.refs, r ∈ D := fun r hr => hd r (List.mem_flatMap.mpr ⟨v, hmem, hr⟩)
      refine (read_parallel h hv).bind fun g E j j' t t' _ hstates hj => ?_
      rw [hj]
      exact Parallel.pure hstates rfl

theorem annotate_parallel (h : Renames f D m m') {l : Loc} (hl : l ∈ D) :
    Parallel Renames SameValue f D ((annotate cfg l).run m) ((annotate cfg (f l)).run m') := by
  refine (Parallel.get h hl).bind fun g E c c' t t' hprolongs hstates hcells => ?_
  obtain ⟨hrefs, rfl⟩ := hcells
  have hl' : l ∈ E := hprolongs.subset hl
  rw [← hprolongs.eqOn hl]
  cases c with
  | list vs => exact Parallel.raise hstates _
  | dict d =>
      refine (description_parallel hstates hrefs).bind ?_
      intro g' E' text text' u u' hprolongs' hstates' htext
      rw [htext, ← hprolongs'.eqOn hl']
      have hcell : Cell.dict ((d.mapValues (Val.map g)).set "description"
          (.plain (cfg.blameDesc text))) =
            (Cell.dict (d.set "description" (.plain (cfg.blameDesc text)))).map g' := by
        have hsame : (Cell.dict d).map g = (Cell.dict d).map g' :=
          Cell.map_congr fun r hr => (hprolongs'.eqOn (hrefs r hr)).symm
        rw [Cell.map, Cell.map, Cell.dict.injEq] at hsame
        rw [Cell.map, Dict.mapValues_set, hsame]
        rfl
      rw [hcell]
      refine Parallel.put hstates' (hprolongs'.subset hl') fun r hr => ?_
      rw [Cell.mem_refs] at hr
      obtain ⟨e, he, heq⟩ := List.mem_map.mp hr
      rcases Dict.mem_setEntry he with rfl | hold
      · cases heq
      · refine hprolongs'.subset (hrefs r (Cell.mem_refs.mpr ?_))
        exact heq ▸ List.mem_map_of_mem hold

theorem preparedParams_parallel (before : List Code) (annotated : Bool) (h : Renames f D m m')
    {l : Loc} (hl : l ∈ D) :
    Parallel Renames SameObject f D ((preparedParams cfg before annotated l).run m)
      ((preparedParams cfg before annotated (f l)).run m') := by
  refine (Parallel.copy h hl).bind fun g E l₁ l₂ t t' _ hstates hobjects => ?_
  obtain ⟨hl₁, rfl⟩ := hobjects
  refine (Code.callAll_parallel before hstates hl₁).bind ?_
  intro g' E' l₁ l₂ u u' _ hstates' hobjects'
  obtain ⟨hl₁, rfl⟩ := hobjects'
  cases annotated with
  | false => exact Parallel.pure hstates' ⟨hl₁, rfl⟩
  | true =>
      refine (annotate_parallel cfg hstates' hl₁).bind ?_
      intro g'' E'' _ _ v v' hprolongs hstates'' _
      exact Parallel.pure hstates'' ⟨hprolongs.subset hl₁, (hprolongs.eqOn hl₁).symm⟩

theorem serviceParams_parallel (c : ServiceArgs) (h : Renames f D m m') (hl : c.params ∈ D)
    (hfixed : f c.params = c.params) :
    Parallel Renames SameValue f D ((serviceParams cfg c).run m)
      ((serviceParams cfg c).run m') := by
  have hprepared := preparedParams_parallel cfg (selectHooks Hook.beforeService c.hooks)
    c.annotated h hl
  rw [hfixed] at hprepared
  refine hprepared.bind fun g E l l' t t' _ hstates hobjects => ?_
  obtain ⟨hl, rfl⟩ := hobjects
  exact read_ref_parallel hstates hl

theorem givenOrEmpty_parallel (proxyParams : Option Loc) (h : Renames f D m m')
    (hproxy : ∀ l ∈ proxyParams, l ∈ D ∧ f l = l) :
    Parallel Renames SameObject f D ((givenOrEmpty proxyParams).run m)
      ((givenOrEmpty proxyParams).run m') := by
  have hempty {g : Loc → Loc} {E : Set Loc} {t t' : Memory} (hstates : Renames g E t t') :
      Parallel Renames SameObject g E ((Memory.new (.dict .empty)).run t)
        ((Memory.new (.dict .empty)).run t') :=
    Parallel.new hstates (c := .dict .empty) nofun
  cases proxyParams with
  | none => exact hempty h
  | some l =>
      obtain ⟨hl, hfixed⟩ := hproxy l rfl
      have hget := Parallel.get h hl
      rw [hfixed] at hget
      refine hget.bind fun g E c c' t t' hprolongs hstates hcells => ?_
      rw [hcells.2, Cell.isEmpty_map]
      split
      · exact hempty hstates
      · refine Parallel.pure hstates ⟨hprolongs.subset hl, ?_⟩
        rw [hprolongs.eqOn hl, hfixed]

theorem proxyParams_parallel (hooks : List Hook) (svc : Obj) (h : Renames f D m m') {l : Loc}
    (hl : l ∈ D) :
    Parallel Renames SameValue f D ((proxyParams hooks svc l).run m)
      ((proxyParams hooks svc (f l)).run m') := by
  refine (Code.callAll_parallel (proxyHooks hooks svc) h hl).bind ?_
  intro g E l₁ l₂ t t' _ hstates hobjects
  obtain ⟨hl₁, rfl⟩ := hobjects
  refine (Parallel.get hstates hl₁).bind fun g' E' c c' u u' hprolongs hstates' hcells => ?_
  rw [hcells.2, Cell.isEmpty_map, ← hprolongs.eqOn hl₁]
  split
  · exact Parallel.pure hstates' rfl
  · refine (read_ref_parallel hstates' (hprolongs.subset hl₁)).bind ?_
    intro g'' E'' d d' v v' _ hstates'' hd
    rw [hd]
    exact Parallel.pure hstates'' rfl

end

/-! ## Two worlds -/

/-- Memories that look the same, and the same requests since some time. -/
structure Twins (before before' : List Request) (f : Loc → Loc) (D : Set Loc) (w w' : World) :
    Prop where
  memory : Renames f D w.memory w'.memory
  sent : ∃ new, w.sent = before ++ new ∧ w'.sent = before' ++ new

section

variable {before before' : List Request} {f : Loc → Loc} {D : Set Loc} {w w' : World}
  {α : Type} {V : Renamed α} (remote : Remote)

theorem onMemory_parallel {p p' : Prog Memory α} (h : Twins before before' f D w w')
    (hp : Parallel Renames V f D (p.run w.memory) (p'.run w'.memory)) :
    Parallel (Twins before before') V f D ((onMemory p).run w) ((onMemory p').run w') := by
  obtain ⟨g, E, hprolongs, hstates, houtcome⟩ := hp
  exact ⟨g, E, hprolongs, ⟨hstates, h.sent⟩, houtcome⟩

theorem outcome_self (r : Except Exn α) : Outcome Eq (SameValue f D) r r := by
  cases r with
  | error e => exact .error rfl
  | ok a => exact .ok rfl

theorem send_parallel (h : Twins before before' f D w w') (request : Request) (n : Nat) :
    Parallel (Twins before before') SameValue f D ((send remote request n).run w)
      ((send remote request n).run w') := by
  refine Parallel.of_outcome ⟨h.memory, ?_⟩ (outcome_self _)
  obtain ⟨new, hsent, hsent'⟩ := h.sent
  exact ⟨new ++ [request], by simp [hsent], by simp [hsent']⟩

theorem ask_parallel (h : Twins before before' f D w w') (request : Request) :
    Parallel (Twins before before') SameValue f D ((ask remote request).run w)
      ((ask remote request).run w') :=
  (send_parallel remote h request 0).bind fun _ _ _ _ _ _ _ hstates _ =>
    Parallel.pure hstates rfl

theorem create_parallel (h : Twins before before' f D w w') (kind : Kind) (request : Request) :
    Parallel (Twins before before') SameValue f D ((create remote kind request).run w)
      ((create remote kind request).run w') := by
  refine (send_parallel remote h request 0).bind fun g E id id' t t' _ hstates hid => ?_
  rw [hid]
  exact Parallel.of_outcome ⟨hstates.memory, hstates.sent⟩ (.ok rfl)

theorem registerFinalizer_parallel (cfg : Testconfig) (autoclean : Bool) (finalizer : Finalizer)
    (h : Twins before before' f D w w') :
    Parallel (Twins before before') SameValue f D
      ((registerFinalizer cfg autoclean finalizer).run w)
      ((registerFinalizer cfg autoclean finalizer).run w') := by
  unfold registerFinalizer
  split
  · exact Parallel.pure h rfl
  · split
    · exact Parallel.of_outcome ⟨h.memory, h.sent⟩ (.ok rfl)
    · exact Parallel.of_outcome ⟨h.memory, h.sent⟩ (.ok rfl)

theorem proxyUpdate_parallel (h : Twins before before' f D w w') (svc : Obj) (d : Json) :
    Parallel (Twins before before') SameValue f D ((proxyUpdate remote svc d).run w)
      ((proxyUpdate remote svc d).run w') :=
  Parallel.retryEach (fun k _ _ _ _ hstates => send_parallel remote hstates _ k) h 0 7

theorem lift_parallel (h : Twins before before' f D w w') (r : Except Exn α) :
    Parallel (Twins before before') SameValue f D ((Prog.lift r : Prog World α).run w)
      ((Prog.lift r : Prog World α).run w') :=
  Parallel.of_outcome h (outcome_self r)

theorem createService_parallel (cfg : Testconfig) (c : ServiceArgs)
    (h : Twins before before' f D w w') (hl : c.params ∈ D) (hfixed : f c.params = c.params) :
    Parallel (Twins before before') SameValue f D ((createService cfg remote c).run w)
      ((createService cfg remote c).run w') := by
  refine (onMemory_parallel h (serviceParams_parallel cfg c h.memory hl hfixed)).bind ?_
  intro g E d d' t t' _ hstates hd
  rw [hd]
  refine (create_parallel remote hstates .service (.createService d)).bind ?_
  intro g E svc svc' t t' _ hstates hsvc
  rw [hsvc]
  refine (registerFinalizer_parallel cfg c.autoclean _ hstates).bind ?_
  exact fun g E _ _ t t' _ hstates _ => Parallel.pure hstates rfl

theorem deployProxy_parallel (onCreate : List (Obj → Except Exn Unit)) (svc : Obj)
    (d : Option Json) (h : Twins before before' f D w w') :
    Parallel (Twins before before') SameValue f D ((deployProxy remote onCreate svc d).run w)
      ((deployProxy remote onCreate svc d).run w') := by
  have hdeploy {g : Loc → Loc} {E : Set Loc} {t t' : World}
      (hstates : Twins before before' g E t t') :
      Parallel (Twins before before') SameValue g E
        ((deployProxy remote onCreate svc none).run t)
        ((deployProxy remote onCreate svc none).run t') := by
    refine (ask_parallel remote hstates (.deployProxy svc)).bind ?_
    intro g E _ _ t t' _ hstates _
    exact Parallel.forEach hstates fun hook _ g E t t' _ hstates => lift_parallel hstates _
  cases d with
  | none => exact hdeploy h
  | some d =>
      refine (proxyUpdate_parallel remote h svc d).bind ?_
      exact fun g E _ _ t t' _ hstates _ => hdeploy hstates

/-- In worlds that look the same to it a call sends the same requests. -/
theorem customService_parallel (cfg : Testconfig) (c : ServiceArgs)
    (h : Twins before before' f D w w') (hrefs : ∀ l ∈ c.refs, l ∈ D ∧ f l = l) :
    Parallel (Twins before before') SameValue f D ((customService cfg remote c).run w)
      ((customService cfg remote c).run w') := by
  obtain ⟨hparams, hproxy⟩ := List.forall_mem_cons.mp hrefs
  have hgiven := givenOrEmpty_parallel c.proxyParams h.memory fun l hl =>
    hproxy l (Option.mem_toList.mpr hl)
  refine (onMemory_parallel h hgiven).bind ?_
  intro g E l l' t t' hprolongs hstates hobjects
  obtain ⟨hl, rfl⟩ := hobjects
  have hfixed : g c.params = c.params := (hprolongs.eqOn hparams.1).trans hparams.2
  refine (createService_parallel remote cfg c hstates (hprolongs.subset hparams.1) hfixed).bind ?_
  intro g' E' svc svc' t t' hprolongs' hstates hsvc
  rw [hsvc, ← hprolongs'.eqOn hl]
  refine (Parallel.forEach hstates fun b _ g E t t' _ hstates =>
    ask_parallel remote hstates (.createUsage svc b.1 b.2)).bind ?_
  intro g'' E'' _ _ t t' hprolongs'' hstates _
  have hl' : l ∈ E' := hprolongs'.subset hl
  rw [← hprolongs''.eqOn hl']
  refine Parallel.bind (V := SameValue) ?_ fun g E _ _ t t' _ hstates _ =>
    Parallel.pure hstates rfl
  refine (onMemory_parallel hstates (proxyParams_parallel c.hooks svc hstates.memory
    (hprolongs''.subset hl'))).bind ?_
  intro g E d d' t t' _ hstates hd
  rw [hd]
  exact deployProxy_parallel remote _ svc d hstates

end

/-! ## What the hooks do to memory -/

/-- The calls of `before_service` hooks on the copy of `params`, with the annotation, and those of
`before_proxy` hooks on `proxy_params` itself, if the service has been created and all its backends
are attached. -/
def hookCalls (cfg : Testconfig) (remote : Remote) (c : ServiceArgs) : Prog Memory Unit := do
  let proxy ← givenOrEmpty c.proxyParams
  let d ← serviceParams cfg c
  match reached remote c d with
  | none => pure ()
  | some svc => do
      let _ ← Code.callAll (proxyHooks c.hooks svc) proxy
      pure ()

/-- What the hooks change in place leaves what the caller holds as it was. -/
def KeepsSettings (cfg : Testconfig) (remote : Remote) (c : ServiceArgs) (m : Memory) : Prop :=
  m.Keeps c.refs ((hookCalls cfg remote c).run m).2

def sentBy (cfg : Testconfig) (remote : Remote) (c : ServiceArgs) (w : World) : List Request :=
  ((customService cfg remote c).run w).2.sent.drop w.sent.length

theorem read_run_snd (v : Val Loc) (m : Memory) : ((read v).run m).2 = m := by
  unfold read
  dsimp only
  split <;> rfl

theorem get_run_snd (l : Loc) (m : Memory) : ((Memory.get l).run m).2 = m := by
  unfold Memory.get
  dsimp only
  split <;> rfl

/-- Looking at the parameters of the proxy does not change them. -/
theorem proxyParams_run_snd (hooks : List Hook) (svc : Obj) (l : Loc) (m : Memory) :
    ((proxyParams hooks svc l).run m).2 =
      ((Code.callAll (proxyHooks hooks svc) l).run m).2 := by
  unfold proxyParams
  cases hcalls : (Code.callAll (proxyHooks hooks svc) l).run m with
  | mk r m' =>
  cases r with
  | error e => rw [Prog.bind_of_error hcalls]
  | ok l' =>
  rw [Prog.bind_of_ok hcalls]
  cases hcell : (Memory.get l').run m' with
  | mk r m'' =>
  have hget : m'' = m' := by rw [← get_run_snd l' m', hcell]
  subst hget
  cases r with
  | error e => rw [Prog.bind_of_error hcell]
  | ok c =>
  rw [Prog.bind_of_ok hcell]
  split
  · rfl
  · exact (Prog.bind_pure_map_run_snd _ some m'').trans (read_run_snd _ m'')

theorem customService_memory (cfg : Testconfig) (remote : Remote) (c : ServiceArgs) (w : World) :
    ((customService cfg remote c).run w).2.memory =
      ((hookCalls cfg remote c).run w.memory).2 := by
  unfold hookCalls
  cases customService_course remote cfg c w with
  | noProxyParams hproxy hends => rw [Prog.bind_of_error hproxy, hends.memory]
  | noParams hproxy hparams hends =>
      rw [Prog.bind_of_ok hproxy, Prog.bind_of_error hparams, hends.memory]
  | notReached hproxy hparams hreached hends =>
      rw [Prog.bind_of_ok hproxy, Prog.bind_of_ok hparams, hends.memory, hreached]
      rfl
  | updated hproxy hparams hreached hupdate hends =>
      rw [Prog.bind_of_ok hproxy, Prog.bind_of_ok hparams, hends.memory, hreached]
      dsimp only
      rw [Prog.bind_pure_map_run_snd _ fun _ => (), ← proxyParams_run_snd, hupdate]

/-- A call sends the same in worlds whose memories look the same to it. -/
theorem sentBy_eq_of_renames (cfg : Testconfig) (remote : Remote) (c : ServiceArgs) {w w' : World}
    (h : w.memory.Keeps c.refs w'.memory) : sentBy cfg remote c w' = sentBy cfg remote c w := by
  obtain ⟨f, D, hrenames, hrefs⟩ := h
  have htwins : Twins w.sent w'.sent f D w w' :=
    ⟨hrenames, [], (List.append_nil _).symm, (List.append_nil _).symm⟩
  obtain ⟨g, E, -, ⟨-, new, hsent, hsent'⟩, -⟩ := customService_parallel remote cfg c htwins hrefs
  rw [sentBy, sentBy, hsent, hsent', List.drop_left, List.drop_left]

/-- `OpenshiftApicast`; `url` is the address of the route made for a service. -/
def openshiftApicast (staging : Bool) (url : Obj → String) : Hook where
  beforeService := some (Code.update [("deployment_option", .str "self_managed")])
  beforeProxy := some fun svc =>
    Code.update [(if staging then "sandbox_endpoint" else "endpoint", .str (url svc))]

/-- `OIDCClientAuthHook`; `authOidc` is the client library's constant. -/
def oidcClientAuthHook (authOidc credentialsLocation authorizationUrl : String) : Hook where
  beforeService := some (Code.update [("backend_version", .str authOidc)])
  beforeProxy := some fun _ =>
    Code.update [("credentials_location", .str credentialsLocation),
      ("oidc_issuer_endpoint", .str authorizationUrl), ("oidc_issuer_type", .str "keycloak")]

theorem openshiftApicast_beforeProxy (staging : Bool) (url : Obj → String) (svc : Obj)
    {m : Memory} {l : Loc} {d : Dict String (Val Loc)} (h : m.read? l = some (.dict d)) :
    ((Code.callAll (proxyHooks [openshiftApicast staging url] svc) l).run m).2 =
      m.write l (.dict (d.set (if staging then "sandbox_endpoint" else "endpoint")
        (.plain (.str (url svc))))) := by
  rw [proxyHooks, selectHooks]
  exact congrArg Prod.snd ((Prog.bind_of_ok (Code.update_call _ h)).trans rfl)

/-- The gateway's hook leaves the settings alone only where they hold its endpoint already. -/
theorem openshiftApicast_keeps_iff (staging : Bool) (url : Obj → String) (svc : Obj) {m : Memory}
    (hclosed : m.Closed) {l : Loc} {d : Dict String (Val Loc)} (h : m.read? l = some (.dict d)) :
    m.Keeps [l] ((Code.callAll (proxyHooks [openshiftApicast staging url] svc) l).run m).2 ↔
      d.get? (if staging then "sandbox_endpoint" else "endpoint") =
        some (.plain (.str (url svc))) := by
  rw [openshiftApicast_beforeProxy staging url svc h, ← Dict.set_eq_self_iff]
  constructor
  · rintro ⟨f, D, hrenames, hrefs⟩
    obtain ⟨hl, hfixed⟩ := hrefs l (List.mem_singleton_self l)
    obtain ⟨c, hread, -, hread'⟩ := hrenames.cells l hl
    rw [hfixed, Heap.read?_write_self (Heap.read?_lt h)] at hread'
    have hcell : c = .dict d := Option.some.inj (hread.symm.trans h)
    rw [hcell, Option.some.injEq, Cell.map, Cell.dict.injEq] at hread'
    have hget := Dict.get?_set_self d (if staging then "sandbox_endpoint" else "endpoint")
      (.plain (.str (url svc)))
    rw [hread', Dict.get?_mapValues] at hget
    obtain ⟨v, hv, hplain⟩ := Option.map_eq_some_iff.mp hget
    cases v with
    | ref r => cases hplain
    | plain j => rw [Dict.set_eq_self_iff, hv, ← hplain, Val.map]
  · intro hset
    rw [hset]
    rw [Heap.write_self h]
    exact Memory.Keeps.of_extends hclosed (fun l' hl' => List.mem_singleton.mp hl' ▸
      Heap.read?_lt h) (Heap.Extends.refl m)

/-! ## A module with shared settings -/

/-- A hook that appends to a list in the dictionary. -/
def appendTag (tag : String) : Code :=
  .look 0 fun
    | .list _ => .raise (.other "TypeError")
    | .dict d =>
      match d.get? "tags" with
      | some (.ref r) =>
          .look r fun
            | .list tags => .put r (.list (tags ++ [.plain (.str tag)])) (.ret 0)
            | .dict _ => .raise (.other "AttributeError")
      | _ => .raise (.other "KeyError")

def exampleMemory : Memory :=
  ⟨[.dict (Dict.ofList [("name", .plain (.str "svc")), ("tags", .ref 2)]),
    .dict (Dict.ofList [("credentials_location", .plain (.str "headers"))]),
    .list [.plain (.str "smoke")], .dict .empty]⟩

/-- A service created with some hooks from the module's settings. -/
def serviceWith (proxyParams : Loc) (hooks : List Hook) : ServiceArgs :=
  ⟨0, some proxyParams, [("/", ⟨.backend, 5⟩)], true, hooks, true⟩

def worldAfter (proxyParams : Loc) (hooks : List Hook) : World :=
  ((customService exampleConfig exampleRemote (serviceWith proxyParams hooks)).run
    (.start exampleMemory)).2

def stagingApicast : Hook := openshiftApicast true fun _ => "https://a.example"

def exampleAuth : Hook := oidcClientAuthHook "oidc" "authorization" "https://sso.example"

def taggingHook : Hook := { beforeService := some (appendTag "nightly") }

end ThreescaleTests.Factories
