import ThreescaleTests.Gateways.Arguments

/-!
# Choosing a gateway indirectly

The gateway that `SelfManagedApicast` builds agrees with the one that is built
directly where the values that are passed on, which come before the block of the
class, are the values that the class would get.
-/

namespace ThreescaleTests.Gateways

open Library ThreescaleTests.Configuration

variable {O : Type}

/-! ## What the class gets on both ways -/

section

variable (deployments : Deployments O) (settings staging : Value O) (kwargs : Block O)

/-- The class that is chosen with what `__new__` receives. -/
def chosenKind (kinds : Dict String Callable) : Except Exn (Option Kind) := do
  let call ← newGateway deployments.toParser kinds settings
    (some (.cls (selfManagedApicast deployments))) staging kwargs
  let received ← receive deployments call.2
  chooseKind deployments received.force received.settings received.openshift

/-- The value of a name where `SelfManagedApicast` is configured. -/
def outerValue (name : String) : Option (Value O) :=
  firstOf (sources settings (selfManagedApicast deployments) kwargs) name

/-- The value that is passed on, before anything is built from it. -/
def passedValue (name : String) : Option (Value O) :=
  if name ∈ expectedInitArgs deployments ∧ name ∉ ownParameters then
    outerValue deployments settings kwargs name
  else none

/-- The flag that `__new__` receives: a value in the settings comes before the argument. -/
def innerStaging : Value O :=
  match outerValue deployments settings kwargs "staging" with
  | some value => ((deployments.built staging value).toOption).getD staging
  | none => staging

/-- What a class gets for a name by way of `SelfManagedApicast`: the value that is passed on, or
else the one of its own block or the default block. -/
def indirectArgument (cls : Callable) (name : String) : Except Exn (Option (Value O)) :=
  match passedValue deployments settings kwargs name with
  | some value => (deployments.built staging value).map some
  | none =>
      deployments.argumentOf (innerStaging deployments settings staging kwargs)
        [blockOf settings cls, defaultBlock settings] name

/-- What it gets directly: the argument, or the value of its own block or the default block. -/
def directArgument (cls : Callable) (name : String) : Except Exn (Option (Value O)) :=
  deployments.argumentOf staging (sources settings cls kwargs) name

/-- Both ways give a class the same arguments. -/
structure SameArguments (chosen : Subclass) : Prop where
  settings_plain : isNode settings = false
  names_free : ∀ name ∈ ["kinds", "settings_"], passedValue deployments settings kwargs name = none
  all_built : ∀ name, name ≠ "kind" → name ≠ "settings" →
    ∃ v, indirectArgument deployments settings staging kwargs chosen.callable name = .ok v
  same : ∀ name ∈ chosen.init, name ≠ "kind" → name ≠ "settings" →
    indirectArgument deployments settings staging kwargs chosen.callable name =
      directArgument deployments settings staging kwargs chosen.callable name

end

/-! ## What is received -/

section

variable {deployments : Deployments O} {settings staging : Value O} {kwargs : Block O}

theorem mem_expectedInitArgs_of_ownParameters {name : String} (h : name ∈ ownParameters) :
    name ∈ expectedInitArgs deployments := by
  have hname : name ≠ "self" ∧ name ≠ "kwargs" := by
    constructor
    · intro heq
      rw [heq] at h
      exact absurd h (by decide)
    · intro heq
      rw [heq] at h
      exact absurd h (by decide)
  rw [expectedInitArgs, List.mem_filter]
  refine ⟨List.mem_append_left _ ?_, by simpa using hname⟩
  have hmem : name ∈ ownParameters ++ ["kwargs"] := List.mem_append_left _ h
  exact hmem

theorem get?_passedOn (args : Args O) (name : String) :
    (Dict.ofList (passedOn deployments args)).get? name =
      if name ∈ expectedInitArgs deployments ∧ name ∉ ownParameters then args name else none := by
  have hmem (name : String) (value : Value O) : (name, value) ∈ passedOn deployments args ↔
      (name ∈ expectedInitArgs deployments ∧ name ∉ ownParameters) ∧ args name = some value := by
    simp only [passedOn, List.mem_filterMap, List.mem_filter, Option.map_eq_some_iff,
      Prod.mk.injEq, decide_eq_true_eq]
    constructor
    · rintro ⟨_, hname, _, hargs, rfl, rfl⟩
      exact ⟨hname, hargs⟩
    · rintro ⟨hname, hargs⟩
      exact ⟨name, hname, value, hargs, rfl, rfl⟩
  cases hget : (Dict.ofList (passedOn deployments args)).get? name with
  | some value =>
      obtain ⟨hname, hargs⟩ := (hmem name value).mp (Dict.mem_of_get?_ofList hget)
      rw [if_pos hname, hargs]
  | none =>
      by_cases hname : name ∈ expectedInitArgs deployments ∧ name ∉ ownParameters
      · rw [if_pos hname]
        cases hargs : args name with
        | none => rfl
        | some value =>
            have hkey : name ∈ (passedOn deployments args).map Prod.fst :=
              List.mem_map.mpr ⟨_, (hmem name value).mpr ⟨hname, hargs⟩, rfl⟩
            exact absurd (Dict.mem_keys_ofList.mpr hkey) (Dict.get?_eq_none_iff.mp hget)
      · rw [if_neg hname]

/-- The configuration of `SelfManagedApicast`, and what `__new__` receives of it. -/
structure Receives (deployments : Deployments O) (settings staging : Value O) (kwargs : Block O)
    (received : Received O) : Prop where
  settings_built : deployments.built staging settings = .ok received.settings
  staging_eq : received.staging = innerStaging deployments settings staging kwargs
  passed : ∀ name, name ≠ "kind" → (Dict.ofList received.kwargs).get? name =
    (passedValue deployments settings kwargs name).bind fun value =>
      (deployments.built staging value).toOption
  kind_not_passed : (Dict.ofList received.kwargs).get? "kind" = none
  outer_built : ∀ name value, name ≠ "kind" → name ≠ "settings" →
    outerValue deployments settings kwargs name = some value →
      ∃ v, deployments.built staging value = .ok v
  outer_free : ∀ name, (outerValue deployments settings kwargs name).isSome →
    name ∉ ["self", "global_kwargs", "method"]

/-- What `__new__` gets under a name that it expects. -/
theorem taken_selfManagedApicast {name : String} (h : name ∈ expectedInitArgs deployments)
    (hkind : name ≠ "kind") (hsettings : name ≠ "settings") :
    deployments.taken staging (configurationOf settings (selfManagedApicast deployments) kwargs)
        (selfManagedApicast deployments) name =
      match outerValue deployments settings kwargs name with
      | some value => (deployments.built staging value).toOption
      | none => if name = "staging" then some staging else none := by
  have hexpected : name ∈ (selfManagedApicast deployments).expected := h
  rw [Parser.taken, if_pos hexpected, argument_configurationOf hkind hsettings]
  rfl

/-- The values under the names that are passed on, unless there is none. -/
theorem get?_passedOn_taken {name : String} (hkind : name ≠ "kind") :
    (Dict.ofList (passedOn deployments (deployments.taken staging
        (configurationOf settings (selfManagedApicast deployments) kwargs)
        (selfManagedApicast deployments)))).get? name =
      (passedValue deployments settings kwargs name).bind fun value =>
        (deployments.built staging value).toOption := by
  rw [get?_passedOn, passedValue]
  by_cases hname : name ∈ expectedInitArgs deployments ∧ name ∉ ownParameters
  · have hsettings : name ≠ "settings" := fun heq => hname.2 (by rw [heq]; decide)
    have hstaging : name ≠ "staging" := fun heq => hname.2 (by rw [heq]; decide)
    rw [if_pos hname, if_pos hname, taken_selfManagedApicast hname.1 hkind hsettings]
    cases outerValue deployments settings kwargs name with
    | some value => rfl
    | none => exact if_neg hstaging
  · rw [if_neg hname, if_neg hname]
    rfl

theorem get?_passedOn_kind :
    (Dict.ofList (passedOn deployments (deployments.taken staging
        (configurationOf settings (selfManagedApicast deployments) kwargs)
        (selfManagedApicast deployments)))).get? "kind" = none := by
  rw [get?_passedOn, Parser.taken, Parser.argument, if_pos rfl, ite_self, ite_self]

theorem receives_of_receive {kinds : Dict String Callable} {call : Call O} {received : Received O}
    (hcall : newGateway deployments.toParser kinds settings
      (some (.cls (selfManagedApicast deployments))) staging kwargs = .ok call)
    (hreceive : receive deployments call.2 = .ok received) :
    Receives deployments settings staging kwargs received := by
  obtain ⟨-, -, hfree, hbuilt, rfl⟩ := newGateway_eq_ok_iff.mp hcall
  unfold receive at hreceive
  split at hreceive
  · rename_i staging' openshift settings' hcls hstaging hopenshift hsettings
    cases hreceive
    dsimp only at hstaging hsettings ⊢
    rw [taken_selfManagedApicast (mem_expectedInitArgs_of_ownParameters (by decide)) (by decide)
      (by decide)] at hstaging
    have hexpected : "settings" ∈ (selfManagedApicast deployments).expected :=
      mem_expectedInitArgs_of_ownParameters (by decide)
    rw [Parser.taken, if_pos hexpected, argument_settings, toOption_eq_some_iff] at hsettings
    refine ⟨hsettings, ?_, fun name => get?_passedOn_taken, get?_passedOn_kind, ?_, ?_⟩
    · unfold innerStaging
      cases hvalue : outerValue deployments settings kwargs "staging" with
      | some value =>
          rw [hvalue] at hstaging
          exact (getD_toOption (toOption_eq_some_iff.mp hstaging)).symm
      | none =>
          rw [hvalue] at hstaging
          exact (Option.some.inj hstaging).symm
    · intro name value hkind hother hvalue
      exact hbuilt name value hkind ((configurationOf_get? hkind hother).trans hvalue)
    · intro name hname
      exact hfree name (mem_keys_configurationOf.mpr (Or.inr (Or.inr hname)))
  · cases hreceive

/-! ## The two ways -/

/-- A class other than `SelfManagedApicast` is built at once. -/
theorem buildGateway_eq_newGateway {kinds : Dict String Callable} {cls : Callable}
    (h : cls ≠ selfManagedApicast deployments) :
    buildGateway deployments kinds settings (some (.cls cls)) staging kwargs =
      newGateway deployments.toParser kinds settings (some (.cls cls)) staging kwargs := by
  rw [buildGateway]
  cases hcall : newGateway deployments.toParser kinds settings (some (.cls cls)) staging kwargs with
  | error e => rfl
  | ok call =>
      obtain ⟨-, -, -, -, heq⟩ := newGateway_eq_ok_iff.mp hcall
      have hcls : call.1 = cls := by rw [heq]
      rw [ok_bind, if_neg (hcls ▸ h)]
      rfl

/-- `SelfManagedApicast` is built as the chosen kind, with what `__new__` received. -/
theorem exists_received {kinds : Dict String Callable} {kind : Kind}
    (h : chosenKind deployments settings staging kwargs kinds = .ok (some kind)) :
    ∃ received, Receives deployments settings staging kwargs received ∧
      buildGateway deployments kinds settings (some (.cls (selfManagedApicast deployments))) staging
        kwargs = newGateway deployments.toParser
          (Dict.ofList (deployments.subclasses.map fun subclass =>
            (subclass.name, subclass.callable)))
          received.settings (some kind) received.staging received.kwargs := by
  obtain ⟨call, hcall, h⟩ := bind_eq_ok_iff.mp h
  obtain ⟨received, hreceive, hchoose⟩ := bind_eq_ok_iff.mp h
  refine ⟨received, receives_of_receive hcall hreceive, ?_⟩
  obtain ⟨-, -, -, -, heq⟩ := newGateway_eq_ok_iff.mp hcall
  have hcls : call.1 = selfManagedApicast deployments := by rw [heq]
  rw [buildGateway, hcall, ok_bind, if_pos hcls, newSelfManaged, hreceive, ok_bind, hchoose,
    ok_bind]

theorem outerValue_of_passed {name : String} {value : Value O}
    (h : passedValue deployments settings kwargs name = some value) :
    outerValue deployments settings kwargs name = some value := by
  rw [passedValue] at h
  split at h
  · exact h
  · cases h

/-- What was passed on comes before the blocks, as it was built. -/
theorem Receives.argumentOf_eq {received : Received O}
    (h : Receives deployments settings staging kwargs received) {name : String}
    (hkind : name ≠ "kind") (hsettings : name ≠ "settings") (blocks : List (Block O)) :
    deployments.argumentOf received.staging (received.kwargs :: blocks) name =
      match passedValue deployments settings kwargs name with
      | some value => (deployments.built staging value).map some
      | none => deployments.argumentOf received.staging blocks name := by
  rw [Parser.argumentOf, firstOf, h.passed name hkind]
  cases hvalue : passedValue deployments settings kwargs name with
  | none => rfl
  | some value =>
      obtain ⟨v, hv⟩ := h.outer_built name value hkind hsettings (outerValue_of_passed hvalue)
      have hagain : deployments.built received.staging v = .ok v :=
        built_of_built hv (stagingGlobals received.staging)
      rw [Option.bind_some, hv]
      show (deployments.built received.staging v).map some =
        (deployments.built staging value).map some
      rw [hagain, hv]

theorem Receives.indirectArgument_eq {received : Received O}
    (h : Receives deployments settings staging kwargs received) {cls : Callable} {name : String}
    (hkind : name ≠ "kind") (hsettings : name ≠ "settings") :
    deployments.argumentOf received.staging (sources settings cls received.kwargs) name =
      indirectArgument deployments settings staging kwargs cls name := by
  rw [sources, h.argumentOf_eq hkind hsettings, indirectArgument, h.staging_eq]

/-- The names that are passed on. -/
theorem Receives.mem_names_iff {received : Received O}
    (h : Receives deployments settings staging kwargs received) {name : String}
    (hsettings : name ≠ "settings") : name ∈ received.kwargs.map Prod.fst ↔
      name ≠ "kind" ∧ (passedValue deployments settings kwargs name).isSome := by
  rw [← Dict.mem_keys_ofList, ← Dict.isSome_get?_iff]
  by_cases hkind : name = "kind"
  · rw [hkind, h.kind_not_passed]
    simp
  · rw [h.passed name hkind]
    cases hvalue : passedValue deployments settings kwargs name with
    | none => simp
    | some value =>
        obtain ⟨v, hv⟩ := h.outer_built name value hkind hsettings (outerValue_of_passed hvalue)
        rw [Option.bind_some, hv]
        simp [hkind, Except.toOption]

/-- `new_gateway` accepts the names where none of them is its own parameter. -/
theorem Receives.refuse_eq_ok_iff {received : Received O}
    (h : Receives deployments settings staging kwargs received) :
    refuse ["kinds", "settings_", "kind", "staging"] (received.kwargs.map Prod.fst) = .ok () ↔
      ∀ name ∈ ["kinds", "settings_"], passedValue deployments settings kwargs name = none := by
  rw [Configuration.refuse_eq_ok_iff]
  constructor
  · intro hnames name hname
    cases hvalue : passedValue deployments settings kwargs name with
    | none => rfl
    | some value =>
        have hother : name ≠ "kind" ∧ name ≠ "settings" ∧
            name ∈ ["kinds", "settings_", "kind", "staging"] := by
          simp only [List.mem_cons, List.not_mem_nil, or_false] at hname
          rcases hname with rfl | rfl
          · decide
          · decide
        have hpassed : name ∈ received.kwargs.map Prod.fst :=
          (h.mem_names_iff hother.2.1).mpr ⟨hother.1, by rw [hvalue]; rfl⟩
        exact absurd hother.2.2 (hnames name hpassed)
  · intro hnames name hpassed htaken
    have hsettings : name ≠ "settings" := by
      intro heq
      rw [heq] at htaken
      exact absurd htaken (by decide)
    obtain ⟨hkind, hvalue⟩ := (h.mem_names_iff hsettings).mp hpassed
    simp only [List.mem_cons, List.not_mem_nil, or_false] at htaken
    rcases htaken with rfl | rfl | rfl | rfl
    · rw [hnames "kinds" (by decide)] at hvalue
      cases hvalue
    · rw [hnames "settings_" (by decide)] at hvalue
      cases hvalue
    · exact hkind rfl
    · have hown : passedValue deployments settings kwargs "staging" = none :=
        if_neg fun hname => hname.2 (by decide)
      rw [hown] at hvalue
      cases hvalue

/-- No name of the second configuration is reserved, as it has the names of the other two. -/
theorem Receives.free {received : Received O}
    (h : Receives deployments settings staging kwargs received) {cls : Callable}
    (hfree : Free (configurationOf settings cls kwargs)) :
    Free (configurationOf settings cls received.kwargs) := by
  intro name hname
  rw [mem_keys_configurationOf] at hname
  rcases hname with heq | heq | hvalue
  · rw [heq]
    decide
  · rw [heq]
    decide
  · by_cases hkind : name = "kind"
    · rw [hkind]
      decide
    rw [sources, firstOf, Option.isSome_or, Bool.or_eq_true, h.passed name hkind] at hvalue
    rcases hvalue with hpassed | hblock
    · cases hvalue : passedValue deployments settings kwargs name with
      | none =>
          rw [hvalue] at hpassed
          cases hpassed
      | some value =>
          exact h.outer_free name (by rw [outerValue_of_passed hvalue]; rfl)
    · refine hfree name (mem_keys_configurationOf.mpr (Or.inr (Or.inr ?_)))
      rw [sources, firstOf, Option.isSome_or, hblock, Bool.or_true]

theorem Receives.settings_eq {received : Received O}
    (h : Receives deployments settings staging kwargs received) (hplain : isNode settings = false) :
    received.settings = settings := by
  have hbuilt := h.settings_built
  rw [Parser.built, built_of_not_isNode hplain] at hbuilt
  exact (Except.ok.inj hbuilt).symm

/-- Settings that were built into an object have no blocks. -/
theorem Receives.newGateway_ne_ok {received : Received O}
    (h : Receives deployments settings staging kwargs received) (hnode : isNode settings)
    {kinds : Dict String Callable} {cls : Callable} {call : Call O} :
    newGateway deployments.toParser kinds received.settings (some (.cls cls)) received.staging
      received.kwargs ≠ .ok call := by
  intro hcall
  obtain ⟨object, hobject⟩ := exists_object_of_isNode hnode h.settings_built
  rw [hobject] at hcall
  obtain ⟨-, hblocks, -⟩ := newGateway_eq_ok_iff.mp hcall
  cases hblocks.default_eq

theorem Subclass.callable_ne (chosen : Subclass) :
    chosen.callable ≠ selfManagedApicast deployments := by
  intro h
  injection h with _ _ _ hexpected
  cases hexpected

/-- The arguments that are taken agree where those of every parameter do. -/
theorem taken_eq_iff {parser : Parser O} {chosen : Subclass} {staging' : Value O}
    {kwargs' : Block O} {direct indirect : String → Except Exn (Option (Value O))}
    (hplain : isNode settings = false)
    (hfree : Free (configurationOf settings chosen.callable kwargs))
    (hfree' : Free (configurationOf settings chosen.callable kwargs'))
    (hdirect : ∀ name, name ≠ "kind" → name ≠ "settings" → direct name =
      .ok (parser.argument staging (configurationOf settings chosen.callable kwargs) name))
    (hindirect : ∀ name, name ≠ "kind" → name ≠ "settings" → indirect name =
      .ok (parser.argument staging' (configurationOf settings chosen.callable kwargs') name)) :
    parser.taken staging (configurationOf settings chosen.callable kwargs) chosen.callable =
        parser.taken staging' (configurationOf settings chosen.callable kwargs') chosen.callable ↔
      ∀ name ∈ chosen.init, name ≠ "kind" → name ≠ "settings" → indirect name = direct name := by
  constructor
  · intro heq name hname hkind hsettings
    have hexpected : name ∈ chosen.callable.expected := List.mem_cons_of_mem _ hname
    have hargs := congrFun heq name
    rw [Parser.taken, Parser.taken, if_pos hexpected, if_pos hexpected] at hargs
    rw [hindirect name hkind hsettings, hdirect name hkind hsettings, hargs]
  · intro h
    funext name
    by_cases hexpected : name ∈ chosen.callable.expected
    · rw [Parser.taken, Parser.taken, if_pos hexpected, if_pos hexpected]
      by_cases hkind : name = "kind"
      · rw [hkind]
        rfl
      by_cases hsettings : name = "settings"
      · rw [hsettings, argument_settings, argument_settings, Parser.built, Parser.built,
          built_of_not_isNode hplain, built_of_not_isNode hplain]
      rcases List.mem_cons.mp hexpected with rfl | hinit
      · rw [argument_self hfree, argument_self hfree']
      · have hsame := h name hinit hkind hsettings
        rw [hindirect name hkind hsettings, hdirect name hkind hsettings] at hsame
        exact (Except.ok.inj hsame).symm
    · rw [Parser.taken, Parser.taken, if_neg hexpected, if_neg hexpected]

/-- The second call, against the arguments of the first. -/
theorem Receives.newGateway_eq_ok_iff {received : Received O}
    (h : Receives deployments settings staging kwargs received) (hplain : isNode settings = false)
    {kinds kinds' : Dict String Callable} {chosen : Subclass} {call : Call O}
    (hdirect : newGateway deployments.toParser kinds settings (some (.cls chosen.callable)) staging
      kwargs = .ok call) :
    newGateway deployments.toParser kinds' settings (some (.cls chosen.callable)) received.staging
        received.kwargs = .ok call ↔
      SameArguments deployments settings staging kwargs chosen := by
  obtain ⟨-, hblocks, hfree, hall, hcall⟩ := Gateways.newGateway_eq_ok_iff.mp hdirect
  rw [all_built_iff hplain] at hall
  have hfirst : ∀ name, name ≠ "kind" → name ≠ "settings" →
      directArgument deployments settings staging kwargs chosen.callable name = .ok
        (deployments.argument staging (configurationOf settings chosen.callable kwargs) name) := by
    intro name hkind hother
    obtain ⟨argument, hargument⟩ := hall name hkind hother
    rw [argument_of_argumentOf hkind hother hargument, directArgument, hargument]
  have hsecond (hbuilt : ∀ name, name ≠ "kind" → name ≠ "settings" → ∃ argument,
      indirectArgument deployments settings staging kwargs chosen.callable name = .ok argument) :
      ∀ name, name ≠ "kind" → name ≠ "settings" →
        indirectArgument deployments settings staging kwargs chosen.callable name = .ok
          (deployments.argument received.staging
            (configurationOf settings chosen.callable received.kwargs) name) := by
    intro name hkind hother
    obtain ⟨argument, hargument⟩ := hbuilt name hkind hother
    rw [argument_of_argumentOf hkind hother
      ((h.indirectArgument_eq hkind hother).trans hargument), hargument]
  rw [Gateways.newGateway_eq_ok_iff, all_built_iff hplain, h.refuse_eq_ok_iff, hcall,
    Prod.mk.injEq]
  constructor
  · rintro ⟨hnames, -, -, hbuilt, -, hargs⟩
    have hbuilt' : ∀ name, name ≠ "kind" → name ≠ "settings" → ∃ argument,
        indirectArgument deployments settings staging kwargs chosen.callable name =
          .ok argument := by
      intro name hkind hother
      rw [← h.indirectArgument_eq hkind hother]
      exact hbuilt name hkind hother
    exact ⟨hplain, hnames, hbuilt',
      (taken_eq_iff hplain hfree (h.free hfree) hfirst (hsecond hbuilt')).mp hargs⟩
  · intro hsame
    refine ⟨hsame.names_free, hblocks, h.free hfree, ?_, rfl,
      (taken_eq_iff hplain hfree (h.free hfree) hfirst (hsecond hsame.all_built)).mpr hsame.same⟩
    intro name hkind hother
    rw [h.indirectArgument_eq hkind hother]
    exact hsame.all_built name hkind hother

/-- `SelfManagedApicast` builds the gateway that is built directly exactly where both ways give
the class the same arguments. -/
theorem buildGateway_selfManaged_iff {kinds : Dict String Callable} {chosen : Subclass}
    {call : Call O}
    (hchosen : chosenKind deployments settings staging kwargs kinds =
      .ok (some (.cls chosen.callable)))
    (hdirect : buildGateway deployments kinds settings (some (.cls chosen.callable)) staging
      kwargs = .ok call) :
    buildGateway deployments kinds settings (some (.cls (selfManagedApicast deployments))) staging
        kwargs = .ok call ↔
      SameArguments deployments settings staging kwargs chosen := by
  obtain ⟨received, hreceived, hindirect⟩ := exists_received hchosen
  rw [buildGateway_eq_newGateway chosen.callable_ne] at hdirect
  rw [hindirect]
  cases hnode : isNode settings with
  | true =>
      constructor
      · intro h
        exact absurd h (hreceived.newGateway_ne_ok hnode)
      · intro h
        rw [h.settings_plain] at hnode
        cases hnode
  | false =>
      rw [hreceived.settings_eq hnode]
      exact hreceived.newGateway_eq_ok_iff hnode hdirect

/-- Values that no object is built from are passed on as they are. -/
theorem exists_indirectArgument {chosen : Callable}
    (h : ∀ block ∈ [kwargs, blockOf settings (selfManagedApicast deployments),
      blockOf settings chosen, defaultBlock settings], ∀ e ∈ block, isNode e.2 = false)
    (name : String) :
    ∃ v, indirectArgument deployments settings staging kwargs chosen name = .ok v := by
  rw [indirectArgument]
  cases hpassed : passedValue deployments settings kwargs name with
  | some value =>
      obtain ⟨block, hblock, hmem⟩ := mem_of_firstOf (outerValue_of_passed hpassed)
      have hblock : block ∈ [kwargs, blockOf settings (selfManagedApicast deployments),
          blockOf settings chosen, defaultBlock settings] := by
        simp only [sources, List.mem_cons, List.not_mem_nil, or_false] at hblock ⊢
        tauto
      have hleaf : deployments.built staging value = .ok value :=
        built_of_not_isNode (h block hblock _ hmem)
      exact ⟨some value, congrArg (Except.map some) hleaf⟩
  | none =>
      refine exists_argumentOf_iff.mpr fun value hvalue => ?_
      obtain ⟨block, hblock, hmem⟩ := mem_of_firstOf hvalue
      exact ⟨value, built_of_not_isNode
        (h block (List.mem_cons_of_mem _ (List.mem_cons_of_mem _ hblock)) _ hmem)⟩

end

/-! ## Settings of the two kinds -/

/-- Clients count as true, and every subclass fits. -/
def twoSubclasses : Deployments Bool where
  kinds := Dict.empty
  construct _ _ := .ok true
  subclasses := [templateApicast, operatorApicast]
  fits _ _ := .ok true
  truthy := id
  isClient := id
  none := false
  truthy_none := rfl

def forcedTemplate (default own : Block Bool) : Value Bool :=
  .mapping [
    ("SelfManagedApicast", .mapping [("force", .str "TemplateApicast")]),
    ("TemplateApicast", .mapping own),
    ("default", .mapping ([("kind", .str "SelfManagedApicast"), ("openshift", .object true),
      ("portal_endpoint", .str "http://token@endpoint"), ("name", .str "apicast")] ++ default))]

def separateBlocks : Value Bool :=
  forcedTemplate [] [("template", .str "apicast.yml"), ("image", .str "apicast:nightly")]

def twoImages : Value Bool :=
  forcedTemplate [("template", .str "apicast.yml"), ("image", .str "apicast:latest")]
    [("image", .str "apicast:nightly")]

theorem buildGateway_selfManaged_separate :
    ∃ call, buildGateway twoSubclasses Dict.empty separateBlocks
        (some (.cls templateApicast.callable)) (.object true) [("name", .str "gw")] = .ok call ∧
      buildGateway twoSubclasses Dict.empty separateBlocks
        (some (.cls (selfManagedApicast twoSubclasses))) (.object true) [("name", .str "gw")] =
          .ok call := by
  have hchosen : chosenKind twoSubclasses separateBlocks (.object true) [("name", .str "gw")]
      Dict.empty = .ok (some (.cls templateApicast.callable)) := rfl
  refine ⟨_, rfl, (buildGateway_selfManaged_iff hchosen rfl).mpr ⟨rfl, ?_, ?_, ?_⟩⟩
  · intro name hname
    simp only [List.mem_cons, List.not_mem_nil, or_false] at hname
    rcases hname with rfl | rfl
    · rfl
    · rfl
  · intro name _ _
    exact exists_indirectArgument (by decide) name
  · intro name hname _ _
    simp only [templateApicast, List.mem_cons, List.not_mem_nil, or_false] at hname
    rcases hname with rfl | rfl | rfl | rfl | rfl | rfl | rfl | rfl
    all_goals rfl

/-- The value of the default block comes before the one of the class. -/
theorem classBlock_overridden :
    ∃ direct indirect,
      chosenKind twoSubclasses twoImages (.object true) [] Dict.empty =
        .ok (some (.cls templateApicast.callable)) ∧
      buildGateway twoSubclasses Dict.empty twoImages (some (.cls templateApicast.callable))
        (.object true) [] = .ok direct ∧
      buildGateway twoSubclasses Dict.empty twoImages
        (some (.cls (selfManagedApicast twoSubclasses))) (.object true) [] = .ok indirect ∧
      direct.2 "image" = some (.str "apicast:nightly") ∧
      indirect.2 "image" = some (.str "apicast:latest") :=
  ⟨_, _, rfl, rfl, rfl, rfl, rfl⟩

end ThreescaleTests.Gateways
