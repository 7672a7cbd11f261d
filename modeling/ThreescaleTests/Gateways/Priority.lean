import ThreescaleTests.Gateways.SameGateway

/-!
# The documented priority of the settings

`new_gateway` documents an order: the arguments of the function, the block named after
the class, the default block. Its flag is handed to the parser as a global argument
and the settings are put over everything else, so the order is kept only where the
blocks leave those names alone.
-/

namespace ThreescaleTests.Gateways

open Library ThreescaleTests.Configuration

variable {O : Type}

/-! ## The order -/

def kindArgument : Option Kind → Block O
  | some (.name name) => [("kind", .str name)]
  | some (.cls cls) => [("kind", .callable cls)]
  | none => []

def namedArguments (settings : Value O) (kind : Option Kind) (staging : Value O) : Block O :=
  [("staging", staging), ("settings", settings)] ++ kindArgument kind

section

variable (parser : Parser O) (kinds : Dict String Callable) (settings : Value O)
  (kind : Option Kind) (staging : Value O) (kwargs : Block O) (cls : Callable)

/-- From where a parameter gets its value, the first one first. -/
def prioritySources : List (Block O) :=
  [kwargs, namedArguments settings kind staging, blockOf settings cls, defaultBlock settings]

/-- The arguments are the documented ones: for each parameter that the class accepts what is built
from the value that comes first, and nothing else. -/
structure Documented (args : Args O) : Prop where
  given : ∀ name value, name ∈ cls.declared →
    firstOf (prioritySources settings kind staging kwargs cls) name = some value →
      ∃ v, parser.built staging value = .ok v ∧ args name = some v
  no_others : ∀ name, name ∉ cls.declared ∨
    firstOf (prioritySources settings kind staging kwargs cls) name = none → args name = none

/-- The blocks can be read, and the kind leads to a class. -/
structure Given : Prop where
  arguments : refuse ["kinds", "settings_", "kind", "staging"] (kwargs.map Prod.fst) = .ok ()
  blocks : HasBlocks settings cls
  class_eq : classOf kinds (defaultBlock settings) kind = .ok cls
  flag : isNode staging = false

/-- The names that `new_gateway` and the parser use themselves are left alone, the values that come
first can be processed, and those that the class accepts are the ones that its call takes. -/
structure Unopposed : Prop where
  names_free : Free (configurationOf settings cls kwargs)
  processed : ∀ name value, name ∉ ["kind", "settings", "staging"] →
    firstOf (prioritySources settings kind staging kwargs cls) name = some value →
      ∃ v, parser.built staging value = .ok v
  taken : ∀ name value, name ≠ "kind" →
    firstOf (prioritySources settings kind staging kwargs cls) name = some value →
      (name ∈ cls.expected ↔ name ∈ cls.declared)
  kind_undeclared : "kind" ∉ cls.declared
  staging_kept : ∀ value,
    firstOf [blockOf settings cls, defaultBlock settings] "staging" = some value →
      ∃ v, parser.built staging value = .ok v ∧ ("staging" ∈ cls.declared → v = staging)
  settings_kept : ∃ v, parser.built staging settings = .ok v ∧ ∀ w, "settings" ∈ cls.declared →
    (Dict.ofList kwargs).get? "settings" = some w → parser.built staging w = .ok v

end

/-! ## Arguments of the single names -/

section

variable {parser : Parser O} {kinds : Dict String Callable} {settings : Value O}
  {kind : Option Kind} {staging : Value O} {kwargs : Block O} {cls : Callable}

theorem get?_eq_none_of_refuse {names : List String}
    (h : refuse names (kwargs.map Prod.fst) = .ok ()) {name : String} (hname : name ∈ names) :
    (Dict.ofList kwargs).get? name = none := by
  rw [refuse_eq_ok_iff] at h
  rw [Dict.get?_eq_none_iff, Dict.mem_keys_ofList]
  exact fun hmem => h name hmem hname

theorem get?_namedArguments {name : String} (hstaging : name ≠ "staging")
    (hsettings : name ≠ "settings") (hkind : name ≠ "kind") :
    (Dict.ofList (namedArguments settings kind staging)).get? name = none := by
  rw [Dict.get?_eq_none_iff, Dict.mem_keys_ofList]
  rcases kind with _ | (name' | cls') <;> simp [namedArguments, kindArgument, *]

theorem get?_namedArguments_staging :
    (Dict.ofList (namedArguments settings kind staging)).get? "staging" = some staging := by
  rcases kind with _ | (name | cls) <;>
    simp [namedArguments, kindArgument, Dict.ofList, Dict.get?_set]

theorem get?_namedArguments_settings :
    (Dict.ofList (namedArguments settings kind staging)).get? "settings" = some settings := by
  rcases kind with _ | (name | cls) <;>
    simp [namedArguments, kindArgument, Dict.ofList, Dict.get?_set]

/-- Names that `new_gateway` does not set have the documented source. -/
theorem firstOf_prioritySources {name : String} (hstaging : name ≠ "staging")
    (hsettings : name ≠ "settings") (hkind : name ≠ "kind") :
    firstOf (prioritySources settings kind staging kwargs cls) name =
      firstOf (sources settings cls kwargs) name := by
  simp [prioritySources, sources, firstOf, get?_namedArguments hstaging hsettings hkind]

theorem newGateway_of_classOf (h : Given kinds settings kind staging kwargs cls) :
    newGateway parser kinds settings kind staging kwargs =
      newGateway parser kinds settings (some (.cls cls)) staging kwargs := by
  rw [newGateway, newGateway, h.arguments, ok_bind, ok_bind, h.blocks.default_eq, ok_bind, ok_bind,
    h.class_eq]
  rfl

/-- Some source names the kind. -/
theorem exists_kind (h : Given kinds settings kind staging kwargs cls) :
    ∃ value, firstOf (prioritySources settings kind staging kwargs cls) "kind" = some value := by
  have hkwargs : (Dict.ofList kwargs).get? "kind" = none :=
    get?_eq_none_of_refuse h.arguments (by decide)
  have hclass := h.class_eq
  simp only [prioritySources, firstOf, hkwargs, Option.none_or, Option.or_none]
  rcases kind with _ | (name | cls')
  · have hdefault : ∃ value, (Dict.ofList (defaultBlock settings)).get? "kind" = some value := by
      rw [← Dict.mem_keys_iff, Dict.mem_keys_ofList]
      cases hlookup : (defaultBlock settings).lookup "kind" with
      | none => simp [classOf, defaultKind, hlookup] at hclass
      | some value =>
          obtain ⟨before, after, hblock, -⟩ := List.lookup_eq_some_iff.mp hlookup
          simp [hblock]
    obtain ⟨value, hvalue⟩ := hdefault
    have hnamed : (Dict.ofList (namedArguments settings none staging)).get? "kind" = none := by
      simp [namedArguments, kindArgument, Dict.ofList, Dict.get?_set, Dict.get?_empty]
    rw [hnamed, hvalue, Option.none_or]
    cases (Dict.ofList (blockOf settings cls)).get? "kind" with
    | none => exact ⟨value, rfl⟩
    | some value' => exact ⟨value', rfl⟩
  · exact ⟨.str name, by simp [namedArguments, kindArgument, Dict.ofList, Dict.get?_set]⟩
  · exact ⟨.callable cls', by simp [namedArguments, kindArgument, Dict.ofList, Dict.get?_set]⟩

theorem firstOf_staging (h : Given kinds settings kind staging kwargs cls) :
    firstOf (prioritySources settings kind staging kwargs cls) "staging" = some staging ∧
      firstOf (sources settings cls kwargs) "staging" =
        firstOf [blockOf settings cls, defaultBlock settings] "staging" := by
  have hkwargs : (Dict.ofList kwargs).get? "staging" = none :=
    get?_eq_none_of_refuse h.arguments (by decide)
  constructor
  · simp [prioritySources, firstOf, hkwargs, get?_namedArguments_staging]
  · simp [sources, firstOf, hkwargs]

theorem firstOf_settings :
    firstOf (prioritySources settings kind staging kwargs cls) "settings" =
      some (((Dict.ofList kwargs).get? "settings").getD settings) := by
  cases hkwargs : (Dict.ofList kwargs).get? "settings" with
  | none => simp [prioritySources, firstOf, hkwargs, get?_namedArguments_settings]
  | some value => simp [prioritySources, firstOf, hkwargs]

theorem built_flag (h : Given kinds settings kind staging kwargs cls) :
    parser.built staging staging = .ok staging := built_of_not_isNode h.flag

/-! ## The class gets the documented arguments -/

theorem argument_staging (h : Given kinds settings kind staging kwargs cls) :
    parser.argument staging (configurationOf settings cls kwargs) "staging" =
      match firstOf [blockOf settings cls, defaultBlock settings] "staging" with
      | some value => (parser.built staging value).toOption
      | none => some staging := by
  rw [argument_configurationOf (by decide) (by decide), (firstOf_staging h).2]
  rfl

/-- A name that `new_gateway` does not set gets what is built from its documented source. -/
theorem argument_of_first {name : String} {value : Value O}
    (hname : name ∉ ["kind", "settings", "staging"])
    (hvalue : firstOf (prioritySources settings kind staging kwargs cls) name = some value) :
    parser.argument staging (configurationOf settings cls kwargs) name =
      (parser.built staging value).toOption := by
  simp only [List.mem_cons, List.not_mem_nil, or_false, not_or] at hname
  obtain ⟨hkind, hsettings, hstaging⟩ := hname
  rw [firstOf_prioritySources hstaging hsettings hkind] at hvalue
  rw [argument_configurationOf hkind hsettings, hvalue]

/-- Nothing is passed under a name without a source. -/
theorem argument_of_no_source (h : Given kinds settings kind staging kwargs cls)
    {name : String}
    (hnone : firstOf (prioritySources settings kind staging kwargs cls) name = none) :
    parser.argument staging (configurationOf settings cls kwargs) name = none := by
  have hstaging : name ≠ "staging" := by
    rintro rfl
    rw [(firstOf_staging h).1] at hnone
    cases hnone
  have hsettings : name ≠ "settings" := by
    rintro rfl
    rw [firstOf_settings] at hnone
    cases hnone
  by_cases hkind : name = "kind"
  · rw [Parser.argument, if_pos hkind]
  · rw [firstOf_prioritySources hstaging hsettings hkind] at hnone
    rw [argument_configurationOf hkind hsettings, hnone]
    exact if_neg hstaging

/-- Where everything can be processed, every name with a source has an argument. -/
theorem exists_argument
    (hall : ∀ name value, name ≠ "kind" →
      (configurationOf settings cls kwargs).get? name = some value →
        ∃ v, parser.built staging value = .ok v) {name : String} {value : Value O}
    (hkind : name ≠ "kind")
    (hvalue : firstOf (prioritySources settings kind staging kwargs cls) name = some value) :
    ∃ v, parser.argument staging (configurationOf settings cls kwargs) name = some v := by
  cases hget : (configurationOf settings cls kwargs).get? name with
  | some value' =>
      obtain ⟨v, hv⟩ := hall name value' hkind hget
      refine ⟨v, ?_⟩
      rw [Parser.argument, if_neg hkind, hget]
      exact toOption_eq_some_iff.mpr hv
  | none =>
      have hsettings : name ≠ "settings" := by
        rintro rfl
        rw [configurationOf_settings] at hget
        cases hget
      by_cases hstaging : name = "staging"
      · refine ⟨staging, ?_⟩
        rw [Parser.argument, if_neg hkind, hget]
        exact if_pos hstaging
      · rw [configurationOf_get? hkind hsettings,
          ← firstOf_prioritySources hstaging hsettings hkind, hvalue] at hget
        cases hget

/-- All values of the configuration can be processed where the names are left alone. -/
theorem Unopposed.all_processed (h : Given kinds settings kind staging kwargs cls)
    (hopposed : Unopposed parser settings kind staging kwargs cls) {name : String} {value : Value O}
    (hkind : name ≠ "kind")
    (hvalue : (configurationOf settings cls kwargs).get? name = some value) :
    ∃ v, parser.built staging value = .ok v := by
  by_cases hset : name = "settings"
  · obtain ⟨v, hv, -⟩ := hopposed.settings_kept
    rw [hset, configurationOf_settings] at hvalue
    rw [← Option.some.inj hvalue]
    exact ⟨v, hv⟩
  · rw [configurationOf_get? hkind hset] at hvalue
    by_cases hflag : name = "staging"
    · rw [hflag, (firstOf_staging h).2] at hvalue
      obtain ⟨v, hv, -⟩ := hopposed.staging_kept value hvalue
      exact ⟨v, hv⟩
    · exact hopposed.processed name value (by simp [hkind, hset, hflag])
        ((firstOf_prioritySources hflag hset hkind).trans hvalue)

/-- A class that leaves the names alone gets the documented arguments. -/
theorem Unopposed.documented (h : Given kinds settings kind staging kwargs cls)
    (hopposed : Unopposed parser settings kind staging kwargs cls) :
    Documented parser settings kind staging kwargs cls
      (parser.taken staging (configurationOf settings cls kwargs) cls) where
  given := by
    intro name value hdeclared hvalue
    have hkind : name ≠ "kind" := fun heq => hopposed.kind_undeclared (heq ▸ hdeclared)
    rw [Parser.taken, if_pos ((hopposed.taken name value hkind hvalue).mpr hdeclared)]
    by_cases hsettings : name = "settings"
    · subst hsettings
      obtain ⟨v, hv, hgiven⟩ := hopposed.settings_kept
      refine ⟨v, ?_, by rw [argument_settings, hv]; rfl⟩
      rw [firstOf_settings] at hvalue
      cases hkwargs : (Dict.ofList kwargs).get? "settings" with
      | none =>
          rw [hkwargs] at hvalue
          rw [← Option.some.inj hvalue]
          exact hv
      | some w =>
          rw [hkwargs] at hvalue
          rw [← Option.some.inj hvalue]
          exact hgiven w hdeclared hkwargs
    · by_cases hstaging : name = "staging"
      · subst hstaging
        rw [(firstOf_staging h).1] at hvalue
        obtain rfl := Option.some.inj hvalue
        refine ⟨staging, built_flag h, ?_⟩
        rw [argument_staging h]
        cases hblock : firstOf [blockOf settings cls, defaultBlock settings] "staging" with
        | none => rfl
        | some value' =>
            obtain ⟨v, hv, hsame⟩ := hopposed.staging_kept value' hblock
            rw [hsame hdeclared] at hv
            exact toOption_eq_some_iff.mpr hv
      · have hname : name ∉ ["kind", "settings", "staging"] := by
          simp [hkind, hsettings, hstaging]
        obtain ⟨v, hv⟩ := hopposed.processed name value hname hvalue
        refine ⟨v, hv, ?_⟩
        rw [argument_of_first hname hvalue, hv]
        rfl
  no_others := by
    intro name hname
    rw [Parser.taken]
    cases hvalue : firstOf (prioritySources settings kind staging kwargs cls) name with
    | none => rw [argument_of_no_source h hvalue, ite_self]
    | some value =>
        have hdeclared : name ∉ cls.declared := hname.resolve_right (by simp [hvalue])
        by_cases hkind : name = "kind"
        · rw [Parser.argument, if_pos hkind, ite_self]
        · exact if_neg fun hexpected =>
            hdeclared ((hopposed.taken name value hkind hvalue).mp hexpected)

/-- Where the class gets the documented arguments, the names were left alone. -/
theorem Documented.unopposed (h : Given kinds settings kind staging kwargs cls)
    (hfree : Free (configurationOf settings cls kwargs))
    (hall : ∀ name value, name ≠ "kind" →
      (configurationOf settings cls kwargs).get? name = some value →
        ∃ v, parser.built staging value = .ok v)
    (hdocumented : Documented parser settings kind staging kwargs cls
      (parser.taken staging (configurationOf settings cls kwargs) cls)) :
    Unopposed parser settings kind staging kwargs cls where
  names_free := hfree
  processed := by
    intro name value hname hvalue
    simp only [List.mem_cons, List.not_mem_nil, or_false, not_or] at hname
    obtain ⟨hkind, hsettings, hstaging⟩ := hname
    rw [firstOf_prioritySources hstaging hsettings hkind,
      ← configurationOf_get? hkind hsettings] at hvalue
    exact hall name value hkind hvalue
  taken := by
    intro name value hkind hvalue
    obtain ⟨v, hv⟩ := exists_argument hall hkind hvalue
    constructor
    · intro hexpected
      by_contra hdeclared
      have hnone := hdocumented.no_others name (Or.inl hdeclared)
      rw [Parser.taken, if_pos hexpected, hv] at hnone
      cases hnone
    · intro hdeclared
      obtain ⟨v', -, hargs⟩ := hdocumented.given name value hdeclared hvalue
      by_contra hexpected
      rw [Parser.taken, if_neg hexpected] at hargs
      cases hargs
  kind_undeclared := by
    intro hdeclared
    obtain ⟨value, hvalue⟩ := exists_kind h
    obtain ⟨v, -, hargs⟩ := hdocumented.given "kind" value hdeclared hvalue
    rw [Parser.taken, Parser.argument, if_pos rfl, ite_self] at hargs
    cases hargs
  staging_kept := by
    intro value hvalue
    have hconf : (configurationOf settings cls kwargs).get? "staging" = some value := by
      rw [configurationOf_get? (by decide) (by decide), (firstOf_staging h).2, hvalue]
    obtain ⟨v, hv⟩ := hall "staging" value (by decide) hconf
    refine ⟨v, hv, fun hdeclared => ?_⟩
    obtain ⟨v', hv', hargs⟩ := hdocumented.given "staging" staging hdeclared (firstOf_staging h).1
    obtain rfl := Except.ok.inj ((built_flag h).symm.trans hv')
    rw [Parser.taken] at hargs
    split at hargs
    · rw [argument_staging h, hvalue] at hargs
      exact Except.ok.inj (hv.symm.trans (toOption_eq_some_iff.mp hargs))
    · cases hargs
  settings_kept := by
    obtain ⟨v, hv⟩ := hall "settings" settings (by decide) configurationOf_settings
    refine ⟨v, hv, fun w hdeclared hkwargs => ?_⟩
    obtain ⟨v', hv', hargs⟩ := hdocumented.given "settings" w hdeclared
      (by rw [firstOf_settings, hkwargs]; rfl)
    rw [Parser.taken] at hargs
    split at hargs
    · rw [argument_settings, hv] at hargs
      rw [hv', ← Option.some.inj hargs]
    · cases hargs

/-- `new_gateway` calls the class with the documented arguments exactly where the names that it sets
itself are left alone: no block has another `staging`, no argument other `settings`. -/
theorem newGateway_priority_iff (h : Given kinds settings kind staging kwargs cls) :
    (∃ args, newGateway parser kinds settings kind staging kwargs = .ok (cls, args) ∧
        Documented parser settings kind staging kwargs cls args) ↔
      Unopposed parser settings kind staging kwargs cls := by
  constructor
  · rintro ⟨args, hcall, hdocumented⟩
    rw [newGateway_of_classOf h, newGateway_eq_ok_iff] at hcall
    obtain ⟨-, -, hfree, hall, hargs⟩ := hcall
    rw [(Prod.mk.inj hargs).2] at hdocumented
    exact hdocumented.unopposed h hfree hall
  · intro hopposed
    refine ⟨_, ?_, hopposed.documented h⟩
    rw [newGateway_of_classOf h, newGateway_eq_ok_iff]
    exact ⟨h.arguments, h.blocks, hopposed.names_free,
      fun name value hkind hvalue => hopposed.all_processed h hkind hvalue, rfl⟩

end

/-! ## A flag in the default block -/

def templateKinds : Dict String Callable :=
  .ofList [("TemplateApicast", templateApicast.callable)]

/-- The default block of a template gateway with further entries. -/
def templateSettings (entries : Block Bool) : Value Bool :=
  .mapping [("default", .mapping (("kind", .str "TemplateApicast") :: entries))]

theorem flagInDefault_given :
    Given templateKinds (templateSettings [("staging", .object false)]) none
      (.object true) [("name", .str "gw")] templateApicast.callable where
  arguments := rfl
  blocks := ⟨rfl, rfl⟩
  class_eq := rfl
  flag := rfl

/-- The flag of the default block takes the place of the argument. -/
theorem newGateway_flag_overridden :
    Given templateKinds (templateSettings [("staging", .object false)]) none
        (.object true) [("name", .str "gw")] templateApicast.callable ∧
      ¬ ∃ args, newGateway twoSubclasses.toParser templateKinds
            (templateSettings [("staging", .object false)]) none (.object true)
            [("name", .str "gw")] = .ok (templateApicast.callable, args) ∧
          Documented twoSubclasses.toParser (templateSettings [("staging", .object false)]) none
            (.object true) [("name", .str "gw")] templateApicast.callable args := by
  refine ⟨flagInDefault_given, ?_⟩
  rintro ⟨args, hcall, hdocumented⟩
  have hflag : ∃ call, newGateway twoSubclasses.toParser templateKinds
      (templateSettings [("staging", .object false)]) none (.object true)
      [("name", .str "gw")] = .ok call ∧ call.2 "staging" = some (.object false) := ⟨_, rfl, rfl⟩
  obtain ⟨call, hcall', hstaging⟩ := hflag
  rw [hcall] at hcall'
  rw [← Except.ok.inj hcall'] at hstaging
  obtain ⟨v, hv, hargs⟩ := hdocumented.given "staging" (.object true) (by decide) rfl
  have hpassed : args "staging" = some (.object false) := hstaging
  rw [hpassed] at hargs
  cases hargs
  cases hv

theorem newGateway_priority_iff_named :
    (∃ args, newGateway twoSubclasses.toParser templateKinds
        (templateSettings [("name", .str "apicast")]) none (.object true) [("name", .str "gw")] =
          .ok (templateApicast.callable, args) ∧
        Documented twoSubclasses.toParser (templateSettings [("name", .str "apicast")]) none
          (.object true) [("name", .str "gw")] templateApicast.callable args) ↔
      Unopposed twoSubclasses.toParser (templateSettings [("name", .str "apicast")]) none
        (.object true) [("name", .str "gw")] templateApicast.callable :=
  newGateway_priority_iff ⟨rfl, ⟨rfl, rfl⟩, rfl, rfl⟩

end ThreescaleTests.Gateways
