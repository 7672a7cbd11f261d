import ThreescaleTests.Gateways.SelfManaged

/-!
# The arguments of a gateway

The class of a gateway gets, for each of its parameters, what is built from the first
of three values: the argument of the function, the value in the block of the class and
the value in the default block.
-/

namespace ThreescaleTests.Gateways

open Library ThreescaleTests.Configuration

variable {O : Type}

/-! ## The arguments of a gateway -/

section

variable (parser : Parser O) (staging : Value O)

def Parser.built (value : Value O) : Except Exn (Value O) :=
  Configuration.built parser.kinds parser.construct (stagingGlobals staging) value

/-- No name of the configuration is bound by a call on the way. -/
def Free (conf : Dict String (Value O)) : Prop :=
  ∀ name ∈ conf.keys, name ∉ ["self", "global_kwargs", "method"]

/-- The argument of a name: what is built from its value, or the flag. -/
def Parser.argument (conf : Dict String (Value O)) (name : String) : Option (Value O) :=
  if name = "kind" then none
  else
    match conf.get? name with
    | some value => (parser.built staging value).toOption
    | none => if name = "staging" then some staging else none

/-- The arguments that are taken from a configuration. -/
def Parser.taken (conf : Dict String (Value O)) (method : Callable) : Args O := fun name =>
  if name ∈ method.expected then parser.argument staging conf name else none

variable {parser staging}

theorem get?_stagingGlobals (name : String) :
    (stagingGlobals staging).get? name = if name = "staging" then some staging else none := by
  rw [stagingGlobals, Dict.ofList, Dict.update_cons, Dict.update_nil, Dict.get?_set,
    Dict.get?_empty]

theorem mem_keys_stagingGlobals {name : String} :
    name ∈ (stagingGlobals staging).keys ↔ name = "staging" := by
  rw [← Dict.isSome_get?_iff, get?_stagingGlobals]
  by_cases h : name = "staging"
  · simp [h]
  · simp [h]

theorem lookup_items {conf : Dict String (Value O)} (name : String) :
    conf.items.lookup name = conf.get? name := rfl

theorem mem_keys_update_block {conf : Dict String (Value O)} {block : Block O}
    (hnames : block.map Prod.fst = names conf.items) {name : String} :
    name ∈ ((stagingGlobals staging).update block).keys ↔
      (name ∈ conf.keys ∧ name ≠ "kind") ∨ name = "staging" := by
  rw [Dict.mem_keys_update, hnames, mem_names, mem_keys_stagingGlobals]
  rfl

theorem free_of_refuse {conf : Dict String (Value O)} {block : Block O}
    (hnames : block.map Prod.fst = names conf.items)
    (hrefuse : refuse ["self", "global_kwargs"] (conf.items.map Prod.fst) = .ok ())
    (hpassed : refuse ["method"] ((stagingGlobals staging).update block).keys = .ok ()) :
    Free conf := by
  rw [refuse_eq_ok_iff] at hrefuse hpassed
  intro name hname hreserved
  have hbound := hrefuse name hname
  simp only [List.mem_cons, List.not_mem_nil, or_false, not_or] at hreserved hbound
  have hmethod : name = "method" := by
    rcases hreserved with heq | heq | heq
    · exact absurd heq hbound.1
    · exact absurd heq hbound.2
    · exact heq
  have hkey : name ∈ ((stagingGlobals staging).update block).keys := by
    rw [mem_keys_update_block hnames, hmethod]
    exact Or.inl ⟨hmethod ▸ hname, by decide⟩
  exact hpassed name hkey (List.mem_singleton.mpr hmethod)

theorem refuse_of_free {conf : Dict String (Value O)} {block : Block O}
    (hnames : block.map Prod.fst = names conf.items) (hfree : Free conf) :
    refuse ["self", "global_kwargs"] (conf.items.map Prod.fst) = .ok () ∧
      refuse ["method"] ((stagingGlobals staging).update block).keys = .ok () := by
  rw [refuse_eq_ok_iff, refuse_eq_ok_iff]
  constructor
  · intro name hname hreserved
    refine hfree name hname ?_
    simp only [List.mem_cons, List.not_mem_nil, or_false] at hreserved ⊢
    tauto
  · intro name hname hmethod
    rw [List.mem_singleton] at hmethod
    rcases (mem_keys_update_block hnames).mp hname with ⟨hkey, -⟩ | hstaging
    · exact hfree name hkey (by simp [hmethod])
    · rw [hmethod] at hstaging
      exact absurd hstaging (by decide)

theorem argument_eq {conf : Dict String (Value O)} {block : Block O}
    (hblock : builtBlock parser.kinds parser.construct (stagingGlobals staging) conf.items =
      .ok block)
    (hall : ∀ name value, name ≠ "kind" → conf.get? name = some value →
      ∃ v, parser.built staging value = .ok v) (name : String) :
    ((stagingGlobals staging).update block).get? name = parser.argument staging conf name := by
  have hnodup : (block.map Prod.fst).Nodup := by
    rw [names_of_builtBlock_ok hblock]
    exact conf.nodup.filter _
  rw [Dict.get?_update hnodup, lookup_of_builtBlock_ok hblock, get?_stagingGlobals,
    Parser.argument, lookup_items]
  by_cases hkind : name = "kind"
  · subst hkind
    rfl
  · rw [if_neg hkind, if_neg hkind]
    cases hget : conf.get? name with
    | none => rfl
    | some value =>
        obtain ⟨v, hv⟩ := hall name value hkind hget
        have hbuilt : Configuration.built parser.kinds parser.construct (stagingGlobals staging)
            value = .ok v := hv
        rw [Option.bind_some]
        show (Except.toOption _).or _ = (Parser.built parser staging value).toOption
        rw [hv, hbuilt]
        rfl

/-- When the configuration leads to a call, and to which. -/
theorem construction_eq_ok_iff {conf : Dict String (Value O)} {method : Callable}
    (hkind : conf.get? "kind" = some (.callable method)) {call : Call O} :
    construction parser.kinds parser.construct (stagingGlobals staging) conf.items = .ok call ↔
      Free conf ∧ (∀ name value, name ≠ "kind" → conf.get? name = some value →
        ∃ v, parser.built staging value = .ok v) ∧
      call = (method, parser.taken staging conf method) := by
  have hresolve : resolve parser.kinds (conf.items.lookup "kind") = .ok method := by
    rw [lookup_items, hkind]
    rfl
  rw [construction_eq, hresolve]
  constructor
  · intro h
    obtain ⟨hrefuse, h⟩ := seq_eq_ok_iff.mp h
    rw [ok_bind] at h
    obtain ⟨block, hblock, h⟩ := bind_eq_ok_iff.mp h
    obtain ⟨hpassed, h⟩ := seq_eq_ok_iff.mp h
    have hbuilt : ∀ name value, name ≠ "kind" → conf.get? name = some value →
        ∃ v, parser.built staging value = .ok v := by
      intro name value hname hget
      exact exists_built_of_builtBlock_ok hblock (name, value) (Dict.get?_eq_some_iff.mp hget)
        hname
    refine ⟨free_of_refuse (names_of_builtBlock_ok hblock) hrefuse hpassed, hbuilt, ?_⟩
    rw [← Except.ok.inj h]
    congr 1
    funext name
    rw [argument_eq hblock hbuilt, Parser.taken]
  · rintro ⟨hfree, hall, rfl⟩
    have hitems : ∀ field ∈ conf.items, field.1 ≠ "kind" →
        ∃ v, parser.built staging field.2 = .ok v :=
      fun field hfield hne => hall field.1 field.2 hne (Dict.get?_eq_some_iff.mpr hfield)
    obtain ⟨block, hblock⟩ := builtBlock_eq_ok hitems
    obtain ⟨hrefuse, hpassed⟩ := refuse_of_free (names_of_builtBlock_ok hblock) hfree
    rw [hrefuse, ok_bind, ok_bind, hblock, ok_bind, hpassed, ok_bind]
    show Except.ok _ = Except.ok _
    congr 2
    funext name
    rw [argument_eq hblock hall, Parser.taken]

end

/-! ## The blocks of the settings -/

def defaultBlock (settings : Value O) : Block O :=
  ((copiedDefault settings).toOption).getD []

def blockOf (settings : Value O) (cls : Callable) : Block O :=
  ((ownBlock settings cls).toOption).getD []

/-- The blocks can be read. -/
structure HasBlocks (settings : Value O) (cls : Callable) : Prop where
  default_eq : copiedDefault settings = .ok (defaultBlock settings)
  own_eq : ownBlock settings cls = .ok (blockOf settings cls)

theorem hasBlocks_of_ok {settings : Value O} {cls : Callable} {default own : Block O}
    (hdefault : copiedDefault settings = .ok default) (hown : ownBlock settings cls = .ok own) :
    HasBlocks settings cls := by
  constructor
  · rw [hdefault, defaultBlock, getD_toOption hdefault]
  · rw [hown, blockOf, getD_toOption hown]

/-- The blocks from which a class gets its arguments, the first one first. -/
def sources (settings : Value O) (cls : Callable) (kwargs : Block O) : List (Block O) :=
  [kwargs, blockOf settings cls, defaultBlock settings]

def configurationOf (settings : Value O) (cls : Callable) (kwargs : Block O) :
    Dict String (Value O) :=
  configuration settings cls (defaultBlock settings) (blockOf settings cls) kwargs

/-- The value of the first block that has the name. -/
def firstOf : List (Block O) → String → Option (Value O)
  | [], _ => none
  | block :: blocks, name => ((Dict.ofList block).get? name).or (firstOf blocks name)

/-- The argument of a name, from the first block that has it, or the flag. -/
def Parser.argumentOf (parser : Parser O) (staging : Value O) (blocks : List (Block O))
    (name : String) : Except Exn (Option (Value O)) :=
  match firstOf blocks name with
  | some value => (parser.built staging value).map some
  | none => .ok (if name = "staging" then some staging else none)

theorem mem_of_firstOf {blocks : List (Block O)} {name : String} {value : Value O}
    (h : firstOf blocks name = some value) : ∃ block ∈ blocks, (name, value) ∈ block := by
  induction blocks with
  | nil => cases h
  | cons block blocks ih =>
      rw [firstOf, Option.or_eq_some_iff] at h
      rcases h with h | ⟨-, h⟩
      · exact ⟨block, List.mem_cons_self, Dict.mem_of_get?_ofList h⟩
      · obtain ⟨block', hblock', hmem⟩ := ih h
        exact ⟨block', List.mem_cons_of_mem _ hblock', hmem⟩

section

variable {parser : Parser O} {settings staging : Value O} {cls : Callable} {kwargs : Block O}

theorem configurationOf_kind :
    (configurationOf settings cls kwargs).get? "kind" = some (.callable cls) := by
  simp [configurationOf, configuration]

theorem configurationOf_settings :
    (configurationOf settings cls kwargs).get? "settings" = some settings := by
  simp [configurationOf, configuration]

/-- The priority of the settings: arguments, block of the class, default block. -/
theorem configurationOf_get? {name : String} (hkind : name ≠ "kind")
    (hsettings : name ≠ "settings") :
    (configurationOf settings cls kwargs).get? name =
      firstOf (sources settings cls kwargs) name := by
  rw [configurationOf, configuration, Dict.get?_set_of_ne _ _ hsettings,
    Dict.get?_set_of_ne _ _ hkind, Dict.get?_update_or, Dict.get?_update_or, sources, firstOf,
    firstOf, firstOf, firstOf, Option.or_none]

theorem mem_keys_configurationOf {name : String} :
    name ∈ (configurationOf settings cls kwargs).keys ↔
      name = "settings" ∨ name = "kind" ∨ (firstOf (sources settings cls kwargs) name).isSome := by
  by_cases hsettings : name = "settings"
  · simp [hsettings, Dict.mem_keys_iff, configurationOf_settings]
  · by_cases hkind : name = "kind"
    · simp [hkind, Dict.mem_keys_iff, configurationOf_kind]
    · rw [← Dict.isSome_get?_iff, configurationOf_get? hkind hsettings]
      simp [hsettings, hkind]

/-- When a gateway of a class is built, and by which call. -/
theorem newGateway_eq_ok_iff {kinds : Dict String Callable} {call : Call O} :
    newGateway parser kinds settings (some (.cls cls)) staging kwargs = .ok call ↔
      refuse ["kinds", "settings_", "kind", "staging"] (kwargs.map Prod.fst) = .ok () ∧
      HasBlocks settings cls ∧ Free (configurationOf settings cls kwargs) ∧
      (∀ name value, name ≠ "kind" → (configurationOf settings cls kwargs).get? name = some value →
        ∃ v, parser.built staging value = .ok v) ∧
      call = (cls, parser.taken staging (configurationOf settings cls kwargs) cls) := by
  constructor
  · intro h
    obtain ⟨hrefuse, h⟩ := seq_eq_ok_iff.mp h
    obtain ⟨default, hdefault, h⟩ := bind_eq_ok_iff.mp h
    obtain ⟨cls', hcls, h⟩ := bind_eq_ok_iff.mp h
    obtain rfl : cls = cls' := Except.ok.inj hcls
    obtain ⟨own, hown, h⟩ := bind_eq_ok_iff.mp h
    have hblocks := hasBlocks_of_ok hdefault hown
    rw [hblocks.default_eq] at hdefault
    rw [hblocks.own_eq] at hown
    rw [← Except.ok.inj hdefault, ← Except.ok.inj hown] at h
    exact ⟨hrefuse, hblocks, (construction_eq_ok_iff configurationOf_kind).mp h⟩
  · rintro ⟨hrefuse, hblocks, h⟩
    rw [newGateway, hrefuse, ok_bind, hblocks.default_eq, ok_bind, classOf, ok_bind,
      hblocks.own_eq, ok_bind]
    exact (construction_eq_ok_iff configurationOf_kind).mpr h

/-- The argument of an ordinary name. -/
theorem argument_configurationOf {name : String} (hkind : name ≠ "kind")
    (hsettings : name ≠ "settings") :
    parser.argument staging (configurationOf settings cls kwargs) name =
      match firstOf (sources settings cls kwargs) name with
      | some value => (parser.built staging value).toOption
      | none => if name = "staging" then some staging else none := by
  rw [Parser.argument, if_neg hkind, configurationOf_get? hkind hsettings]

theorem argument_settings :
    parser.argument staging (configurationOf settings cls kwargs) "settings" =
      (parser.built staging settings).toOption := by
  rw [Parser.argument, if_neg (by decide), configurationOf_settings]

theorem argument_self (h : Free (configurationOf settings cls kwargs)) :
    parser.argument staging (configurationOf settings cls kwargs) "self" = none := by
  have hnone : (configurationOf settings cls kwargs).get? "self" = none :=
    Dict.get?_eq_none_iff.mpr fun hkey => h "self" hkey (by decide)
  rw [Parser.argument, if_neg (by decide), hnone]
  rfl

theorem argument_of_argumentOf {name : String} {argument : Option (Value O)}
    (hkind : name ≠ "kind") (hsettings : name ≠ "settings")
    (h : parser.argumentOf staging (sources settings cls kwargs) name = .ok argument) :
    parser.argument staging (configurationOf settings cls kwargs) name = argument := by
  rw [argument_configurationOf hkind hsettings]
  rw [Parser.argumentOf] at h
  cases hvalue : firstOf (sources settings cls kwargs) name with
  | none =>
      rw [hvalue] at h
      exact Except.ok.inj h
  | some value =>
      rw [hvalue] at h
      exact toOption_of_map_some h

theorem exists_argumentOf_iff {blocks : List (Block O)} {name : String} :
    (∃ argument, parser.argumentOf staging blocks name = .ok argument) ↔
      ∀ value, firstOf blocks name = some value → ∃ v, parser.built staging value = .ok v := by
  rw [Parser.argumentOf]
  cases hvalue : firstOf blocks name with
  | none => simp
  | some value =>
      cases hbuilt : parser.built staging value with
      | error e => simp [hbuilt, Except.map]
      | ok v => simp [hbuilt, Except.map]

/-- Settings without a kind stay as they are, and the other values come from the blocks. -/
theorem all_built_iff (hplain : isNode settings = false) :
    (∀ name value, name ≠ "kind" → (configurationOf settings cls kwargs).get? name = some value →
      ∃ v, parser.built staging value = .ok v) ↔
      ∀ name, name ≠ "kind" → name ≠ "settings" →
        ∃ argument, parser.argumentOf staging (sources settings cls kwargs) name =
          .ok argument := by
  constructor
  · intro h name hkind hsettings
    rw [exists_argumentOf_iff]
    intro value hvalue
    exact h name value hkind ((configurationOf_get? hkind hsettings).trans hvalue)
  · intro h name value hkind hvalue
    by_cases hsettings : name = "settings"
    · rw [hsettings, configurationOf_settings] at hvalue
      rw [← Option.some.inj hvalue]
      exact ⟨settings, built_of_not_isNode hplain⟩
    · rw [configurationOf_get? hkind hsettings] at hvalue
      exact exists_argumentOf_iff.mp (h name hkind hsettings) value hvalue

end

end ThreescaleTests.Gateways
