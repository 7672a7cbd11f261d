import ThreescaleTests.Configuration.SettingsParser

/-!
# Settings are interpreted bottom-up

The parser agrees with the recursive definition where every node may take exactly
the arguments that its callable declares. A recorder as behaviour of the callables
tells the two apart everywhere else; it also shows that the recursive definition
calls every node once, after the nodes below it.
-/

namespace ThreescaleTests.Configuration

open Library

variable {O σ : Type} {kinds : Dict String Callable} {globals : Dict String (Value O)}

/-! ## Where the parser keeps to the definition -/

/-- The call of a node takes what the callable declares: no argument has a name that a call on the
way binds itself, and the provided arguments that are taken are the declared ones. -/
structure Takes (globals : Dict String (Value O)) (method : Callable) (fields : Block O) :
    Prop where
  free : ∀ name ∈ names fields, name ≠ "self" ∧ name ≠ "global_kwargs"
  passed : ∀ name, name ∈ names fields ∨ name ∈ globals.keys → name ≠ "method"
  expected : ∀ name, name ∈ names fields ∨ name ∈ globals.keys →
    (name ∈ method.expected ↔ name ∈ method.declared)

/-- Every node of the list takes what its callable declares. -/
def AllTake (kinds : Dict String Callable) (globals : Dict String (Value O))
    (blocks : List (Block O)) : Prop :=
  ∀ block ∈ blocks, ∃ method, resolve kinds (block.lookup "kind") = .ok method ∧
    Takes globals method block

theorem AllTake.left {blocks blocks' : List (Block O)}
    (h : AllTake kinds globals (blocks ++ blocks')) : AllTake kinds globals blocks :=
  fun block hblock => h block (List.mem_append_left _ hblock)

theorem AllTake.right {blocks blocks' : List (Block O)}
    (h : AllTake kinds globals (blocks ++ blocks')) : AllTake kinds globals blocks' :=
  fun block hblock => h block (List.mem_append_right _ hblock)

theorem mem_names {fields : Block O} {name : String} :
    name ∈ names fields ↔ name ∈ fields.map Prod.fst ∧ name ≠ "kind" := by
  simp [names]

theorem names_cons {key : String} {value : Value O} {fields : Block O} (hkey : key ≠ "kind") :
    names ((key, value) :: fields) = key :: names fields := by
  simp [names, hkey]

theorem names_cons_kind {value : Value O} {fields : Block O} :
    names (("kind", value) :: fields) = names fields := by
  simp [names]

theorem refuse_eq_ok_iff {taken names : List String} :
    refuse taken names = .ok () ↔ ∀ name ∈ names, name ∉ taken := by
  unfold refuse
  split
  · rename_i h
    obtain ⟨name, hname, htaken⟩ := List.any_eq_true.mp h
    simp only [reduceCtorEq, false_iff, not_forall]
    exact ⟨name, hname, fun hnot => hnot (by simpa using htaken)⟩
  · rename_i h
    simp only [true_iff]
    intro name hname htaken
    exact h (List.any_eq_true.mpr ⟨name, hname, by simpa using htaken⟩)

/-- A block with permitted names is accepted. -/
theorem Takes.refuse_eq {method : Callable} {fields : Block O} (h : Takes globals method fields) :
    refuse ["self", "global_kwargs"] (fields.map Prod.fst) = .ok () := by
  rw [refuse_eq_ok_iff]
  intro name hname htaken
  by_cases hkind : name = "kind"
  · rw [hkind] at htaken
    exact absurd htaken (by decide)
  · have hfree := h.free name (mem_names.mpr ⟨hname, hkind⟩)
    simp only [List.mem_cons, List.not_mem_nil, or_false] at htaken
    rcases htaken with heq | heq
    · exact hfree.1 heq
    · exact hfree.2 heq

/-- The entries of an evaluated block have the names of the block. -/
theorem evaluateBlock_names {behave : Callable → Args O → Prog σ (Value O)} {fields : Block O} :
    ∀ {block : Block O} {s t : σ},
      (evaluateBlock kinds behave globals fields).run s = (.ok block, t) →
        block.map Prod.fst = names fields := by
  induction fields with
  | nil =>
      intro block s t h
      rw [evaluateBlock, Prog.pure_run, Prod.mk.injEq, Except.ok.injEq] at h
      rw [← h.1]
      rfl
  | cons field fields ih =>
      obtain ⟨key, value⟩ := field
      intro block s t h
      rw [evaluateBlock] at h
      by_cases hkey : key = "kind"
      · rw [if_pos hkey] at h
        rw [hkey, names_cons_kind]
        exact ih h
      · rw [if_neg hkey] at h
        obtain ⟨result, s', -, h⟩ := Prog.exists_of_bind_ok h
        obtain ⟨rest, t', hrest, h⟩ := Prog.exists_of_bind_ok h
        rw [Prog.pure_run, Prod.mk.injEq, Except.ok.injEq] at h
        rw [← h.1, names_cons hkey, List.map_cons, ih hrest]

/-- The call of a node passes the declared parameters. -/
theorem call_eq {behave : Callable → Args O → Prog σ (Value O)} {method : Callable}
    {fields block : Block O} (h : Takes globals method fields)
    (hblock : block.map Prod.fst = names fields) :
    (call behave method (globals.update block)) =
      behave method (arguments globals method (Dict.ofList block)) := by
  have hkeys (name : String) : name ∈ (globals.update block).keys ↔
      name ∈ names fields ∨ name ∈ globals.keys := by
    rw [Dict.mem_keys_update, hblock]
  have hfree : refuse ["method"] (globals.update block).keys = .ok () := by
    rw [refuse_eq_ok_iff]
    intro name hname htaken
    exact h.passed name ((hkeys name).mp hname) (List.mem_singleton.mp htaken)
  have hargs : (fun name => if name ∈ method.expected then (globals.update block).get? name
      else none) = arguments globals method (Dict.ofList block) := by
    funext name
    rw [arguments, ← Dict.get?_update_or]
    by_cases hname : name ∈ (globals.update block).keys
    · exact if_congr (h.expected name ((hkeys name).mp hname)) rfl rfl
    · rw [Dict.get?_eq_none_iff.mpr hname, ite_self, ite_self]
  rw [call, hfree, hargs]
  rfl

/-- A program whose result is changed by a function. -/
theorem run_bind_pure {α β : Type} (m : Prog σ α) (f : α → β) (s : σ) :
    (m >>= fun a => pure (f a)).run s = ((m.run s).1.map f, (m.run s).2) := by
  cases h : m.run s with
  | mk r t =>
      cases r with
      | ok a => rw [Prog.bind_of_ok h]; rfl
      | error e => rw [Prog.bind_of_error h]; rfl

/-! ## The simulation -/

section

variable {behave : Callable → Args O → Prog σ (Value O)}

theorem process_mapping {fields : Block O} (hkind : hasKind fields) :
    process kinds behave globals (.mapping fields) = (do
      Prog.lift (refuse ["self", "global_kwargs"] (fields.map Prod.fst))
      let method ← Prog.lift (resolve kinds (fields.lookup "kind"))
      let processed ← processKwargs kinds behave globals fields globals
      call behave method processed) := by
  rw [process, if_pos hkind]

theorem evaluate_mapping {fields : Block O} (hkind : hasKind fields) :
    evaluate kinds behave globals (.mapping fields) = (do
      let method ← Prog.lift (resolve kinds (fields.lookup "kind"))
      let block ← evaluateBlock kinds behave globals fields
      behave method (arguments globals method (Dict.ofList block))) := by
  rw [evaluate, if_pos hkind]

mutual

/-- The parser and the definition, on a tree whose nodes all take what they should. -/
theorem process_eq_evaluate : ∀ (value : Value O) (s : σ), AllTake kinds globals (nodes value) →
    (process kinds behave globals value).run s = (evaluate kinds behave globals value).run s
  | .str _, _, _ => by rw [process, evaluate]
  | .callable _, _, _ => by rw [process, evaluate]
  | .object _, _, _ => by rw [process, evaluate]
  | .mapping fields, s, h => by
      by_cases hkind : hasKind fields
      · rw [nodes, if_pos hkind] at h
        rw [process_mapping hkind, evaluate_mapping hkind]
        obtain ⟨method, hmethod, htakes⟩ := h.right fields (List.mem_singleton_self fields)
        have hblock := processKwargs_eq_evaluateBlock fields globals s h.left
        rw [htakes.refuse_eq, hmethod, Prog.bind_of_ok (Prog.lift_run _ s),
          Prog.bind_of_ok (Prog.lift_run _ s), Prog.bind_of_ok (Prog.lift_run _ s)]
        cases hrun : (evaluateBlock kinds behave globals fields).run s with
        | mk r t =>
            rw [hrun] at hblock
            cases r with
            | error e => rw [Prog.bind_of_error hblock, Prog.bind_of_error hrun]
            | ok block =>
                rw [Prog.bind_of_ok hblock, Prog.bind_of_ok hrun,
                  call_eq htakes (evaluateBlock_names hrun)]
      · rw [process, evaluate, if_neg hkind, if_neg hkind]

theorem processKwargs_eq_evaluateBlock : ∀ (fields : Block O) (processed : Dict String (Value O))
    (s : σ), AllTake kinds globals (nodesOfBlock fields) →
      (processKwargs kinds behave globals fields processed).run s =
        (((evaluateBlock kinds behave globals fields).run s).1.map fun block =>
          processed.update block, ((evaluateBlock kinds behave globals fields).run s).2)
  | [], _, _, _ => by rw [processKwargs, evaluateBlock]; rfl
  | (key, value) :: fields, processed, s, h => by
      rw [processKwargs, evaluateBlock]
      by_cases hkey : key = "kind"
      · rw [nodesOfBlock, if_pos hkey] at h
        rw [if_pos hkey, if_pos hkey]
        exact processKwargs_eq_evaluateBlock fields processed s h
      · rw [nodesOfBlock, if_neg hkey] at h
        rw [if_neg hkey, if_neg hkey]
        have hvalue := process_eq_evaluate value s h.left
        cases hrun : (evaluate kinds behave globals value).run s with
        | mk r t =>
            rw [hrun] at hvalue
            cases r with
            | error e =>
                rw [Prog.bind_of_error hvalue, Prog.bind_of_error hrun]
                rfl
            | ok result =>
                rw [Prog.bind_of_ok hvalue, Prog.bind_of_ok hrun, run_bind_pure,
                  processKwargs_eq_evaluateBlock fields (processed.set key result) t h.right]
                cases ((evaluateBlock kinds behave globals fields).run t).1 <;> rfl

end

end

/-! ## A recorder -/

/-- A call of a callable with its arguments. -/
abbrev Call (O : Type) := Callable × Args O

/-- Every call is written down, and builds the same value. -/
def recorder (method : Callable) (args : Args O) : Prog (List (Call O)) (Value O) :=
  ⟨fun calls => (.ok (.str ""), calls ++ [(method, args)])⟩

/-- What the recorder makes of a value. -/
def recorded : Value O → Value O
  | .mapping fields => if hasKind fields then .str "" else .mapping fields
  | value => value

def recordedBlock : Block O → Block O
  | [] => []
  | (key, value) :: fields =>
      if key = "kind" then recordedBlock fields else (key, recorded value) :: recordedBlock fields

theorem recordedBlock_names (fields : Block O) :
    (recordedBlock fields).map Prod.fst = names fields := by
  induction fields with
  | nil => rfl
  | cons field fields ih =>
      obtain ⟨key, value⟩ := field
      by_cases hkey : key = "kind"
      · rw [recordedBlock, if_pos hkey, ih, hkey, names_cons_kind]
      · rw [recordedBlock, if_neg hkey, names_cons hkey, List.map_cons, ih]

/-- The kinds of all nodes are registered. -/
def Registered (kinds : Dict String Callable) (blocks : List (Block O)) : Prop :=
  ∀ block ∈ blocks, ∃ method, resolve kinds (block.lookup "kind") = .ok method

theorem Registered.left {blocks blocks' : List (Block O)}
    (h : Registered kinds (blocks ++ blocks')) : Registered kinds blocks :=
  fun block hblock => h block (List.mem_append_left _ hblock)

theorem Registered.right {blocks blocks' : List (Block O)}
    (h : Registered kinds (blocks ++ blocks')) : Registered kinds blocks' :=
  fun block hblock => h block (List.mem_append_right _ hblock)

/-- The callable of a node; the default is never one of a registered node. -/
def methodOf (kinds : Dict String Callable) (block : Block O) : Callable :=
  match resolve kinds (block.lookup "kind") with
  | .ok method => method
  | .error _ => .function "" []

theorem methodOf_eq {block : Block O} {method : Callable}
    (h : resolve kinds (block.lookup "kind") = .ok method) : methodOf kinds block = method := by
  rw [methodOf, h]

/-- The call that the definition makes for a node. -/
def declaredCall (kinds : Dict String Callable) (globals : Dict String (Value O))
    (block : Block O) : Call O :=
  (methodOf kinds block,
    arguments globals (methodOf kinds block) (Dict.ofList (recordedBlock block)))

/-- The call that the parser makes for a node. -/
def expectedCall (kinds : Dict String Callable) (globals : Dict String (Value O))
    (block : Block O) : Call O :=
  (methodOf kinds block, fun name =>
    if name ∈ (methodOf kinds block).expected then
      (globals.update (recordedBlock block)).get? name
    else none)

mutual

/-- The definition calls every node once, in the order in which they are built. -/
theorem evaluate_recorder : ∀ (value : Value O) (calls : List (Call O)),
    Registered kinds (nodes value) →
      (evaluate kinds recorder globals value).run calls =
        (.ok (recorded value), calls ++ (nodes value).map (declaredCall kinds globals))
  | .str _, calls, _ => by simp [evaluate, recorded, nodes]
  | .callable _, calls, _ => by simp [evaluate, recorded, nodes]
  | .object _, calls, _ => by simp [evaluate, recorded, nodes]
  | .mapping fields, calls, h => by
      by_cases hkind : hasKind fields
      · rw [nodes, if_pos hkind] at h ⊢
        obtain ⟨method, hmethod⟩ := h.right fields (List.mem_singleton_self fields)
        have hblock := evaluateBlock_recorder fields calls h.left
        rw [evaluate_mapping hkind, hmethod, Prog.bind_of_ok (Prog.lift_run _ calls),
          Prog.bind_of_ok hblock, recorded, if_pos hkind, List.map_append, ← List.append_assoc,
          List.map_singleton, declaredCall, methodOf_eq hmethod]
        rfl
      · rw [evaluate, if_neg hkind, recorded, if_neg hkind, nodes, if_neg hkind]
        simp

theorem evaluateBlock_recorder : ∀ (fields : Block O) (calls : List (Call O)),
    Registered kinds (nodesOfBlock fields) →
      (evaluateBlock kinds recorder globals fields).run calls =
        (.ok (recordedBlock fields),
          calls ++ (nodesOfBlock fields).map (declaredCall kinds globals))
  | [], calls, _ => by simp [evaluateBlock, recordedBlock, nodesOfBlock]
  | (key, value) :: fields, calls, h => by
      rw [evaluateBlock, recordedBlock, nodesOfBlock]
      by_cases hkey : key = "kind"
      · rw [nodesOfBlock, if_pos hkey] at h
        rw [if_pos hkey, if_pos hkey, if_pos hkey]
        exact evaluateBlock_recorder fields calls h
      · rw [nodesOfBlock, if_neg hkey] at h
        rw [if_neg hkey, if_neg hkey, if_neg hkey,
          Prog.bind_of_ok (evaluate_recorder value calls h.left), run_bind_pure,
          evaluateBlock_recorder fields _ h.right, List.map_append, List.append_assoc]
        rfl

end

/-- The names of a block are permitted. -/
structure Permitted (globals : Dict String (Value O)) (fields : Block O) : Prop where
  free : ∀ name ∈ names fields, name ≠ "self" ∧ name ≠ "global_kwargs"
  passed : ∀ name, name ∈ names fields ∨ name ∈ globals.keys → name ≠ "method"

theorem permitted_of_refuse {fields : Block O}
    (hfree : refuse ["self", "global_kwargs"] (fields.map Prod.fst) = .ok ())
    (hpassed : refuse ["method"] (globals.update (recordedBlock fields)).keys = .ok ()) :
    Permitted globals fields := by
  rw [refuse_eq_ok_iff] at hfree hpassed
  constructor
  · intro name hname
    have htaken := hfree name (mem_names.mp hname).1
    simpa using htaken
  · intro name hname heq
    have hkey : name ∈ (globals.update (recordedBlock fields)).keys := by
      rw [Dict.mem_keys_update, recordedBlock_names]
      exact hname
    exact hpassed name hkey (List.mem_singleton.mpr heq)

mutual

/-- A run of the parser that returns made one call for each node, in the same order. -/
theorem process_recorder : ∀ (value : Value O) {calls calls' : List (Call O)} {result : Value O},
    (process kinds recorder globals value).run calls = (.ok result, calls') →
      result = recorded value ∧
        calls' = calls ++ (nodes value).map (expectedCall kinds globals) ∧
        ∀ block ∈ nodes value, Permitted globals block
  | .str _, calls, calls', result, h => by
      rw [process] at h
      cases h
      simp [recorded, nodes]
  | .callable _, calls, calls', result, h => by
      rw [process] at h
      cases h
      simp [recorded, nodes]
  | .object _, calls, calls', result, h => by
      rw [process] at h
      cases h
      simp [recorded, nodes]
  | .mapping fields, calls, calls', result, h => by
      by_cases hkind : hasKind fields
      · rw [process_mapping hkind] at h
        obtain ⟨_, hfree, h⟩ := Prog.exists_of_lift_bind_ok h
        obtain ⟨method, hmethod, h⟩ := Prog.exists_of_lift_bind_ok h
        obtain ⟨processed, s, hprocess, h⟩ := Prog.exists_of_bind_ok h
        obtain ⟨rfl, rfl, hpermitted⟩ := processKwargs_recorder fields hprocess
        obtain ⟨_, hpassed, h⟩ := Prog.exists_of_lift_bind_ok h
        cases h
        rw [recorded, if_pos hkind, nodes, if_pos hkind]
        refine ⟨rfl, ?_, ?_⟩
        · rw [List.map_append, List.map_singleton, expectedCall, methodOf_eq hmethod,
            List.append_assoc]
        · intro block hblock
          rcases List.mem_append.mp hblock with hblock | hblock
          · exact hpermitted block hblock
          · rw [List.mem_singleton.mp hblock]
            exact permitted_of_refuse hfree hpassed
      · rw [process, if_neg hkind] at h
        cases h
        simp [recorded, hkind, nodes]

theorem processKwargs_recorder : ∀ (fields : Block O) {calls calls' : List (Call O)}
    {processed processed' : Dict String (Value O)},
    (processKwargs kinds recorder globals fields processed).run calls = (.ok processed', calls') →
      processed' = processed.update (recordedBlock fields) ∧
        calls' = calls ++ (nodesOfBlock fields).map (expectedCall kinds globals) ∧
        ∀ block ∈ nodesOfBlock fields, Permitted globals block
  | [], calls, calls', processed, processed', h => by
      rw [processKwargs] at h
      cases h
      simp [recordedBlock, nodesOfBlock]
  | (key, value) :: fields, calls, calls', processed, processed', h => by
      rw [processKwargs] at h
      rw [recordedBlock, nodesOfBlock]
      by_cases hkey : key = "kind"
      · rw [if_pos hkey] at h ⊢
        rw [if_pos hkey]
        exact processKwargs_recorder fields h
      · rw [if_neg hkey] at h ⊢
        rw [if_neg hkey]
        obtain ⟨result, s, hvalue, h⟩ := Prog.exists_of_bind_ok h
        obtain ⟨rfl, rfl, hpermitted⟩ := process_recorder value hvalue
        obtain ⟨rfl, rfl, hpermitted'⟩ := processKwargs_recorder fields h
        refine ⟨rfl, ?_, ?_⟩
        · rw [List.map_append, List.append_assoc]
        · intro block hblock
          rcases List.mem_append.mp hblock with hblock | hblock
          · exact hpermitted block hblock
          · exact hpermitted' block hblock

end

/-! ## Exactly when the parser is the definition -/

/-- Whatever the callables do, the parser does what the recursive definition says: the same calls in
the same order with the same arguments, and the same result. -/
def Interprets (kinds : Dict String Callable) (globals : Dict String (Value O))
    (tree : Value O) : Prop :=
  ∀ (σ : Type) (behave : Callable → Args O → Prog σ (Value O)) (s : σ),
    (process kinds behave globals tree).run s = (evaluate kinds behave globals tree).run s

/-- Equal calls take the declared arguments only. -/
theorem expected_iff_of_calls {block : Block O}
    (h : expectedCall kinds globals block = declaredCall kinds globals block) {name : String}
    (hname : name ∈ names block ∨ name ∈ globals.keys) :
    name ∈ (methodOf kinds block).expected ↔ name ∈ (methodOf kinds block).declared := by
  have hkey : name ∈ (globals.update (recordedBlock block)).keys := by
    rw [Dict.mem_keys_update, recordedBlock_names]
    exact hname
  obtain ⟨value, hvalue⟩ := Dict.mem_keys_iff.mp hkey
  have hargs := congrFun (Prod.mk.inj h).2 name
  rw [arguments, ← Dict.get?_update_or, hvalue] at hargs
  by_cases hexpected : name ∈ (methodOf kinds block).expected
  · by_cases hdeclared : name ∈ (methodOf kinds block).declared
    · exact iff_of_true hexpected hdeclared
    · rw [if_pos hexpected, if_neg hdeclared] at hargs
      cases hargs
  · by_cases hdeclared : name ∈ (methodOf kinds block).declared
    · rw [if_neg hexpected, if_pos hdeclared] at hargs
      cases hargs
    · exact iff_of_false hexpected hdeclared

/-- A tree of registered kinds is interpreted by the definition exactly if every node may take the
arguments that its callable declares. -/
theorem process_interprets_iff (kinds : Dict String Callable) (globals : Dict String (Value O))
    (tree : Value O) (hregistered : Registered kinds (nodes tree)) :
    Interprets kinds globals tree ↔ AllTake kinds globals (nodes tree) := by
  constructor
  · intro hinterprets block hblock
    have hevaluate : (evaluate kinds recorder globals tree).run [] =
        (.ok (recorded tree), [] ++ (nodes tree).map (declaredCall kinds globals)) :=
      evaluate_recorder tree [] hregistered
    have hprocess := hinterprets _ recorder []
    rw [hevaluate] at hprocess
    obtain ⟨-, hcalls, hpermitted⟩ := process_recorder tree hprocess
    have hcall := List.map_inj_left.mp (List.append_cancel_left hcalls) block hblock
    obtain ⟨method, hmethod⟩ := hregistered block hblock
    refine ⟨method, hmethod, (hpermitted block hblock).free, (hpermitted block hblock).passed, ?_⟩
    intro name hname
    rw [← methodOf_eq hmethod]
    exact expected_iff_of_calls hcall.symm hname
  · intro htakes σ behave s
    exact process_eq_evaluate tree s htakes

/-- A class with a constructor takes what it declares unless an argument has a name that is bound on
the way. -/
theorem takes_ofInit {name : String} {parameters : List String} {fields : Block O}
    (h : ∀ key ∈ names fields ++ globals.keys, key ∉ ["self", "global_kwargs", "method"]) :
    Takes globals (.ofInit name parameters) fields := by
  have hprovided {key : String} (hkey : key ∈ names fields ∨ key ∈ globals.keys) :
      key ≠ "self" ∧ key ≠ "global_kwargs" ∧ key ≠ "method" := by
    simpa using h key (List.mem_append.mpr hkey)
  constructor
  · intro key hkey
    exact ⟨(hprovided (Or.inl hkey)).1, (hprovided (Or.inl hkey)).2.1⟩
  · intro key hkey
    exact (hprovided hkey).2.2
  · intro key hkey
    show key ∈ "self" :: parameters ↔ key ∈ parameters
    simp [(hprovided hkey).1]

/-- The kinds that are registered when the module is loaded. -/
def registeredKinds : Dict String Callable :=
  Dict.ofList [("OpenShiftClient",
    .ofInit "OpenShiftClient" ["project_name", "server_url", "token"])]

def gatewayTree : Value Bool :=
  .mapping [("kind", .callable (.ofInit "TemplateApicast" ["staging", "openshift", "template"])),
    ("openshift", .mapping [("kind", .str "OpenShiftClient"), ("project_name", .str "3scale")]),
    ("template", .str "apicast.yml")]

theorem process_interprets_gateway :
    Interprets registeredKinds (Dict.ofList [("staging", .object true)]) gatewayTree := by
  have hblocks : nodes gatewayTree =
      [[("kind", .str "OpenShiftClient"), ("project_name", .str "3scale")],
        [("kind", .callable (.ofInit "TemplateApicast" ["staging", "openshift", "template"])),
          ("openshift", .mapping [("kind", .str "OpenShiftClient"),
            ("project_name", .str "3scale")]),
          ("template", .str "apicast.yml")]] := rfl
  have htakes : AllTake registeredKinds (Dict.ofList [("staging", .object true)])
      (nodes gatewayTree) := by
    rw [hblocks]
    intro block hblock
    simp only [List.mem_cons, List.not_mem_nil, or_false] at hblock
    rcases hblock with rfl | rfl
    · exact ⟨_, rfl, takes_ofInit (by decide)⟩
    · exact ⟨_, rfl, takes_ofInit (by decide)⟩
  refine (process_interprets_iff _ _ _ ?_).mpr htakes
  intro block hblock
  obtain ⟨method, hmethod, -⟩ := htakes block hblock
  exact ⟨method, hmethod⟩

/-- A function and a named tuple are called without the parameters that they declare. -/
theorem process_function_not_interpreted :
    ¬ Interprets (Dict.ofList [("openshift", .function "openshift" ["server", "project"])])
        Dict.empty
        (.mapping [("kind", .str "openshift"), ("project", .str "tools")] : Value Unit) ∧
      ¬ Interprets (Dict.ofList [("CreditCard", .cls "CreditCard"
          ["number", "cvc", "exp_month", "exp_year"] ["self", "args", "kwargs"] none)])
        Dict.empty
        (.mapping [("kind", .str "CreditCard"), ("number", .str "4111")] : Value Unit) := by
  constructor
  · intro h
    have hcalls := congrArg (fun r => r.2.map fun call => (call.2 "project").isSome)
      (h _ recorder [])
    exact absurd hcalls (by decide)
  · intro h
    have hcalls := congrArg (fun r => r.2.map fun call => (call.2 "number").isSome)
      (h _ recorder [])
    exact absurd hcalls (by decide)

end ThreescaleTests.Configuration
