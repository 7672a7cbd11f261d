import ThreescaleTests.Configuration.BottomUp

/-!
# The call in which a node ends

Processing a node comes down to one call, with arguments that were built from the
block and the globals. Here the callables construct objects and have no other
effect, so that what is built from a value depends on the value and the globals only.
-/

namespace ThreescaleTests.Configuration

open Library

variable {O σ : Type}

section

variable (kinds : Dict String Callable) (behave : Callable → Args O → Prog σ (Value O))
  (globals : Dict String (Value O))

/-- `process` of a node, up to the call. -/
def prepare (fields : Block O) : Prog σ (Call O) := do
  Prog.lift (refuse ["self", "global_kwargs"] (fields.map Prod.fst))
  let method ← Prog.lift (resolve kinds (fields.lookup "kind"))
  let processed ← processKwargs kinds behave globals fields globals
  Prog.lift (refuse ["method"] processed.keys)
  pure (method, fun name => if name ∈ method.expected then processed.get? name else none)

end

/-- What remains of `process` is the call. -/
theorem process_run_eq_prepare {kinds : Dict String Callable}
    {behave : Callable → Args O → Prog σ (Value O)} {globals : Dict String (Value O)}
    {fields : Block O} (hkind : hasKind fields) (s : σ) :
    (process kinds behave globals (.mapping fields)).run s =
      (prepare kinds behave globals fields >>= fun call => behave call.1 call.2).run s := by
  rw [process_mapping hkind, prepare]
  cases refuse ["self", "global_kwargs"] (fields.map Prod.fst) with
  | error e => rfl
  | ok _ =>
      cases resolve kinds (fields.lookup "kind") with
      | error e => rfl
      | ok method =>
          cases hprocessed : (processKwargs kinds behave globals fields globals).run s with
          | mk r t =>
              cases r with
              | error e => simp only [bind, Prog.lift, hprocessed]
              | ok processed =>
                  simp only [bind, Prog.lift, hprocessed, call]
                  cases refuse ["method"] processed.keys <;> rfl

/-! ## Constructors without effects -/

variable (kinds : Dict String Callable) (construct : Callable → Args O → Except Exn O)
  (globals : Dict String (Value O))

def constructing (method : Callable) (args : Args O) : Prog Unit (Value O) :=
  Prog.lift ((construct method args).map Value.object)

/-- What is built from a value. -/
def built (value : Value O) : Except Exn (Value O) :=
  ((process kinds (constructing construct) globals value).run ()).1

def builtBlock : Block O → Except Exn (Block O)
  | [] => .ok []
  | (key, value) :: fields =>
      if key = "kind" then builtBlock fields
      else do
        let result ← built kinds construct globals value
        let block ← builtBlock fields
        pure ((key, result) :: block)

/-- The call of a node whose callables only construct. -/
def construction (fields : Block O) : Except Exn (Call O) :=
  ((prepare kinds (constructing construct) globals fields).run ()).1

variable {kinds construct globals}

variable (kinds construct globals) in
theorem processKwargs_constructing (fields : Block O) (processed : Dict String (Value O)) :
    ((processKwargs kinds (constructing construct) globals fields processed).run ()).1 =
      (builtBlock kinds construct globals fields).map processed.update := by
  induction fields generalizing processed with
  | nil => rw [processKwargs]; rfl
  | cons field fields ih =>
      obtain ⟨key, value⟩ := field
      rw [processKwargs, builtBlock]
      by_cases hkey : key = "kind"
      · rw [if_pos hkey, if_pos hkey]
        exact ih processed
      · rw [if_neg hkey, if_neg hkey, built]
        cases hvalue : (process kinds (constructing construct) globals value).run () with
        | mk r t =>
            cases r with
            | error e => rw [Prog.bind_of_error hvalue]; rfl
            | ok result =>
                rw [Prog.bind_of_ok hvalue, ih (processed.set key result)]
                cases builtBlock kinds construct globals fields <;> rfl

/-- The construction, with the built block at once. -/
theorem construction_eq (fields : Block O) :
    construction kinds construct globals fields = (do
      refuse ["self", "global_kwargs"] (fields.map Prod.fst)
      let method ← resolve kinds (fields.lookup "kind")
      let block ← builtBlock kinds construct globals fields
      refuse ["method"] (globals.update block).keys
      pure (method, fun name =>
        if name ∈ method.expected then (globals.update block).get? name else none)) := by
  rw [construction, prepare]
  cases refuse ["self", "global_kwargs"] (fields.map Prod.fst) with
  | error e => rfl
  | ok _ =>
      rw [ok_bind, Prog.bind_of_ok (Prog.lift_run _ ())]
      cases resolve kinds (fields.lookup "kind") with
      | error e => rfl
      | ok method =>
          have hprocessed := processKwargs_constructing kinds construct globals fields globals
          rw [ok_bind, Prog.bind_of_ok (Prog.lift_run _ ())]
          cases hrun : (processKwargs kinds (constructing construct) globals fields globals).run ()
            with
          | mk r t =>
              rw [hrun] at hprocessed
              cases hblock : builtBlock kinds construct globals fields with
              | error e =>
                  rw [hblock] at hprocessed
                  rw [Prog.bind_of_error (hrun.trans (congrArg (·, t) hprocessed))]
                  rfl
              | ok block =>
                  rw [hblock] at hprocessed
                  rw [Prog.bind_of_ok (hrun.trans (congrArg (·, t) hprocessed)), ok_bind]
                  cases refuse ["method"] (globals.update block).keys <;> rfl

/-- A block is built where each of its arguments is. -/
theorem builtBlock_eq_ok {fields : Block O}
    (h : ∀ field ∈ fields, field.1 ≠ "kind" → ∃ v, built kinds construct globals field.2 = .ok v) :
    ∃ block, builtBlock kinds construct globals fields = .ok block := by
  induction fields with
  | nil => exact ⟨[], rfl⟩
  | cons field fields ih =>
      obtain ⟨key, value⟩ := field
      obtain ⟨block, hblock⟩ := ih fun field hfield => h field (List.mem_cons_of_mem _ hfield)
      rw [builtBlock]
      by_cases hkey : key = "kind"
      · rw [if_pos hkey]
        exact ⟨block, hblock⟩
      · obtain ⟨v, hv⟩ := h (key, value) List.mem_cons_self hkey
        rw [if_neg hkey, hv, ok_bind, hblock]
        exact ⟨_, rfl⟩

/-- The kind is left out, and every other argument is built. -/
theorem builtBlock_cons_ok {key : String} {value : Value O} {fields block : Block O}
    (h : builtBlock kinds construct globals ((key, value) :: fields) = .ok block) :
    (key = "kind" ∧ builtBlock kinds construct globals fields = .ok block) ∨
      (key ≠ "kind" ∧ ∃ result rest, built kinds construct globals value = .ok result ∧
        builtBlock kinds construct globals fields = .ok rest ∧ block = (key, result) :: rest) := by
  rw [builtBlock] at h
  by_cases hkey : key = "kind"
  · rw [if_pos hkey] at h
    exact Or.inl ⟨hkey, h⟩
  · rw [if_neg hkey] at h
    obtain ⟨result, hresult, h⟩ := bind_eq_ok_iff.mp h
    obtain ⟨rest, hrest, h⟩ := bind_eq_ok_iff.mp h
    exact Or.inr ⟨hkey, result, rest, hresult, hrest, (Except.ok.inj h).symm⟩

theorem exists_built_of_builtBlock_ok {fields block : Block O}
    (h : builtBlock kinds construct globals fields = .ok block) :
    ∀ field ∈ fields, field.1 ≠ "kind" →
      ∃ v, built kinds construct globals field.2 = .ok v := by
  induction fields generalizing block with
  | nil => simp
  | cons field fields ih =>
      intro other hother hne
      rcases builtBlock_cons_ok h with ⟨hkey, hrest⟩ | ⟨-, result, rest, hresult, hrest, -⟩
      · rcases List.mem_cons.mp hother with rfl | hother
        · exact absurd hkey hne
        · exact ih hrest other hother hne
      · rcases List.mem_cons.mp hother with rfl | hother
        · exact ⟨result, hresult⟩
        · exact ih hrest other hother hne

theorem names_of_builtBlock_ok {fields block : Block O}
    (h : builtBlock kinds construct globals fields = .ok block) :
    block.map Prod.fst = names fields := by
  induction fields generalizing block with
  | nil =>
      rw [← Except.ok.inj h]
      rfl
  | cons field fields ih =>
      obtain ⟨key, value⟩ := field
      rcases builtBlock_cons_ok h with ⟨rfl, hrest⟩ | ⟨hkey, result, rest, -, hrest, rfl⟩
      · rw [ih hrest, names_cons_kind]
      · rw [List.map_cons, ih hrest, names_cons hkey]

/-- Under each name what is built from its value. -/
theorem lookup_of_builtBlock_ok {fields block : Block O}
    (h : builtBlock kinds construct globals fields = .ok block) (name : String) :
    block.lookup name = if name = "kind" then none
      else (fields.lookup name).bind fun v => (built kinds construct globals v).toOption := by
  induction fields generalizing block with
  | nil =>
      rw [← Except.ok.inj h]
      simp
  | cons field fields ih =>
      obtain ⟨key, value⟩ := field
      rcases builtBlock_cons_ok h with ⟨hkey, hrest⟩ | ⟨hkey, result, rest, hresult, hrest, rfl⟩
      · rw [ih hrest, Dict.lookup_cons_ite]
        by_cases hname : name = "kind"
        · rw [if_pos hname, if_pos hname]
        · have hne : name ≠ key := fun heq => hname (heq.trans hkey)
          rw [if_neg hname, if_neg hname, if_neg hne]
      · rw [Dict.lookup_cons_ite, Dict.lookup_cons_ite, ih hrest]
        by_cases hname : name = key
        · have hne : name ≠ "kind" := fun heq => hkey (hname.symm.trans heq)
          rw [if_pos hname, if_pos hname, if_neg hne, Option.bind_some, hresult]
          rfl
        · rw [if_neg hname, if_neg hname]

/-! ## Values that are built already -/

/-- A mapping with a kind is built from; every other value stays. -/
def isNode : Value O → Bool
  | .mapping fields => hasKind fields
  | _ => false

theorem built_of_not_isNode {value : Value O} (h : isNode value = false) :
    built kinds construct globals value = .ok value := by
  cases value with
  | mapping fields =>
      have hkind : ¬ hasKind fields = true := by
        rw [show hasKind fields = false from h]
        exact Bool.false_ne_true
      rw [built, process, if_neg hkind]
      rfl
  | str text => rw [built, process]; rfl
  | callable callable => rw [built, process]; rfl
  | object object => rw [built, process]; rfl

theorem exists_object_of_isNode {value result : Value O} (h : isNode value)
    (hbuilt : built kinds construct globals value = .ok result) :
    ∃ object, result = .object object := by
  cases value with
  | mapping fields =>
      rw [built, process_run_eq_prepare h] at hbuilt
      have hrun : (prepare kinds (constructing construct) globals fields >>= fun call =>
          constructing construct call.1 call.2).run () = (.ok result, ()) := Prod.ext hbuilt rfl
      obtain ⟨call, s, -, hcall⟩ := Prog.exists_of_bind_ok hrun
      rw [constructing, Prog.lift_run, Prod.mk.injEq] at hcall
      cases hobject : construct call.1 call.2 with
      | error e =>
          rw [hobject] at hcall
          cases hcall.1
      | ok object =>
          rw [hobject] at hcall
          exact ⟨object, (Except.ok.inj hcall.1).symm⟩
  | str text => cases h
  | callable callable => cases h
  | object object => cases h

/-- What was built is not built from again, whatever the globals are. -/
theorem built_of_built {value result : Value O}
    (h : built kinds construct globals value = .ok result) (globals' : Dict String (Value O)) :
    built kinds construct globals' result = .ok result := by
  apply built_of_not_isNode
  cases hnode : isNode value with
  | true =>
      obtain ⟨object, rfl⟩ := exists_object_of_isNode hnode h
      rfl
  | false =>
      rw [built_of_not_isNode hnode] at h
      rw [← Except.ok.inj h]
      exact hnode

end ThreescaleTests.Configuration
