import ThreescaleTests.Gateways.OperatorEnviron

/-!
# Replaying the accepted changes

An operation that raises should leave no trace. It does when it raises before it
changes the model; a bulk change with an unsupported name, a rejected resource and a
wait that fails leave what was changed until then.
-/

namespace ThreescaleTests.Gateways.OperatorEnviron

open Library

variable (isDecimal : Char → Bool) (client : ClientModel)

/-! ## Replaying -/

/-- What an operation does to the local model before it is sent. -/
def modifier : Op → Prog Spec Unit
  | .setMany envs _ => Prog.forEach (fun e => setName isDecimal e.1 e.2) envs
  | .setItem name value _ => setName isDecimal name value
  | .delItem name _ => deleteName client name
  | .getItem _ => pure ()

def effect (o : Op) (spec : Spec) : Spec := ((modifier isDecimal client o).run spec).2

def returns (o : Op) (apicast : APIcast) : Bool := ((perform isDecimal client o).run apicast).1.isOk

def returning : List Op → APIcast → List Op
  | [], _ => []
  | o :: ops, apicast =>
      if returns isDecimal client o apicast then
        o :: returning ops (step isDecimal client o apicast)
      else returning ops (step isDecimal client o apicast)

/-- The local model and the server hold the initial resource with the operations that returned
replayed on it. -/
def ExactlyReturned (ops : List Op) (spec : Spec) : Prop :=
  let replayed := run (effect isDecimal client) (returning isDecimal client ops ⟨spec, spec⟩) spec
  run (step isDecimal client) ops ⟨spec, spec⟩ = ⟨replayed, replayed⟩

/-! ## Clean operations -/

/-- `name in NAMES`, or a pattern of `REGEX_NAMES` matches. -/
def Supported (name : String) : Prop :=
  (names.lookup name).isSome ∨ (versionService isDecimal name).isSome

/-- The server accepts the resource and the wait returns. -/
def Outcome.GoesThrough (outcome : Outcome) : Prop :=
  outcome.accepted = true ∧ outcome.waited = .ok ()

def Succeeds : Op → Prop
  | .setMany envs outcome => (∀ e ∈ envs, Supported isDecimal e.1) ∧ Outcome.GoesThrough outcome
  | .setItem _ _ outcome => Outcome.GoesThrough outcome
  | .delItem _ outcome => Outcome.GoesThrough outcome
  | .getItem _ => True

/-- An operation that changes the model at all succeeds. -/
def Clean (o : Op) (apicast : APIcast) : Prop :=
  effect isDecimal client o apicast.model ≠ apicast.model → Succeeds isDecimal o

/-! ## One operation -/

theorem setName_run (name : String) (value : EnvValue) (spec : Spec) :
    (Supported isDecimal name ∧
      ∃ spec', (setName isDecimal name value).run spec = (.ok (), spec')) ∨
    (¬ Supported isDecimal name ∧
      (setName isDecimal name value).run spec = (.error (notImplementedYet name), spec)) := by
  unfold setName Supported
  cases hname : names.lookup name with
  | some target =>
      cases target with
      | field key => exact .inl ⟨.inl rfl, _, rfl⟩
      | apicastServiceList => exact .inl ⟨.inl rfl, _, rfl⟩
  | none =>
      cases hservice : versionService isDecimal name with
      | some service => exact .inl ⟨.inr rfl, _, rfl⟩
      | none => exact .inr ⟨by simp, rfl⟩

/-- A bulk change runs to its end exactly when all names are supported. -/
theorem setNames_ok_iff (envs : List (String × EnvValue)) (spec : Spec) :
    ((Prog.forEach (fun e => setName isDecimal e.1 e.2) envs).run spec).1 = .ok () ↔
      ∀ e ∈ envs, Supported isDecimal e.1 := by
  induction envs generalizing spec with
  | nil => simp [Prog.forEach]
  | cons e envs ih =>
      rcases setName_run isDecimal e.1 e.2 spec with ⟨hsupported, spec', hrun⟩ | ⟨hnot, hrun⟩
      · rw [Prog.forEach, Prog.bind_of_ok hrun, ih]
        simp [hsupported]
      · rw [Prog.forEach, Prog.bind_of_error hrun]
        simp [hnot]

/-- Deleting raises before it changes anything. -/
theorem deleteName_run (name : String) (spec : Spec) :
    ((deleteName client name).run spec).1 = .ok () ∨
      ((deleteName client name).run spec).2 = spec := by
  unfold deleteName
  cases names.lookup name with
  | none => exact .inr rfl
  | some target =>
      cases target with
      | apicastServiceList => exact .inr rfl
      | field key =>
          cases hdel : client.del spec.fields key with
          | ok fields => exact .inl (by simp [deleteField, hdel])
          | error e => exact .inr (by simp [deleteField, hdel])

/-- A change leaves a trace exactly when it changes the model and does not go through. -/
theorem change_exact_iff (m : Prog Spec Unit) (outcome : Outcome) (spec : Spec) :
    (let r := (change m outcome).run ⟨spec, spec⟩
     let expected := if r.1.isOk then (m.run spec).2 else spec
     r.2 = ⟨expected, expected⟩) ↔
      ((m.run spec).2 ≠ spec → (m.run spec).1 = .ok () ∧ Outcome.GoesThrough outcome) := by
  obtain ⟨accepted, waited⟩ := outcome
  cases hm : m.run spec with
  | mk r t =>
      cases r with
      | error e =>
          have happly : (modifyAndApply m accepted).run ⟨spec, spec⟩ = (.error e, ⟨t, spec⟩) := by
            simp [modifyAndApply, hm]
          rw [change, Prog.bind_of_error happly]
          simp [Except.isOk, Except.toBool]
      | ok u =>
          cases accepted with
          | false =>
              have happly : (modifyAndApply m false).run ⟨spec, spec⟩ =
                  (.error .assertionError, ⟨t, spec⟩) := by simp [modifyAndApply, hm]
              rw [change, Prog.bind_of_error happly]
              simp [Except.isOk, Except.toBool, Outcome.GoesThrough]
          | true =>
              have happly : (modifyAndApply m true).run ⟨spec, spec⟩ = (.ok (), ⟨t, t⟩) := by
                simp [modifyAndApply, hm]
              rw [change, Prog.bind_of_ok happly]
              cases waited with
              | ok u => simp [Except.isOk, Except.toBool, Outcome.GoesThrough]
              | error e => simp [Except.isOk, Except.toBool, Outcome.GoesThrough]

/-- The resource after an operation that left no trace unless it returned. -/
def expected (o : Op) (spec : Spec) : Spec :=
  if returns isDecimal client o ⟨spec, spec⟩ then effect isDecimal client o spec else spec

theorem getItem_run (name : String) (apicast : APIcast) :
    ((getItem client name).run apicast).2 = apicast := by
  unfold getItem
  cases names.lookup name with
  | none => rfl
  | some target => cases target <;> rfl

theorem step_exact_iff (o : Op) (spec : Spec) :
    step isDecimal client o ⟨spec, spec⟩ =
        ⟨expected isDecimal client o spec, expected isDecimal client o spec⟩ ↔
      Clean isDecimal client o ⟨spec, spec⟩ := by
  cases o with
  | setMany envs outcome =>
      have hchange := change_exact_iff
        (Prog.forEach (fun e => setName isDecimal e.1 e.2) envs) outcome spec
      rw [setNames_ok_iff] at hchange
      exact hchange
  | setItem name value outcome =>
      have hchange := change_exact_iff (setName isDecimal name value) outcome spec
      refine hchange.trans (imp_congr_right fun hne => ?_)
      rcases setName_run isDecimal name value spec with ⟨-, spec', hrun⟩ | ⟨-, hrun⟩
      · simp [hrun, Succeeds]
      · exact absurd (by rw [hrun]) hne
  | delItem name outcome =>
      have hchange := change_exact_iff (deleteName client name) outcome spec
      refine hchange.trans (imp_congr_right fun hne => ?_)
      rcases deleteName_run client name spec with hok | hsame
      · simp [hok, Succeeds]
      · exact absurd hsame hne
  | getItem name =>
      have hstep : step isDecimal client (.getItem name) ⟨spec, spec⟩ = ⟨spec, spec⟩ := by
        rw [step, perform, Prog.bind_pure_run_snd, getItem_run]
      have hexpected : expected isDecimal client (.getItem name) spec = spec := ite_self spec
      rw [hstep, hexpected]
      exact iff_of_true rfl fun _ => trivial

/-! ## Runs -/

theorem exactlyReturned_cons {o : Op} {spec : Spec} (ops : List Op)
    (h : step isDecimal client o ⟨spec, spec⟩ =
      ⟨expected isDecimal client o spec, expected isDecimal client o spec⟩) :
    ExactlyReturned isDecimal client (o :: ops) spec ↔
      ExactlyReturned isDecimal client ops (expected isDecimal client o spec) := by
  unfold ExactlyReturned
  rw [run, returning, h]
  cases hreturns : returns isDecimal client o ⟨spec, spec⟩ with
  | true =>
      have hexpected : expected isDecimal client o spec = effect isDecimal client o spec := by
        rw [expected, hreturns, if_pos rfl]
      rw [if_pos rfl, run, hexpected]
  | false =>
      have hexpected : expected isDecimal client o spec = spec := by
        rw [expected, hreturns, if_neg Bool.false_ne_true]
      rw [if_neg Bool.false_ne_true, hexpected]

theorem exactlyReturned_singleton_iff (o : Op) (spec : Spec) :
    ExactlyReturned isDecimal client [o] spec ↔ Clean isDecimal client o ⟨spec, spec⟩ := by
  rw [← step_exact_iff]
  unfold ExactlyReturned expected
  rw [returning]
  cases returns isDecimal client o ⟨spec, spec⟩ <;> rfl

/-- After each operation of a run exactly the operations that returned are applied, if and only if
every operation that changes the model succeeds. -/
theorem run_exactlyReturned_iff (ops : List Op) (spec : Spec) :
    (∀ pre, pre <+: ops → ExactlyReturned isDecimal client pre spec) ↔
      EveryStep (step isDecimal client) (Clean isDecimal client) ops ⟨spec, spec⟩ := by
  induction ops generalizing spec with
  | nil =>
      refine iff_of_true ?_ trivial
      intro pre hpre
      rw [List.prefix_nil.mp hpre]
      exact rfl
  | cons o ops ih =>
      constructor
      · intro h
        have hclean := (exactlyReturned_singleton_iff isDecimal client o spec).mp
          (h [o] (List.cons_prefix_cons.mpr ⟨rfl, List.nil_prefix⟩))
        have hstep := (step_exact_iff isDecimal client o spec).mpr hclean
        refine ⟨hclean, ?_⟩
        rw [hstep, ← ih]
        intro pre hpre
        rw [← exactlyReturned_cons isDecimal client pre hstep]
        exact h (o :: pre) (List.cons_prefix_cons.mpr ⟨rfl, hpre⟩)
      · rintro ⟨hclean, hrest⟩ pre hpre
        have hstep := (step_exact_iff isDecimal client o spec).mpr hclean
        rw [hstep, ← ih] at hrest
        cases pre with
        | nil => exact rfl
        | cons o' pre =>
            obtain ⟨rfl, htail⟩ := List.cons_prefix_cons.mp hpre
            rw [exactlyReturned_cons isDecimal client pre hstep]
            exact hrest pre htail

/-! ## A run that leaves a trace -/

def initialSpec : Spec := ⟨.ofList [("logLevel", .str "info")], none⟩

def textValue (text : String) : EnvValue := ⟨.str text, text⟩

/-- A bulk change with an unsupported name, then a change of another variable. -/
def leftoverRun : List Op :=
  [.setMany [("HTTP_PROXY", textValue "http://proxy"), ("APICAST_WORKERS", textValue "4")]
      ⟨true, .ok ()⟩,
    .setItem "NO_PROXY" (textValue "localhost") ⟨true, .ok ()⟩]

/-- The second operation pushes the proxy that the first one left in the model. -/
theorem leftover_pushed :
    ¬ (∀ pre, pre <+: leftoverRun → ExactlyReturned Char.isDigit .dict pre initialSpec) ∧
      (returning Char.isDigit .dict leftoverRun ⟨initialSpec, initialSpec⟩).length = 1 ∧
      (run (step Char.isDigit .dict) leftoverRun ⟨initialSpec, initialSpec⟩).server.get
        "httpProxy" = .str "http://proxy" := by
  refine ⟨?_, by decide +kernel, by decide +kernel⟩
  intro h
  have hexactly := h leftoverRun (List.prefix_refl leftoverRun)
  unfold ExactlyReturned at hexactly
  exact absurd hexactly (by decide +kernel)

end ThreescaleTests.Gateways.OperatorEnviron
