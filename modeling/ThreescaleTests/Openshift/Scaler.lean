import ThreescaleTests.Library.Json
import ThreescaleTests.Library.Prog

/-!
# Scaling through the operator

A component is scaled by changing its replica count in the APIManager resource and
waiting for the deployments. The context manager puts the old count back when the
body is left; what happens before the body is entered is outside its `try`.
-/

namespace ThreescaleTests.Openshift

open Library

/-! ## The resource -/

/-- A path like `spec/backend/listenerSpec/replicas`, split at its last fragment. -/
structure Locator where
  parents : List String
  last : String

/-- `get_path`; `none` stands for `Missing`. -/
def getPath (loc : Locator) (model : Json) : Option Json :=
  (Json.get? loc.parents model).bind fun field => field.child? loc.last

def setField (last : String) (value : Json) : Json → Option Json
  | .obj fields => some (.obj (Dict.setEntry last value fields))
  | _ => none

/-- `set_path`; there is no result where the path does not exist. -/
def setPath (loc : Locator) (value model : Json) : Option Json :=
  Json.atPath loc.parents (setField loc.last value) model

/-- The replica count that a resource requests; an absent count means one. -/
def requested (loc : Locator) (model : Json) : Json := (getPath loc model).getD (.num 1)

theorem requested_setPath {loc : Locator} {value model model' : Json}
    (h : setPath loc value model = some model') : requested loc model' = value := by
  obtain ⟨c, c', -, hset, hget⟩ := Json.get?_of_atPath h
  have hchild : c'.child? loc.last = some value := by
    cases c with
    | obj fields =>
        have heq : c' = .obj (Dict.setEntry loc.last value fields) := by
          simpa [setField] using hset.symm
        rw [heq]
        simp [Json.child?, Dict.lookup_setEntry]
    | _ => simp [setField] at hset
  have hpath : getPath loc model' = some value := by
    rw [getPath, hget]
    exact hchild
  rw [requested, hpath]
  rfl

/-! ## Changing it -/

/-- The object fetched once by the scaler, and the resource on the server. -/
structure ApiManager where
  model : Json
  server : Json

/-- How `modify_and_apply` ends. The resource is accepted at the first attempt, or after a refresh;
when every attempt is rejected some local model is left. -/
inductive Applied where
  | accepted (refreshed : Bool)
  | rejected (model : Json)

/-- What the environment decides during one change. -/
structure ScaleOutcome where
  applied : Applied
  waited : Except Exn Unit

/-- `modify_and_apply` with the modifier of `_scale`; the answer is `success`. -/
def modifyAndApply (loc : Locator) (replicas : Json) (applied : Applied) : Prog ApiManager Bool :=
  ⟨fun manager =>
    match applied with
    | .accepted refreshed =>
        let base := if refreshed then manager.server else manager.model
        match setPath loc replicas base with
        | none => (.error (.valueError "Path does not exist"), { manager with model := base })
        | some model => (.ok true, ⟨model, model⟩)
    | .rejected model => (.ok false, { manager with model := model })⟩

/-- `APIManager._scale`; it answers the count before. -/
def scaleAt (loc : Locator) (replicas : Json) (outcome : ScaleOutcome) : Prog ApiManager Json := do
  let currentReplicas ← Prog.gets fun manager => requested loc manager.model
  let success ← modifyAndApply loc replicas outcome.applied
  Prog.lift (assertThat (success = true))
  Prog.lift outcome.waited
  pure currentReplicas

/-! ## The scaler -/

/-- `DEPLOYMENT_MAPPINGS`, with the locators of `scale_backend` and `scale_apicast_production`. -/
def deploymentMappings : List (String × Locator) :=
  [("backend-listener", ⟨["spec", "backend", "listenerSpec"], "replicas"⟩),
    ("apicast-production", ⟨["spec", "apicast", "productionSpec"], "replicas"⟩)]

/-- `_scale_component` of a deployment by the operator. -/
def scaleComponent (deploymentName : String) (replicas : Json) (outcome : ScaleOutcome) :
    Prog ApiManager Json :=
  match deploymentMappings.lookup deploymentName with
  | none => Prog.lift (.error (.valueError
      ("Scaler does not support scaling of " ++ deploymentName)))
  | some loc => scaleAt loc replicas outcome

/-- `with scaler.scale(deployment_name, replicas): body` -/
def scale {α : Type} (deploymentName : String) (replicas : Json) (body : Json → Prog ApiManager α)
    (entry restore : ScaleOutcome) : Prog ApiManager α := do
  let previousReplicas ← scaleComponent deploymentName replicas entry
  Prog.tryFinally (body previousReplicas) do
    let _ ← scaleComponent deploymentName previousReplicas restore
    pure ()

/-! ## One change -/

/-- The change reaches the server. -/
def TakesEffect (loc : Locator) (replicas : Json) (outcome : ScaleOutcome) (manager : ApiManager) :
    Prop :=
  match outcome.applied with
  | .accepted refreshed =>
      (setPath loc replicas (if refreshed then manager.server else manager.model)).isSome
  | .rejected _ => False

theorem modifyAndApply_of_takesEffect {loc : Locator} {replicas : Json} {outcome : ScaleOutcome}
    {manager : ApiManager} (h : TakesEffect loc replicas outcome manager) :
    ∃ model,
      (modifyAndApply loc replicas outcome.applied).run manager = (.ok true, ⟨model, model⟩) ∧
      requested loc model = replicas := by
  unfold TakesEffect at h
  cases happlied : outcome.applied with
  | rejected model => simp [happlied] at h
  | accepted refreshed =>
      simp only [happlied] at h
      obtain ⟨model, hmodel⟩ := Option.isSome_iff_exists.mp h
      refine ⟨model, ?_, requested_setPath hmodel⟩
      simp only [modifyAndApply, hmodel]

theorem modifyAndApply_of_not_takesEffect {loc : Locator} {replicas : Json}
    {outcome : ScaleOutcome} {manager : ApiManager}
    (h : ¬ TakesEffect loc replicas outcome manager) :
    ∃ r model, (modifyAndApply loc replicas outcome.applied).run manager =
        (r, { manager with model := model }) ∧ r ≠ .ok true := by
  unfold TakesEffect at h
  cases happlied : outcome.applied with
  | rejected model => exact ⟨_, model, rfl, by simp⟩
  | accepted refreshed =>
      simp only [happlied, Bool.not_eq_true, Option.isSome_eq_false_iff,
        Option.isNone_iff_eq_none] at h
      refine ⟨.error (.valueError "Path does not exist"),
        if refreshed then manager.server else manager.model, ?_, by simp⟩
      simp only [modifyAndApply, h]

/-- A change that takes effect sets the count, and answers the one remembered if the wait
returns. -/
theorem scaleAt_of_takesEffect {loc : Locator} {replicas : Json} {outcome : ScaleOutcome}
    {manager : ApiManager} (h : TakesEffect loc replicas outcome manager) :
    ∃ model, (scaleAt loc replicas outcome).run manager =
        (outcome.waited.map fun _ => requested loc manager.model, ⟨model, model⟩) ∧
      requested loc model = replicas := by
  obtain ⟨model, hmodify, hrequested⟩ := modifyAndApply_of_takesEffect h
  refine ⟨model, ?_, hrequested⟩
  have hassert : assertThat (true = true) = .ok () := rfl
  unfold scaleAt
  rw [Prog.gets_bind_run, Prog.bind_of_ok hmodify, Prog.lift_bind_of_ok hassert]
  cases hwaited : outcome.waited with
  | ok u => exact Prog.lift_bind_of_ok rfl _ _
  | error e => exact Prog.lift_bind_of_error rfl _ _

/-- A change that takes no effect raises and leaves the server as it was. -/
theorem scaleAt_of_not_takesEffect {loc : Locator} {replicas : Json} {outcome : ScaleOutcome}
    {manager : ApiManager} (h : ¬ TakesEffect loc replicas outcome manager) :
    ∃ e model, (scaleAt loc replicas outcome).run manager =
      (.error e, { manager with model := model }) := by
  obtain ⟨r, model, hmodify, hr⟩ := modifyAndApply_of_not_takesEffect h
  unfold scaleAt
  rw [Prog.gets_bind_run]
  cases r with
  | error e => exact ⟨e, model, Prog.bind_of_error hmodify⟩
  | ok success =>
      cases success with
      | true => exact absurd rfl hr
      | false =>
          rw [Prog.bind_of_ok hmodify]
          exact ⟨.assertionError, model, Prog.bind_of_error rfl⟩

/-! ## The context manager -/

/-- The count is put back: nothing was changed, or the wait on entry returned and the object
remembers the count of the server, or the target is that count anyway. -/
def ScalesBack (loc : Locator) (replicas : Json) (entry : ScaleOutcome) (manager : ApiManager) :
    Prop :=
  TakesEffect loc replicas entry manager →
    if entry.waited = .ok () then requested loc manager.model = requested loc manager.server
    else replicas = requested loc manager.server

variable {α : Type}

/-- Provided the restoring change takes effect, the component has the count it had before exactly
if the entry scales back. -/
theorem scale_restores_iff {deploymentName : String} {loc : Locator}
    (hname : deploymentMappings.lookup deploymentName = some loc) (replicas : Json)
    (body : Json → Prog ApiManager α) (entry restore : ScaleOutcome) (manager : ApiManager)
    (hrestore : ∀ previous entered,
      (scaleComponent deploymentName replicas entry).run manager = (.ok previous, entered) →
        TakesEffect loc previous restore ((body previous).run entered).2) :
    requested loc ((scale deploymentName replicas body entry restore).run manager).2.server =
        requested loc manager.server ↔
      ScalesBack loc replicas entry manager := by
  have hcomponent : ∀ count outcome,
      scaleComponent deploymentName count outcome = scaleAt loc count outcome := by
    intro count outcome
    simp only [scaleComponent, hname]
  unfold ScalesBack scale
  rw [hcomponent]
  by_cases heffect : TakesEffect loc replicas entry manager
  · obtain ⟨model, hrun, hrequested⟩ := scaleAt_of_takesEffect heffect
    cases hwaited : entry.waited with
    | error e =>
        rw [hwaited] at hrun
        rw [Prog.bind_of_error hrun, hrequested]
        simp [heffect]
    | ok u =>
        rw [hwaited] at hrun
        have hback := hrestore _ _ ((hcomponent replicas entry).symm ▸ hrun)
        obtain ⟨model', hrun', hrequested'⟩ := scaleAt_of_takesEffect hback
        rw [Prog.bind_of_ok hrun, Prog.tryFinally_run_snd, Prog.bind_pure_run_snd, hcomponent,
          hrun', hrequested']
        simp [heffect]
  · obtain ⟨e, model, hrun⟩ := scaleAt_of_not_takesEffect heffect
    rw [Prog.bind_of_error hrun]
    simp [heffect]

/-! ## A time-out on entry -/

/-- An APIManager with the given count of listeners. -/
def managerWith (replicas : Int) : ApiManager :=
  let model := Json.obj [("spec", .obj [("backend",
    .obj [("listenerSpec", .obj [("replicas", .num replicas)])])])]
  ⟨model, model⟩

def listenerLocator : Locator := ⟨["spec", "backend", "listenerSpec"], "replicas"⟩

/-- The wait for the stopped listener times out. -/
def timeout : ScaleOutcome := ⟨.accepted false, .error (.other "TimeoutException")⟩

def goesThrough : ScaleOutcome := ⟨.accepted false, .ok ()⟩

theorem scale_not_restored :
    requested listenerLocator (managerWith 2).server = .num 2 ∧
      (let left := ((scale "backend-listener" (.num 0) (fun _ => pure ()) timeout goesThrough).run
        (managerWith 2))
       left.1 = .error (.other "TimeoutException") ∧
        requested listenerLocator left.2.server = .num 0) := by
  decide

theorem scale_restores_raising :
    requested listenerLocator ((scale "backend-listener" (.num 0)
        (fun _ => (Prog.lift (.error .assertionError) : Prog ApiManager Unit)) goesThrough
        goesThrough).run (managerWith 2)).2.server =
      requested listenerLocator (managerWith 2).server ↔
    ScalesBack listenerLocator (.num 0) goesThrough (managerWith 2) := by
  refine scale_restores_iff rfl (.num 0) _ goesThrough goesThrough (managerWith 2) ?_
  intro previous entered h
  cases h
  rfl

end ThreescaleTests.Openshift
