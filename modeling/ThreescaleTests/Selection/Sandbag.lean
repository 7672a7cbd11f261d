import Mathlib.Data.List.Basic
import ThreescaleTests.Library.Exn

/-!
# Selecting tests

Before a test runs, its markers and the options of the run decide whether it is
skipped. The demanding tests, the sandbag, are dropped by one option and selected by
another; the two conditions are written differently, and complement each other.
-/

namespace ThreescaleTests.Selection

open Library

inductive Capability where
  | productionGateway
  | apicast
  | customEnvironment
  | sameCluster
  | serviceMesh
  | serviceMeshWasm
  | serviceMeshAdapter
  | standardGateway
  | logs
  | jaeger
  | ocp4
  | ocp3
  | scaling
  | fips
  | nofips
  | zyncRoutes
  | zyncOidcSync
deriving DecidableEq

/-- The values that stand in a marker for capabilities. -/
class CapabilityArg (A : Type) where
  ofCapability : Capability → A
  str : A → String

structure Mark (A : Type) where
  name : String
  args : List A

structure Item (A : Type) where
  markers : List (Mark A)

structure Options where
  fuzz : Bool
  dropFuzz : Bool
  sandbag : Bool
  sandbagOnly : Bool
  dropSandbag : Bool
deriving DecidableEq

/-- What the rules read of the environment: `TESTED_VERSION.is_devrelease` and membership in the
capability registry. -/
structure Env (A : Type) where
  isDevrelease : Bool
  present : A → Except Exn Bool

/-- How a setup ends early: `pytest.skip(reason)`, or another exception. -/
inductive Stop where
  | skipped (reason : String)
  | raised (e : Exn)
deriving DecidableEq

def skip (reason : String) : Except Stop Unit := .error (.skipped reason)

def pytestConfigure (config : Options) : Except String Unit :=
  if config.fuzz ∧ config.dropFuzz then
    .error "--fuzz and --drop-fuzz are mutually exclusive"
  else if (config.sandbag ∨ config.sandbagOnly) ∧ config.dropSandbag then
    .error "--sandbag/--sandbag-only and --drop-sandbag are mutually exclusive"
  else .ok ()

variable {A : Type}

def Item.marks (item : Item A) : List String := item.markers.map Mark.name

def Item.iterMarkers (item : Item A) (name : String) : List (Mark A) :=
  item.markers.filter fun mark => decide (mark.name = name)

section

variable [CapabilityArg A] [DecidableEq A]

open CapabilityArg

def sandbagCaps : List A :=
  [ofCapability .customEnvironment, ofCapability .logs, ofCapability .jaeger]

/-- The rule for `--drop-sandbag`. -/
def dropRule (config : Options) (item : Item A) : Except Stop Unit :=
  if config.dropSandbag then
    if "sandbag" ∈ item.marks ∨ "xfail" ∈ item.marks then skip "Dropping sandbag"
    else if "required_capabilities" ∈ item.marks then
      forM (item.iterMarkers "required_capabilities") fun mark =>
        forM mark.args fun cap =>
          if cap ∈ (sandbagCaps : List A) then skip "Dropping sandbag" else .ok ()
    else .ok ()
  else .ok ()

/-- The rule for `--sandbag` and `--sandbag-only`. -/
def onlyRule (config : Options) (item : Item A) : Except Stop Unit :=
  if config.sandbag ∨ config.sandbagOnly then
    let requiredCapabilities := (item.iterMarkers "required_capabilities").flatMap Mark.args
    if ¬ ("sandbag" ∈ item.marks ∨ "xfail" ∈ item.marks ∨
        (sandbagCaps : List A).filter (fun cap => decide (cap ∈ requiredCapabilities)) ≠ []) then
      skip "Running sandbag only"
    else .ok ()
  else .ok ()

/-- `if capability not in CapabilityRegistry(): pytest.skip(reason)` -/
def require (env : Env A) (capability : A) (reason : String) : Except Stop Unit :=
  match env.present capability with
  | .error e => .error (.raised e)
  | .ok present => if present then .ok () else skip reason

/-- The rule for the capabilities that a test requires. -/
def capabilityRule (env : Env A) (item : Item A) : Except Stop Unit :=
  if "required_capabilities" ∈ item.marks then
    forM (item.iterMarkers "required_capabilities") fun mark =>
      forM mark.args fun capability =>
        require env capability
          ("Skipping test because current environment doesn't have capability " ++ str capability)
  else
    require env (ofCapability .apicast)
      ("Skipping test because current gateway doesn't have implicit capability " ++
        str (ofCapability .apicast : A))

def pytestRuntestSetup (env : Env A) (config : Options) (item : Item A) : Except Stop Unit := do
  if "skipif_devrelease" ∈ item.marks ∧ env.isDevrelease then
    skip "Excluding on development release"
  dropRule config item
  onlyRule config item
  capabilityRule env item

/-! ## The sandbag -/

/-- Marked, expected to fail, or in need of what a sandbag test needs. -/
def IsSandbag (item : Item A) : Prop :=
  "sandbag" ∈ item.marks ∨ "xfail" ∈ item.marks ∨
    ∃ mark ∈ item.iterMarkers "required_capabilities", ∃ cap ∈ mark.args,
      cap ∈ (sandbagCaps : List A)

omit [CapabilityArg A] [DecidableEq A] in
theorem mem_marks_of_mem_iterMarkers {item : Item A} {name : String} {mark : Mark A}
    (h : mark ∈ item.iterMarkers name) : name ∈ item.marks := by
  have hmark := List.mem_filter.mp h
  rw [decide_eq_true_eq] at hmark
  rw [← hmark.2]
  exact List.mem_map_of_mem hmark.1

instance (item : Item A) : Decidable (IsSandbag item) :=
  inferInstanceAs (Decidable ("sandbag" ∈ item.marks ∨ "xfail" ∈ item.marks ∨
    ∃ mark ∈ item.iterMarkers "required_capabilities", ∃ cap ∈ mark.args,
      cap ∈ (sandbagCaps : List A)))

omit [CapabilityArg A] [DecidableEq A] in
/-- A loop that skips at the first member with a property. -/
theorem forM_skip {B : Type} (p : B → Prop) [DecidablePred p] (reason : String) (bs : List B) :
    (forM bs fun b => if p b then skip reason else .ok ()) =
      if ∃ b ∈ bs, p b then skip reason else .ok () := by
  induction bs with
  | nil => rfl
  | cons b bs ih =>
      rw [List.forM_cons, ih]
      by_cases hb : p b
      · have hex : ∃ b' ∈ b :: bs, p b' := ⟨b, List.mem_cons_self, hb⟩
        rw [if_pos hb, if_pos hex]
        rfl
      · rw [if_neg hb]
        simp only [List.exists_mem_cons_iff, hb, false_or]
        rfl

/-- `--drop-sandbag` skips the sandbag. -/
theorem dropRule_eq (config : Options) (item : Item A) (h : config.dropSandbag = true) :
    dropRule config item = if IsSandbag item then skip "Dropping sandbag" else .ok () := by
  unfold dropRule
  rw [if_pos h]
  by_cases hmarked : "sandbag" ∈ item.marks ∨ "xfail" ∈ item.marks
  · have hsandbag : IsSandbag item := or_assoc.mp (.inl hmarked)
    rw [if_pos hmarked, if_pos hsandbag]
  · rw [if_neg hmarked]
    have hiff : IsSandbag item ↔ ∃ mark ∈ item.iterMarkers "required_capabilities",
        ∃ cap ∈ mark.args, cap ∈ (sandbagCaps : List A) := by
      unfold IsSandbag
      rw [← or_assoc, or_iff_right hmarked]
    simp only [forM_skip, hiff]
    by_cases hrequired : "required_capabilities" ∈ item.marks
    · rw [if_pos hrequired]
    · rw [if_neg hrequired, if_neg]
      intro hex
      obtain ⟨mark, hmark, -⟩ := hex
      exact hrequired (mem_marks_of_mem_iterMarkers hmark)

/-- `--sandbag` skips everything else. -/
theorem onlyRule_eq (config : Options) (item : Item A) (h : config.sandbag = true) :
    onlyRule config item = if IsSandbag item then .ok () else skip "Running sandbag only" := by
  have hcaps : (sandbagCaps : List A).filter (fun cap => decide
      (cap ∈ (item.iterMarkers "required_capabilities").flatMap Mark.args)) ≠ [] ↔
      ∃ mark ∈ item.iterMarkers "required_capabilities", ∃ cap ∈ mark.args,
        cap ∈ (sandbagCaps : List A) := by
    constructor
    · intro hne
      obtain ⟨cap, hcap⟩ := List.exists_mem_of_ne_nil _ hne
      rw [List.mem_filter, decide_eq_true_eq, List.mem_flatMap] at hcap
      obtain ⟨hcap, mark, hmark, harg⟩ := hcap
      exact ⟨mark, hmark, cap, harg, hcap⟩
    · intro hex
      obtain ⟨mark, hmark, cap, harg, hcap⟩ := hex
      apply List.ne_nil_of_mem (a := cap)
      rw [List.mem_filter, decide_eq_true_eq, List.mem_flatMap]
      exact ⟨hcap, mark, hmark, harg⟩
  have hrule : onlyRule config item =
      if ¬ IsSandbag item then skip "Running sandbag only" else .ok () := by
    unfold onlyRule
    rw [if_pos (.inl h)]
    apply if_congr (not_congr _) rfl rfl
    exact or_congr_right (or_congr_right hcaps)
  rw [hrule]
  by_cases hsandbag : IsSandbag item
  · rw [if_pos hsandbag, if_neg (not_not_intro hsandbag)]
  · rw [if_neg hsandbag, if_pos hsandbag]

/-! ## Two halves of a run -/

/-- The run with `--drop-sandbag`, as `make speedrun`. -/
def speedrun (config : Options) : Options := { config with dropSandbag := true, sandbag := false }

/-- The run with `--sandbag`, as `make sandbag`. -/
def sandbagRun (config : Options) : Options := { config with dropSandbag := false, sandbag := true }

/-- The run with neither option, as `make test`. -/
def fullRun (config : Options) : Options := { config with dropSandbag := false, sandbag := false }

def sandbagRules (config : Options) (item : Item A) : Except Stop Unit := do
  dropRule config item
  onlyRule config item

def SkippedAsSandbag (config : Options) (item : Item A) : Prop :=
  ∃ reason, sandbagRules config item = skip reason

def RunsTest (env : Env A) (config : Options) (item : Item A) : Prop :=
  pytestRuntestSetup env config item = .ok ()

theorem dropRule_of_not (config : Options) (item : Item A) (h : config.dropSandbag = false) :
    dropRule config item = .ok () := by
  unfold dropRule
  rw [if_neg (by simp [h])]

theorem onlyRule_of_not (config : Options) (item : Item A) (h : config.sandbag = false)
    (honly : config.sandbagOnly = false) : onlyRule config item = .ok () := by
  unfold onlyRule
  rw [if_neg (by simp [h, honly])]

/-- A run that `pytest_configure` admits with `--drop-sandbag` has no `--sandbag-only`. -/
theorem sandbagOnly_of_configure {config : Options}
    (h : pytestConfigure (speedrun config) = .ok ()) : config.sandbagOnly = false := by
  unfold pytestConfigure at h
  cases honly : config.sandbagOnly with
  | false => rfl
  | true =>
      simp only [speedrun, honly] at h
      split at h
      · cases h
      · simp at h

theorem sandbagRules_speedrun {config : Options} (honly : config.sandbagOnly = false)
    (item : Item A) : sandbagRules (speedrun config) item =
      if IsSandbag item then skip "Dropping sandbag" else .ok () := by
  unfold sandbagRules
  rw [dropRule_eq _ item rfl, onlyRule_of_not (speedrun config) item rfl honly]
  split <;> rfl

theorem sandbagRules_sandbagRun (config : Options) (item : Item A) :
    sandbagRules (sandbagRun config) item =
      if IsSandbag item then .ok () else skip "Running sandbag only" := by
  unfold sandbagRules
  rw [dropRule_of_not _ item rfl, onlyRule_eq _ item rfl]
  rfl

theorem sandbagRules_fullRun {config : Options} (honly : config.sandbagOnly = false)
    (item : Item A) : sandbagRules (fullRun config) item = .ok () := by
  unfold sandbagRules
  rw [dropRule_of_not _ item rfl, onlyRule_of_not (fullRun config) item rfl honly]
  rfl

/-- Setup passes where the sandbag rules and the other rules pass. -/
theorem runsTest_iff (env : Env A) (config : Options) (item : Item A) :
    RunsTest env config item ↔
      ¬ ("skipif_devrelease" ∈ item.marks ∧ env.isDevrelease = true) ∧
        sandbagRules config item = .ok () ∧ capabilityRule env item = .ok () := by
  unfold RunsTest pytestRuntestSetup sandbagRules
  by_cases hdev : "skipif_devrelease" ∈ item.marks ∧ env.isDevrelease = true
  · rw [if_pos hdev]
    simp [hdev, skip, bind, Except.bind]
  · rw [if_neg hdev]
    cases hdrop : dropRule config item with
    | error stop => simp [hdev, bind, Except.bind]
    | ok u =>
        cases honly : onlyRule config item with
        | error stop => simp [hdev, bind, Except.bind]
        | ok u => simp [hdev, bind, Except.bind]

/-- The sandbag rules skip an item in exactly one of the two halves, and the halves add up to the
full run: a test that runs there runs in one of them, and none runs in both. -/
theorem sandbag_partition (env : Env A) (config : Options)
    (h : pytestConfigure (speedrun config) = .ok ()) (item : Item A) :
    (SkippedAsSandbag (speedrun config) item ↔ ¬ SkippedAsSandbag (sandbagRun config) item) ∧
      (RunsTest env (fullRun config) item ↔
        RunsTest env (speedrun config) item ∨ RunsTest env (sandbagRun config) item) ∧
      ¬ (RunsTest env (speedrun config) item ∧ RunsTest env (sandbagRun config) item) := by
  have honly := sandbagOnly_of_configure h
  unfold SkippedAsSandbag
  rw [runsTest_iff, runsTest_iff, runsTest_iff, sandbagRules_speedrun honly,
    sandbagRules_sandbagRun, sandbagRules_fullRun honly]
  by_cases hsandbag : IsSandbag item
  · simp [hsandbag, skip]
  · simp [hsandbag, skip]

end

/-! ## Both halves -/

def Capability.str : Capability → String
  | .productionGateway => "Capability.PRODUCTION_GATEWAY"
  | .apicast => "Capability.APICAST"
  | .customEnvironment => "Capability.CUSTOM_ENVIRONMENT"
  | .sameCluster => "Capability.SAME_CLUSTER"
  | .serviceMesh => "Capability.SERVICE_MESH"
  | .serviceMeshWasm => "Capability.SERVICE_MESH_WASM"
  | .serviceMeshAdapter => "Capability.SERVICE_MESH_ADAPTER"
  | .standardGateway => "Capability.STANDARD_GATEWAY"
  | .logs => "Capability.LOGS"
  | .jaeger => "Capability.JAEGER"
  | .ocp4 => "Capability.OCP4"
  | .ocp3 => "Capability.OCP3"
  | .scaling => "Capability.SCALING"
  | .fips => "Capability.FIPS"
  | .nofips => "Capability.NOFIPS"
  | .zyncRoutes => "Capability.ZYNC_ROUTES"
  | .zyncOidcSync => "Capability.ZYNC_OIDC_SYNC"

instance : CapabilityArg Capability := ⟨id, Capability.str⟩

/-- A test that needs the logs of the gateway. -/
def logsItem : Item Capability := ⟨[⟨"required_capabilities", [.productionGateway, .logs]⟩]⟩

theorem sandbag_partition_logs :
    (SkippedAsSandbag (speedrun ⟨false, true, false, false, false⟩) logsItem ↔
        ¬ SkippedAsSandbag (sandbagRun ⟨false, true, false, false, false⟩) logsItem) ∧
      (RunsTest ⟨false, fun _ => .ok true⟩ (fullRun ⟨false, true, false, false, false⟩) logsItem ↔
        RunsTest ⟨false, fun _ => .ok true⟩ (speedrun ⟨false, true, false, false, false⟩) logsItem ∨
          RunsTest ⟨false, fun _ => .ok true⟩ (sandbagRun ⟨false, true, false, false, false⟩)
            logsItem) ∧
      ¬ (RunsTest ⟨false, fun _ => .ok true⟩ (speedrun ⟨false, true, false, false, false⟩)
          logsItem ∧
        RunsTest ⟨false, fun _ => .ok true⟩ (sandbagRun ⟨false, true, false, false, false⟩)
          logsItem) :=
  sandbag_partition ⟨false, fun _ => .ok true⟩ ⟨false, true, false, false, false⟩ rfl logsItem

end ThreescaleTests.Selection
