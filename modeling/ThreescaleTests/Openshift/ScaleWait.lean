import ThreescaleTests.Openshift.Scaler

/-!
# Waiting for the deployments

After the replica count is changed, `_scale` waits until the one APIManager object
lists the component as ready or as stopped. The number of objects it waits for is a
number of replicas, so the wait is over at the right time only by chance, unless that
number is one.
-/

namespace ThreescaleTests.Openshift

open Library

/-! ## The status -/

/-- The deployments that the status of an APIManager lists; `none` stands for `Missing`. -/
structure DeploymentStatus where
  ready : Option (List String)
  stopped : Option (List String)

def allDeployments : List String :=
  ["apicast-staging", "backend-cron", "backend-listener", "backend-redis", "backend-worker",
    "system-memcache", "system-mysql", "system-redis", "zync", "zync-database", "zync-que",
    "apicast-production", "system-app", "system-sidekiq", "system-sphinx"]

def statusCheck (status : Option (List String)) (deployments : Option (List String)) : Bool :=
  let deployments := match deployments with
    | none | some [] => allDeployments
    | some deployments => deployments
  match status with
  | none => false
  | some validDeployments => deployments.all fun name => decide (name ∈ validDeployments)

def success (replicas : Int) (deployments : List String) (status : DeploymentStatus) : Bool :=
  if replicas > 0 then statusCheck status.ready (some deployments)
  else statusCheck status.stopped (some deployments)

/-! ## The wait -/

def FirstAt (p : Nat → Prop) (k : Nat) : Prop := p k ∧ ∀ j < k, ¬ p j

theorem firstAt_congr {p q : Nat → Prop} (h : ∀ j, p j ↔ q j) (k : Nat) :
    FirstAt p k ↔ FirstAt q k := by
  simp only [FirstAt, h]

theorem firstAt_iff_eq_zero {p : Nat → Prop} (h : p 0) (k : Nat) : FirstAt p k ↔ k = 0 := by
  constructor
  · intro hfirst
    by_contra hne
    exact hfirst.2 0 (Nat.pos_of_ne_zero hne) h
  · rintro rfl
    exact ⟨h, fun j hj => absurd hj (Nat.not_lt_zero j)⟩

theorem firstAt_unique {p : Nat → Prop} {j k : Nat} (hj : FirstAt p j) (hk : FirstAt p k) :
    j = k := by
  rcases Nat.lt_trichotomy j k with hlt | heq | hlt
  · exact absurd hj.1 (hk.2 j hlt)
  · exact heq
  · exact absurd hk.1 (hj.2 k hlt)

/-- What holds at some time holds a first time. -/
theorem forall_not_firstAt_iff {p : Nat → Prop} : (∀ k, ¬ FirstAt p k) ↔ ∀ j, ¬ p j := by
  constructor
  · intro h j
    induction j using Nat.strongRecOn with
    | ind j ih => exact fun hj => h j ⟨hj, ih⟩
  · intro h k hk
    exact h k hk.1

/-- What the scaler scales to, and which count it hands over to wait for. -/
inductive Phase where
  | entry (replicas : Int)
  | exit (previousReplicas : Int)

namespace Phase

def replicas : Phase → Int
  | entry replicas => replicas
  | exit previousReplicas => previousReplicas

def waitForReplicas : Phase → Option Int
  | entry _ => none
  | exit previousReplicas => some previousReplicas

end Phase

/-- `wait_for_replicas or current_replicas`, where an unset count means one. -/
def minToSatisfy (waitForReplicas current : Option Int) : Int :=
  match waitForReplicas with
  | none => current.getD 1
  | some replicas => if replicas = 0 then current.getD 1 else replicas

/-- `until_any` of a selector: the snapshot at which the wait for so many of the selected objects
ends, if it ends. -/
abbrev UntilAny : Type :=
  Int → (DeploymentStatus → Bool) → (Nat → List DeploymentStatus) → Option Nat

/-- The wait ends as soon as enough of the objects satisfy the predicate. -/
def UntilAny.Counts (untilAny : UntilAny) : Prop :=
  ∀ n ok snapshots k, untilAny n ok snapshots = some k ↔
    FirstAt (fun j => n ≤ ((snapshots j).countP ok : Int)) k

/-- `self.self_selector().until_any(...)` in `_scale`; one object is selected. -/
def waitEnds (untilAny : UntilAny) (component : String) (phase : Phase) (current : Option Int)
    (snapshots : Nat → DeploymentStatus) : Option Nat :=
  untilAny (minToSatisfy phase.waitForReplicas current) (success phase.replicas [component])
    fun j => [snapshots j]

/-- The wait as it goes into `_scale`. -/
def waitOutcome (applied : Applied) (ends : Option Nat) : ScaleOutcome :=
  ⟨applied, if ends.isSome then .ok () else .error (.other "TimeoutException")⟩

/-- `_scale` returns exactly if the wait ends. -/
theorem scaleAt_returns_iff {untilAny : UntilAny} {loc : Locator} {component : String}
    {phase : Phase} {applied : Applied} {current : Option Int}
    {snapshots : Nat → DeploymentStatus} {manager : ApiManager}
    (h : TakesEffect loc (.num phase.replicas)
      (waitOutcome applied (waitEnds untilAny component phase current snapshots)) manager) :
    (∃ previous manager', (scaleAt loc (.num phase.replicas)
        (waitOutcome applied (waitEnds untilAny component phase current snapshots))).run manager =
      (.ok previous, manager')) ↔
      ∃ k, waitEnds untilAny component phase current snapshots = some k := by
  obtain ⟨model, hrun, -⟩ := scaleAt_of_takesEffect h
  rw [hrun, waitOutcome]
  cases hends : waitEnds untilAny component phase current snapshots with
  | none => simp [Except.map]
  | some k => simp [Except.map]

/-! ## The condition -/

/-- The component is listed as ready, or as stopped where there is to be none of it. -/
def Listed (component : String) (replicas : Int) (status : DeploymentStatus) : Prop :=
  ∃ names, (if 0 < replicas then status.ready else status.stopped) = some names ∧
    component ∈ names

theorem success_iff (component : String) (replicas : Int) (status : DeploymentStatus) :
    success replicas [component] status = true ↔ Listed component replicas status := by
  have hcheck : ∀ listed : Option (List String), statusCheck listed (some [component]) = true ↔
      ∃ names, listed = some names ∧ component ∈ names := by
    intro listed
    cases listed <;> simp [statusCheck]
  rw [success, Listed]
  by_cases hpos : 0 < replicas
  · rw [if_pos hpos, if_pos hpos, hcheck]
  · rw [if_neg hpos, if_neg hpos, hcheck]

/-- The wait is over when the component is listed, and not before. -/
def WaitsRight (untilAny : UntilAny) (component : String) (phase : Phase) (current : Option Int)
    (snapshots : Nat → DeploymentStatus) : Prop :=
  ∀ k, waitEnds untilAny component phase current snapshots = some k ↔
    FirstAt (fun j => Listed component phase.replicas (snapshots j)) k

section

variable {untilAny : UntilAny} {component : String} {phase : Phase} {current : Option Int}
  {snapshots : Nat → DeploymentStatus}

/-- The wait for no object is over at once. -/
theorem waitEnds_of_none (h : untilAny.Counts)
    (hnone : minToSatisfy phase.waitForReplicas current ≤ 0) (k : Nat) :
    waitEnds untilAny component phase current snapshots = some k ↔ k = 0 := by
  rw [waitEnds, h]
  exact firstAt_iff_eq_zero (Int.le_trans hnone (Int.natCast_nonneg _)) k

/-- The wait for one object is for the one that there is. -/
theorem waitEnds_of_one (h : untilAny.Counts)
    (hone : minToSatisfy phase.waitForReplicas current = 1) (k : Nat) :
    waitEnds untilAny component phase current snapshots = some k ↔
      FirstAt (fun j => Listed component phase.replicas (snapshots j)) k := by
  rw [waitEnds, h, hone]
  refine firstAt_congr (fun j => ?_) k
  rw [← success_iff, List.countP_singleton]
  cases success phase.replicas [component] (snapshots j) <;> simp

/-- The wait for more objects never ends. -/
theorem waitEnds_of_more (h : untilAny.Counts)
    (hmore : 2 ≤ minToSatisfy phase.waitForReplicas current) (k : Nat) :
    waitEnds untilAny component phase current snapshots ≠ some k := by
  rw [waitEnds, ne_eq, h]
  intro hfirst
  have henough := hfirst.1
  have hlength := ([snapshots k] : List DeploymentStatus).countP_le_length
    (p := success phase.replicas [component])
  rw [List.length_singleton] at hlength
  omega

/-- The wait is right exactly if it is for one object, or at once and rightly so, or forever and
rightly so. -/
theorem waitsRight_iff (h : untilAny.Counts) (component : String) (phase : Phase)
    (current : Option Int) (snapshots : Nat → DeploymentStatus) :
    WaitsRight untilAny component phase current snapshots ↔
      minToSatisfy phase.waitForReplicas current = 1 ∨
      (minToSatisfy phase.waitForReplicas current ≤ 0 ∧
        Listed component phase.replicas (snapshots 0)) ∨
      (2 ≤ minToSatisfy phase.waitForReplicas current ∧
        ∀ j, ¬ Listed component phase.replicas (snapshots j)) := by
  rw [WaitsRight]
  rcases Int.lt_trichotomy (minToSatisfy phase.waitForReplicas current) 1 with hless | hone | hmore
  · have hnone : minToSatisfy phase.waitForReplicas current ≤ 0 := by omega
    have hright :
        (∀ k, k = 0 ↔ FirstAt (fun j => Listed component phase.replicas (snapshots j)) k) ↔
          Listed component phase.replicas (snapshots 0) := by
      constructor
      · intro hfirst
        exact ((hfirst 0).mp rfl).1
      · intro hlisted k
        exact (firstAt_iff_eq_zero hlisted k).symm
    have hnotOne : minToSatisfy phase.waitForReplicas current ≠ 1 := by omega
    have hnotMore : ¬ 2 ≤ minToSatisfy phase.waitForReplicas current := by omega
    simp only [waitEnds_of_none h hnone, hright, hnone, hnotOne, hnotMore, true_and, false_and,
      false_or, or_false]
  · simp only [waitEnds_of_one h hone, implies_true, hone, true_or]
  · have hnever : ∀ k, waitEnds untilAny component phase current snapshots ≠ some k :=
      waitEnds_of_more h hmore
    have hnotOne : minToSatisfy phase.waitForReplicas current ≠ 1 := by omega
    have hnotNone : ¬ minToSatisfy phase.waitForReplicas current ≤ 0 := by omega
    have hmore : 2 ≤ minToSatisfy phase.waitForReplicas current := hmore
    simp only [hnever, false_iff, forall_not_firstAt_iff, hnotOne, hnotNone, hmore, true_and,
      false_and, false_or]

end

/-! ## Not one replica -/

open Classical in
/-- A wait that goes on for as long as it takes. -/
noncomputable def patiently : UntilAny := fun n ok snapshots =>
  if h : ∃ k, FirstAt (fun j => n ≤ ((snapshots j).countP ok : Int)) k then some h.choose else none

theorem patiently_counts : UntilAny.Counts patiently := by
  intro n ok snapshots k
  rw [patiently]
  split
  case isTrue h =>
    rw [Option.some.injEq]
    constructor
    · rintro rfl
      exact h.choose_spec
    · exact firstAt_unique h.choose_spec
  case isFalse h =>
    constructor
    · intro hnone
      cases hnone
    · intro hk
      exact absurd ⟨k, hk⟩ h

def listenerReady : DeploymentStatus := ⟨some ["backend-listener"], some []⟩

def listenerStopped : DeploymentStatus := ⟨some [], some ["backend-listener"]⟩

theorem waitsRight_iff_one :
    WaitsRight patiently "backend-listener" (.exit 1) (some 0) (fun _ => listenerReady) ↔
      minToSatisfy (some 1) (some 0) = 1 ∨
      (minToSatisfy (some 1) (some 0) ≤ 0 ∧ Listed "backend-listener" 1 listenerReady) ∨
      (2 ≤ minToSatisfy (some 1) (some 0) ∧
        ∀ _ : Nat, ¬ Listed "backend-listener" 1 listenerReady) :=
  waitsRight_iff patiently_counts "backend-listener" (.exit 1) (some 0) fun _ => listenerReady

/-- From two replicas to none, the wait goes on although the listener is stopped; from none to two,
it is over while the listener is stopped still. -/
theorem not_waitsRight :
    ¬ WaitsRight patiently "backend-listener" (.entry 0) (some 2) (fun _ => listenerStopped) ∧
    ¬ WaitsRight patiently "backend-listener" (.entry 2) (some 0) (fun _ => listenerStopped) := by
  constructor
  · intro h
    have hstopped : Listed "backend-listener" 0 listenerStopped :=
      ⟨["backend-listener"], rfl, List.mem_singleton.mpr rfl⟩
    have hnever : waitEnds patiently "backend-listener" (.entry 0) (some 2)
        (fun _ => listenerStopped) ≠ some 0 :=
      waitEnds_of_more patiently_counts (by decide) 0
    exact hnever ((h 0).mpr ((firstAt_iff_eq_zero hstopped 0).mpr rfl))
  · intro h
    have hends : waitEnds patiently "backend-listener" (.entry 2) (some 0)
        (fun _ => listenerStopped) = some 0 :=
      (waitEnds_of_none patiently_counts (by decide) 0).mpr rfl
    obtain ⟨names, hready, hmem⟩ := ((h 0).mp hends).1
    cases hready
    exact absurd hmem (by decide)

end ThreescaleTests.Openshift
