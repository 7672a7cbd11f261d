import ThreescaleTests.Factories.Ledger

/-!
# What is deleted

At teardown every registered finalizer runs. Those of backends list and delete the usages before
they delete the backend, with up to 14 tries; plans and active docs share one finalizer each.
-/

namespace ThreescaleTests.Factories

open Library

/-! ## Finalizers -/

/-- Where an object is registered. -/
inductive Entry where
  | finalizer (i : Nat)
  | plan (i : Nat)
  | ad (i : Nat)
deriving DecidableEq

def entries (w : World) : List Entry :=
  (List.range w.finalizers.length).map Entry.finalizer ++
    (List.range w.plans.length).map Entry.plan ++ (List.range w.ads.length).map Entry.ad

/-- The server's answers at teardown, for each try: the usages of a backend, with what their
deletions end with, and what the deletion of an object ends with. -/
structure Answers where
  usages : Entry → Nat → Except Exn (List (Except Exn Unit))
  delete : Entry → Nat → Except Exn Unit

/-- `delete()`; what has been attempted is recorded. -/
def deleteEntry (answers : Answers) (entry : Entry) (k : Nat) : Prog (List Entry) Unit :=
  ⟨fun attempts => (answers.delete entry k, attempts ++ [entry])⟩

def backendDeleteTry (answers : Answers) (entry : Entry) (k : Nat) : Prog (List Entry) Unit := do
  let usages ← Prog.lift (answers.usages entry k)
  Prog.forEach Prog.lift usages
  deleteEntry answers entry k

def backendDelete (answers : Answers) (entry : Entry) : Prog (List Entry) Unit :=
  Prog.retryEach Resilient.isApiClientError (backendDeleteTry answers entry) 0 13

/-- The finalizer of one object: its hooks, whose exceptions are dropped, and its deletion. -/
def Finalizer.run (answers : Answers) (entry : Entry) (finalizer : Finalizer) :
    Prog (List Entry) Unit := do
  Prog.forEach (fun hook => Prog.swallow (Prog.lift (hook finalizer.obj))) finalizer.onDelete
  if finalizer.obj.kind = .backend then backendDelete answers entry
  else deleteEntry answers entry 0

/-- `[item.delete() for item in items]` -/
def deleteItems (answers : Answers) (items : List Entry) : Prog (List Entry) Unit :=
  Prog.forEach (fun entry => deleteEntry answers entry 0) items

/-- Finalizers run last to first and go on after one has raised; those of the plans and of the
active docs were registered when the fixtures were set up. -/
def teardown (answers : Answers) (w : World) : Prog (List Entry) Unit := do
  Prog.forEach (fun f => Prog.swallow (f.1.run answers (.finalizer f.2)))
    w.finalizers.zipIdx.reverse
  Prog.swallow (deleteItems answers ((List.range w.ads.length).map Entry.ad))
  Prog.swallow (deleteItems answers ((List.range w.plans.length).map Entry.plan))

def attempts (answers : Answers) (w : World) : List Entry := ((teardown answers w).run []).2

/-! ## What a finalizer attempts -/

/-- The program adds the deletions that `P` says to those attempted. -/
def Adds (m : Prog (List Entry) Unit) (P : Entry → Prop) : Prop :=
  ∀ attempts entry, entry ∈ (m.run attempts).2 ↔ entry ∈ attempts ∨ P entry

theorem deleteEntry_adds (answers : Answers) (entry : Entry) (k : Nat) :
    Adds (deleteEntry answers entry k) (· = entry) := by
  intro attempts entry'
  simp [deleteEntry]

theorem Adds.congr {m : Prog (List Entry) Unit} {P Q : Entry → Prop} (h : Adds m P)
    (hiff : ∀ entry, P entry ↔ Q entry) : Adds m Q := fun attempts entry => by
  rw [h attempts entry, hiff entry]

/-- An exception keeps the loop from adding anything more, unless it is swallowed. -/
theorem Adds.forEach_swallow {α : Type} {f : α → Prog (List Entry) Unit} {P : α → Entry → Prop}
    {as : List α} (h : ∀ a ∈ as, Adds (f a) (P a)) :
    Adds (Prog.forEach (fun a => Prog.swallow (f a)) as) fun entry => ∃ a ∈ as, P a entry := by
  induction as with
  | nil => simp [Adds, Prog.forEach]
  | cons a as ih =>
      intro attempts entry
      obtain ⟨ha, hrest⟩ := List.forall_mem_cons.mp h
      have hswallow : (Prog.swallow (f a)).run attempts = (.ok (), ((f a).run attempts).2) := rfl
      rw [Prog.forEach, Prog.bind_of_ok hswallow, ih hrest, ha]
      simp [or_assoc]

/-- All usages of a backend are listed and deleted in a try. -/
def usagesDeleted (answers : Answers) (entry : Entry) (k : Nat) : Except Exn Unit := do
  let usages ← answers.usages entry k
  forM usages id

theorem forEach_lift_run (xs : List (Except Exn Unit)) (s : List Entry) :
    (Prog.forEach Prog.lift xs : Prog (List Entry) Unit).run s = (forM xs id, s) := by
  induction xs with
  | nil => rfl
  | cons x xs ih =>
      rw [Prog.forEach, List.forM_cons]
      cases x with
      | error e => rfl
      | ok u => exact (Prog.lift_bind_of_ok rfl _ s).trans ih

theorem backendDeleteTry_run (answers : Answers) (entry : Entry) (k : Nat) (s : List Entry) :
    (backendDeleteTry answers entry k).run s =
      match usagesDeleted answers entry k with
      | .ok _ => (answers.delete entry k, s ++ [entry])
      | .error e => (.error e, s) := by
  rw [backendDeleteTry, usagesDeleted]
  cases hlist : answers.usages entry k with
  | error e => rfl
  | ok usages =>
      rw [Prog.lift_bind_of_ok rfl]
      have hloop := forEach_lift_run usages s
      cases hall : (forM usages id : Except Exn Unit) with
      | error e =>
          rw [Prog.bind_of_error (hloop.trans (by rw [hall]))]
          simp only [bind, Except.bind, hall]
      | ok u =>
          rw [Prog.bind_of_ok (hloop.trans (by rw [hall]))]
          simp only [bind, Except.bind, hall]
          rfl

/-- One of the tries from `k` on, of which `n` may follow the first, gets past the usages: those
before it end with an `ApiClientError` there. -/
def GetsPastUsages (answers : Answers) (entry : Entry) (k n : Nat) : Prop :=
  ∃ j ≤ n, usagesDeleted answers entry (k + j) = .ok () ∧
    ∀ i < j, ∃ e, usagesDeleted answers entry (k + i) = .error e ∧
      Resilient.isApiClientError e = true

theorem getsPastUsages_zero (answers : Answers) (entry : Entry) (k : Nat) :
    GetsPastUsages answers entry k 0 ↔ usagesDeleted answers entry k = .ok () := by
  constructor
  · rintro ⟨j, hj, hpast, -⟩
    rwa [Nat.le_zero.mp hj] at hpast
  · exact fun hpast => ⟨0, Nat.le_refl 0, hpast, nofun⟩

theorem getsPastUsages_succ (answers : Answers) (entry : Entry) (k n : Nat) :
    GetsPastUsages answers entry k (n + 1) ↔ usagesDeleted answers entry k = .ok () ∨
      (∃ e, usagesDeleted answers entry k = .error e ∧ Resilient.isApiClientError e = true) ∧
        GetsPastUsages answers entry (k + 1) n := by
  constructor
  · rintro ⟨j, hj, hpast, hbefore⟩
    cases j with
    | zero => exact .inl hpast
    | succ j =>
        refine .inr ⟨hbefore 0 (Nat.succ_pos j), j, Nat.le_of_succ_le_succ hj, ?_, fun i hi => ?_⟩
        · rwa [Nat.add_assoc, Nat.add_comm 1]
        · rw [Nat.add_assoc, Nat.add_comm 1]
          exact hbefore (i + 1) (Nat.succ_lt_succ hi)
  · rintro (hpast | ⟨hfirst, j, hj, hpast, hbefore⟩)
    · exact ⟨0, Nat.zero_le _, hpast, nofun⟩
    · refine ⟨j + 1, Nat.succ_le_succ hj, ?_, fun i hi => ?_⟩
      · rwa [Nat.add_comm j, ← Nat.add_assoc]
      · cases i with
        | zero => exact hfirst
        | succ i =>
            rw [Nat.add_comm i, ← Nat.add_assoc]
            exact hbefore i (Nat.lt_of_succ_lt_succ hi)

/-- A try that is repeated after the backend's own deletion has failed has attempted it. -/
theorem backendDelete_adds (answers : Answers) (entry : Entry) (k n : Nat) :
    Adds (Prog.retryEach Resilient.isApiClientError (backendDeleteTry answers entry) k n)
      fun entry' => entry' = entry ∧ GetsPastUsages answers entry k n := by
  induction n generalizing k with
  | zero =>
      intro s entry'
      rw [Prog.retryEach, backendDeleteTry_run, getsPastUsages_zero]
      cases usagesDeleted answers entry k <;> simp
  | succ n ih =>
      intro s entry'
      have htry := backendDeleteTry_run answers entry k s
      rw [getsPastUsages_succ]
      cases hpast : usagesDeleted answers entry k with
      | error e =>
          rw [hpast] at htry
          cases he : Resilient.isApiClientError e with
          | false =>
              rw [Prog.retryEach_of_uncaught htry he]
              simp [he]
          | true =>
              rw [Prog.retryEach_of_caught htry he, ih]
              simp [he]
      | ok u =>
          rw [hpast] at htry
          have hadded : entry' ∈ s ++ [entry] ↔ entry' ∈ s ∨ entry' = entry := by simp
          cases hdelete : answers.delete entry k with
          | ok u =>
              rw [hdelete] at htry
              rw [Prog.retryEach_of_ok htry, hadded]
              simp
          | error e =>
              rw [hdelete] at htry
              cases he : Resilient.isApiClientError e with
              | false =>
                  rw [Prog.retryEach_of_uncaught htry he, hadded]
                  simp
              | true =>
                  rw [Prog.retryEach_of_caught htry he, ih, hadded]
                  simp only [true_or, and_true, or_assoc]
                  exact or_congr_right (or_iff_left_of_imp And.left)

/-- Hooks that raise do not keep the deletion from being attempted. -/
theorem finalizer_adds (answers : Answers) (entry : Entry) (finalizer : Finalizer) :
    Adds (finalizer.run answers entry) fun entry' => entry' = entry ∧
      (finalizer.obj.kind = .backend → GetsPastUsages answers entry 0 13) := by
  intro s entry'
  have hhooks (hooks : List (Obj → Except Exn Unit)) :
      (Prog.forEach (fun hook => Prog.swallow (Prog.lift (hook finalizer.obj))) hooks).run s =
        (.ok (), s) := by
    induction hooks with
    | nil => rfl
    | cons hook hooks ih => exact ih
  rw [Finalizer.run, Prog.bind_of_ok (hhooks _)]
  by_cases hkind : finalizer.obj.kind = .backend
  · rw [if_pos hkind, backendDelete, backendDelete_adds]
    simp [hkind]
  · rw [if_neg hkind, deleteEntry_adds]
    simp [hkind]

/-- No deletion fails before that of the entry. -/
def Reached (answers : Answers) (items : List Entry) (entry : Entry) : Prop :=
  ∃ i : Nat, items[i]? = some entry ∧
    ∀ j < i, ∀ entry', items[j]? = some entry' → answers.delete entry' 0 = .ok ()

/-- One finalizer for a list attempts the deletions up to the first that fails. -/
theorem deleteItems_adds (answers : Answers) (items : List Entry) :
    Adds (deleteItems answers items) (Reached answers items) := by
  induction items with
  | nil => simp [Adds, deleteItems, Prog.forEach, Reached]
  | cons item items ih =>
      intro s entry
      rw [Reached, ← Nat.or_exists_add_one]
      simp only [Nat.forall_lt_succ_left, List.getElem?_cons_zero, List.getElem?_cons_succ,
        Option.some.injEq, forall_eq', Nat.not_lt_zero, false_implies, implies_true, and_true]
      rw [deleteItems, Prog.forEach]
      cases hdelete : answers.delete item 0 with
      | error e =>
          have hrun : (deleteEntry answers item 0).run s = (.error e, s ++ [item]) := by
            rw [deleteEntry, hdelete]
          rw [Prog.bind_of_error hrun]
          simp [eq_comm]
      | ok u =>
          have hrun : (deleteEntry answers item 0).run s = (.ok (), s ++ [item]) := by
            rw [deleteEntry, hdelete]
          rw [Prog.bind_of_ok hrun, ← deleteItems, ih]
          simp [Reached, or_assoc, eq_comm]

/-- All of a list are reached just if no deletion fails but possibly the last one. -/
theorem reached_range_iff (answers : Answers) (n : Nat) {entry : Nat → Entry}
    (hinj : Function.Injective entry) :
    (∀ k < n, Reached answers ((List.range n).map entry) (entry k)) ↔
      ∀ k, k + 1 < n → answers.delete (entry k) 0 = .ok () := by
  have hget (k : Nat) (x : Entry) :
      ((List.range n).map entry)[k]? = some x ↔ k < n ∧ entry k = x := by
    simp [List.getElem?_eq_some_iff]
  simp only [Reached, hget]
  constructor
  · intro h k hk
    obtain ⟨i, ⟨-, hi⟩, hbefore⟩ := h (n - 1) (by omega)
    have hlast : i = n - 1 := hinj hi
    exact hbefore k (by omega) (entry k) ⟨by omega, rfl⟩
  · intro h k hk
    refine ⟨k, ⟨hk, rfl⟩, ?_⟩
    rintro j hj _ ⟨-, rfl⟩
    exact h j (by omega)

/-! ## The whole teardown -/

/-- Finalizers are isolated from each other. -/
theorem mem_attempts (answers : Answers) (w : World) (entry : Entry) :
    entry ∈ attempts answers w ↔
      (∃ f ∈ w.finalizers.zipIdx.reverse, entry = .finalizer f.2 ∧
        (f.1.obj.kind = .backend → GetsPastUsages answers (.finalizer f.2) 0 13)) ∨
      Reached answers ((List.range w.ads.length).map Entry.ad) entry ∨
      Reached answers ((List.range w.plans.length).map Entry.plan) entry := by
  have hfinalizers := Adds.forEach_swallow fun f (_ : f ∈ w.finalizers.zipIdx.reverse) =>
    finalizer_adds answers (.finalizer f.2) f.1
  have hrun := Prog.forEach_run (f := fun f : Finalizer × Nat =>
    Prog.swallow (f.1.run answers (.finalizer f.2))) (fun _ _ => rfl)
      w.finalizers.zipIdx.reverse []
  have hswallow (m : Prog (List Entry) Unit) (s : List Entry) :
      (Prog.swallow m).run s = (.ok (), (m.run s).2) := rfl
  have hadds := hfinalizers [] entry
  rw [hrun] at hadds
  rw [attempts, teardown, Prog.bind_of_ok hrun, Prog.bind_of_ok (hswallow _ _), hswallow,
    deleteItems_adds, deleteItems_adds, hadds]
  simp [or_assoc]

theorem entries_attempted_iff (answers : Answers) (w : World) :
    (∀ entry ∈ entries w, entry ∈ attempts answers w) ↔
      (∀ i f, w.finalizers[i]? = some f → f.obj.kind = .backend →
        GetsPastUsages answers (.finalizer i) 0 13) ∧
      (∀ i, i + 1 < w.plans.length → answers.delete (.plan i) 0 = .ok ()) ∧
      ∀ i, i + 1 < w.ads.length → answers.delete (.ad i) 0 = .ok () := by
  have hplans := reached_range_iff answers w.plans.length fun _ _ h => Entry.plan.inj h
  have hads := reached_range_iff answers w.ads.length fun _ _ h => Entry.ad.inj h
  rw [← hplans, ← hads]
  have hother {items : List Entry} {entry : Entry} (h : entry ∉ items) :
      ¬ Reached answers items entry := fun ⟨_, hitem, _⟩ => h (List.mem_of_getElem? hitem)
  have hfinalizer (i : Nat) : .finalizer i ∈ attempts answers w ↔
      ∃ f, w.finalizers[i]? = some f ∧
        (f.obj.kind = .backend → GetsPastUsages answers (.finalizer i) 0 13) := by
    rw [mem_attempts, or_iff_left]
    · simp [List.mem_zipIdx_iff_getElem?]
    · rintro (h | h) <;> exact hother (by simp) h
  have hplan (i : Nat) : .plan i ∈ attempts answers w ↔
      Reached answers ((List.range w.plans.length).map Entry.plan) (.plan i) := by
    rw [mem_attempts]
    simp [hother]
  have had (i : Nat) : .ad i ∈ attempts answers w ↔
      Reached answers ((List.range w.ads.length).map Entry.ad) (.ad i) := by
    rw [mem_attempts]
    simp [hother]
  have hbackends : (∀ i < w.finalizers.length, .finalizer i ∈ attempts answers w) ↔
      ∀ i f, w.finalizers[i]? = some f → f.obj.kind = .backend →
        GetsPastUsages answers (.finalizer i) 0 13 := by
    constructor
    · intro h i f hf hkind
      obtain ⟨f', hf', hpast⟩ := (hfinalizer i).mp (h i (List.getElem?_eq_some_iff.mp hf).choose)
      exact hpast (Option.some.inj (hf.symm.trans hf') ▸ hkind)
    · exact fun h i hi => (hfinalizer i).mpr
        ⟨w.finalizers[i], List.getElem?_eq_getElem hi, h i _ (List.getElem?_eq_getElem hi)⟩
  simp only [← hbackends, ← hplan, ← had]
  simp [entries, or_imp, forall_and]

/-- Whatever fails on the way, every object created is registered once and its deletion is
attempted, exactly if no call leaks, no plan or active doc but the last one collected fails to be
deleted, and one of the tries to delete a backend gets past its usages. -/
theorem factories_cleanup_iff {cfg : Testconfig} (hskip : cfg.skipCleanup = false)
    {calls : List Call} (hauto : ∀ c ∈ calls, c.autoclean = true) (memory : Memory)
    (answers : Answers) :
    let w := run (call cfg) calls (World.start memory)
    (w.created.Perm (registered w) ∧ ∀ entry ∈ entries w, entry ∈ attempts answers w) ↔
      (∀ c ∈ calls, ¬ c.Leaks cfg) ∧
        (∀ i f, w.finalizers[i]? = some f → f.obj.kind = .backend →
          GetsPastUsages answers (.finalizer i) 0 13) ∧
        (∀ i, i + 1 < w.plans.length → answers.delete (.plan i) 0 = .ok ()) ∧
        ∀ i, i + 1 < w.ads.length → answers.delete (.ad i) 0 = .ok () :=
  and_congr (created_perm_registered_iff hskip hauto memory) (entries_attempted_iff answers _)

/-! ## Servers and calls -/

/-- A server whose new tenants do not become ready. -/
def slowRemote : Remote
  | .waitTenantReady _, _ => .error (.other "TimeoutError")
  | _, _ => .ok 1

/-- A server that does not delete the usages of backends, nor the first plan. -/
def stubbornAnswers : Answers where
  usages _ _ := .ok [.error (Resilient.apiClientError 403)]
  delete entry _ := if entry = .plan 0 then .error (Resilient.apiClientError 403) else .ok ()

/-- A server that lists no usages at first, and deletes no services. -/
def wakingAnswers : Answers where
  usages _ k := if k = 0 then .error (Resilient.apiClientError 503) else .ok [.ok (), .ok ()]
  delete entry _ :=
    if entry = .finalizer 1 then .error (Resilient.apiClientError 500) else .ok ()

/-- A hook that raises when its service or its backend is deleted. -/
def raisingHook : Hook where
  beforeService := some (Code.update [("deployment_option", .str "self_managed")])
  onServiceDelete := some fun _ => .error (.other "KeyError")
  onBackendDelete := some fun _ => .error (.other "KeyError")

def planParams : Memory := ⟨[.dict (Dict.ofList [("name", .plain (.str "plan"))])]⟩

def planOf (service : Option Obj) : Call := .appPlan exampleRemote ⟨0, service, 0, true⟩

def backendCall : Call := .backend exampleRemote ⟨"be", none, true, [raisingHook], true⟩

/-- A backend, a service with it, two plans of which one makes its own service, and an active
doc. -/
def manyCalls : List Call :=
  [backendCall,
    .service exampleRemote ⟨0, none, [("/", ⟨.backend, 1⟩)], true, [raisingHook], true⟩,
    planOf (some ⟨.service, 1⟩), planOf none, .activeDoc exampleRemote ⟨0, true⟩]

/-- A backend made through the UI and a tenant that does not become ready are never registered; of
two plans the second is not deleted after the deletion of the first has failed, and a backend is
not deleted if its usages are not. -/
theorem factories_leak :
    let start := World.start planParams
    let ui := run (call exampleConfig)
      [.uiBackend exampleRemote ⟨"be", "be", "", "https://echo.example", true⟩] start
    let tenant := run (call exampleConfig) [.tenant slowRemote ⟨"t", true, none, none⟩] start
    let plans := run (call exampleConfig)
      [planOf (some ⟨.service, 7⟩), planOf (some ⟨.service, 7⟩)] start
    let backend := run (call exampleConfig) [backendCall] start
    ¬ ui.created.Perm (registered ui) ∧ ¬ tenant.created.Perm (registered tenant) ∧
      .plan 1 ∉ attempts stubbornAnswers plans ∧ .plan 1 ∈ entries plans ∧
        .finalizer 0 ∉ attempts stubbornAnswers backend ∧ .finalizer 0 ∈ entries backend := by
  decide +kernel

theorem factories_cleanup_many :
    let w := run (call exampleConfig) manyCalls (World.start planParams)
    w.created.Perm (registered w) ∧ ∀ entry ∈ entries w, entry ∈ attempts wakingAnswers w := by
  have hpast (entry : Entry) : GetsPastUsages wakingAnswers entry 0 13 := by
    refine ⟨1, by decide, rfl, fun i hi => ?_⟩
    rw [Nat.lt_one_iff.mp hi]
    exact ⟨Resilient.apiClientError 503, rfl, by decide⟩
  exact (factories_cleanup_iff rfl (by simp [manyCalls, backendCall, planOf, Call.autoclean])
    planParams wakingAnswers).mpr
    ⟨by simp [manyCalls, backendCall, planOf, Call.Leaks], fun i _ _ _ => hpast (.finalizer i),
      fun _ _ => rfl, fun _ _ => rfl⟩

end ThreescaleTests.Factories
