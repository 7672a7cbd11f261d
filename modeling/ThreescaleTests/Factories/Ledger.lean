import Mathlib.Data.List.Perm.Basic
import ThreescaleTests.Factories.Fixtures
import ThreescaleTests.Library.Run

/-!
# What the factories create and register

The ledger of a world has two sides: the objects created and the objects
registered for deletion. A factory call keeps them level if it registers what it
creates before anything else can raise.
-/

namespace ThreescaleTests.Factories

open Library

/-! ## The two sides of the ledger -/

/-- The objects registered for deletion. -/
def registered (w : World) : List Obj := w.finalizers.map Finalizer.obj ++ w.plans ++ w.ads

/-- Nothing is created or registered. -/
def SameLedger (w w' : World) : Prop := w'.created = w.created ∧ registered w' = registered w

/-- All that is created is registered as well. -/
def Balanced (w w' : World) : Prop :=
  ∃ objs, w'.created = w.created ++ objs ∧ (registered w').Perm (registered w ++ objs)

/-- One object created is not registered. -/
def Lossy (w w' : World) : Prop :=
  ∃ o, w'.created = w.created ++ [o] ∧ registered w' = registered w

theorem SameLedger.refl (w : World) : SameLedger w w := ⟨rfl, rfl⟩

theorem SameLedger.trans (w w' w'' : World) (h : SameLedger w w') (h' : SameLedger w' w'') :
    SameLedger w w'' := ⟨h'.1.trans h.1, h'.2.trans h.2⟩

theorem SameLedger.balanced (w w' : World) (h : SameLedger w w') : Balanced w w' := by
  refine ⟨[], by simpa using h.1, ?_⟩
  rw [h.2, List.append_nil]

theorem Balanced.trans (w w' w'' : World) (h : Balanced w w') (h' : Balanced w' w'') :
    Balanced w w'' := by
  obtain ⟨objs, hcreated, hregistered⟩ := h
  obtain ⟨objs', hcreated', hregistered'⟩ := h'
  refine ⟨objs ++ objs', by rw [hcreated', hcreated, List.append_assoc], ?_⟩
  rw [← List.append_assoc]
  exact hregistered'.trans (hregistered.append_right objs')

/-! ## The parts of the factories -/

section Parts

theorem onMemory_same {α : Type} (m : Prog Memory α) : Prog.Within SameLedger (onMemory m) :=
  fun _ => ⟨rfl, rfl⟩

theorem send_same (remote : Remote) (request : Request) (n : Nat) :
    Prog.Within SameLedger (send remote request n) := fun _ => ⟨rfl, rfl⟩

theorem lift_same {α : Type} (x : Except Exn α) :
    Prog.Within SameLedger (Prog.lift x : Prog World α) := Prog.Within.lift SameLedger.refl x

theorem pure_same {α : Type} (a : α) : Prog.Within SameLedger (pure a : Prog World α) :=
  Prog.Within.pure SameLedger.refl a

theorem bind_same {α β : Type} {m : Prog World α} {f : α → Prog World β}
    (hm : Prog.Within SameLedger m) (hf : ∀ a, Prog.Within SameLedger (f a)) :
    Prog.Within SameLedger (m >>= f) := Prog.Within.bind SameLedger.trans hm hf

theorem forEach_same {α : Type} {f : α → Prog World Unit} (hf : ∀ a, Prog.Within SameLedger (f a))
    (as : List α) : Prog.Within SameLedger (Prog.forEach f as) :=
  Prog.Within.forEach SameLedger.refl SameLedger.trans fun a _ => hf a

theorem ask_same (remote : Remote) (request : Request) :
    Prog.Within SameLedger (ask remote request) :=
  bind_same (send_same remote request 0) fun _ => pure_same ()

theorem createUsages_same (remote : Remote) (svc : Obj) (backends : List (String × Obj)) :
    Prog.Within SameLedger (createUsages remote svc backends) :=
  forEach_same (fun _ => ask_same remote _) backends

theorem hooks_same (hooks : List (Obj → Except Exn Unit)) (o : Obj) :
    Prog.Within SameLedger
      (Prog.forEach (fun hook => Prog.lift (hook o)) hooks : Prog World Unit) :=
  forEach_same (fun hook => lift_same (hook o)) hooks

theorem deployProxy_same (remote : Remote) (onCreate : List (Obj → Except Exn Unit)) (svc : Obj)
    (d : Option Json) : Prog.Within SameLedger (deployProxy remote onCreate svc d) := by
  have hdeploy : Prog.Within SameLedger (deployProxy remote onCreate svc none) :=
    bind_same (ask_same remote _) fun _ => hooks_same onCreate svc
  cases d with
  | none => exact hdeploy
  | some d =>
      have hupdate : Prog.Within SameLedger (proxyUpdate remote svc d) :=
        Prog.Within.retryEach SameLedger.refl SameLedger.trans (send_same remote _) 0 7
      exact bind_same hupdate fun _ => hdeploy

theorem setupProxy_same (remote : Remote) (hooks : List Hook) (svc : Obj) (params : Loc) :
    Prog.Within SameLedger (setupProxy remote hooks svc params) :=
  bind_same (onMemory_same _) fun d => deployProxy_same remote _ svc d

end Parts

/-! ## Creating and registering -/

/-- The program returns and registers the object. -/
def Registers (register : Prog World Unit) (o : Obj) : Prop :=
  ∀ w, ∃ w', register.run w = (.ok (), w') ∧ w'.created = w.created ∧
    (registered w').Perm (registered w ++ [o])

theorem addFinalizer_registers (finalizer : Finalizer) :
    Registers (addFinalizer finalizer) finalizer.obj := by
  intro w
  refine ⟨_, rfl, rfl, ?_⟩
  rw [List.perm_iff_count]
  intro o
  simp only [registered, List.map_append, List.map_cons, List.map_nil, List.count_append]
  omega

theorem addIfAutoclean_registers {cfg : Testconfig} (hskip : cfg.skipCleanup = false)
    {autoclean : Bool} (hauto : autoclean = true) (finalizer : Finalizer) :
    Registers (addIfAutoclean cfg autoclean finalizer) finalizer.obj := by
  simp only [addIfAutoclean, hskip, hauto]
  exact addFinalizer_registers finalizer

theorem registerFinalizer_registers {cfg : Testconfig} (hskip : cfg.skipCleanup = false)
    {autoclean : Bool} (hauto : autoclean = true) (finalizer : Finalizer) :
    Registers (registerFinalizer cfg autoclean finalizer) finalizer.obj := by
  simp only [registerFinalizer, hskip, hauto]
  exact addFinalizer_registers finalizer

theorem collectPlan_registers {autoclean : Bool} (hauto : autoclean = true) (plan : Obj) :
    Registers (collectPlan autoclean plan) plan := by
  intro w
  refine ⟨{ w with plans := w.plans ++ [plan] }, by simp [collectPlan, hauto], rfl, ?_⟩
  rw [List.perm_iff_count]
  intro o
  simp only [registered, List.count_append]
  omega

theorem collectDoc_registers {autoclean : Bool} (hauto : autoclean = true) (acd : Obj) :
    Registers (collectDoc autoclean acd) acd := by
  intro w
  refine ⟨{ w with ads := w.ads ++ [acd] }, by simp [collectDoc, hauto], rfl, ?_⟩
  simp [registered, List.append_assoc]

theorem same_balanced {α : Type} {m : Prog World α} (h : Prog.Within SameLedger m) :
    Prog.Within Balanced m := h.mono SameLedger.balanced

theorem bind_balanced {α β : Type} {m : Prog World α} {f : α → Prog World β}
    (hm : Prog.Within Balanced m) (hf : ∀ a, Prog.Within Balanced (f a)) :
    Prog.Within Balanced (m >>= f) := Prog.Within.bind Balanced.trans hm hf

theorem Registers.then_same {register : Prog World Unit} {o : Obj} (h : Registers register o)
    {β : Type} {rest : Prog World β} (hrest : Prog.Within SameLedger rest) (w : World) :
    ((register >>= fun _ => rest).run w).2.created = w.created ∧
      (registered ((register >>= fun _ => rest).run w).2).Perm (registered w ++ [o]) := by
  obtain ⟨w1, hrun, hcreated, hregistered⟩ := h w
  obtain ⟨hcreated', hregistered'⟩ := hrest w1
  rw [Prog.bind_of_ok hrun]
  exact ⟨hcreated'.trans hcreated, hregistered' ▸ hregistered⟩

/-- What is registered right after its creation keeps the ledger level, whatever fails later. -/
theorem create_balanced (remote : Remote) (kind : Kind) (request : Request) {β : Type}
    {register : Obj → Prog World Unit} {rest : Obj → Prog World β}
    (hregister : ∀ o, Registers (register o) o) (hrest : ∀ o, Prog.Within SameLedger (rest o)) :
    Prog.Within Balanced
      (create remote kind request >>= fun o => register o >>= fun _ => rest o) := by
  intro w
  cases hr : remote request 0 with
  | error e =>
      rw [Prog.bind_of_error (create_run_error kind hr w)]
      exact SameLedger.balanced _ _ ⟨rfl, rfl⟩
  | ok id =>
      rw [Prog.bind_of_ok (create_run_ok kind hr w)]
      exact ⟨[⟨kind, id⟩], (hregister ⟨kind, id⟩).then_same (hrest ⟨kind, id⟩) _⟩

/-! ## The factories that keep the ledger level -/

section Level

variable {cfg : Testconfig} (hskip : cfg.skipCleanup = false)

include hskip

theorem createService_balanced (remote : Remote) {c : ServiceArgs} (hauto : c.autoclean = true) :
    Prog.Within Balanced (createService cfg remote c) :=
  bind_balanced (same_balanced (onMemory_same _)) fun _ =>
    create_balanced remote _ _ (fun o => registerFinalizer_registers hskip hauto ⟨o, _⟩) pure_same

theorem customService_balanced (remote : Remote) {c : ServiceArgs} (hauto : c.autoclean = true) :
    Prog.Within Balanced (customService cfg remote c) :=
  bind_balanced (same_balanced (onMemory_same _)) fun _ =>
    bind_balanced (createService_balanced hskip remote hauto) fun svc =>
      bind_balanced (same_balanced (createUsages_same remote svc _)) fun _ =>
        bind_balanced (same_balanced (setupProxy_same remote _ svc _)) fun _ =>
          same_balanced (pure_same svc)

theorem planService_balanced (remote : Remote) (c : PlanArgs) :
    Prog.Within Balanced (planService cfg remote c) := by
  unfold planService
  cases c.service with
  | some service => exact same_balanced (pure_same service)
  | none =>
      exact bind_balanced (same_balanced (onMemory_same _)) fun _ =>
        customService_balanced hskip remote rfl

theorem customAppPlan_balanced (remote : Remote) {c : PlanArgs} (hauto : c.autoclean = true) :
    Prog.Within Balanced (customAppPlan cfg remote c) :=
  bind_balanced (planService_balanced hskip remote c) fun _ =>
    bind_balanced (same_balanced (onMemory_same _)) fun _ =>
      create_balanced remote _ _ (collectPlan_registers hauto) pure_same

omit hskip in
theorem customActiveDoc_balanced (remote : Remote) {c : DocArgs} (hauto : c.autoclean = true) :
    Prog.Within Balanced (customActiveDoc remote c) :=
  bind_balanced (same_balanced (onMemory_same _)) fun _ =>
    create_balanced remote _ _ (collectDoc_registers hauto) pure_same

theorem customApplication_balanced (remote : Remote) {c : ApplicationArgs}
    (hauto : c.autoclean = true) : Prog.Within Balanced (customApplication cfg remote c) :=
  bind_balanced (same_balanced (onMemory_same _)) fun _ =>
    create_balanced remote _ _ (fun o => addIfAutoclean_registers hskip hauto ⟨o, _⟩)
      fun o => bind_same (hooks_same _ o) fun _ => pure_same o

theorem customBackend_balanced (remote : Remote) {c : BackendArgs} (hauto : c.autoclean = true) :
    Prog.Within Balanced (customBackend cfg remote c) :=
  bind_balanced (same_balanced (lift_same _)) fun _ =>
    bind_balanced (same_balanced (onMemory_same _)) fun _ =>
      create_balanced remote _ _ (fun o => addIfAutoclean_registers hskip hauto ⟨o, _⟩)
        fun o => bind_same (hooks_same _ o) fun _ => pure_same o

/-- A tenant is created and its readiness wait raises. -/
def TenantLeaks (cfg : Testconfig) (remote : Remote) (c : TenantArgs) : Prop :=
  ∃ id e, remote (.createTenant (tenantUsername (cfg.blame c.name) c.username) c.password
    (cfg.blame c.name)) 0 = .ok id ∧ remote (.waitTenantReady ⟨.tenant, id⟩) 0 = .error e

omit hskip in
theorem upgradeTenant_same (remote : Remote) (tenant : Obj) :
    Prog.Within SameLedger (upgradeTenant cfg remote tenant) := by
  unfold upgradeTenant
  cases cfg.planUpgrade with
  | none => exact pure_same ()
  | some plan => exact ask_same remote _

theorem customTenant_ledger (remote : Remote) {c : TenantArgs} (hauto : c.autoclean = true)
    (w : World) :
    (TenantLeaks cfg remote c ∧ Lossy w ((customTenant cfg remote c).run w).2) ∨
      (¬ TenantLeaks cfg remote c ∧ Balanced w ((customTenant cfg remote c).run w).2) := by
  unfold TenantLeaks customTenant
  cases hcreate : remote (.createTenant (tenantUsername (cfg.blame c.name) c.username) c.password
      (cfg.blame c.name)) 0 with
  | error e =>
      right
      rw [Prog.bind_of_error (create_run_error .tenant hcreate w)]
      exact ⟨by simp, SameLedger.balanced _ _ ⟨rfl, rfl⟩⟩
  | ok id =>
      rw [Prog.bind_of_ok (create_run_ok .tenant hcreate w)]
      cases hready : remote (.waitTenantReady ⟨.tenant, id⟩) 0 with
      | error e =>
          left
          refine ⟨⟨id, e, rfl, hready⟩, ⟨⟨.tenant, id⟩, ?_⟩⟩
          rw [Prog.bind_of_error ((ask_run _ _ _).trans (by rw [hready]; rfl))]
          exact ⟨rfl, rfl⟩
      | ok id' =>
          right
          refine ⟨?_, [⟨.tenant, id⟩], ?_⟩
          · intro hleaks
            obtain ⟨id1, e, hid, herror⟩ := hleaks
            cases hid
            rw [hready] at herror
            cases herror
          · rw [Prog.bind_of_ok ((ask_run _ _ _).trans (by rw [hready]; rfl))]
            exact (addIfAutoclean_registers hskip hauto ⟨⟨.tenant, id⟩, []⟩).then_same
              (bind_same (ask_same remote _) fun _ =>
                bind_same (upgradeTenant_same remote _) fun _ => pure_same _) _

end Level

def UiBackendLeaks (cfg : Testconfig) (remote : Remote) (c : UiBackendArgs) : Prop :=
  ∃ login endpoint id, remote .adminLogin 0 = .ok login ∧
    uiEndpoint cfg c.endpoint = .ok endpoint ∧
    remote (.createUiBackend c.name c.systemName c.description endpoint) 0 = .ok id

theorem customUiBackend_ledger (cfg : Testconfig) (remote : Remote) (c : UiBackendArgs)
    (w : World) :
    (UiBackendLeaks cfg remote c ∧ Lossy w ((customUiBackend cfg remote c).run w).2) ∨
      (¬ UiBackendLeaks cfg remote c ∧ Balanced w ((customUiBackend cfg remote c).run w).2) := by
  unfold UiBackendLeaks customUiBackend
  cases hlogin : remote .adminLogin 0 with
  | error e =>
      right
      rw [Prog.bind_of_error ((ask_run _ _ _).trans (by rw [hlogin]; rfl))]
      exact ⟨by simp, SameLedger.balanced _ _ ⟨rfl, rfl⟩⟩
  | ok login =>
      rw [Prog.bind_of_ok ((ask_run _ _ _).trans (by rw [hlogin]; rfl))]
      cases hendpoint : uiEndpoint cfg c.endpoint with
      | error e =>
          right
          rw [Prog.bind_of_error (Prog.lift_run _ _)]
          exact ⟨by simp, SameLedger.balanced _ _ ⟨rfl, rfl⟩⟩
      | ok endpoint =>
          rw [Prog.bind_of_ok (Prog.lift_run _ _)]
          cases hcreate :
            remote (.createUiBackend c.name c.systemName c.description endpoint) 0 with
          | error e =>
              right
              rw [Prog.bind_of_error (create_run_error .backend hcreate _)]
              exact ⟨by simp [hcreate], SameLedger.balanced _ _ ⟨rfl, rfl⟩⟩
          | ok id =>
              left
              rw [Prog.bind_of_ok (create_run_ok .backend hcreate _)]
              have hrest : Prog.Within SameLedger (send remote (.readBackend c.systemName) 0 >>=
                  fun id => (pure ⟨.backend, id⟩ : Prog World Obj)) :=
                bind_same (send_same remote _ 0) fun _ => pure_same _
              exact ⟨⟨login, endpoint, id, rfl, rfl, hcreate⟩, ⟨.backend, id⟩, hrest _⟩

/-! ## Sequences of calls -/

/-- A call of a factory; the server's answers belong to the call. -/
inductive Call where
  | appPlan (remote : Remote) (c : PlanArgs)
  | activeDoc (remote : Remote) (c : DocArgs)
  | application (remote : Remote) (c : ApplicationArgs)
  | service (remote : Remote) (c : ServiceArgs)
  | backend (remote : Remote) (c : BackendArgs)
  | tenant (remote : Remote) (c : TenantArgs)
  | uiBackend (remote : Remote) (c : UiBackendArgs)

def Call.autoclean : Call → Bool
  | .appPlan _ c => c.autoclean
  | .activeDoc _ c => c.autoclean
  | .application _ c => c.autoclean
  | .service _ c => c.autoclean
  | .backend _ c => c.autoclean
  | .tenant _ c => c.autoclean
  | .uiBackend _ c => c.autoclean

def call (cfg : Testconfig) : Call → World → World
  | .appPlan remote c, w => ((customAppPlan cfg remote c).run w).2
  | .activeDoc remote c, w => ((customActiveDoc remote c).run w).2
  | .application remote c, w => ((customApplication cfg remote c).run w).2
  | .service remote c, w => ((customService cfg remote c).run w).2
  | .backend remote c, w => ((customBackend cfg remote c).run w).2
  | .tenant remote c, w => ((customTenant cfg remote c).run w).2
  | .uiBackend remote c, w => ((customUiBackend cfg remote c).run w).2

/-- The calls that create an object without registering it. -/
def Call.Leaks (cfg : Testconfig) : Call → Prop
  | .tenant remote c => TenantLeaks cfg remote c
  | .uiBackend remote c => UiBackendLeaks cfg remote c
  | _ => False

theorem call_ledger {cfg : Testconfig} (hskip : cfg.skipCleanup = false) {c : Call}
    (hauto : c.autoclean = true) (w : World) :
    (c.Leaks cfg ∧ Lossy w (call cfg c w)) ∨ (¬ c.Leaks cfg ∧ Balanced w (call cfg c w)) := by
  cases c with
  | appPlan remote c => exact Or.inr ⟨id, customAppPlan_balanced hskip remote hauto w⟩
  | activeDoc remote c => exact Or.inr ⟨id, customActiveDoc_balanced remote hauto w⟩
  | application remote c => exact Or.inr ⟨id, customApplication_balanced hskip remote hauto w⟩
  | service remote c => exact Or.inr ⟨id, customService_balanced hskip remote hauto w⟩
  | backend remote c => exact Or.inr ⟨id, customBackend_balanced hskip remote hauto w⟩
  | tenant remote c => exact customTenant_ledger hskip remote hauto w
  | uiBackend remote c => exact customUiBackend_ledger cfg remote c w

theorem Balanced.length_eq {w w' : World} (h : Balanced w w') :
    w'.created.length + (registered w).length = w.created.length + (registered w').length := by
  obtain ⟨objs, hcreated, hregistered⟩ := h
  have hlength := hregistered.length_eq
  rw [List.length_append] at hlength
  rw [hcreated, List.length_append]
  omega

theorem Lossy.length_lt {w w' : World} (h : Lossy w w') :
    w.created.length + (registered w').length < w'.created.length + (registered w).length := by
  obtain ⟨o, hcreated, hregistered⟩ := h
  rw [hcreated, hregistered, List.length_append]
  simp

/-- A run keeps the ledger level, or one of its calls has lost an object for good. -/
theorem run_ledger {cfg : Testconfig} (hskip : cfg.skipCleanup = false) {calls : List Call}
    (hauto : ∀ c ∈ calls, c.autoclean = true) (w : World) :
    ((∀ c ∈ calls, ¬ c.Leaks cfg) ∧ Balanced w (run (call cfg) calls w)) ∨
      ((∃ c ∈ calls, c.Leaks cfg) ∧
        w.created.length + (registered (run (call cfg) calls w)).length <
          (run (call cfg) calls w).created.length + (registered w).length) := by
  induction calls generalizing w with
  | nil => exact Or.inl ⟨by simp, SameLedger.balanced w w (SameLedger.refl w)⟩
  | cons c calls ih =>
      rw [List.forall_mem_cons] at hauto
      have hrest := ih hauto.2 (call cfg c w)
      rcases call_ledger hskip hauto.1 w with ⟨hleaks, hlossy⟩ | ⟨hok, hbalanced⟩
      · right
        refine ⟨⟨c, List.mem_cons_self, hleaks⟩, ?_⟩
        have hlt := hlossy.length_lt
        rcases hrest with ⟨_, hlevel⟩ | ⟨_, hlost⟩
        · have heq := hlevel.length_eq
          simp only [run]
          omega
        · simp only [run]
          omega
      · rcases hrest with ⟨hall, hlevel⟩ | ⟨hex, hlost⟩
        · exact Or.inl ⟨List.forall_mem_cons.mpr ⟨hok, hall⟩, Balanced.trans _ _ _ hbalanced hlevel⟩
        · right
          obtain ⟨c', hc', hleaks⟩ := hex
          refine ⟨⟨c', List.mem_cons_of_mem c hc', hleaks⟩, ?_⟩
          have heq := hbalanced.length_eq
          simp only [run]
          omega

/-- From a fresh start the two sides agree exactly if no call leaks. -/
theorem created_perm_registered_iff {cfg : Testconfig} (hskip : cfg.skipCleanup = false)
    {calls : List Call} (hauto : ∀ c ∈ calls, c.autoclean = true) (memory : Memory) :
    let w := run (call cfg) calls (World.start memory)
    w.created.Perm (registered w) ↔ ∀ c ∈ calls, ¬ c.Leaks cfg := by
  intro w
  rcases run_ledger hskip hauto (World.start memory) with ⟨hall, objs, hcreated, hregistered⟩ |
    ⟨⟨c, hc, hleaks⟩, hlt⟩
  · have hperm : w.created.Perm (registered w) := hcreated ▸ hregistered.symm
    exact ⟨fun _ => hall, fun _ => hperm⟩
  · constructor
    · intro hperm
      have heq : w.created.length = (registered w).length := hperm.length_eq
      have hlt' : 0 + (registered w).length < w.created.length + 0 := hlt
      omega
    · exact fun hall => absurd hleaks (hall c hc)

end ThreescaleTests.Factories
