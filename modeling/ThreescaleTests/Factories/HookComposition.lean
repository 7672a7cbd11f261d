import Mathlib.Data.List.Dedup
import ThreescaleTests.Factories.Settings

/-!
# What the hooks make of the parameters

`LifecycleHook` documents that what a `before_*` method returns is used to create the
object. Three of the four places that call such methods pass on what they return;
`custom_backend` goes on with the dictionary it gave them.
-/

namespace ThreescaleTests.Factories

open Library

/-! ## The documented parameters -/

/-- One hook after the other is applied to what the one before returned; hooks that lack the method
are skipped. -/
def composed (method : Hook → Option Code) (hooks : List Hook) (l : Loc) : Prog Memory Loc :=
  hooks.foldlM (fun l hook =>
    match method hook with
    | none => pure l
    | some code => Code.call code l) l

/-- The hooks are applied to a copy of the parameters given. -/
def composedParams (cfg : Testconfig) (method : Hook → Option Code) (hooks : List Hook)
    (annotated : Bool) (params : Loc) : Prog Memory Loc := do
  let params ← Memory.copy params
  let params ← composed method hooks params
  if annotated then annotate cfg params
  pure params

def documentedParams (cfg : Testconfig) (method : Hook → Option Code) (hooks : List Hook)
    (annotated : Bool) (params : Loc) : Prog Memory Json := do
  let params ← composedParams cfg method hooks annotated params
  read (.ref params)

/-- The parameters of a service, with the dictionary that the proxy hooks start from. -/
def documentedService (cfg : Testconfig) (c : ServiceArgs) : Prog Memory (Loc × Json) := do
  let proxy ← givenOrEmpty c.proxyParams
  let d ← documentedParams cfg Hook.beforeService c.hooks c.annotated c.params
  pure (proxy, d)

def documentedProxy (hooks : List Hook) (svc : Obj) (proxy : Loc) : Prog Memory Json := do
  let proxy ← composed (fun hook => hook.beforeProxy.map fun f => f svc) hooks proxy
  read (.ref proxy)

def documentedBackend (cfg : Testconfig) (c : BackendArgs) (endpoint : String) :
    Prog Memory Json := do
  let params ← Memory.new (backendDict cfg c endpoint)
  let params ← composed Hook.beforeBackend c.hooks params
  read (.ref params)

/-- The update of the proxy of a service, for which there must be something to update. -/
def updateOf (svc : Obj) : Except Exn Json → List Request
  | .ok d => if d = .obj [] ∨ d = .arr [] then [] else [.updateProxy svc d]
  | .error _ => []

/-! ## Calls of the factories -/

inductive HookedCall where
  | service (c : ServiceArgs)
  | backend (c : BackendArgs)
  | application (c : ApplicationArgs)

namespace HookedCall

def run (cfg : Testconfig) (remote : Remote) : HookedCall → Prog World Obj
  | .service c => customService cfg remote c
  | .backend c => customBackend cfg remote c
  | .application c => customApplication cfg remote c

def sent (cfg : Testconfig) (remote : Remote) (call : HookedCall) (w : World) : List Request :=
  ((call.run cfg remote).run w).2.sent.drop w.sent.length

/-- The requests of a call as the hooks' documentation has them. The proxy is updated after the
service has been created and all backends are attached. -/
def documented (cfg : Testconfig) (remote : Remote) (m : Memory) : HookedCall → List Request
  | .service c =>
    match (documentedService cfg c).run m with
    | (.error _, _) => []
    | (.ok (proxy, d), m') =>
      .createService d ::
        match reached remote c d with
        | none => []
        | some svc => updateOf svc ((documentedProxy c.hooks svc proxy).run m').1
  | .backend c =>
    match backendEndpoint cfg c.endpoint with
    | .error _ => []
    | .ok endpoint =>
      match (documentedBackend cfg c endpoint).run m with
      | (.error _, _) => []
      | (.ok d, _) => [.createBackend d]
  | .application c =>
    match (documentedParams cfg Hook.beforeApplication c.hooks c.annotated c.params).run m with
    | (.error _, _) => []
    | (.ok d, _) => [.createApplication d]

/-- What is sent for objects that hooks have prepared; the tries of a request count once. -/
def AsDocumented (cfg : Testconfig) (remote : Remote) (call : HookedCall) (w : World) : Prop :=
  ((call.sent cfg remote w).filter Request.prepared).dedup = call.documented cfg remote w.memory

instance (cfg : Testconfig) (remote : Remote) (call : HookedCall) (w : World) :
    Decidable (call.AsDocumented cfg remote w) := inferInstanceAs (Decidable (_ = _))

end HookedCall

/-! ## Hooks that return another dictionary -/

/-- What a hook returns that is not what it was given, in memory as the hook leaves it, and the
hooks that follow. -/
structure Stray where
  other : Loc
  memory : Memory
  later : List Code

/-- The first one, if hooks are called on the same dictionary until then. -/
def firstStray : List Code → Loc → Memory → Option Stray
  | [], _, _ => none
  | code :: codes, l, m =>
    match (Code.call code l).run m with
    | (.error _, _) => none
    | (.ok l', m') => if l' = l then firstStray codes l m' else some ⟨l', m', codes⟩

/-- Only `custom_backend` does not pass on what a hook returns. -/
def HookedCall.stray (cfg : Testconfig) (m : Memory) : HookedCall → Option Stray
  | .backend c =>
    match backendEndpoint cfg c.endpoint with
    | .error _ => none
    | .ok endpoint =>
        firstStray (selectHooks Hook.beforeBackend c.hooks) m.size
          (m.alloc (backendDict cfg c endpoint))
  | _ => none

/-! ## Composition -/

theorem composed_eq (method : Hook → Option Code) (hooks : List Hook) :
    composed method hooks = Code.callAll (selectHooks method hooks) := by
  funext l
  induction hooks generalizing l with
  | nil => rfl
  | cons hook hooks ih =>
      rw [composed, List.foldlM_cons]
      cases hmethod : method hook with
      | none =>
          rw [selectHooks, List.filterMap_cons_none hmethod]
          exact ih l
      | some code =>
          rw [selectHooks, List.filterMap_cons_some hmethod, Code.callAll]
          exact congrArg _ (funext ih)

theorem composedParams_eq (cfg : Testconfig) (method : Hook → Option Code) (hooks : List Hook)
    (annotated : Bool) (params : Loc) :
    composedParams cfg method hooks annotated params =
      preparedParams cfg (selectHooks method hooks) annotated params := by
  simp only [composedParams, preparedParams, composed_eq]

theorem documentedParams_service (cfg : Testconfig) (c : ServiceArgs) :
    documentedParams cfg Hook.beforeService c.hooks c.annotated c.params = serviceParams cfg c := by
  simp only [documentedParams, serviceParams, composedParams_eq]

theorem documentedParams_application (cfg : Testconfig) (c : ApplicationArgs) :
    documentedParams cfg Hook.beforeApplication c.hooks c.annotated c.params =
      applicationParams cfg c := by
  simp only [documentedParams, applicationParams, composedParams_eq]

theorem selectHooks_beforeProxy (hooks : List Hook) (svc : Obj) :
    selectHooks (fun hook => hook.beforeProxy.map fun f => f svc) hooks = proxyHooks hooks svc := by
  simp [proxyHooks, selectHooks, List.map_filterMap]

/-! ## Services and applications -/

theorem Ends.filter_drop {w w' : World} {m : Memory} {requests : List Request}
    (h : Ends w w' m requests) :
    (w'.sent.drop w.sent.length).filter Request.prepared = requests := by
  obtain ⟨new, hsent, hnew⟩ := h.sent
  rw [hsent, List.drop_left, hnew]

/-- A prepared object is created, and registered; the hooks that follow send nothing. -/
theorem createdObject_ends (cfg : Testconfig) (remote : Remote) (kind : Kind) {request : Request}
    (hprepared : request.prepared = true) (autoclean : Bool)
    (onDelete onCreate : List (Obj → Except Exn Unit)) (w : World) :
    Ends w ((do
      let o ← create remote kind request
      addIfAutoclean cfg autoclean ⟨o, onDelete⟩
      Prog.forEach (fun hook => Prog.lift (hook o)) onCreate
      pure o : Prog World Obj).run w).2 w.memory [request] := by
  have hsends (created : List Obj) :
      Ends w { w with sent := w.sent ++ [request], created := created } w.memory [request] :=
    ⟨rfl, [request], rfl, by simp [hprepared]⟩
  have hrest (o : Obj) : Prog.Within Quiet (do
      addIfAutoclean cfg autoclean ⟨o, onDelete⟩
      Prog.forEach (fun hook => Prog.lift (hook o)) onCreate
      pure o : Prog World Obj) := by
    refine Prog.Within.bind Quiet.trans (fun w => ?_) fun _ => ?_
    · unfold addIfAutoclean
      split <;> exact Quiet.of_eq rfl rfl
    · exact Prog.Within.bind Quiet.trans
        (Prog.Within.forEach Quiet.refl Quiet.trans fun _ _ => Prog.Within.lift Quiet.refl _)
        fun _ => Prog.Within.pure Quiet.refl _
  cases hr : remote request 0 with
  | error e =>
      rw [Prog.bind_of_error (create_run_error kind hr w)]
      exact hsends w.created
  | ok id =>
      rw [Prog.bind_of_ok (create_run_ok kind hr w)]
      have h := (hsends (w.created ++ [⟨kind, id⟩])).trans (hrest ⟨kind, id⟩ _)
      rwa [List.append_nil] at h

theorem tries_pos (remote : Remote) (request : Request) (k n : Nat) :
    tries remote request k n ≠ 0 := by
  cases n with
  | zero => exact Nat.one_ne_zero
  | succ n =>
      rw [tries]
      split
      · exact Nat.one_ne_zero
      · split <;> omega

/-- An object is empty just if the document that it stands for is. -/
theorem isEmpty_iff_of_contents {m : Memory} {l : Loc} {c : Cell Loc} (hcell : m.read? l = some c)
    {d : Json} (hcontents : m.contents recursionLimit (.ref l) = some d) :
    c.isEmpty = true ↔ d = .obj [] ∨ d = .arr [] := by
  have hempty := Memory.contents_isEmpty_iff hcell 999
  rw [recursionLimit] at hcontents
  rw [hempty, hcontents, Option.some.injEq, Option.some.injEq]

theorem isEmpty_of_no_contents {m : Memory} {l : Loc} {c : Cell Loc} (hcell : m.read? l = some c)
    (hcontents : m.contents recursionLimit (.ref l) = none) : ¬ c.isEmpty = true := by
  have hempty := Memory.contents_isEmpty_iff hcell 999
  rw [recursionLimit] at hcontents
  rw [hempty, hcontents]
  simp

/-- The proxy is updated with what the hooks composed; the tries count once. -/
theorem updateRequests_dedup (remote : Remote) (hooks : List Hook) (svc : Obj) (proxy : Loc)
    (m : Memory) :
    (updateRequests remote svc ((proxyParams hooks svc proxy).run m).1).dedup =
      updateOf svc ((documentedProxy hooks svc proxy).run m).1 := by
  rw [proxyParams, documentedProxy, composed_eq, selectHooks_beforeProxy]
  cases hcalls : (Code.callAll (proxyHooks hooks svc) proxy).run m with
  | mk r m' =>
  cases r with
  | error e =>
      rw [Prog.bind_of_error hcalls, Prog.bind_of_error hcalls]
      rfl
  | ok l =>
  rw [Prog.bind_of_ok hcalls, Prog.bind_of_ok hcalls]
  cases hcell : m'.read? l with
  | none =>
      have hget : (Memory.get l).run m' = (.error (.other "dangling reference"), m') := by
        simp only [Memory.get, hcell]
      have hread : (read (.ref l)).run m' = (.error (.other "RecursionError"), m') :=
        read_of_none (Memory.contents_dangling hcell _)
      rw [Prog.bind_of_error hget, hread]
      rfl
  | some c =>
      rw [Prog.bind_of_ok (Memory.get_run hcell)]
      cases hcontents : m'.contents recursionLimit (.ref l) with
      | none =>
          rw [if_neg (isEmpty_of_no_contents hcell hcontents), read_of_none hcontents,
            Prog.bind_of_error (read_of_none hcontents)]
          rfl
      | some d =>
          have hempty := isEmpty_iff_of_contents hcell hcontents
          rw [read_of_some hcontents, updateOf]
          by_cases hd : d = .obj [] ∨ d = .arr []
          · rw [if_pos hd, if_pos (hempty.mpr hd)]
            rfl
          · rw [if_neg hd, if_neg (mt hempty.mp hd), Prog.bind_of_ok (read_of_some hcontents)]
            exact List.replicate_dedup (tries_pos remote _ 0 7)

theorem service_asDocumented (cfg : Testconfig) (remote : Remote) (c : ServiceArgs) (w : World) :
    (HookedCall.service c).AsDocumented cfg remote w := by
  rw [HookedCall.AsDocumented, HookedCall.sent, HookedCall.run, HookedCall.documented,
    documentedService, documentedParams_service]
  cases customService_course remote cfg c w with
  | noProxyParams hproxy hends =>
      rw [hends.filter_drop, Prog.bind_of_error hproxy]
      rfl
  | noParams hproxy hparams hends =>
      rw [hends.filter_drop, Prog.bind_of_ok hproxy, Prog.bind_of_error hparams]
      rfl
  | notReached hproxy hparams hreached hends =>
      rw [hends.filter_drop, Prog.bind_of_ok hproxy, Prog.bind_of_ok hparams]
      simp only [Prog.pure_run, hreached]
      rfl
  | @updated proxy d svc r m m' m'' hproxy hparams hreached hupdate hends =>
      rw [hends.filter_drop, Prog.bind_of_ok hproxy, Prog.bind_of_ok hparams]
      simp only [Prog.pure_run, hreached]
      have hfirst : Request.createService d ∉ updateRequests remote svc r := by
        unfold updateRequests
        split
        · simp
        · exact List.not_mem_nil
      rw [List.dedup_cons_of_notMem hfirst, ← updateRequests_dedup remote, hupdate]

theorem application_asDocumented (cfg : Testconfig) (remote : Remote) (c : ApplicationArgs)
    (w : World) : (HookedCall.application c).AsDocumented cfg remote w := by
  rw [HookedCall.AsDocumented, HookedCall.sent, HookedCall.run, HookedCall.documented,
    documentedParams_application, customApplication]
  cases hparams : (applicationParams cfg c).run w.memory with
  | mk r m =>
  have hmemory : (onMemory (applicationParams cfg c)).run w = (r, { w with memory := m }) := by
    rw [onMemory_run, hparams]
  have hends := onMemory_ends (applicationParams cfg c) w
  rw [hmemory] at hends
  cases r with
  | error e =>
      rw [Prog.bind_of_error hmemory, hends.filter_drop]
      rfl
  | ok d =>
      rw [Prog.bind_of_ok hmemory, (hends.trans (createdObject_ends cfg remote .application rfl
        c.autoclean _ _ _)).filter_drop]
      rfl

/-! ## Backends -/

/-- Where no hook returns another dictionary, `custom_backend` does what it should. -/
theorem callEach_of_noStray {codes : List Code} {l : Loc} {m : Memory}
    (h : firstStray codes l m = none) :
    (∃ e m', (callEach codes l).run m = (.error e, m') ∧
      (Code.callAll codes l).run m = (.error e, m')) ∨
    ∃ m', (callEach codes l).run m = (.ok (), m') ∧
      (Code.callAll codes l).run m = (.ok l, m') := by
  induction codes generalizing m with
  | nil => exact .inr ⟨m, rfl, rfl⟩
  | cons code codes ih =>
      rw [callEach, Prog.forEach, Code.callAll]
      rw [firstStray] at h
      cases hcall : (Code.call code l).run m with
      | mk r m' =>
      rw [hcall] at h
      cases r with
      | error e =>
          refine .inl ⟨e, m', ?_, Prog.bind_of_error hcall⟩
          rw [Prog.bind_of_error (Prog.bind_of_error hcall)]
      | ok l' =>
          have hdropped : (Code.call code l >>= fun _ => (pure () : Prog Memory Unit)).run m =
              (.ok (), m') := by
            rw [Prog.bind_of_ok hcall]
            rfl
          simp only at h
          split at h
          next heq =>
            subst heq
            rw [Prog.bind_of_ok hdropped, Prog.bind_of_ok hcall]
            exact ih h
          next => cases h

/-- Where the last hook is the first to return another dictionary, the one that it was given is
left as it is there. -/
theorem callEach_of_lastStray {codes : List Code} {l : Loc} {m : Memory} {s : Stray}
    (h : firstStray codes l m = some s) (hlast : s.later = []) :
    (callEach codes l).run m = (.ok (), s.memory) ∧
      (Code.callAll codes l).run m = (.ok s.other, s.memory) := by
  induction codes generalizing m with
  | nil => cases h
  | cons code codes ih =>
      rw [callEach, Prog.forEach, Code.callAll]
      rw [firstStray] at h
      cases hcall : (Code.call code l).run m with
      | mk r m' =>
      rw [hcall] at h
      cases r with
      | error e => cases h
      | ok l' =>
          have hdropped : (Code.call code l >>= fun _ => (pure () : Prog Memory Unit)).run m =
              (.ok (), m') := by
            rw [Prog.bind_of_ok hcall]
            rfl
          rw [Prog.bind_of_ok hdropped, Prog.bind_of_ok hcall]
          simp only at h
          split at h
          next heq =>
            subst heq
            exact ih h
          next =>
            cases h
            subst hlast
            exact ⟨rfl, rfl⟩

/-- The backend is created with what is left in the dictionary that the hooks were given. -/
theorem backend_asDocumented_iff (cfg : Testconfig) (remote : Remote) (c : BackendArgs) (w : World)
    {endpoint : String} (hendpoint : backendEndpoint cfg c.endpoint = .ok endpoint) :
    (HookedCall.backend c).AsDocumented cfg remote w ↔
      ((backendParams cfg c endpoint).run w.memory).1.toOption =
        ((documentedBackend cfg c endpoint).run w.memory).1.toOption := by
  rw [HookedCall.AsDocumented, HookedCall.sent, HookedCall.run, HookedCall.documented, hendpoint,
    customBackend, Prog.lift_bind_of_ok hendpoint]
  have hends := onMemory_ends (backendParams cfg c endpoint) w
  cases hparams : (backendParams cfg c endpoint).run w.memory with
  | mk r m =>
  have hmemory : (onMemory (backendParams cfg c endpoint)).run w =
      (r, { w with memory := m }) := by
    rw [onMemory_run, hparams]
  rw [hmemory] at hends
  cases hdocumented : (documentedBackend cfg c endpoint).run w.memory with
  | mk r' m' =>
  cases r with
  | error e =>
      rw [Prog.bind_of_error hmemory, hends.filter_drop]
      cases r' <;> simp [hdocumented, Except.toOption]
  | ok d =>
      rw [Prog.bind_of_ok hmemory, (hends.trans (createdObject_ends cfg remote .backend rfl
        c.autoclean _ _ _)).filter_drop]
      cases r' <;> simp [hdocumented, Except.toOption]

theorem backend_asDocumented_of_noEndpoint (cfg : Testconfig) (remote : Remote) (c : BackendArgs)
    (w : World) {e : Exn} (hendpoint : backendEndpoint cfg c.endpoint = .error e) :
    (HookedCall.backend c).AsDocumented cfg remote w := by
  rw [HookedCall.AsDocumented, HookedCall.sent, HookedCall.run, customBackend,
    Prog.lift_bind_of_error hendpoint, HookedCall.documented, hendpoint, List.drop_length]
  rfl

/-- What is read after the hooks, from what they leave and from what they return. -/
theorem backendParams_run (cfg : Testconfig) (c : BackendArgs) (endpoint : String) (m : Memory) :
    (backendParams cfg c endpoint).run m =
      ((do
        callEach (selectHooks Hook.beforeBackend c.hooks) m.size
        read (.ref m.size)) : Prog Memory Json).run (m.alloc (backendDict cfg c endpoint)) := by
  rw [backendParams, Prog.bind_of_ok (Memory.new_run _ m)]

theorem documentedBackend_run (cfg : Testconfig) (c : BackendArgs) (endpoint : String)
    (m : Memory) : (documentedBackend cfg c endpoint).run m =
      ((do
        let params ← Code.callAll (selectHooks Hook.beforeBackend c.hooks) m.size
        read (.ref params)) : Prog Memory Json).run (m.alloc (backendDict cfg c endpoint)) := by
  rw [documentedBackend, Prog.bind_of_ok (Memory.new_run _ m), composed_eq]

/-- A call creates and updates with what the hooks composed, unless it creates a backend for which a
hook returns another dictionary than it was given. If that hook is the last one, then it does so
just if the two dictionaries have the same contents. -/
theorem HookedCall.asDocumented_of_noStray (cfg : Testconfig) (remote : Remote) (call : HookedCall)
    (w : World) :
    (call.stray cfg w.memory = none → call.AsDocumented cfg remote w) ∧
      ∀ s, call.stray cfg w.memory = some s → s.later = [] →
        (call.AsDocumented cfg remote w ↔
          s.memory.contents recursionLimit (.ref w.memory.size) =
            s.memory.contents recursionLimit (.ref s.other)) := by
  cases call with
  | service c => exact ⟨fun _ => service_asDocumented cfg remote c w, nofun⟩
  | application c => exact ⟨fun _ => application_asDocumented cfg remote c w, nofun⟩
  | backend c =>
      rw [HookedCall.stray]
      cases hendpoint : backendEndpoint cfg c.endpoint with
      | error e =>
          exact ⟨fun _ => backend_asDocumented_of_noEndpoint cfg remote c w hendpoint, nofun⟩
      | ok endpoint =>
          rw [backend_asDocumented_iff cfg remote c w hendpoint, backendParams_run,
            documentedBackend_run]
          constructor
          · intro hnone
            rcases callEach_of_noStray hnone with ⟨e, m', heach, hall⟩ | ⟨m', heach, hall⟩
            · rw [Prog.bind_of_error heach, Prog.bind_of_error hall]
            · rw [Prog.bind_of_ok heach, Prog.bind_of_ok hall]
          · intro s hsome hlast
            obtain ⟨heach, hall⟩ := callEach_of_lastStray hsome hlast
            rw [Prog.bind_of_ok heach, Prog.bind_of_ok hall, read_toOption, read_toOption]

/-! ## Backends with hooks -/

/-- It gives a backend a description, in a new dictionary. -/
def describingHook : Hook where
  beforeBackend := some (.look 0 fun
    | .dict d => .new (.dict (d.set "description" (.plain (.str "echo")))) (.ret 1)
    | .list _ => .raise (.other "TypeError"))

/-- It updates the dictionary given, and returns it. -/
def updatingHook (key value : String) : Hook where
  beforeBackend := some (Code.update [(key, .str value)])

def backendWith (hooks : List Hook) : HookedCall := .backend ⟨"be", none, true, hooks, false⟩

def updatedBackend : HookedCall :=
  backendWith [updatingHook "description" "echo", stagingApicast, updatingHook "name" "echo"]

theorem HookedCall.asDocumented_of_updatingHook :
    updatedBackend.AsDocumented exampleConfig exampleRemote (.start exampleMemory) :=
  (HookedCall.asDocumented_of_noStray exampleConfig exampleRemote updatedBackend
    (.start exampleMemory)).1 (by decide +kernel)

/-- The description is not sent. -/
theorem backend_not_as_documented :
    ¬ (backendWith [describingHook]).AsDocumented exampleConfig exampleRemote
      (.start exampleMemory) := by
  decide +kernel

end ThreescaleTests.Factories
