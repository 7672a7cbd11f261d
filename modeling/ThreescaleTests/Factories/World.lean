import ThreescaleTests.Library.Objects
import ThreescaleTests.Resilient.AccountsCreate

/-!
# What the factories work on

Callers, factories and hooks share dictionaries, and a copy of a dictionary shares what it holds.
Remote requests are recorded in the order in which they are sent; whether one succeeds, and the
id of what it creates, is the server's answer. Objects that have been created, and the ones
registered for deletion, are kept side by side.
-/

namespace ThreescaleTests.Factories

open Library Resilient

inductive Kind where
  | appPlan
  | activeDoc
  | application
  | service
  | backend
  | tenant
deriving DecidableEq

structure Obj where
  kind : Kind
  id : Nat
deriving DecidableEq

/-! ## Hooks -/

/-- The methods of `LifecycleHook`; an object need not have all of them. -/
structure Hook where
  beforeService : Option Code := none
  beforeProxy : Option (Obj → Code) := none
  onServiceCreate : Option (Obj → Except Exn Unit) := none
  onServiceDelete : Option (Obj → Except Exn Unit) := none
  beforeBackend : Option Code := none
  onBackendCreate : Option (Obj → Except Exn Unit) := none
  onBackendDelete : Option (Obj → Except Exn Unit) := none
  beforeApplication : Option Code := none
  onApplicationCreate : Option (Obj → Except Exn Unit) := none
  onApplicationDelete : Option (Obj → Except Exn Unit) := none

def selectHooks {α : Type} (hook : Hook → Option α) (hooks : List Hook) : List α :=
  hooks.filterMap hook

/-! ## Requests -/

inductive Request where
  | createAppPlan (svc : Obj) (params : Json)
  | createActiveDoc (params : Json)
  | createApplication (params : Json)
  | createService (params : Json)
  | createUsage (svc : Obj) (path : String) (backend : Obj)
  | updateProxy (svc : Obj) (params : Json)
  | deployProxy (svc : Obj)
  | createBackend (params : Json)
  | createTenant (username : String) (password : Option String) (orgName : String)
  | waitTenantReady (tenant : Obj)
  | activateUser (tenant : Obj) (username : String)
  | upgradePlan (tenant : Obj) (plan : Json)
  | adminLogin
  | createUiBackend (name systemName description endpoint : String)
  | readBackend (systemName : String)
deriving DecidableEq

/-- The request creates or updates an object whose parameters the hooks see before. -/
def Request.prepared : Request → Bool
  | .createService _ => true
  | .updateProxy _ _ => true
  | .createBackend _ => true
  | .createApplication _ => true
  | _ => false

/-- The server's answers to the tries of a request; for a created object the answer is its id. -/
abbrev Remote := Request → Nat → Except Exn Nat

/-! ## Finalizers -/

/-- A finalizer of one object, with its on-delete hooks. -/
structure Finalizer where
  obj : Obj
  onDelete : List (Obj → Except Exn Unit)

structure World where
  memory : Memory
  sent : List Request
  created : List Obj
  /-- registered by `request.addfinalizer`, first to last -/
  finalizers : List Finalizer
  /-- `orphan_finalizers` of `custom_service` -/
  orphans : List Finalizer
  /-- what `custom_app_plan` and `custom_active_doc` have collected -/
  plans : List Obj
  ads : List Obj

def World.start (memory : Memory) : World := ⟨memory, [], [], [], [], [], []⟩

/-- The part of the test configuration and of the naming helpers that the factories use. -/
structure Testconfig where
  skipCleanup : Bool
  blame : String → String
  blameDesc : Option Json → Json
  privateBaseUrl : Except Exn String
  planUpgrade : Option Json

/-! ## Primitive steps -/

def onMemory {α : Type} (m : Prog Memory α) : Prog World α :=
  Prog.focus World.memory (fun memory w => { w with memory := memory }) m

def recursionLimit : Nat := 1000

/-- A value as it is sent, or put into a text. -/
def read (v : Val Loc) : Prog Memory Json :=
  ⟨fun m =>
    match m.contents recursionLimit v with
    | some j => (.ok j, m)
    | none => (.error (.other "RecursionError"), m)⟩

def send (remote : Remote) (request : Request) (n : Nat) : Prog World Nat :=
  ⟨fun w => (remote request n, { w with sent := w.sent ++ [request] })⟩

/-- A request whose answer is not used. -/
def ask (remote : Remote) (request : Request) : Prog World Unit := do
  let _ ← send remote request 0
  pure ()

/-- A request that creates an object. -/
def create (remote : Remote) (kind : Kind) (request : Request) : Prog World Obj := do
  let id ← send remote request 0
  Prog.modify fun w => { w with created := w.created ++ [⟨kind, id⟩] }
  pure ⟨kind, id⟩

def proxyUpdate (remote : Remote) (svc : Obj) (d : Json) : Prog World Nat :=
  Prog.retryEach isApiClientError (send remote (.updateProxy svc d)) 0 7

def addFinalizer (finalizer : Finalizer) : Prog World Unit :=
  Prog.modify fun w => { w with finalizers := w.finalizers ++ [finalizer] }

/-- `params.get("description")`, as it is put into a text. -/
def description (d : Dict String (Val Loc)) : Prog Memory (Option Json) :=
  match d.get? "description" with
  | none => pure none
  | some v => do
      let j ← read v
      pure (some j)

/-- `params["description"] = blame_desc(request, params.get("description"))` -/
def annotate (cfg : Testconfig) (l : Loc) : Prog Memory Unit := do
  let c ← Memory.get l
  match c with
  | .list _ => Prog.raise (.other "AttributeError")
  | .dict d => do
      let text ← description d
      Memory.put l (.dict (d.set "description" (.plain (cfg.blameDesc text))))

/-! ## What a primitive step does -/

theorem onMemory_run {α : Type} (m : Prog Memory α) (w : World) :
    (onMemory m).run w = ((m.run w.memory).1, { w with memory := (m.run w.memory).2 }) := rfl

theorem read_of_some {v : Val Loc} {m : Memory} {j : Json}
    (h : m.contents recursionLimit v = some j) : (read v).run m = (.ok j, m) := by
  simp only [read, h]

theorem read_toOption (v : Val Loc) (m : Memory) :
    ((read v).run m).1.toOption = m.contents recursionLimit v := by
  unfold read
  dsimp only
  split
  next h => exact h.symm
  next h => exact h.symm

theorem read_of_none {v : Val Loc} {m : Memory} (h : m.contents recursionLimit v = none) :
    (read v).run m = (.error (.other "RecursionError"), m) := by
  simp only [read, h]

theorem send_run (remote : Remote) (request : Request) (n : Nat) (w : World) :
    (send remote request n).run w =
      (remote request n, { w with sent := w.sent ++ [request] }) := rfl

theorem ask_run (remote : Remote) (request : Request) (w : World) :
    (ask remote request).run w =
      ((remote request 0).map fun _ => (), { w with sent := w.sent ++ [request] }) := by
  cases hr : remote request 0 with
  | error e => rw [ask, Prog.bind_of_error (by rw [send_run, hr])]; rfl
  | ok id => rw [ask, Prog.bind_of_ok (by rw [send_run, hr])]; rfl

theorem create_run_ok {remote : Remote} (kind : Kind) {request : Request} {id : Nat}
    (h : remote request 0 = .ok id) (w : World) :
    (create remote kind request).run w = (.ok ⟨kind, id⟩,
      { w with sent := w.sent ++ [request], created := w.created ++ [⟨kind, id⟩] }) := by
  rw [create, Prog.bind_of_ok (by rw [send_run, h])]
  rfl

theorem create_run_error {remote : Remote} (kind : Kind) {request : Request} {e : Exn}
    (h : remote request 0 = .error e) (w : World) :
    (create remote kind request).run w = (.error e, { w with sent := w.sent ++ [request] }) := by
  rw [create, Prog.bind_of_error (by rw [send_run, h])]

end ThreescaleTests.Factories
