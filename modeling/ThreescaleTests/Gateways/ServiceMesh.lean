import ThreescaleTests.Library.Run
import ThreescaleTests.Openshift.Cluster

/-!
# The service mesh gateway

The gateway remembers the environment of the adapter when it is created and writes
it back when it is destroyed. In between, the environment is changed through the
`Environ` objects it hands out.
-/

namespace ThreescaleTests.Gateways

open Library Openshift

/-- What the gateway does to other resources than the adapter. -/
class Mesh (D : Type) where
  generateCredentials : Prog D Unit
  createHttpbin : Prog D Unit
  destroyHttpbin : Prog D Unit
  destroyMesh : Prog D Unit

class LawfulMesh (D : Type) [Oc D] [LawfulOc D] [Mesh D] : Prop where
  generateCredentials_frame : ∀ d : D,
    LawfulOc.env ((Mesh.generateCredentials : Prog D Unit).run d).2 = LawfulOc.env d
  createHttpbin_frame : ∀ d : D,
    LawfulOc.env ((Mesh.createHttpbin : Prog D Unit).run d).2 = LawfulOc.env d
  destroyHttpbin_frame : ∀ d : D,
    LawfulOc.env ((Mesh.destroyHttpbin : Prog D Unit).run d).2 = LawfulOc.env d
  destroyMesh_frame : ∀ d : D,
    LawfulOc.env ((Mesh.destroyMesh : Prog D Unit).run d).2 = LawfulOc.env d

/-- The gateway, the adapter deployment and what each `Environ` handed out has read. -/
structure ServiceMeshGateway (D : Type) where
  adapter : D
  environs : List (Option (Dict Text Source))
  envVars : Dict Text Value
  httpbin : Bool
  mesh : Bool

namespace ServiceMeshGateway

variable {D : Type} [Oc D]

def init (adapter : D) : ServiceMeshGateway D := ⟨adapter, [], Dict.empty, false, false⟩

def onAdapter {α : Type} (m : Prog D α) : Prog (ServiceMeshGateway D) α :=
  Prog.focus ServiceMeshGateway.adapter (fun d gw => { gw with adapter := d }) m

/-- Use a new `Environ` of the adapter. -/
def onEnviron {α : Type} (m : Prog (Environ D) α) : Prog (ServiceMeshGateway D) α :=
  Prog.focus (fun gw => ⟨gw.adapter, none⟩) (fun env gw => { gw with adapter := env.deployment }) m

/-- `{name: value.get() for name, value in envs.items()}` -/
def getValues : List (Text × Source) → Prog D (List (Text × Value))
  | [] => pure []
  | (name, source) :: envs => do
      let value ← source.get
      let values ← getValues envs
      pure ((name, value) :: values)

section

variable [Mesh D]

def create : Prog (ServiceMeshGateway D) Unit := do
  Prog.modify fun gw => { gw with mesh := true }
  onAdapter Mesh.generateCredentials
  onAdapter Mesh.createHttpbin
  Prog.modify fun gw => { gw with httpbin := true }
  let envs ← onEnviron Environ.readEnvs
  let values ← onAdapter (getValues envs.items)
  Prog.modify fun gw => { gw with envVars := .ofList values }

/-- `if gateway.httpbin: …` -/
def whenSet (flag : ServiceMeshGateway D → Bool) (m : Prog (ServiceMeshGateway D) Unit) :
    Prog (ServiceMeshGateway D) Unit := do
  let set ← Prog.gets flag
  if set then m else pure ()

def destroy : Prog (ServiceMeshGateway D) Unit := do
  whenSet httpbin (onAdapter Mesh.destroyHttpbin)
  whenSet mesh do
    let vars ← Prog.gets envVars
    onEnviron (Environ.setMany vars.items)
    onAdapter Mesh.destroyMesh

end

/-! ## Modifications -/

inductive Modification where
  | setMany (envs : List (Text × Value))
  | setItem (name : Text) (value : Value)
  | delItem (name : Text)
  | getItem (name : Text)

def Modification.prog : Modification → Prog (Environ D) Unit
  | .setMany envs => Environ.setMany envs
  | .setItem name value => Environ.setItem name value
  | .delItem name => Environ.delItem name
  | .getItem name => do
      let _ ← Environ.getItem name
      pure ()

inductive Op where
  /-- `gateway.environ` hands out a new object. -/
  | environ
  | modify (i : Nat) (m : Modification)

/-- One operation; an exception leaves what was done before. -/
def step : Op → ServiceMeshGateway D → ServiceMeshGateway D
  | .environ, gw => { gw with environs := gw.environs ++ [none] }
  | .modify i m, gw =>
      match gw.environs[i]? with
      | none => gw
      | some envs =>
          let env := (m.prog.run ⟨gw.adapter, envs⟩).2
          { gw with adapter := env.deployment, environs := gw.environs.set i env.envs }

end ServiceMeshGateway

end ThreescaleTests.Gateways
