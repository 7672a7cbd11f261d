import ThreescaleTests.Gateways.Deployed

/-!
# Routes of a deployed APIcast

The gateway's routes stay tracked while it is created, used, destroyed and created again, in
either class and whichever requests fail: nothing that concerns resources touches a route, and
`destroy` deletes routes by the gateway's own names.
-/

namespace ThreescaleTests.Gateways.Deployed

open Library OpenshiftApicast

section

variable {before : Dict String Route} (cfg : Config)

/-- What every part of an operation does to the gateway. -/
def KeepsRoutes (before : Dict String Route) (s t : Life) : Prop :=
  OpenshiftApicast.Keeps before s.gateway t.gateway

theorem KeepsRoutes.refl (s : Life) : KeepsRoutes before s s := id

theorem KeepsRoutes.trans (s t u : Life) (h : KeepsRoutes before s t)
    (h' : KeepsRoutes before t u) : KeepsRoutes before s u := fun hs => h' (h hs)

theorem onGateway_routes {α : Type} {m : Prog Apicast α}
    (hm : Prog.Within (OpenshiftApicast.Keeps before) m) :
    Prog.Within (KeepsRoutes before) (onGateway m) := fun s => hm s.gateway

theorem onProject_routes {α : Type} (m : Prog Project α) :
    Prog.Within (KeepsRoutes before) (onProject m) := fun _ hs => hs

theorem gets_routes {α : Type} (f : Life → α) :
    Prog.Within (KeepsRoutes before) (Prog.gets f) := fun _ hs => hs

theorem bind_routes {α β : Type} {m : Prog Life α} {f : α → Prog Life β}
    (hm : Prog.Within (KeepsRoutes before) m) (hf : ∀ a, Prog.Within (KeepsRoutes before) (f a)) :
    Prog.Within (KeepsRoutes before) (m >>= f) := Prog.Within.bind KeepsRoutes.trans hm hf

theorem pure_routes {α : Type} (a : α) :
    Prog.Within (KeepsRoutes before) (pure a : Prog Life α) := Prog.Within.pure KeepsRoutes.refl a

/-! ## Requests -/

theorem command_routes : Prog.Within (KeepsRoutes before) command :=
  onGateway_routes (onCluster_keeps Cluster.command_untouched)

theorem create_routes (r : Resource) : Prog.Within (KeepsRoutes before) (create r) :=
  bind_routes command_routes fun _ => onProject_routes _

theorem delete_routes (r : Resource) (ignoreNotFound : Bool) :
    Prog.Within (KeepsRoutes before) (delete r ignoreNotFound) :=
  bind_routes command_routes fun _ => onProject_routes _

theorem createAll_routes (rs : List Resource) :
    Prog.Within (KeepsRoutes before) (createAll rs) := by
  induction rs with
  | nil => exact pure_routes true
  | cons r rs ih =>
      refine bind_routes (Prog.Within.handle KeepsRoutes.trans ?_ fun _ => pure_routes false) ?_
      · exact bind_routes (create_routes r) fun _ => pure_routes true
      · exact fun created => bind_routes ih fun rest => pure_routes (created && rest)

theorem newApp_routes (objects : List Resource) :
    Prog.Within (KeepsRoutes before) (newApp objects) := by
  refine bind_routes command_routes fun _ => bind_routes (createAll_routes objects) ?_
  intro created
  cases created with
  | true => exact pure_routes ()
  | false => exact Prog.Within.lift KeepsRoutes.refl _

theorem deployment_routes (name : String) :
    Prog.Within (KeepsRoutes before) (deployment name) := by
  refine Prog.Within.handle KeepsRoutes.trans ?_ fun _ => pure_routes _
  refine bind_routes command_routes fun _ => bind_routes (gets_routes _) fun p => ?_
  split
  · exact pure_routes _
  · exact Prog.Within.lift KeepsRoutes.refl _

theorem destroyRegistered_routes : Prog.Within (KeepsRoutes before) destroyRegistered := by
  intro s hs
  have hroutes : Tracks before
      ((onGateway (Prog.forEach destroyRoute s.gateway.routes)).run s).2.gateway :=
    destroyRoutes_tracks _ hs fun _ => id
  rw [destroyRegistered, Prog.gets_bind_run]
  cases hrun : (onGateway (Prog.forEach destroyRoute s.gateway.routes)).run s with
  | mk r t =>
      rw [hrun] at hroutes
      cases r with
      | error e =>
          rw [id, Prog.bind_of_error hrun]
          exact hroutes
      | ok u =>
          rw [id, Prog.bind_of_ok hrun]
          exact Prog.Within.forEach KeepsRoutes.refl KeepsRoutes.trans
            (fun r _ => delete_routes r true) t hroutes

/-! ## The two classes -/

theorem TemplateApicast.perform_routes (op : Op) :
    Prog.Within (KeepsRoutes before) (TemplateApicast.perform cfg op) := by
  cases op with
  | create =>
      refine bind_routes (deployment_routes _) fun _ => ?_
      refine bind_routes (create_routes _) fun _ => ?_
      refine bind_routes (newApp_routes _) fun _ => ?_
      refine bind_routes (deployment_routes _) fun _ => ?_
      exact bind_routes command_routes fun _ => onGateway_routes (createBaseRoute_keeps cfg)
  | destroy =>
      refine bind_routes destroyRegistered_routes fun _ => ?_
      refine bind_routes (deployment_routes _) fun _ => ?_
      refine bind_routes (deployment_routes _) fun _ => ?_
      refine bind_routes (deployment_routes _) fun _ => ?_
      refine bind_routes (delete_routes _ _) fun _ => ?_
      refine bind_routes (deployment_routes _) fun _ => ?_
      refine bind_routes (deployment_routes _) fun _ => ?_
      exact bind_routes (delete_routes _ _) fun _ => delete_routes _ _
  | routes op => exact onGateway_routes (OpenshiftApicast.perform_keeps cfg op)
  | connectOpenTelemetry commands => exact Prog.Within.lift KeepsRoutes.refl _
  | commands n => exact onGateway_routes (otherCommands_keeps n)

theorem OperatorApicast.createSecret_routes (r : Resource) :
    Prog.Within (KeepsRoutes before) (OperatorApicast.createSecret r) :=
  bind_routes (create_routes r) fun _ => onProject_routes _

theorem OperatorApicast.perform_routes (op : Op) :
    Prog.Within (KeepsRoutes before) (OperatorApicast.perform cfg op) := by
  cases op with
  | create =>
      refine bind_routes (createSecret_routes _) fun _ => ?_
      refine bind_routes (bind_routes (create_routes _) fun _ =>
        bind_routes command_routes fun _ => onProject_routes _) fun _ => ?_
      refine bind_routes (deployment_routes _) fun _ => ?_
      exact bind_routes command_routes fun _ => onGateway_routes (createBaseRoute_keeps cfg)
  | destroy =>
      refine bind_routes (gets_routes _) fun held => ?_
      split
      · exact bind_routes (delete_routes _ _) fun _ => destroyRegistered_routes
      · exact destroyRegistered_routes
  | routes op => exact onGateway_routes (OpenshiftApicast.perform_keeps cfg op)
  | connectOpenTelemetry commands =>
      exact bind_routes (createSecret_routes _) fun _ =>
        onGateway_routes (otherCommands_keeps commands)
  | commands n => exact onGateway_routes (otherCommands_keeps n)

/-- The routes stay tracked in every run. -/
theorem run_tracks {perform : Op → Prog Life Unit}
    (hperform : ∀ op, Prog.Within (KeepsRoutes before) (perform op)) (resources : List Resource)
    (calls : List Call) :
    Tracks before (run (step perform) calls (init before resources)).gateway := by
  refine @run_invariant Life Call (step perform) (fun s => Tracks before s.gateway)
    (fun call s hs => ?_) calls _ (init_tracks before [])
  exact hperform call.op (s.withFailures call.failures) (hs.withFailures call.failures)

end

end ThreescaleTests.Gateways.Deployed
