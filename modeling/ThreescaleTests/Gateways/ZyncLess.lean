import Mathlib.Order.BooleanAlgebra.Set
import ThreescaleTests.Gateways.RoutesKept

/-!
# Routes where zync is disabled

A gateway of the system without zync creates the routes of the services itself. It
creates the route again at every promotion, and writes the name down again, so that
the deletion of the service leaves a record behind. The books of what is there are
right exactly as long as no route is created whose name is written down already.
-/

namespace ThreescaleTests.Gateways.ZyncLess

open Library
open OpenshiftApicast (Route Cluster)

/-! ## The gateway -/

/-- A service, with the endpoints of its proxy. -/
structure Service where
  entityId : String
  sandboxEndpoint : String
  endpoint : String
deriving DecidableEq

/-- The gateway and the cluster it works on, if it has access to one. -/
structure Apicast where
  routes : List String
  openshift : Option Cluster

def routeName (entityId : String) (production : Bool) : String :=
  "testsuite-" ++ ((if production then "prod" else "stage") ++ ("-" ++ entityId))

/-- A command of `self.openshift`, which the callers know to be there. -/
def onOpenshift {α : Type} (m : Prog Cluster α) : Prog Apicast α :=
  ⟨fun gw =>
    match gw.openshift with
    | none => (.error .assertionError, gw)
    | some c => ((m.run c).1, { gw with openshift := some (m.run c).2 })⟩

/-- What is known from the start: the environment, and the hostnames of URLs. -/
structure Config where
  staging : Bool
  hostname : String → String

/-- Options of the route; the name of the host is one of them. -/
def routeArgs (hostname ocpService : String) : List (String × String) :=
  [("service", ocpService), ("hostname", hostname), ("insecure-policy", "Allow")]

/-- The name of the route that the gateway creates for a service. -/
def Config.ownName (cfg : Config) (entityId : String) : String := routeName entityId (!cfg.staging)

variable (cfg : Config)

/-- `if name in self.openshift.routes: del self.openshift.routes[name]` -/
def makeRoom (name : String) : Prog Apicast Unit := do
  let found ← onOpenshift (Cluster.contains name)
  if found then onOpenshift (Cluster.delItem name) else pure ()

def createRoute (name endpointUrl ocpService : String) : Prog Apicast Unit := do
  let openshift ← Prog.gets Apicast.openshift
  Prog.lift (assertThat (openshift.isSome = true))
  makeRoom name
  let _ ← onOpenshift
    (Cluster.create id name .edge (routeArgs (cfg.hostname endpointUrl) ocpService))
  Prog.modify fun gw => { gw with routes := gw.routes ++ [name] }

def onServiceCreate (service : Service) : Prog Apicast Unit :=
  if cfg.staging then
    createRoute cfg (routeName service.entityId false) service.sandboxEndpoint "apicast-staging"
  else pure ()

def onProxyPromote (service : Service) : Prog Apicast Unit :=
  if cfg.staging then pure ()
  else createRoute cfg (routeName service.entityId true) service.endpoint "apicast-production"

/-- One iteration of the loop in `on_service_delete`. -/
def deleteRoute (name : String) : Prog Apicast Unit := do
  let recorded ← Prog.gets fun gw => decide (name ∈ gw.routes)
  if recorded then do
    let found ← onOpenshift (Cluster.contains name)
    if found then do
      onOpenshift (Cluster.delItem name)
      Prog.modify fun gw => { gw with routes := gw.routes.erase name }
    else pure ()
  else pure ()

def onServiceDelete (service : Service) : Prog Apicast Unit := do
  let openshift ← Prog.gets Apicast.openshift
  if openshift.isSome then
    Prog.forEach deleteRoute [routeName service.entityId false, routeName service.entityId true]
  else pure ()

inductive Hook where
  | onServiceCreate (service : Service)
  | onProxyPromote (service : Service)
  | onServiceDelete (service : Service)

def perform : Hook → Prog Apicast Unit
  | .onServiceCreate service => onServiceCreate cfg service
  | .onProxyPromote service => onProxyPromote cfg service
  | .onServiceDelete service => onServiceDelete service

/-! ## The names -/

theorem routeName_inj {id id' : String} {production production' : Bool}
    (h : routeName id production = routeName id' production') :
    id = id' ∧ production = production' := by
  have hlist := congrArg String.toList h
  rw [routeName, routeName, String.toList_append, String.toList_append, String.toList_append,
    String.toList_append, String.toList_append, String.toList_append,
    List.append_cancel_left_eq] at hlist
  cases production with
  | false =>
      cases production' with
      | false => exact ⟨String.toList_inj.mp (by simpa using hlist), rfl⟩
      | true => simp at hlist
  | true =>
      cases production' with
      | false => simp at hlist
      | true => exact ⟨String.toList_inj.mp (by simpa using hlist), rfl⟩

/-! ## What the hooks do -/

variable {cfg}

theorem onOpenshift_run {α : Type} {m : Prog Cluster α} {r : Except Exn α} {c c' : Cluster}
    (h : m.run c = (r, c')) (routes : List String) :
    (onOpenshift m).run ⟨routes, some c⟩ = (r, ⟨routes, some c'⟩) := by
  simp only [onOpenshift, h]

theorem create_run_of_quiet {name : String} {c : Cluster} (hc : c.failures = [])
    (hname : name ∉ c.routes.keys) (args : List (String × String)) :
    ∃ route c', (Cluster.create id name .edge args).run c = (.ok route, c') ∧
      c'.failures = [] ∧ c'.routes = c.routes.set name route :=
  ⟨_, _, (Prog.bind_of_ok (OpenshiftApicast.command_run_of_quiet hc)).trans (if_neg hname), hc, rfl⟩

/-- After a look for the route and a deletion if need be, there is no route of that name. -/
theorem makeRoom_run (name : String) (routes : List String) {c : Cluster} (hc : c.failures = []) :
    ∃ c', (makeRoom name).run ⟨routes, some c⟩ = (.ok (), ⟨routes, some c'⟩) ∧
      c'.failures = [] ∧ name ∉ c'.routes.keys ∧
      ∀ other, other ≠ name → c'.routes.get? other = c.routes.get? other := by
  have hfound := onOpenshift_run (OpenshiftApicast.contains_run_of_quiet name hc) routes
  rw [makeRoom, Prog.bind_of_ok hfound]
  by_cases hname : name ∈ c.routes.keys
  · rw [decide_eq_true hname, if_pos rfl]
    refine ⟨_, onOpenshift_run (OpenshiftApicast.delItem_run_of_quiet hc hname) routes, hc, ?_, ?_⟩
    · rw [Dict.mem_keys_erase]
      exact fun h => h.1 rfl
    · intro other hother
      rw [Dict.get?_erase, if_neg hother]
  · rw [decide_eq_false hname]
    exact ⟨c, rfl, hc, hname, fun _ _ => rfl⟩

/-- A route of that name is put into the cluster, and its name is written down. -/
theorem createRoute_run (cfg : Config) (name endpointUrl ocpService : String)
    (routes : List String) {c : Cluster} (hc : c.failures = []) :
    ∃ route c', (createRoute cfg name endpointUrl ocpService).run ⟨routes, some c⟩ =
        (.ok (), ⟨routes ++ [name], some c'⟩) ∧ c'.failures = [] ∧
      ∀ other, c'.routes.get? other = if other = name then some route else c.routes.get? other := by
  obtain ⟨c1, hroom, hc1, hname, hothers⟩ := makeRoom_run name routes hc
  obtain ⟨route, c2, hcreate, hc2, hroutes⟩ := create_run_of_quiet hc1 hname
    (routeArgs (cfg.hostname endpointUrl) ocpService)
  refine ⟨route, c2, ?_, hc2, ?_⟩
  · have hassert : assertThat ((some c).isSome = true) = .ok () := rfl
    rw [createRoute, Prog.gets_bind_run, Prog.lift_bind_of_ok hassert, Prog.bind_of_ok hroom,
      Prog.bind_of_ok (onOpenshift_run hcreate routes)]
    rfl
  · intro other
    rw [hroutes, Dict.get?_set]
    by_cases heq : other = name
    · rw [if_pos heq, if_pos heq]
    · rw [if_neg heq, if_neg heq, hothers other heq]

/-- A route is deleted with its record if both are there. -/
theorem deleteRoute_run (name : String) (routes : List String) {c : Cluster}
    (hc : c.failures = []) :
    (name ∈ routes ∧ name ∈ c.routes.keys ∧ ∃ c',
      (deleteRoute name).run ⟨routes, some c⟩ = (.ok (), ⟨routes.erase name, some c'⟩) ∧
        c'.failures = [] ∧ c'.routes = c.routes.erase name) ∨
    (¬ (name ∈ routes ∧ name ∈ c.routes.keys) ∧
      (deleteRoute name).run ⟨routes, some c⟩ = (.ok (), ⟨routes, some c⟩)) := by
  rw [deleteRoute, Prog.gets_bind_run]
  by_cases hname : name ∈ routes
  · have hfound := onOpenshift_run (OpenshiftApicast.contains_run_of_quiet name hc) routes
    rw [decide_eq_true hname, if_pos rfl, Prog.bind_of_ok hfound]
    by_cases hkeys : name ∈ c.routes.keys
    · have hdelete := onOpenshift_run (OpenshiftApicast.delItem_run_of_quiet hc hkeys) routes
      rw [decide_eq_true hkeys, if_pos rfl, Prog.bind_of_ok hdelete]
      exact Or.inl ⟨hname, hkeys, _, rfl, hc, rfl⟩
    · rw [decide_eq_false hkeys]
      exact Or.inr ⟨fun h => hkeys h.2, rfl⟩
  · rw [decide_eq_false hname]
    exact Or.inr ⟨fun h => hname h.1, rfl⟩

theorem deleteRoute_run_of_not_mem {name : String} {routes : List String} {c : Cluster}
    (hc : c.failures = []) (hname : name ∉ routes) :
    (deleteRoute name).run ⟨routes, some c⟩ = (.ok (), ⟨routes, some c⟩) := by
  rcases deleteRoute_run name routes hc with ⟨hmem, -⟩ | ⟨-, hrun⟩
  · exact absurd hmem hname
  · exact hrun

theorem onServiceDelete_eq (service : Service) (routes : List String) (c : Cluster) :
    (onServiceDelete service).run ⟨routes, some c⟩ =
      (deleteRoute (routeName service.entityId false) >>= fun _ =>
        deleteRoute (routeName service.entityId true) >>= fun _ => pure ()).run
        ⟨routes, some c⟩ := rfl

/-- Of the two names only the one of the gateway's own environment is ever written down. -/
theorem onServiceDelete_run (service : Service) {routes : List String} {c : Cluster}
    (hc : c.failures = []) (hother : routeName service.entityId cfg.staging ∉ routes) :
    (cfg.ownName service.entityId ∈ routes ∧ cfg.ownName service.entityId ∈ c.routes.keys ∧ ∃ c',
      (onServiceDelete service).run ⟨routes, some c⟩ =
        (.ok (), ⟨routes.erase (cfg.ownName service.entityId), some c'⟩) ∧
      c'.failures = [] ∧ c'.routes = c.routes.erase (cfg.ownName service.entityId)) ∨
    (¬ (cfg.ownName service.entityId ∈ routes ∧ cfg.ownName service.entityId ∈ c.routes.keys) ∧
      (onServiceDelete service).run ⟨routes, some c⟩ = (.ok (), ⟨routes, some c⟩)) := by
  rw [onServiceDelete_eq, Config.ownName]
  cases hstaging : cfg.staging with
  | true =>
      rw [hstaging] at hother
      rcases deleteRoute_run (routeName service.entityId false) routes hc with
        ⟨hmem, hkeys, c', hrun, hc', hroutes⟩ | ⟨hnot, hrun⟩
      · have hstill : routeName service.entityId true ∉
            routes.erase (routeName service.entityId false) :=
          fun h => hother (List.mem_of_mem_erase h)
        rw [Prog.bind_of_ok hrun, Prog.bind_of_ok (deleteRoute_run_of_not_mem hc' hstill)]
        exact Or.inl ⟨hmem, hkeys, c', rfl, hc', hroutes⟩
      · rw [Prog.bind_of_ok hrun, Prog.bind_of_ok (deleteRoute_run_of_not_mem hc hother)]
        exact Or.inr ⟨hnot, rfl⟩
  | false =>
      rw [hstaging] at hother
      rw [Prog.bind_of_ok (deleteRoute_run_of_not_mem hc hother)]
      rcases deleteRoute_run (routeName service.entityId true) routes hc with
        ⟨hmem, hkeys, c', hrun, hc', hroutes⟩ | ⟨hnot, hrun⟩
      · rw [Prog.bind_of_ok hrun]
        exact Or.inl ⟨hmem, hkeys, c', rfl, hc', hroutes⟩
      · rw [Prog.bind_of_ok hrun]
        exact Or.inr ⟨hnot, rfl⟩

/-! ## The books -/

variable (cfg)

/-- The service that a hook creates a route for. -/
def Hook.creates : Hook → Option String
  | .onServiceCreate service => if cfg.staging then some service.entityId else none
  | .onProxyPromote service => if cfg.staging then none else some service.entityId
  | .onServiceDelete _ => none

/-- The services that a route was ever created for, and those that have not been deleted since. -/
structure Ledger where
  created : Set String
  live : Set String

def Ledger.add (id : String) (ledger : Ledger) : Ledger :=
  ⟨insert id ledger.created, insert id ledger.live⟩

def Ledger.remove (id : String) (ledger : Ledger) : Ledger :=
  ⟨ledger.created, ledger.live \ {id}⟩

def Ledger.after (ledger : Ledger) : Hook → Ledger
  | .onServiceCreate service => if cfg.staging then ledger.add service.entityId else ledger
  | .onProxyPromote service => if cfg.staging then ledger else ledger.add service.entityId
  | .onServiceDelete service => ledger.remove service.entityId

/-- The records are, each of them once, the names of the routes of the services that have one. These
routes are there, and apart from the gateway's own the cluster is what it was before. -/
structure TracksRoutes (before : Dict String Route) (ledger : Ledger) (routes : List String)
    (c : Cluster) : Prop where
  once : routes.Nodup
  records : ∀ name, name ∈ routes ↔ ∃ id ∈ ledger.live, name = cfg.ownName id
  present : ∀ id ∈ ledger.created, cfg.ownName id ∈ c.routes.keys ↔ id ∈ ledger.live
  others : ∀ name, (∀ id ∈ ledger.created, name ≠ cfg.ownName id) →
    c.routes.get? name = before.get? name

variable {cfg}

theorem ownName_inj {id id' : String} : cfg.ownName id = cfg.ownName id' ↔ id = id' :=
  ⟨fun h => (routeName_inj h).1, fun h => h ▸ rfl⟩

section

variable {before : Dict String Route} {ledger : Ledger} {routes : List String} {c c' : Cluster}

/-- A route is created whose name is not written down. -/
theorem TracksRoutes.create (h : TracksRoutes cfg before ledger routes c) {id : String}
    (hfresh : cfg.ownName id ∉ routes) {route : Route}
    (hget : ∀ other, c'.routes.get? other =
      if other = cfg.ownName id then some route else c.routes.get? other) :
    TracksRoutes cfg before (ledger.add id) (routes ++ [cfg.ownName id]) c' := by
  constructor
  · rw [List.nodup_append]
    refine ⟨h.once, by simp, ?_⟩
    intro name hname other hother heq
    rw [List.mem_singleton] at hother
    exact hfresh (hother ▸ heq ▸ hname)
  · intro name
    rw [List.mem_append, List.mem_singleton, h.records]
    simp only [Ledger.add, Set.mem_insert_iff, or_and_right, exists_or, exists_eq_left, or_comm]
  · intro id' hid'
    have hkeys := Dict.isSome_get?_iff (d := c'.routes) (k := cfg.ownName id')
    rw [← hkeys, hget, Ledger.add, Set.mem_insert_iff]
    by_cases heq : id' = id
    · simp [heq]
    · have hcreated : id' ∈ ledger.created := Or.resolve_left hid' heq
      have hne : cfg.ownName id' ≠ cfg.ownName id := fun hname => heq (ownName_inj.mp hname)
      rw [if_neg hne, Dict.isSome_get?_iff, h.present id' hcreated, or_iff_right heq]
  · intro name hname
    rw [hget, if_neg (hname id (Set.mem_insert id _))]
    exact h.others name fun id' hid' => hname id' (Set.mem_insert_of_mem id hid')

theorem TracksRoutes.mem_iff (h : TracksRoutes cfg before ledger routes c) {id : String} :
    cfg.ownName id ∈ routes ↔ id ∈ ledger.live := by
  rw [h.records]
  constructor
  · intro hrecorded
    rcases hrecorded with ⟨id', hlive, hname⟩
    exact ownName_inj.mp hname ▸ hlive
  · intro hlive
    exact ⟨id, hlive, rfl⟩

/-- A route is deleted with its one record. -/
theorem TracksRoutes.delete (h : TracksRoutes cfg before ledger routes c) {id : String}
    (hcreated : id ∈ ledger.created) (hroutes : c'.routes = c.routes.erase (cfg.ownName id)) :
    TracksRoutes cfg before (ledger.remove id) (routes.erase (cfg.ownName id)) c' := by
  constructor
  · exact h.once.erase _
  · intro name
    rw [h.once.mem_erase_iff, h.records, Ledger.remove]
    constructor
    · rintro ⟨hne, id', hlive, rfl⟩
      exact ⟨id', ⟨hlive, fun heq => hne (ownName_inj.mpr heq)⟩, rfl⟩
    · rintro ⟨id', ⟨hlive, hne⟩, rfl⟩
      exact ⟨fun hname => hne (ownName_inj.mp hname), id', hlive, rfl⟩
  · intro id' hid'
    rw [hroutes, Dict.mem_keys_erase, h.present id' hid', Ledger.remove, Set.mem_sdiff,
      Set.mem_singleton_iff, ne_eq, ownName_inj, and_comm]
  · intro name hname
    rw [hroutes, Dict.get?_erase, if_neg (hname id hcreated)]
    exact h.others name hname

/-- There is nothing to delete for a service that has no route. -/
theorem TracksRoutes.remove (h : TracksRoutes cfg before ledger routes c) {id : String}
    (hlive : id ∉ ledger.live) : TracksRoutes cfg before (ledger.remove id) routes c := by
  rw [Ledger.remove, Set.sdiff_singleton_eq_self hlive]
  exact h

end

/-! ## Hooks and books -/

/-- A gateway with the books that should be right. -/
structure Books where
  gw : Apicast
  ledger : Ledger

variable (cfg)

def step (hook : Hook) (b : Books) : Books :=
  ⟨((perform cfg hook).run b.gw).2, b.ledger.after cfg hook⟩

/-- The books are right; without access to a cluster there is nothing in them. -/
def Exact (before : Dict String Route) (b : Books) : Prop :=
  match b.gw.openshift with
  | none => b.gw.routes = []
  | some c => TracksRoutes cfg before b.ledger b.gw.routes c

def Apicast.route? (gw : Apicast) (name : String) : Option Route :=
  gw.openshift.bind fun c => c.routes.get? name

/-- There is neither a route nor a record of the service, and nothing else has changed. -/
structure Gone (id : String) (b b' : Books) : Prop where
  noRecord : ∀ production, routeName id production ∉ b'.gw.routes
  noRoute : id ∈ b.ledger.created → b'.gw.route? (cfg.ownName id) = none
  records : ∀ name, name ≠ cfg.ownName id → b'.gw.routes.count name = b.gw.routes.count name
  routes : ∀ name, name ≠ cfg.ownName id → b'.gw.route? name = b.gw.route? name

/-- A hook leaves the books right, and a deletion leaves nothing of the service. -/
def LeavesExact (before : Dict String Route) (hook : Hook) (b : Books) : Prop :=
  Exact cfg before (step cfg hook b) ∧
    ∀ service, hook = .onServiceDelete service → Gone cfg service.entityId b (step cfg hook b)

/-- A route is only created if its name is not written down. -/
def CreatesFresh (hook : Hook) (b : Books) : Prop :=
  ∀ id, hook.creates cfg = some id → cfg.ownName id ∉ b.gw.routes

/-- What is true as long as only fresh routes are created. -/
inductive Kept (before : Dict String Route) : Books → Prop
  | apart (ledger : Ledger) : Kept before ⟨⟨[], none⟩, ledger⟩
  | connected {ledger : Ledger} {routes : List String} {c : Cluster} (hquiet : c.failures = [])
      (htracks : TracksRoutes cfg before ledger routes c) (hlive : ledger.live ⊆ ledger.created) :
      Kept before ⟨⟨routes, some c⟩, ledger⟩

/-- A hook creates a route, does nothing, or deletes. -/
theorem hook_cases (hook : Hook) :
    (∃ id url ocpService, hook.creates cfg = some id ∧
      perform cfg hook = createRoute cfg (cfg.ownName id) url ocpService ∧
      ∀ ledger : Ledger, ledger.after cfg hook = ledger.add id) ∨
    (hook.creates cfg = none ∧ perform cfg hook = pure () ∧
      ∀ ledger : Ledger, ledger.after cfg hook = ledger) ∨
    ∃ service, hook = .onServiceDelete service := by
  cases hook with
  | onServiceCreate service =>
      cases hstaging : cfg.staging <;>
        simp [Hook.creates, perform, onServiceCreate, Ledger.after, Config.ownName, hstaging]
  | onProxyPromote service =>
      cases hstaging : cfg.staging <;>
        simp [Hook.creates, perform, onProxyPromote, Ledger.after, Config.ownName, hstaging]
  | onServiceDelete service => exact Or.inr (Or.inr ⟨service, rfl⟩)

variable {cfg}

section

variable {before : Dict String Route} {b : Books}

theorem Kept.exact (h : Kept cfg before b) : Exact cfg before b := by
  cases h with
  | apart ledger => exact rfl
  | connected hquiet htracks hlive => exact htracks

theorem createRoute_run_of_none (name url ocpService : String) (routes : List String) :
    (createRoute cfg name url ocpService).run ⟨routes, none⟩ =
      (.error .assertionError, ⟨routes, none⟩) := rfl

theorem onServiceDelete_run_of_none (service : Service) (routes : List String) :
    (onServiceDelete service).run ⟨routes, none⟩ = (.ok (), ⟨routes, none⟩) := rfl

theorem step_apart (hook : Hook) (ledger : Ledger) :
    step cfg hook ⟨⟨[], none⟩, ledger⟩ = ⟨⟨[], none⟩, ledger.after cfg hook⟩ := by
  rcases hook_cases cfg hook with
    ⟨id, url, ocpService, -, hperform, -⟩ | ⟨-, hperform, -⟩ | ⟨service, rfl⟩
  · rw [step, hperform, createRoute_run_of_none]
  · rw [step, hperform, Prog.pure_run]
  · rw [step, perform, onServiceDelete_run_of_none]

/-- The name in the other environment is never written down. -/
theorem TracksRoutes.other_not_mem {ledger : Ledger} {routes : List String} {c : Cluster}
    (h : TracksRoutes cfg before ledger routes c) (id : String) :
    routeName id cfg.staging ∉ routes := by
  intro hmem
  obtain ⟨id', -, hname⟩ := (h.records _).mp hmem
  have hsame := (routeName_inj hname).2
  cases hstaging : cfg.staging <;> simp [hstaging] at hsame

theorem step_kept (hook : Hook) (h : Kept cfg before b) (hfresh : CreatesFresh cfg hook b) :
    Kept cfg before (step cfg hook b) := by
  cases h with
  | apart ledger =>
      rw [step_apart]
      exact Kept.apart _
  | @connected ledger routes c hquiet htracks hlive =>
      rcases hook_cases cfg hook with
        ⟨id, url, ocpService, hcreates, hperform, hafter⟩ | ⟨-, hperform, hafter⟩ | ⟨service, rfl⟩
      · obtain ⟨route, c', hrun, hquiet', hget⟩ :=
          createRoute_run cfg (cfg.ownName id) url ocpService routes hquiet
        rw [step, hperform, hrun, hafter]
        exact Kept.connected hquiet' (htracks.create (hfresh id hcreates) hget)
          (Set.insert_subset_insert hlive)
      · rw [step, hperform, Prog.pure_run, hafter]
        exact Kept.connected hquiet htracks hlive
      · rw [step, perform, Ledger.after]
        have hremove : (ledger.remove service.entityId).live ⊆ ledger.created :=
          Set.Subset.trans Set.sdiff_subset hlive
        rcases onServiceDelete_run service hquiet (htracks.other_not_mem _) with
          ⟨hmem, -, c', hrun, hquiet', hroutes⟩ | ⟨hnot, hrun⟩
        · rw [hrun]
          exact Kept.connected hquiet'
            (htracks.delete (hlive (htracks.mem_iff.mp hmem)) hroutes) hremove
        · rw [hrun]
          have hgone : service.entityId ∉ ledger.live := fun hmem =>
            hnot ⟨htracks.mem_iff.mpr hmem, (htracks.present _ (hlive hmem)).mpr hmem⟩
          exact Kept.connected hquiet (htracks.remove hgone) hremove

theorem routeName_not_mem {id : String} {names : List String} (hown : cfg.ownName id ∉ names)
    (hother : routeName id cfg.staging ∉ names) (production : Bool) :
    routeName id production ∉ names := by
  rw [Config.ownName] at hown
  by_cases hsame : production = cfg.staging
  · rwa [hsame]
  · rwa [Bool.eq_not_of_ne hsame]

theorem Kept.gone (h : Kept cfg before b) (service : Service) :
    Gone cfg service.entityId b (step cfg (.onServiceDelete service) b) := by
  cases h with
  | apart ledger =>
      rw [step_apart]
      exact ⟨fun _ => List.not_mem_nil, fun _ => rfl, fun _ _ => rfl, fun _ _ => rfl⟩
  | @connected ledger routes c hquiet htracks hlive =>
      have hother := htracks.other_not_mem service.entityId
      rw [step, perform]
      rcases onServiceDelete_run service hquiet hother with
        ⟨-, -, c', hrun, -, hroutes⟩ | ⟨hnot, hrun⟩
      · rw [hrun]
        constructor
        · exact routeName_not_mem (fun hmem => (htracks.once.mem_erase_iff.mp hmem).1 rfl)
            fun hmem => hother (List.mem_of_mem_erase hmem)
        · intro _
          rw [Apicast.route?, Option.bind_some, hroutes, Dict.get?_erase, if_pos rfl]
        · exact fun name hname => List.count_erase_of_ne hname
        · intro name hname
          rw [Apicast.route?, Option.bind_some, hroutes, Dict.get?_erase, if_neg hname]
          rfl
      · rw [hrun]
        have hrecord : cfg.ownName service.entityId ∉ routes := by
          intro hmem
          have hmemLive := htracks.mem_iff.mp hmem
          exact hnot ⟨hmem, (htracks.present _ (hlive hmemLive)).mpr hmemLive⟩
        refine ⟨routeName_not_mem hrecord hother, ?_, fun _ _ => rfl, fun _ _ => rfl⟩
        intro hcreated
        rw [Apicast.route?, Option.bind_some, Dict.get?_eq_none_iff, htracks.present _ hcreated]
        exact fun hmemLive => hrecord (htracks.mem_iff.mpr hmemLive)

/-- A name that is written down again is there twice. -/
theorem createsFresh_of_exact (h : Kept cfg before b) {hook : Hook}
    (hexact : Exact cfg before (step cfg hook b)) : CreatesFresh cfg hook b := by
  intro id hcreates hmem
  cases h with
  | apart ledger => cases hmem
  | @connected ledger routes c hquiet htracks hlive =>
      rcases hook_cases cfg hook with
        ⟨id', url, ocpService, hcreates', hperform, -⟩ | ⟨hnone, -⟩ | ⟨service, rfl⟩
      · cases hcreates'.symm.trans hcreates
        obtain ⟨route, c', hrun, -⟩ :=
          createRoute_run cfg (cfg.ownName id) url ocpService routes hquiet
        rw [step, hperform, hrun] at hexact
        have honce : (routes ++ [cfg.ownName id]).Nodup := hexact.once
        exact (List.nodup_append.mp honce).2.2 _ hmem _ (List.mem_singleton_self _) rfl
      · cases hnone.symm.trans hcreates
      · cases hcreates

theorem leavesExact_iff (h : Kept cfg before b) (hook : Hook) :
    LeavesExact cfg before hook b ↔ CreatesFresh cfg hook b := by
  constructor
  · exact fun hleaves => createsFresh_of_exact h hleaves.1
  · intro hfresh
    refine ⟨(step_kept hook h hfresh).exact, ?_⟩
    rintro service rfl
    exact h.gone service

end

/-- A new gateway, which has created nothing. -/
def init (openshift : Option (Dict String Route)) : Books :=
  ⟨⟨[], openshift.map fun routes => ⟨routes, [], []⟩⟩, ⟨∅, ∅⟩⟩

theorem init_kept (openshift : Option (Dict String Route)) :
    Kept cfg (openshift.getD Dict.empty) (init openshift) := by
  cases openshift with
  | none => exact Kept.apart _
  | some before =>
      refine Kept.connected rfl ⟨List.nodup_nil, ?_, ?_, fun _ _ => rfl⟩ (Set.Subset.refl _)
      · simp
      · simp

/-- In every run the books stay right exactly if no route is created whose name is written down. -/
theorem books_exact_iff (cfg : Config) (openshift : Option (Dict String Route))
    (hooks : List Hook) :
    EveryStep (step cfg) (LeavesExact cfg (openshift.getD Dict.empty)) hooks (init openshift) ↔
      EveryStep (step cfg) (CreatesFresh cfg) hooks (init openshift) :=
  everyStep_iff (fun hook _ h => leavesExact_iff h hook) (fun hook _ hfresh h =>
    step_kept hook h hfresh) (init_kept openshift)

/-! ## Promoted twice -/

def production : Config := ⟨false, id⟩

def api : Service := ⟨"5", "https://api-staging.example.com:443", "https://api.example.com:443"⟩

/-- After the second promotion the route is recorded twice, and after the deletion once. -/
theorem promoted_twice :
    ¬ EveryStep (step production) (LeavesExact production Dict.empty)
      [.onProxyPromote api, .onProxyPromote api, .onServiceDelete api] (init (some Dict.empty)) ∧
    (run (step production) [.onProxyPromote api, .onProxyPromote api, .onServiceDelete api]
      (init (some Dict.empty))).gw.routes = ["testsuite-prod-5"] := by
  constructor
  · intro h
    have honce : ["testsuite-prod-5", "testsuite-prod-5"].Nodup := h.2.1.1.once
    exact absurd honce (by decide)
  · rfl

end ThreescaleTests.Gateways.ZyncLess
