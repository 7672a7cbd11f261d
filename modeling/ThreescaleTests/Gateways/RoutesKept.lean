import ThreescaleTests.Gateways.Routes

/-!
# Routes are neither leaked nor stolen

The list of names and the cluster agree: the gateway holds exactly the names of the
routes that the cluster has beyond those it had before. The agreement survives every
operation with every failing command, and `destroy` then leaves what was there
before.
-/

namespace ThreescaleTests.Gateways.OpenshiftApicast

open Library

def Event.name : Event → String
  | .created name => name
  | .deleted name => name

/-! ## What the commands do to the routes -/

/-- A part of a run that touches no route. -/
structure Cluster.Untouched (c c' : Cluster) : Prop where
  routes : c'.routes = c.routes
  log : c'.log = c.log

namespace Cluster

variable {c : Cluster}

theorem Untouched.refl (c : Cluster) : Untouched c c := ⟨rfl, rfl⟩

theorem Untouched.trans (c d e : Cluster) (hcd : Untouched c d) (hde : Untouched d e) :
    Untouched c e :=
  ⟨hde.routes.trans hcd.routes, hde.log.trans hcd.log⟩

theorem command_untouched : Prog.Within Untouched command := by
  intro c
  cases hfailures : c.failures with
  | nil =>
      simp only [command, hfailures]
      exact Untouched.refl c
  | cons fails failures =>
      simp only [command, hfailures]
      exact ⟨rfl, rfl⟩

theorem contains_untouched (name : String) : Prog.Within Untouched (contains name) :=
  Prog.Within.bind Untouched.trans command_untouched fun _ c => Untouched.refl c

theorem getHost_untouched (name : String) : Prog.Within Untouched (getHost name) := by
  apply Prog.Within.bind Untouched.trans command_untouched
  intro _
  apply Prog.Within.bind Untouched.trans fun c => Untouched.refl c
  intro route
  cases route with
  | none => exact Prog.Within.lift Untouched.refl _
  | some route => exact Prog.Within.pure Untouched.refl _

/-- A route is created where there was none, or nothing happens. -/
theorem create_cases (assignedHost : String → String) (name : String) (type : RouteType)
    (args : List (String × String)) (c : Cluster) :
    (∃ e c', (create assignedHost name type args).run c = (.error e, c') ∧ Untouched c c') ∨
    (∃ route c', (create assignedHost name type args).run c = (.ok route, c') ∧
      name ∉ c.routes.keys ∧ c'.routes = c.routes.set name route ∧
      c'.log = c.log ++ [.created name]) := by
  rcases command_untouched.run_cases c with ⟨e, d, hrun, hd⟩ | ⟨u, d, hrun, hd⟩
  · left
    exact ⟨e, d, Prog.bind_of_error hrun, hd⟩
  · by_cases hname : name ∈ d.routes.keys
    · left
      exact ⟨_, d, (Prog.bind_of_ok hrun).trans (if_pos hname), hd⟩
    · right
      refine ⟨_, _, (Prog.bind_of_ok hrun).trans (if_neg hname), ?_, ?_, ?_⟩
      · rw [← hd.routes]
        exact hname
      · rw [hd.routes]
      · rw [hd.log]

/-- A route is deleted, or nothing happens. -/
theorem delItem_cases (name : String) (c : Cluster) :
    (∃ e c', (delItem name).run c = (.error e, c') ∧ Untouched c c') ∨
    (∃ c', (delItem name).run c = (.ok (), c') ∧ c'.routes = c.routes.erase name ∧
      c'.log = c.log ++ [.deleted name]) := by
  rcases (contains_untouched name).run_cases c with ⟨e, d, hfound, hd⟩ | ⟨found, d, hfound, hd⟩
  · left
    exact ⟨e, d, Prog.bind_of_error hfound, hd⟩
  · cases found with
    | false =>
        left
        exact ⟨.keyError "", d, Prog.bind_of_ok hfound, hd⟩
    | true =>
        rcases command_untouched.run_cases d with ⟨e, d', hrun, hd'⟩ | ⟨u, d', hrun, hd'⟩
        · left
          refine ⟨e, d', ?_, Untouched.trans _ _ _ hd hd'⟩
          rw [delItem, Prog.bind_of_ok hfound]
          exact Prog.bind_of_error hrun
        · right
          have hboth := Untouched.trans _ _ _ hd hd'
          refine ⟨_, (Prog.bind_of_ok hfound).trans (Prog.bind_of_ok hrun), ?_, ?_⟩
          · show d'.routes.erase name = c.routes.erase name
            rw [hboth.routes]
          · show d'.log ++ [.deleted name] = c.log ++ [.deleted name]
            rw [hboth.log]

end Cluster

/-! ## The list and the cluster -/

/-- The gateway knows the routes that the cluster has beyond those of `before`, which are as they
were and which no command ever touched. After a `destroy` it also knows routes that are gone. -/
structure Tracks (before : Dict String Route) (gw : Apicast) : Prop where
  kept : ∀ name ∈ before.keys, gw.cluster.routes.get? name = before.get? name
  own : ∀ name ∈ gw.cluster.routes.keys, name ∈ before.keys ∨ name ∈ gw.routes
  fresh : ∀ name ∈ gw.routes, name ∉ before.keys
  logged : ∀ event ∈ gw.cluster.log, event.name ∉ before.keys

/-- What every part of an operation does. -/
def Keeps (before : Dict String Route) (gw gw' : Apicast) : Prop :=
  Tracks before gw → Tracks before gw'

section

variable {before : Dict String Route} {gw : Apicast}

theorem Keeps.refl (gw : Apicast) : Keeps before gw gw := id

theorem Keeps.trans (gw gw' gw'' : Apicast) (h : Keeps before gw gw') (h' : Keeps before gw' gw'') :
    Keeps before gw gw'' := h' ∘ h

theorem Tracks.untouched (h : Tracks before gw) {c : Cluster}
    (hc : Cluster.Untouched gw.cluster c) : Tracks before { gw with cluster := c } where
  kept := by simpa only [hc.routes] using h.kept
  own := by simpa only [hc.routes] using h.own
  fresh := h.fresh
  logged := by simpa only [hc.log] using h.logged

theorem onCluster_run {α : Type} {m : Prog Cluster α} {r : Except Exn α} {c : Cluster}
    (h : m.run gw.cluster = (r, c)) : (onCluster m).run gw = (r, { gw with cluster := c }) := by
  rw [onCluster, Prog.focus_run, h]

/-- A command that touches no route. -/
theorem onCluster_keeps {α : Type} {m : Prog Cluster α} (hm : Prog.Within Cluster.Untouched m) :
    Prog.Within (Keeps before) (onCluster m) :=
  Prog.Within.focus (fun _ _ hc h => h.untouched hc) hm

/-- A command on a route that was not there before. -/
theorem Tracks.logged_append (h : Tracks before gw) {event : Event} {log : List Event}
    (hlog : log = gw.cluster.log ++ [event]) (hbefore : event.name ∉ before.keys) :
    ∀ other ∈ log, other.name ∉ before.keys := by
  intro other hother
  rw [hlog] at hother
  rcases List.mem_append.mp hother with hold | hlast
  · exact h.logged other hold
  · rw [List.mem_singleton.mp hlast]
    exact hbefore

/-- A route that is new to the cluster is added to both sides. -/
theorem Tracks.created (h : Tracks before gw) {name : String} {route : Route} {c : Cluster}
    (hname : name ∉ gw.cluster.routes.keys) (hroutes : c.routes = gw.cluster.routes.set name route)
    (hlog : c.log = gw.cluster.log ++ [.created name]) :
    Tracks before { gw with cluster := c, routes := gw.routes ++ [name] } := by
  have hbefore : name ∉ before.keys := by
    intro hmem
    have hget := h.kept name hmem
    rw [Dict.get?_eq_none_iff.mpr hname] at hget
    exact Dict.get?_eq_none_iff.mp hget.symm hmem
  constructor
  · intro other hother
    have hne : other ≠ name := fun heq => hbefore (heq ▸ hother)
    show c.routes.get? other = before.get? other
    rw [hroutes, Dict.get?_set_of_ne _ _ hne]
    exact h.kept other hother
  · intro other hother
    show other ∈ before.keys ∨ other ∈ gw.routes ++ [name]
    have hother' : other ∈ (gw.cluster.routes.set name route).keys := hroutes ▸ hother
    rcases Dict.mem_keys_set.mp hother' with heq | hmem
    · exact Or.inr (List.mem_append_right _ (List.mem_singleton.mpr heq))
    · exact (h.own other hmem).imp_right (List.mem_append_left _)
  · intro other hother
    rcases List.mem_append.mp hother with hmem | heq
    · exact h.fresh other hmem
    · exact List.mem_singleton.mp heq ▸ hbefore
  · exact h.logged_append hlog hbefore

/-- A route that the gateway knows is taken from the cluster. -/
theorem Tracks.deleted (h : Tracks before gw) {name : String} {c : Cluster}
    (hname : name ∈ gw.routes) (hroutes : c.routes = gw.cluster.routes.erase name)
    (hlog : c.log = gw.cluster.log ++ [.deleted name]) :
    Tracks before { gw with cluster := c } := by
  have hbefore : name ∉ before.keys := h.fresh name hname
  constructor
  · intro other hother
    have hne : other ≠ name := fun heq => hbefore (heq ▸ hother)
    show c.routes.get? other = before.get? other
    rw [hroutes, Dict.get?_erase, if_neg hne]
    exact h.kept other hother
  · intro other hother
    have hother' : other ∈ (gw.cluster.routes.erase name).keys := hroutes ▸ hother
    exact h.own other (Dict.mem_keys_erase.mp hother').2
  · exact h.fresh
  · exact h.logged_append hlog hbefore

/-- The name of a route that is gone is struck out. -/
theorem Tracks.struck (h : Tracks before gw) {name : String}
    (hgone : name ∉ gw.cluster.routes.keys) :
    Tracks before { gw with routes := gw.routes.erase name } where
  kept := h.kept
  own other hother := by
    have hne : other ≠ name := fun heq => hgone (heq ▸ hother)
    exact (h.own other hother).imp_right (List.mem_erase_of_ne hne).mpr
  fresh other hother := h.fresh other (List.mem_of_mem_erase hother)
  logged := h.logged

/-! ## Every operation keeps track -/

variable (cfg : Config)

theorem deploymentName_untouched : Prog.Within Cluster.Untouched (deploymentName cfg) :=
  Prog.Within.bind Cluster.Untouched.trans (fun c => Cluster.command_untouched c)
    fun _ => Prog.Within.pure Cluster.Untouched.refl _

theorem serviceName_untouched : Prog.Within Cluster.Untouched (serviceName cfg) := by
  unfold serviceName
  cases cfg.implementation with
  | plain => exact deploymentName_untouched cfg
  | tls superdomain =>
      exact Prog.Within.bind Cluster.Untouched.trans (deploymentName_untouched cfg)
        fun _ => deploymentName_untouched cfg

theorem createRoute_keeps (name : String) (type : RouteType) (service : String) :
    Prog.Within (Keeps before) (createRoute cfg name type service) := by
  intro gw h
  rcases Cluster.create_cases cfg.assignedHost name type (cfg.implementation.args name service)
    gw.cluster with ⟨e, c, hrun, hc⟩ | ⟨route, c, hrun, hname, hroutes, hlog⟩
  · rw [createRoute, Prog.bind_of_error (onCluster_run hrun)]
    exact h.untouched hc
  · rw [createRoute, Prog.bind_of_ok (onCluster_run hrun)]
    exact h.created hname hroutes hlog

theorem addRoute_keeps (name : String) (kind : Option RouteType) :
    Prog.Within (Keeps before) (addRoute cfg name kind) :=
  Prog.Within.bind Keeps.trans (onCluster_keeps (serviceName_untouched cfg))
    fun service => createRoute_keeps cfg name _ service

theorem getBaseRoute_keeps : Prog.Within (Keeps before) (getBaseRoute cfg) := by
  apply Prog.Within.bind Keeps.trans fun gw => Keeps.refl gw
  intro known
  cases known with
  | some host => exact Prog.Within.pure Keeps.refl host
  | none =>
      apply Prog.Within.bind Keeps.trans (onCluster_keeps (deploymentName_untouched cfg))
      intro name
      apply Prog.Within.bind Keeps.trans (onCluster_keeps (Cluster.getHost_untouched _))
      intro host gw h
      exact ⟨h.kept, h.own, h.fresh, h.logged⟩

theorem proxyHost_keeps (entityId : String) :
    Prog.Within (Keeps before) (proxyHost cfg entityId) := by
  unfold proxyHost
  split
  · exact getBaseRoute_keeps cfg
  · exact Prog.Within.bind Keeps.trans (addRoute_keeps cfg _ none)
      fun route => Prog.Within.pure Keeps.refl route.host

theorem beforeProxy_keeps (entityId : String) (proxyParams : Dict String String) :
    Prog.Within (Keeps before) (beforeProxy cfg entityId proxyParams) :=
  Prog.Within.bind Keeps.trans (proxyHost_keeps cfg entityId)
    fun _ => Prog.Within.pure Keeps.refl _

/-- Removing a route is safe only for a name of the list. -/
theorem removeRoute_tracks (h : Tracks before gw) {name : String} (hname : name ∈ gw.routes) :
    Tracks before ((removeRoute name).run gw).2 := by
  rcases Cluster.delItem_cases name gw.cluster with ⟨e, c, hrun, hc⟩ | ⟨c, hrun, hroutes, hlog⟩
  · rw [removeRoute, Prog.bind_of_error (onCluster_run hrun)]
    exact h.untouched hc
  · rw [removeRoute, Prog.bind_of_ok (onCluster_run hrun)]
    refine (h.deleted hname hroutes hlog).struck ?_
    show name ∉ c.routes.keys
    rw [hroutes]
    exact fun hmem => (Dict.mem_keys_erase.mp hmem).1 rfl

theorem deleteRoute_keeps (name : String) : Prog.Within (Keeps before) (deleteRoute name) := by
  intro gw h
  by_cases hname : name ∈ gw.routes
  · have hknown : (deleteRoute name).run gw =
        (onCluster (Cluster.contains name) >>= fun found =>
          if found then removeRoute name else pure ()).run gw := by
      rw [deleteRoute, Prog.gets_bind_run, decide_eq_true hname, if_pos rfl]
    rw [hknown]
    rcases (Cluster.contains_untouched name).run_cases gw.cluster with
      ⟨e, c, hrun, hc⟩ | ⟨found, c, hrun, hc⟩
    · rw [Prog.bind_of_error (onCluster_run hrun)]
      exact h.untouched hc
    · rw [Prog.bind_of_ok (onCluster_run hrun)]
      cases found with
      | false => exact h.untouched hc
      | true => exact removeRoute_tracks (h.untouched hc) hname
  · have hunknown : (deleteRoute name).run gw = (.ok (), gw) := by
      rw [deleteRoute, Prog.gets_bind_run, decide_eq_false hname]
      rfl
    rw [hunknown]
    exact h

theorem otherCommands_keeps (n : Nat) : Prog.Within (Keeps before) (otherCommands n) :=
  Prog.Within.forEach Keeps.refl Keeps.trans
    fun _ _ => onCluster_keeps Cluster.command_untouched

theorem createBaseRoute_keeps : Prog.Within (Keeps before) (createBaseRoute cfg) := by
  unfold createBaseRoute
  split
  · apply Prog.Within.bind Keeps.trans (onCluster_keeps (deploymentName_untouched cfg))
    intro name
    exact Prog.Within.bind Keeps.trans (addRoute_keeps cfg _ none)
      fun _ => Prog.Within.pure Keeps.refl ()
  · exact Prog.Within.pure Keeps.refl ()

theorem tlsCommands_keeps (n : Nat) : Prog.Within (Keeps before) (tlsCommands cfg n) := by
  unfold tlsCommands
  cases cfg.implementation with
  | plain => exact Prog.Within.pure Keeps.refl ()
  | tls superdomain => exact otherCommands_keeps n

theorem create_keeps : Prog.Within (Keeps before) (create cfg) :=
  Prog.Within.bind Keeps.trans (createBaseRoute_keeps cfg) fun _ => tlsCommands_keeps cfg _

theorem destroyRoute_tracks (h : Tracks before gw) {name : String} (hname : name ∈ gw.routes) :
    Tracks before ((destroyRoute name).run gw).2 ∧
      ((destroyRoute name).run gw).2.routes = gw.routes := by
  rcases (Cluster.contains_untouched name).run_cases gw.cluster with
    ⟨e, c, hrun, hc⟩ | ⟨found, c, hrun, hc⟩
  · rw [destroyRoute, Prog.bind_of_error (onCluster_run hrun)]
    exact ⟨h.untouched hc, rfl⟩
  · rw [destroyRoute, Prog.bind_of_ok (onCluster_run hrun)]
    cases found with
    | false => exact ⟨h.untouched hc, rfl⟩
    | true =>
        rcases Cluster.delItem_cases name c with ⟨e, d, hdel, hd⟩ | ⟨d, hdel, hroutes, hlog⟩
        · rw [if_pos rfl, onCluster_run hdel]
          exact ⟨h.untouched (Cluster.Untouched.trans _ _ _ hc hd), rfl⟩
        · rw [if_pos rfl, onCluster_run hdel]
          exact ⟨(h.untouched hc).deleted hname hroutes hlog, rfl⟩

/-- The loop of `destroy`, whichever of its commands fail. -/
theorem destroyRoutes_tracks (names : List String) (h : Tracks before gw)
    (hnames : ∀ name ∈ names, name ∈ gw.routes) :
    Tracks before ((Prog.forEach destroyRoute names).run gw).2 := by
  induction names generalizing gw with
  | nil => exact h
  | cons name names ih =>
      obtain ⟨hnext, hroutes⟩ := destroyRoute_tracks h (hnames name List.mem_cons_self)
      rw [Prog.forEach]
      cases hrun : (destroyRoute name).run gw with
      | mk r gw' =>
          rw [hrun] at hnext hroutes
          cases r with
          | error e =>
              rw [Prog.bind_of_error hrun]
              exact hnext
          | ok u =>
              rw [Prog.bind_of_ok hrun]
              refine ih hnext fun other hother => ?_
              rw [hroutes]
              exact hnames other (List.mem_cons_of_mem name hother)

/-- One operation, whichever of its commands fail. -/
theorem perform_keeps (op : Op) : Prog.Within (Keeps before) (perform cfg op) := by
  cases op with
  | create => exact create_keeps cfg
  | beforeProxy entityId proxyParams =>
      exact Prog.Within.bind Keeps.trans (beforeProxy_keeps cfg entityId proxyParams)
        fun _ => Prog.Within.pure Keeps.refl ()
  | addRoute name kind =>
      exact Prog.Within.bind Keeps.trans (addRoute_keeps cfg name kind)
        fun _ => Prog.Within.pure Keeps.refl ()
  | deleteRoute name => exact deleteRoute_keeps name
  | onServiceDelete entityId =>
      show Prog.Within (Keeps before) (onServiceDelete cfg entityId)
      unfold onServiceDelete
      split
      · exact Prog.Within.pure Keeps.refl ()
      · exact deleteRoute_keeps _

theorem Tracks.withFailures (h : Tracks before gw) (failures : List Bool) :
    Tracks before (gw.withFailures failures) := h.untouched ⟨rfl, rfl⟩

theorem step_tracks (call : Call) (gw : Apicast) (h : Tracks before gw) :
    Tracks before (step cfg call gw) :=
  perform_keeps cfg call.op _ (h.withFailures call.failures)

theorem init_tracks (before : Dict String Route) (toDelete : List String) :
    Tracks before (init before toDelete) where
  kept := fun _ _ => rfl
  own := fun _ => Or.inl
  fresh := nofun
  logged := nofun

/-- The agreement after any run. -/
theorem run_tracks (before : Dict String Route) (toDelete : List String) (calls : List Call) :
    Tracks before (run (step cfg) calls (init before toDelete)) :=
  run_invariant (step_tracks cfg) calls (init_tracks before toDelete)

/-! ## Destroying without failures -/

/-- The routes of these names are gone, and nothing else changed. -/
structure Removed (names : List String) (c c' : Cluster) : Prop where
  quiet : c'.failures = []
  routes : ∀ name, c'.routes.get? name = if name ∈ names then none else c.routes.get? name
  log : ∀ event ∈ c'.log, event ∈ c.log ∨ ∃ name ∈ names, event = .deleted name

theorem Removed.cons {name : String} {names : List String} {c c' c'' : Cluster}
    (h : Removed [name] c c') (hs : Removed names c' c'') : Removed (name :: names) c c'' where
  quiet := hs.quiet
  routes := by
    intro other
    rw [hs.routes, h.routes]
    by_cases hmem : other ∈ names
    · simp [hmem]
    · simp [hmem]
  log := by
    intro event hevent
    rcases hs.log event hevent with hbefore | ⟨other, hmem, heq⟩
    · rcases h.log event hbefore with hold | ⟨other, hmem, heq⟩
      · exact Or.inl hold
      · rw [List.mem_singleton] at hmem
        exact Or.inr ⟨name, List.mem_cons_self, hmem ▸ heq⟩
    · exact Or.inr ⟨other, List.mem_cons_of_mem name hmem, heq⟩

theorem command_run_of_quiet {c : Cluster} (hc : c.failures = []) :
    Cluster.command.run c = (.ok (), c) := by
  simp only [Cluster.command, hc]

theorem contains_run_of_quiet (name : String) {c : Cluster} (hc : c.failures = []) :
    (Cluster.contains name).run c = (.ok (decide (name ∈ c.routes.keys)), c) :=
  Prog.bind_of_ok (command_run_of_quiet hc)

theorem delItem_run_of_quiet {name : String} {c : Cluster} (hc : c.failures = [])
    (hname : name ∈ c.routes.keys) :
    (Cluster.delItem name).run c =
      (.ok (), { c with routes := c.routes.erase name, log := c.log ++ [.deleted name] }) := by
  rw [Cluster.delItem, Prog.bind_of_ok (contains_run_of_quiet name hc), decide_eq_true hname,
    if_pos rfl]
  exact Prog.bind_of_ok (command_run_of_quiet hc)

theorem destroyRoute_run (name : String) (hgw : gw.cluster.failures = []) :
    ∃ c, (destroyRoute name).run gw = (.ok (), { gw with cluster := c }) ∧
      Removed [name] gw.cluster c := by
  have hfound := onCluster_run (contains_run_of_quiet name hgw)
  by_cases hname : name ∈ gw.cluster.routes.keys
  · have hdelete := onCluster_run (delItem_run_of_quiet hgw hname)
    have hrun : (destroyRoute name).run gw = (onCluster (Cluster.delItem name)).run gw := by
      rw [destroyRoute, Prog.bind_of_ok hfound, decide_eq_true hname, if_pos rfl]
    refine ⟨_, hrun.trans hdelete, hgw, ?_, ?_⟩
    · intro other
      simp only [Dict.get?_erase, List.mem_singleton]
    · intro event hevent
      rcases List.mem_append.mp hevent with hold | hlast
      · exact Or.inl hold
      · exact Or.inr ⟨name, List.mem_singleton_self name, List.mem_singleton.mp hlast⟩
  · refine ⟨gw.cluster, ?_, hgw, ?_, fun event hevent => Or.inl hevent⟩
    · rw [destroyRoute, Prog.bind_of_ok hfound, decide_eq_false hname]
      rfl
    · intro other
      by_cases heq : other = name
      · simp [heq, Dict.get?_eq_none_iff.mpr hname]
      · simp [heq]

theorem destroyRoutes_run (names : List String) (hgw : gw.cluster.failures = []) :
    ∃ c, (Prog.forEach destroyRoute names).run gw = (.ok (), { gw with cluster := c }) ∧
      Removed names gw.cluster c := by
  induction names generalizing gw with
  | nil =>
      exact ⟨gw.cluster, rfl, hgw, fun name => by simp, fun event hevent => Or.inl hevent⟩
  | cons name names ih =>
      obtain ⟨c, hrun, hremoved⟩ := destroyRoute_run name hgw
      obtain ⟨c', hruns, hremoveds⟩ := @ih { gw with cluster := c } hremoved.quiet
      refine ⟨c', ?_, hremoved.cons hremoveds⟩
      rw [Prog.forEach, Prog.bind_of_ok hrun]
      exact hruns

theorem otherCommands_run (n : Nat) (hgw : gw.cluster.failures = []) :
    (otherCommands n).run gw = (.ok (), gw) := by
  unfold otherCommands
  induction List.range n with
  | nil => rfl
  | cons _ _ ih =>
      rw [Prog.forEach, Prog.bind_of_ok (onCluster_run (command_run_of_quiet hgw))]
      exact ih

theorem tlsCommands_run (n : Nat) (hgw : gw.cluster.failures = []) :
    (tlsCommands cfg n).run gw = (.ok (), gw) := by
  unfold tlsCommands
  cases cfg.implementation with
  | plain => rfl
  | tls superdomain => exact otherCommands_run n hgw

/-- `destroy` removes what the list names. -/
theorem destroy_run (hgw : gw.cluster.failures = []) :
    ∃ c, (destroy cfg).run gw = (.ok (), { gw with cluster := c }) ∧
      Removed gw.routes gw.cluster c := by
  obtain ⟨c, hrun, hremoved⟩ := destroyRoutes_run gw.routes hgw
  refine ⟨c, ?_, hremoved⟩
  rw [destroy, Prog.gets_bind_run, Prog.bind_of_ok hrun,
    Prog.gets_bind_run, Prog.bind_of_ok (otherCommands_run _ hremoved.quiet)]
  exact tlsCommands_run cfg 1 hremoved.quiet

/-- A destroyed gateway leaves the routes that were there before it. -/
theorem Tracks.same_of_removed (h : Tracks before gw) {c : Cluster}
    (hc : Removed gw.routes gw.cluster c) : Dict.Same c.routes before := by
  intro name
  rw [hc.routes]
  by_cases hmem : name ∈ before.keys
  · rw [if_neg fun hname => h.fresh name hname hmem]
    exact h.kept name hmem
  · rw [Dict.get?_eq_none_iff.mpr hmem]
    by_cases hname : name ∈ gw.routes
    · exact if_pos hname
    · rw [if_neg hname, Dict.get?_eq_none_iff]
      exact fun hkeys => (h.own name hkeys).elim hmem hname

theorem Tracks.log_of_removed (h : Tracks before gw) {c : Cluster}
    (hc : Removed gw.routes gw.cluster c) : ∀ event ∈ c.log, event.name ∉ before.keys := by
  intro event hevent
  rcases hc.log event hevent with hold | ⟨name, hname, heq⟩
  · exact h.logged event hold
  · rw [heq]
    exact h.fresh name hname

/-- Whatever is done with a gateway and whichever commands fail on the way, a `destroy` without
failures leaves none of the routes that were created, and no route of the cluster's own was deleted
or changed. -/
theorem routes_neither_leaked_nor_stolen (before : Dict String Route) (toDelete : List String)
    (calls : List Call) :
    let gw := (run (step cfg) calls (init before toDelete)).withFailures []
    let destroyed := (destroy cfg).run gw
    destroyed.1 = .ok () ∧
      (∀ name, .created name ∈ destroyed.2.cluster.log →
        name ∉ destroyed.2.cluster.routes.keys) ∧
      (∀ name ∈ before.keys, .deleted name ∉ destroyed.2.cluster.log ∧
        destroyed.2.cluster.routes.get? name = before.get? name) := by
  intro gw destroyed
  have htracks : Tracks before gw := (run_tracks cfg before toDelete calls).withFailures []
  have hquiet : gw.cluster.failures = [] := rfl
  obtain ⟨c, hrun, hremoved⟩ := destroy_run cfg hquiet
  have hdestroyed : destroyed = (.ok (), { gw with cluster := c }) := hrun
  have hsame : Dict.Same c.routes before := htracks.same_of_removed hremoved
  have hlog := htracks.log_of_removed hremoved
  rw [hdestroyed]
  refine ⟨rfl, ?_, ?_⟩
  · intro name hcreated hkeys
    exact hlog _ hcreated ((hsame.mem_keys_iff name).mp hkeys)
  · intro name hname
    exact ⟨fun hdeleted => hlog _ hdeleted hname, hsame name⟩

end

end ThreescaleTests.Gateways.OpenshiftApicast
