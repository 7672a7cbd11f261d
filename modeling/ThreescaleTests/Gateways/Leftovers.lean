import ThreescaleTests.Gateways.DeployedRoutes

/-!
# What a destroyed gateway leaves

Whatever was done with a gateway and whichever requests failed on the way, a `destroy`
without failures leaves the routes as they were before the gateway. Of the operator's class it
leaves at most an APIcast that was created but could not be read again; of the template's class
the secret with the portal's credentials, exactly if one of the two objects of the template is
missing.
-/

namespace ThreescaleTests.Gateways.Deployed

open Library OpenshiftApicast

/-! ## Requests -/

/-- What a program does to the project. -/
def OnProject (R : Project → Project → Prop) (s t : Life) : Prop := R s.project t.project

theorem onGateway_within {α : Type} {R : Project → Project → Prop} (hrefl : ∀ p, R p p)
    (m : Prog Apicast α) : Prog.Within (OnProject R) (onGateway m) := fun s => hrefl s.project

theorem command_cases (s : Life) :
    (∃ t, command.run s = (.ok (), t) ∧ t.project = s.project) ∨
      ∃ e t, command.run s = (.error e, t) ∧ t.project = s.project := by
  cases hrun : command.run s with
  | mk r t =>
      have hproject : t.project = s.project :=
        (congrArg (fun x => x.2.project) hrun).symm
      cases r with
      | ok u => exact .inl ⟨t, rfl, hproject⟩
      | error e => exact .inr ⟨e, t, rfl, hproject⟩

theorem create_cases (r : Resource) (s : Life) :
    (∃ t, (create r).run s = (.ok (), t) ∧ r ∉ s.project.resources ∧
      t.project = { s.project with resources := s.project.resources ++ [r] }) ∨
      ∃ e t, (create r).run s = (.error e, t) ∧ t.project = s.project := by
  rcases command_cases s with ⟨t, hrun, hproject⟩ | ⟨e, t, hrun, hproject⟩
  · by_cases hr : r ∈ t.project.resources
    · refine .inr ⟨refused, t, ?_, hproject⟩
      rw [create, Prog.bind_of_ok hrun]
      simp only [onProject, Prog.focus_run, Project.create, if_pos hr]
    · refine .inl ⟨{ t with project :=
        { t.project with resources := t.project.resources ++ [r] } }, ?_, ?_, ?_⟩
      · rw [create, Prog.bind_of_ok hrun]
        simp only [onProject, Prog.focus_run, Project.create, if_neg hr]
      · rwa [← hproject]
      · simp only [hproject]
  · exact .inr ⟨e, t, Prog.bind_of_error hrun, hproject⟩

theorem filter_ne_of_not_mem {r : Resource} {rs : List Resource} (h : r ∉ rs) :
    rs.filter (· ≠ r) = rs := by
  rw [List.filter_eq_self]
  intro r' hr'
  exact decide_eq_true fun heq => h (heq ▸ hr')

theorem delete_cases (r : Resource) (ignoreNotFound : Bool) (s : Life) :
    (∃ t, (delete r ignoreNotFound).run s = (.ok (), t) ∧
      (ignoreNotFound = false → r ∈ s.project.resources) ∧
      t.project = { s.project with resources := s.project.resources.filter (· ≠ r) }) ∨
      ∃ e t, (delete r ignoreNotFound).run s = (.error e, t) ∧ t.project = s.project := by
  rcases command_cases s with ⟨t, hrun, hproject⟩ | ⟨e, t, hrun, hproject⟩
  · by_cases hr : r ∈ t.project.resources
    · refine .inl ⟨{ t with project :=
        { t.project with resources := t.project.resources.filter (· ≠ r) } }, ?_, ?_, ?_⟩
      · rw [delete, Prog.bind_of_ok hrun]
        simp only [onProject, Prog.focus_run, Project.delete, if_pos hr]
      · exact fun _ => hproject ▸ hr
      · simp only [hproject]
    · cases ignoreNotFound with
      | true =>
          refine .inl ⟨t, ?_, nofun, ?_⟩
          · rw [delete, Prog.bind_of_ok hrun]
            simp only [onProject, Prog.focus_run, Project.delete, if_neg hr, if_true]
          · rw [hproject] at hr
            rw [filter_ne_of_not_mem hr, hproject]
      | false =>
          refine .inr ⟨refused, t, ?_, hproject⟩
          rw [delete, Prog.bind_of_ok hrun]
          simp only [onProject, Prog.focus_run, Project.delete, if_neg hr, Bool.false_eq_true,
            if_false]
  · exact .inr ⟨e, t, Prog.bind_of_error hrun, hproject⟩

/-- The property finds a deployment that is there, or says that there is a deployment config. -/
theorem deployment_run (name : String) (s : Life) :
    ∃ found t, (deployment name).run s = (.ok found, t) ∧ t.project = s.project ∧
      (found = ⟨.deploymentConfig, name⟩ ∨
        found = ⟨.deployment, name⟩ ∧ found ∈ s.project.resources) := by
  unfold deployment
  rcases command_cases s with ⟨t, hrun, hproject⟩ | ⟨e, t, hrun, hproject⟩
  · by_cases hfound : (⟨.deployment, name⟩ : Resource) ∈ t.project.resources
    · refine ⟨_, t, Prog.handle_of_ok ?_, hproject, .inr ⟨rfl, hproject ▸ hfound⟩⟩
      rw [Prog.bind_of_ok hrun, Prog.gets_bind_run, if_pos hfound]
      rfl
    · refine ⟨_, t, (Prog.handle_of_error (?_ : _ = (Except.error refused, t))).trans rfl, hproject,
        .inl rfl⟩
      rw [Prog.bind_of_ok hrun, Prog.gets_bind_run, if_neg hfound]
      rfl
  · refine ⟨_, t, (Prog.handle_of_error (?_ : _ = (Except.error e, t))).trans rfl, hproject,
      .inl rfl⟩
    exact Prog.bind_of_error hrun

/-! ## Registered resources -/

section

variable (cfg : Config) (before : List Resource)

namespace OperatorApicast

/-- Beside what was there before the gateway there is what it has written down, and its
APIcast. -/
structure Owned (p : Project) : Prop where
  kept : ∀ r ∈ before, r ∈ p.resources
  own : ∀ r ∈ p.resources, r ∈ before ∨ r ∈ p.toDelete ∨ r = apicast cfg
  registered : ∀ r ∈ p.toDelete, r.kind = .secret ∧ r ∉ before
  held : p.apicast = true → apicast cfg ∉ before

variable {cfg before} {p : Project}

theorem Owned.register (h : Owned cfg before p) {r : Resource} (hkind : r.kind = .secret)
    (hr : r ∉ p.resources) :
    Owned cfg before ⟨p.resources ++ [r], p.toDelete ++ [r], p.apicast⟩ where
  kept r' hr' := List.mem_append_left _ (h.kept r' hr')
  own r' hr' := by
    rcases List.mem_append.mp hr' with hold | hnew
    · rcases h.own r' hold with hbefore | hlist | heq
      · exact .inl hbefore
      · exact .inr (.inl (List.mem_append_left _ hlist))
      · exact .inr (.inr heq)
    · exact .inr (.inl (List.mem_append_right _ hnew))
  registered r' hr' := by
    rcases List.mem_append.mp hr' with hold | hnew
    · exact h.registered r' hold
    · rw [List.mem_singleton] at hnew
      subst hnew
      exact ⟨hkind, fun hbefore => hr (h.kept r' hbefore)⟩
  held := h.held

theorem Owned.commit (h : Owned cfg before p) (hr : apicast cfg ∉ p.resources) (held : Bool) :
    Owned cfg before ⟨p.resources ++ [apicast cfg], p.toDelete, p.apicast || held⟩ where
  kept r hmem := List.mem_append_left _ (h.kept r hmem)
  own r hmem := by
    rcases List.mem_append.mp hmem with hold | hnew
    · exact h.own r hold
    · exact .inr (.inr (List.mem_singleton.mp hnew))
  registered := h.registered
  held _ hbefore := hr (h.kept _ hbefore)

theorem Owned.delete (h : Owned cfg before p) {r : Resource} (hr : r ∉ before) :
    Owned cfg before { p with resources := p.resources.filter (· ≠ r) } where
  kept r' hmem := by
    refine List.mem_filter.mpr ⟨h.kept r' hmem, decide_eq_true fun heq => ?_⟩
    exact hr (heq ▸ hmem)
  own r' hmem := h.own r' (List.mem_of_mem_filter hmem)
  registered := h.registered
  held := h.held

/-- What keeps the resources owned. -/
def Keeps (cfg : Config) (before : List Resource) (p q : Project) : Prop :=
  Owned cfg before p → Owned cfg before q

theorem keeps_refl (s : Life) : OnProject (Keeps cfg before) s s := id

theorem keeps_trans (s t u : Life) (h : OnProject (Keeps cfg before) s t)
    (h' : OnProject (Keeps cfg before) t u) : OnProject (Keeps cfg before) s u :=
  fun hs => h' (h hs)

theorem keeps_of_eq {s t : Life} (h : t.project = s.project) :
    OnProject (Keeps cfg before) s t := fun hs => by rwa [h]

theorem gateway_keeps {α : Type} (m : Prog Apicast α) :
    Prog.Within (OnProject (Keeps cfg before)) (onGateway m) := onGateway_within (fun _ => id) m

theorem deployment_keeps (name : String) :
    Prog.Within (OnProject (Keeps cfg before)) (deployment name) := by
  intro s
  obtain ⟨found, t, hrun, hproject, -⟩ := deployment_run name s
  rw [hrun]
  exact keeps_of_eq hproject

theorem createSecret_keeps {r : Resource} (hkind : r.kind = .secret) :
    Prog.Within (OnProject (Keeps cfg before)) (createSecret r) := by
  intro s hs
  rcases create_cases r s with ⟨t, hrun, hr, hproject⟩ | ⟨e, t, hrun, hproject⟩
  · rw [createSecret, Prog.bind_of_ok hrun]
    have hregistered := hs.register hkind hr
    show Owned cfg before { t.project with toDelete := t.project.toDelete ++ [r] }
    rw [hproject]
    exact hregistered
  · rw [createSecret, Prog.bind_of_error hrun, hproject]
    exact hs

theorem commit_keeps : Prog.Within (OnProject (Keeps cfg before)) (commit cfg) := by
  intro s hs
  rcases create_cases (apicast cfg) s with ⟨t, hrun, hr, hproject⟩ | ⟨e, t, hrun, hproject⟩
  · rw [commit, Prog.bind_of_ok hrun]
    rcases command_cases t with ⟨u, hread, hproject'⟩ | ⟨e, u, hread, hproject'⟩
    · rw [Prog.bind_of_ok hread]
      have hcommitted := hs.commit hr true
      rw [Bool.or_true] at hcommitted
      show Owned cfg before { u.project with apicast := true }
      rw [hproject', hproject]
      exact hcommitted
    · -- the APIcast is there, but the gateway does not hold it
      rw [Prog.bind_of_error hread, hproject', hproject]
      have hcommitted := hs.commit hr false
      rwa [Bool.or_false] at hcommitted
  · rw [commit, Prog.bind_of_error hrun, hproject]
    exact hs

theorem delete_keeps {r : Resource} (hr : r ∉ before) (ignoreNotFound : Bool) :
    Prog.Within (OnProject (Keeps cfg before)) (delete r ignoreNotFound) := by
  intro s hs
  rcases delete_cases r ignoreNotFound s with ⟨t, hrun, -, hproject⟩ | ⟨e, t, hrun, hproject⟩
  · rw [hrun, hproject]
    exact hs.delete hr
  · rw [hrun, hproject]
    exact hs

theorem deleteAll_keeps {rs : List Resource} (hrs : ∀ r ∈ rs, r ∉ before) :
    Prog.Within (OnProject (Keeps cfg before)) (Prog.forEach (fun r => delete r true) rs) :=
  Prog.Within.forEach keeps_refl keeps_trans fun r hr => delete_keeps (hrs r hr) true

theorem destroyRegistered_keeps :
    Prog.Within (OnProject (Keeps cfg before)) destroyRegistered := by
  intro s hs
  have hrest : Prog.Within (OnProject (Keeps cfg before))
      (onGateway (Prog.forEach destroyRoute s.gateway.routes) >>= fun _ =>
        Prog.forEach (fun r => delete r true) s.project.toDelete) :=
    Prog.Within.bind keeps_trans (gateway_keeps _) fun _ =>
      deleteAll_keeps fun r hr => (hs.registered r hr).2
  exact hrest s hs

theorem destroy_keeps : Prog.Within (OnProject (Keeps cfg before)) (destroy cfg) := by
  intro s hs
  rw [destroy, Prog.gets_bind_run]
  split
  next h =>
    exact Prog.Within.bind keeps_trans (delete_keeps (hs.held h) true)
      (fun _ => destroyRegistered_keeps) s hs
  next => exact destroyRegistered_keeps s hs

theorem perform_keeps (op : Op) :
    Prog.Within (OnProject (Keeps cfg before)) (perform cfg op) := by
  cases op with
  | create =>
      refine Prog.Within.bind keeps_trans (createSecret_keeps rfl) fun _ => ?_
      refine Prog.Within.bind keeps_trans commit_keeps fun _ => ?_
      refine Prog.Within.bind keeps_trans (deployment_keeps _) fun _ => ?_
      exact Prog.Within.bind keeps_trans (gateway_keeps _) fun _ => gateway_keeps _
  | destroy => exact destroy_keeps
  | routes op => exact gateway_keeps _
  | connectOpenTelemetry commands =>
      exact Prog.Within.bind keeps_trans (createSecret_keeps rfl) fun _ => gateway_keeps _
  | commands n => exact gateway_keeps _

theorem run_owned (routes : Dict String Route) (calls : List Call) :
    Owned cfg before (run (step (perform cfg)) calls (init routes before)).project := by
  refine @run_invariant Life Call (step (perform cfg)) (fun s => Owned cfg before s.project)
    (fun call s hs => perform_keeps call.op (s.withFailures call.failures) hs) calls _ ?_
  exact ⟨fun _ => id, fun _ => .inl, nofun, nofun⟩

end OperatorApicast

end

/-! ## Destroying without failures -/

def Life.Quiet (s : Life) : Prop := s.gateway.cluster.failures = []

theorem Life.quiet_withFailures (s : Life) : (s.withFailures []).Quiet := rfl

section

variable {s : Life}

theorem command_run_of_quiet (hs : s.Quiet) : command.run s = (.ok (), s) := by
  have hrun := onCluster_run (OpenshiftApicast.command_run_of_quiet hs)
  rw [command, onGateway, Prog.focus_run, hrun]

def Project.without (p : Project) (rs : List Resource) : Project :=
  { p with resources := p.resources.filter (· ∉ rs) }

theorem Project.without_nil (p : Project) : p.without [] = p := by
  simp [Project.without]

theorem Project.without_without (p : Project) (rs rs' : List Resource) :
    (p.without rs).without rs' = p.without (rs ++ rs') := by
  simp only [Project.without, List.filter_filter, List.mem_append, not_or, Bool.decide_and,
    Bool.and_comm]

theorem Project.mem_without {p : Project} {rs : List Resource} {r : Resource} :
    r ∈ (p.without rs).resources ↔ r ∈ p.resources ∧ r ∉ rs := by
  simp [Project.without]

theorem delete_run_of_quiet (hs : s.Quiet) {r : Resource} {ignoreNotFound : Bool}
    (hr : ignoreNotFound = true ∨ r ∈ s.project.resources) :
    (delete r ignoreNotFound).run s = (.ok (), { s with project := s.project.without [r] }) := by
  have hwithout : { s.project with resources := s.project.resources.filter (· ≠ r) } =
      s.project.without [r] := by simp [Project.without]
  rw [delete, Prog.bind_of_ok (command_run_of_quiet hs), ← hwithout]
  by_cases hmem : r ∈ s.project.resources
  · simp only [onProject, Prog.focus_run, Project.delete, if_pos hmem]
  · obtain rfl : ignoreNotFound = true := hr.resolve_right hmem
    simp only [onProject, Prog.focus_run, Project.delete, if_neg hmem, if_true,
      filter_ne_of_not_mem hmem]

theorem delete_run_of_missing (hs : s.Quiet) {r : Resource} (hr : r ∉ s.project.resources) :
    (delete r false).run s = (.error refused, s) := by
  rw [delete, Prog.bind_of_ok (command_run_of_quiet hs)]
  simp only [onProject, Prog.focus_run, Project.delete, if_neg hr, Bool.false_eq_true, if_false]

theorem deleteAll_run_of_quiet (hs : s.Quiet) (rs : List Resource) :
    (Prog.forEach (fun r => delete r true) rs).run s =
      (.ok (), { s with project := s.project.without rs }) := by
  induction rs generalizing s with
  | nil =>
      rw [Project.without_nil]
      rfl
  | cons r rs ih =>
      have hnext : Life.Quiet { s with project := s.project.without [r] } := hs
      rw [Prog.forEach, Prog.bind_of_ok (delete_run_of_quiet hs (.inl rfl)), ih hnext]
      simp only [Project.without_without, List.singleton_append]

theorem destroyRegistered_run (hs : s.Quiet) :
    ∃ gateway, destroyRegistered.run s =
        (.ok (), ⟨gateway, s.project.without s.project.toDelete⟩) ∧
      Removed s.gateway.routes s.gateway.cluster gateway.cluster := by
  obtain ⟨c, hrun, hremoved⟩ := destroyRoutes_run s.gateway.routes hs
  refine ⟨{ s.gateway with cluster := c }, ?_, hremoved⟩
  have hroutes : (onGateway (Prog.forEach destroyRoute s.gateway.routes)).run s =
      (.ok (), ⟨{ s.gateway with cluster := c }, s.project⟩) := by
    rw [onGateway, Prog.focus_run, hrun]
  rw [destroyRegistered, Prog.gets_bind_run, id, Prog.bind_of_ok hroutes]
  exact deleteAll_run_of_quiet (by exact hremoved.quiet) s.project.toDelete

theorem OperatorApicast.destroy_run (cfg : Config) (hs : s.Quiet) :
    ∃ gateway, (OperatorApicast.destroy cfg).run s =
        (.ok (), ⟨gateway, s.project.without (if s.project.apicast then
          OperatorApicast.apicast cfg :: s.project.toDelete else s.project.toDelete)⟩) ∧
      Removed s.gateway.routes s.gateway.cluster gateway.cluster := by
  rw [OperatorApicast.destroy, Prog.gets_bind_run]
  split
  next =>
    obtain ⟨gateway, hrun, hremoved⟩ :=
      @destroyRegistered_run { s with project := s.project.without [apicast cfg] } hs
    refine ⟨gateway, ?_, hremoved⟩
    rw [Prog.bind_of_ok (delete_run_of_quiet hs (.inl rfl)), hrun, Project.without_without]
    rfl
  next => exact destroyRegistered_run hs

/-- All that was there before a gateway of the operator stays, its routes included, whatever
happened to the gateway, and all else goes but an APIcast that it never came to hold. -/
theorem OperatorApicast.destroy_leaves (cfg : Config) (routes : Dict String Route)
    (before : List Resource) (calls : List Call) :
    let s := (run (step (OperatorApicast.perform cfg)) calls (init routes before)).withFailures []
    let destroyed := (OperatorApicast.destroy cfg).run s
    destroyed.1 = .ok () ∧ Dict.Same destroyed.2.gateway.cluster.routes routes ∧
      ∀ r, r ∈ destroyed.2.project.resources ↔ r ∈ before ∨
        r = OperatorApicast.apicast cfg ∧ r ∈ s.project.resources ∧ s.project.apicast = false := by
  intro s destroyed
  have howned : OperatorApicast.Owned cfg before s.project :=
    OperatorApicast.run_owned routes calls
  have htracks : Tracks routes s.gateway :=
    (run_tracks (OperatorApicast.perform_routes cfg) before calls).withFailures []
  obtain ⟨gateway, hrun, hremoved⟩ := OperatorApicast.destroy_run cfg
    (Life.quiet_withFailures (run (step (OperatorApicast.perform cfg)) calls (init routes before)))
  have hdestroyed : destroyed = (.ok (), ⟨gateway, s.project.without (if s.project.apicast then
      OperatorApicast.apicast cfg :: s.project.toDelete else s.project.toDelete)⟩) := hrun
  rw [hdestroyed]
  refine ⟨rfl, htracks.same_of_removed hremoved, fun r => ?_⟩
  rw [Project.mem_without]
  constructor
  · rintro ⟨hthere, hnot⟩
    rcases howned.own r hthere with hbefore | hlist | rfl
    · exact .inl hbefore
    · split at hnot
      · exact absurd (List.mem_cons_of_mem _ hlist) hnot
      · exact absurd hlist hnot
    · cases hheld : s.project.apicast with
      | true =>
          rw [hheld, if_pos rfl] at hnot
          exact absurd List.mem_cons_self hnot
      | false => exact .inr ⟨rfl, hthere, rfl⟩
  · rintro (hbefore | ⟨rfl, hthere, hheld⟩)
    · refine ⟨howned.kept r hbefore, ?_⟩
      have hlist : r ∉ s.project.toDelete := fun h => (howned.registered r h).2 hbefore
      split
      next hheld =>
        refine fun h => (List.mem_cons.mp h).elim (fun heq => ?_) hlist
        exact howned.held hheld (heq ▸ hbefore)
      next => exact hlist
    · refine ⟨hthere, ?_⟩
      rw [hheld, if_neg Bool.false_ne_true]
      intro hlist
      cases (howned.registered _ hlist).1

/-- The APIcast was created, but not read again: the gateway leaves it. -/
example : OperatorApicast.apicast exampleConfig ∈ ((OperatorApicast.destroy exampleConfig).run
    ((run (step (OperatorApicast.perform exampleConfig)) [⟨.create, [false, false, true]⟩]
      (init .empty [])).withFailures [])).2.project.resources := by decide

end

/-! ## Resources by name -/

namespace TemplateApicast

/-- None of the resources has a name of the gateway's. -/
def Fresh (cfg : Config) (before : List Resource) : Prop :=
  secret cfg ∉ before ∧ service cfg ∉ before ∧ deploymentConfig cfg ∉ before ∧
    ⟨.deployment, cfg.name⟩ ∉ before

/-- The objects of the template are there only with the secret that they refer to. -/
structure Placed (cfg : Config) (before : List Resource) (p : Project) : Prop where
  kept : ∀ r ∈ before, r ∈ p.resources
  own : ∀ r ∈ p.resources, r ∈ before ∨ r = secret cfg ∨ r = service cfg ∨
    r = deploymentConfig cfg
  credentials : service cfg ∈ p.resources ∨ deploymentConfig cfg ∈ p.resources →
    secret cfg ∈ p.resources
  unregistered : p.toDelete = []

section

variable {cfg : Config} {before : List Resource} {p : Project}

theorem Placed.create_secret (h : Placed cfg before p) :
    Placed cfg before { p with resources := p.resources ++ [secret cfg] } where
  kept r hr := List.mem_append_left _ (h.kept r hr)
  own r hr := by
    rcases List.mem_append.mp hr with hold | hnew
    · exact h.own r hold
    · exact .inr (.inl (List.mem_singleton.mp hnew))
  credentials _ := List.mem_append_right _ (List.mem_singleton_self _)
  unregistered := h.unregistered

theorem Placed.create (h : Placed cfg before p) (hsecret : secret cfg ∈ p.resources)
    {r : Resource} (hr : r = service cfg ∨ r = deploymentConfig cfg) :
    Placed cfg before { p with resources := p.resources ++ [r] } where
  kept r' hr' := List.mem_append_left _ (h.kept r' hr')
  own r' hr' := by
    rcases List.mem_append.mp hr' with hold | hnew
    · exact h.own r' hold
    · rw [List.mem_singleton.mp hnew]
      exact .inr (.inr hr)
  credentials _ := List.mem_append_left _ hsecret
  unregistered := h.unregistered

theorem Placed.delete (h : Placed cfg before p) {r : Resource} (hr : r ∉ before)
    (hlast : r = secret cfg → service cfg ∉ p.resources ∧ deploymentConfig cfg ∉ p.resources) :
    Placed cfg before { p with resources := p.resources.filter (· ≠ r) } where
  kept r' hr' := by
    refine List.mem_filter.mpr ⟨h.kept r' hr', decide_eq_true fun heq => ?_⟩
    exact hr (heq ▸ hr')
  own r' hr' := h.own r' (List.mem_of_mem_filter hr')
  credentials hobject := by
    have hobject' := hobject.imp List.mem_of_mem_filter List.mem_of_mem_filter
    refine List.mem_filter.mpr ⟨h.credentials hobject', decide_eq_true fun heq => ?_⟩
    obtain ⟨hservice, hconfig⟩ := hlast heq.symm
    exact hobject'.elim hservice hconfig
  unregistered := h.unregistered

/-- What keeps the resources placed. -/
def Keeps (cfg : Config) (before : List Resource) (p q : Project) : Prop :=
  Placed cfg before p → Placed cfg before q

/-- What keeps them placed with the secret there. -/
def KeepsWith (cfg : Config) (before : List Resource) (p q : Project) : Prop :=
  Placed cfg before p ∧ secret cfg ∈ p.resources → Placed cfg before q ∧ secret cfg ∈ q.resources

theorem keepsWith_refl (s : Life) : OnProject (KeepsWith cfg before) s s := id

theorem keepsWith_trans (s t u : Life) (h : OnProject (KeepsWith cfg before) s t)
    (h' : OnProject (KeepsWith cfg before) t u) : OnProject (KeepsWith cfg before) s u :=
  fun hs => h' (h hs)

theorem create_keepsWith {r : Resource} (hr : r = service cfg ∨ r = deploymentConfig cfg) :
    Prog.Within (OnProject (KeepsWith cfg before)) (Deployed.create r) := by
  intro s hs
  rcases create_cases r s with ⟨t, hrun, -, hproject⟩ | ⟨e, t, hrun, hproject⟩
  · rw [hrun, hproject]
    exact ⟨hs.1.create hs.2 hr, List.mem_append_left _ hs.2⟩
  · rw [hrun, hproject]
    exact hs

theorem createAll_keepsWith {rs : List Resource}
    (hrs : ∀ r ∈ rs, r = service cfg ∨ r = deploymentConfig cfg) :
    Prog.Within (OnProject (KeepsWith cfg before)) (createAll rs) := by
  induction rs with
  | nil => exact Prog.Within.pure keepsWith_refl true
  | cons r rs ih =>
      refine Prog.Within.bind keepsWith_trans (Prog.Within.handle keepsWith_trans ?_ ?_) ?_
      · exact Prog.Within.bind keepsWith_trans (create_keepsWith (hrs r List.mem_cons_self))
          fun _ => Prog.Within.pure keepsWith_refl true
      · exact fun _ => Prog.Within.pure keepsWith_refl false
      · intro created
        refine Prog.Within.bind keepsWith_trans
          (ih fun r' hr' => hrs r' (List.mem_cons_of_mem r hr')) ?_
        exact fun rest => Prog.Within.pure keepsWith_refl (created && rest)

theorem newApp_keepsWith : Prog.Within (OnProject (KeepsWith cfg before))
    (newApp [deploymentConfig cfg, service cfg]) := by
  refine Prog.Within.bind keepsWith_trans (onGateway_within (fun _ => id) _) fun _ => ?_
  refine Prog.Within.bind keepsWith_trans (createAll_keepsWith ?_) fun created => ?_
  · simp
  · split
    · exact Prog.Within.pure keepsWith_refl ()
    · exact Prog.Within.lift keepsWith_refl _

theorem deployment_keepsWith (name : String) :
    Prog.Within (OnProject (KeepsWith cfg before)) (deployment name) := by
  intro s hs
  obtain ⟨found, t, hrun, hproject, -⟩ := deployment_run name s
  rw [hrun, hproject]
  exact hs

theorem Placed.no_deployment (h : Placed cfg before p) (hfresh : Fresh cfg before) :
    ⟨.deployment, cfg.name⟩ ∉ p.resources := by
  intro hmem
  rcases h.own _ hmem with hbefore | heq | heq | heq
  · exact hfresh.2.2.2 hbefore
  all_goals cases congrArg Resource.kind heq

theorem create_keeps : Prog.Within (OnProject (Keeps cfg before)) (create cfg) := by
  intro s hs
  obtain ⟨found, t, hfound, hproject, -⟩ := deployment_run cfg.name s
  rw [create, Prog.bind_of_ok hfound]
  rcases create_cases (secret cfg) t with ⟨u, hcreate, -, hproject'⟩ | ⟨e, u, hcreate, hproject'⟩
  · rw [Prog.bind_of_ok hcreate]
    have hrest : Prog.Within (OnProject (KeepsWith cfg before)) (do
        newApp [deploymentConfig cfg, service cfg]
        let _ ← deployment cfg.name
        command
        onGateway (createBaseRoute cfg)) := by
      refine Prog.Within.bind keepsWith_trans newApp_keepsWith fun _ => ?_
      refine Prog.Within.bind keepsWith_trans (deployment_keepsWith _) fun _ => ?_
      exact Prog.Within.bind keepsWith_trans (onGateway_within (fun _ => id) _) fun _ =>
        onGateway_within (fun _ => id) _
    refine (hrest u ?_).1
    rw [hproject', hproject]
    exact ⟨hs.create_secret, List.mem_append_right _ (List.mem_singleton_self _)⟩
  · rw [Prog.bind_of_error hcreate]
    show Placed cfg before u.project
    rw [hproject', hproject]
    exact hs

theorem destroyRegistered_cases {s : Life} (hs : s.project.toDelete = []) :
    (∃ t, destroyRegistered.run s = (.ok (), t) ∧ t.project = s.project) ∨
      ∃ e t, destroyRegistered.run s = (.error e, t) ∧ t.project = s.project := by
  rw [destroyRegistered, Prog.gets_bind_run, id, hs]
  cases hrun : (onGateway (Prog.forEach destroyRoute s.gateway.routes)).run s with
  | mk r t =>
      have hproject : t.project = s.project :=
        (congrArg (fun x => x.2.project) hrun).symm
      cases r with
      | ok u => exact .inl ⟨t, Prog.bind_of_ok hrun, hproject⟩
      | error e => exact .inr ⟨e, t, Prog.bind_of_error hrun, hproject⟩

/-- The deletions of `destroy`, in their order. -/
theorem destroy_keeps (hfresh : Fresh cfg before) :
    Prog.Within (OnProject (Keeps cfg before)) (destroy cfg) := by
  intro s hs
  rcases destroyRegistered_cases hs.unregistered with ⟨t, hrun, hproject⟩ | ⟨e, t, hrun, hproject⟩
  case inr =>
    rw [destroy, Prog.bind_of_error hrun, hproject]
    exact hs
  obtain ⟨_, t₁, hrun₁, hproject₁, -⟩ := deployment_run cfg.name t
  obtain ⟨_, t₂, hrun₂, hproject₂, -⟩ := deployment_run cfg.name t₁
  obtain ⟨_, t₃, hrun₃, hproject₃, -⟩ := deployment_run cfg.name t₂
  rw [destroy, Prog.bind_of_ok hrun, Prog.bind_of_ok hrun₁, Prog.bind_of_ok hrun₂,
    Prog.bind_of_ok hrun₃]
  have hsame : t₃.project = s.project := by rw [hproject₃, hproject₂, hproject₁, hproject]
  rcases delete_cases (service cfg) false t₃ with ⟨u, hdelete, -, hu⟩ | ⟨e, u, hdelete, hu⟩
  case inr =>
    rw [Prog.bind_of_error hdelete, hu, hsame]
    exact hs
  have hplaced : Placed cfg before u.project := by
    rw [hu, hsame]
    exact hs.delete hfresh.2.1 fun heq => nomatch congrArg Resource.kind heq
  have hservice : service cfg ∉ u.project.resources := by
    rw [hu]
    simp
  obtain ⟨_, u₁, hrun₁, hproject₁, -⟩ := deployment_run cfg.name u
  obtain ⟨found, u₂, hrun₂, hproject₂, hfound⟩ := deployment_run cfg.name u₁
  have hsame : u₂.project = u.project := hproject₂.trans hproject₁
  obtain rfl : found = deploymentConfig cfg := by
    refine hfound.resolve_right fun ⟨heq, hmem⟩ => ?_
    rw [heq, hproject₁] at hmem
    exact hplaced.no_deployment hfresh hmem
  rw [Prog.bind_of_ok hdelete, Prog.bind_of_ok hrun₁, Prog.bind_of_ok hrun₂]
  rcases delete_cases (deploymentConfig cfg) false u₂ with
    ⟨w, hdelete', -, hw⟩ | ⟨e, w, hdelete', hw⟩
  case inr =>
    rw [Prog.bind_of_error hdelete', hw, hsame]
    exact hplaced
  have hplaced' : Placed cfg before w.project := by
    rw [hw, hsame]
    exact hplaced.delete hfresh.2.2.1 fun heq => nomatch congrArg Resource.kind heq
  have hobjects : service cfg ∉ w.project.resources ∧
      deploymentConfig cfg ∉ w.project.resources := by
    rw [hw, hsame]
    exact ⟨fun hmem => hservice (List.mem_of_mem_filter hmem), by simp⟩
  rw [Prog.bind_of_ok hdelete']
  rcases delete_cases (secret cfg) false w with ⟨x, hdelete, -, hx⟩ | ⟨e, x, hdelete, hx⟩
  · rw [hdelete, hx]
    exact hplaced'.delete hfresh.1 fun _ => hobjects
  · rw [hdelete, hx]
    exact hplaced'

theorem perform_keeps (hfresh : Fresh cfg before) (op : Op) :
    Prog.Within (OnProject (Keeps cfg before)) (perform cfg op) := by
  cases op with
  | create => exact create_keeps
  | destroy => exact destroy_keeps hfresh
  | routes op => exact onGateway_within (fun _ => id) _
  | connectOpenTelemetry commands => exact Prog.Within.lift (fun _ => id) _
  | commands n => exact onGateway_within (fun _ => id) _

theorem run_placed (hfresh : Fresh cfg before) (routes : Dict String Route) (calls : List Call) :
    Placed cfg before (run (step (perform cfg)) calls (init routes before)).project := by
  refine @run_invariant Life Call (step (perform cfg)) (fun s => Placed cfg before s.project)
    (fun call s hs => perform_keeps hfresh call.op (s.withFailures call.failures) hs) calls _ ?_
  exact ⟨fun _ => id, fun _ => .inl,
    fun h => absurd h (not_or_intro hfresh.2.1 hfresh.2.2.1), rfl⟩

end

end TemplateApicast

/-! ## Destroying by name without failures -/

namespace TemplateApicast

variable {cfg : Config} {before : List Resource} {s : Life}

theorem deployment_run_of_quiet (hs : s.Quiet) {name : String}
    (hnone : ⟨.deployment, name⟩ ∉ s.project.resources) :
    (deployment name).run s = (.ok ⟨.deploymentConfig, name⟩, s) := by
  refine (Prog.handle_of_error (?_ : _ = (Except.error refused, s))).trans rfl
  rw [Prog.bind_of_ok (command_run_of_quiet hs), Prog.gets_bind_run, if_neg hnone]
  rfl

/-- What a `destroy` without failures comes to: each deletion needs what it deletes. -/
inductive Destroyed (cfg : Config) (p : Project) : Except Exn Unit → Project → Prop where
  | noService (h : service cfg ∉ p.resources) : Destroyed cfg p (.error refused) p
  | noConfig (h : service cfg ∈ p.resources) (h' : deploymentConfig cfg ∉ p.resources) :
      Destroyed cfg p (.error refused) (p.without [service cfg])
  | both (h : service cfg ∈ p.resources) (h' : deploymentConfig cfg ∈ p.resources) :
      Destroyed cfg p (.ok ())
        (((p.without [service cfg]).without [deploymentConfig cfg]).without [secret cfg])

theorem destroy_run (hs : s.Quiet) (hplaced : Placed cfg before s.project)
    (hfresh : Fresh cfg before) :
    Destroyed cfg s.project ((destroy cfg).run s).1 ((destroy cfg).run s).2.project ∧
      Removed s.gateway.routes s.gateway.cluster ((destroy cfg).run s).2.gateway.cluster := by
  have hnone := hplaced.no_deployment hfresh
  obtain ⟨gateway, hrun, hremoved⟩ := destroyRegistered_run hs
  rw [hplaced.unregistered, Project.without_nil] at hrun
  have hquiet : ∀ p, Life.Quiet ⟨gateway, p⟩ := fun _ => hremoved.quiet
  have hdeployment := deployment_run_of_quiet (hquiet s.project) hnone
  rw [destroy, Prog.bind_of_ok hrun, Prog.bind_of_ok hdeployment, Prog.bind_of_ok hdeployment,
    Prog.bind_of_ok hdeployment]
  by_cases hservice : service cfg ∈ s.project.resources
  case neg =>
    have hdelete := delete_run_of_missing (hquiet s.project) hservice
    rw [Prog.bind_of_error hdelete]
    exact ⟨.noService hservice, hremoved⟩
  have hdelete := @delete_run_of_quiet _ (hquiet s.project) _ false (.inr hservice)
  have hnone' : ⟨.deployment, cfg.name⟩ ∉ (s.project.without [service cfg]).resources :=
    fun h => hnone (Project.mem_without.mp h).1
  have hdeployment' : (deployment cfg.name).run ⟨gateway, s.project.without [service cfg]⟩ =
      (.ok (deploymentConfig cfg), ⟨gateway, s.project.without [service cfg]⟩) :=
    deployment_run_of_quiet (hquiet _) hnone'
  rw [Prog.bind_of_ok hdelete, Prog.bind_of_ok hdeployment', Prog.bind_of_ok hdeployment']
  by_cases hconfig : deploymentConfig cfg ∈ s.project.resources
  case neg =>
    have hmissing : deploymentConfig cfg ∉ (s.project.without [service cfg]).resources :=
      fun h => hconfig (Project.mem_without.mp h).1
    have hdelete' := delete_run_of_missing (hquiet (s.project.without [service cfg])) hmissing
    rw [Prog.bind_of_error hdelete']
    exact ⟨.noConfig hservice hconfig, hremoved⟩
  have hthere : deploymentConfig cfg ∈ (s.project.without [service cfg]).resources := by
    refine Project.mem_without.mpr ⟨hconfig, fun h => ?_⟩
    cases congrArg Resource.kind (List.mem_singleton.mp h)
  have hsecret : secret cfg ∈
      ((s.project.without [service cfg]).without [deploymentConfig cfg]).resources := by
    refine Project.mem_without.mpr ⟨Project.mem_without.mpr
      ⟨hplaced.credentials (.inl hservice), fun h => ?_⟩, fun h => ?_⟩
    all_goals cases congrArg Resource.kind (List.mem_singleton.mp h)
  have hdelete' := @delete_run_of_quiet _ (hquiet (s.project.without [service cfg])) _ false
    (.inr hthere)
  have hdelete'' := @delete_run_of_quiet _
    (hquiet ((s.project.without [service cfg]).without [deploymentConfig cfg])) _ false
    (.inr hsecret)
  rw [Prog.bind_of_ok hdelete', hdelete'']
  exact ⟨.both hservice hconfig, hremoved⟩

/-- The credentials stay where `destroy` stops before it comes to them. -/
theorem Destroyed.secret_iff {p p' : Project} {result : Except Exn Unit}
    (h : Destroyed cfg p result p') (hplaced : Placed cfg before p) :
    secret cfg ∈ p'.resources ↔ secret cfg ∈ p.resources ∧
      ¬ (service cfg ∈ p.resources ∧ deploymentConfig cfg ∈ p.resources) := by
  cases h with
  | noService hservice =>
      exact ⟨fun h => ⟨h, fun hboth => hservice hboth.1⟩, And.left⟩
  | noConfig hservice hconfig =>
      have hthere : secret cfg ∈ (p.without [service cfg]).resources := by
        refine Project.mem_without.mpr ⟨hplaced.credentials (.inl hservice), fun h => ?_⟩
        cases congrArg Resource.kind (List.mem_singleton.mp h)
      refine iff_of_true hthere ⟨hplaced.credentials (.inl hservice), ?_⟩
      exact fun hboth => hconfig hboth.2
  | both hservice hconfig =>
      refine iff_of_false (fun h => ?_) fun h => h.2 ⟨hservice, hconfig⟩
      exact (Project.mem_without.mp h).2 (List.mem_singleton_self _)

/-- Where the credentials are gone, so is all else that came with the gateway. -/
theorem Destroyed.resources_iff {p p' : Project} {result : Except Exn Unit}
    (h : Destroyed cfg p result p') (hplaced : Placed cfg before p) (hfresh : Fresh cfg before)
    (hnone : secret cfg ∉ p'.resources) (r : Resource) : r ∈ p'.resources ↔ r ∈ before := by
  cases h with
  | noService hservice =>
      refine ⟨fun hr => ?_, hplaced.kept r⟩
      rcases hplaced.own r hr with hbefore | rfl | rfl | rfl
      · exact hbefore
      · exact absurd hr hnone
      · exact absurd hr hservice
      · exact absurd (hplaced.credentials (.inr hr)) hnone
  | noConfig hservice hconfig =>
      refine absurd (Project.mem_without.mpr ⟨hplaced.credentials (.inl hservice), fun h => ?_⟩)
        hnone
      cases congrArg Resource.kind (List.mem_singleton.mp h)
  | both hservice hconfig =>
      simp only [Project.without_without, List.cons_append, List.nil_append]
      rw [Project.mem_without]
      constructor
      · rintro ⟨hr, hnot⟩
        simp only [List.mem_cons, List.not_mem_nil, or_false, not_or] at hnot
        rcases hplaced.own r hr with hbefore | heq | heq | heq
        · exact hbefore
        · exact absurd heq hnot.2.2
        · exact absurd heq hnot.1
        · exact absurd heq hnot.2.1
      · intro hbefore
        refine ⟨hplaced.kept r hbefore, fun h => ?_⟩
        simp only [List.mem_cons, List.not_mem_nil, or_false] at h
        rcases h with rfl | rfl | rfl
        · exact hfresh.2.1 hbefore
        · exact hfresh.2.2.1 hbefore
        · exact hfresh.1 hbefore

/-- A destroyed gateway of the template leaves the routes as they were, and the secret with the
portal's credentials exactly if it is there while an object of the template is not; otherwise the
resources are as before, too. -/
theorem destroy_leaves_secret_iff (cfg : Config) (routes : Dict String Route)
    (before : List Resource) (hfresh : Fresh cfg before) (calls : List Call) :
    let s := (run (step (perform cfg)) calls (init routes before)).withFailures []
    let destroyed := ((destroy cfg).run s).2
    Dict.Same destroyed.gateway.cluster.routes routes ∧
      (secret cfg ∈ destroyed.project.resources ↔ secret cfg ∈ s.project.resources ∧
        ¬ (service cfg ∈ s.project.resources ∧ deploymentConfig cfg ∈ s.project.resources)) ∧
      (secret cfg ∉ destroyed.project.resources →
        ∀ r, r ∈ destroyed.project.resources ↔ r ∈ before) := by
  intro s destroyed
  have hplaced : Placed cfg before s.project := run_placed hfresh routes calls
  have htracks : Tracks routes s.gateway :=
    (run_tracks (perform_routes cfg) before calls).withFailures []
  obtain ⟨hdestroyed, hremoved⟩ : Destroyed cfg s.project ((destroy cfg).run s).1
      destroyed.project ∧ Removed s.gateway.routes s.gateway.cluster destroyed.gateway.cluster :=
    destroy_run (Life.quiet_withFailures _) hplaced hfresh
  exact ⟨htracks.same_of_removed hremoved, hdestroyed.secret_iff hplaced,
    hdestroyed.resources_iff hplaced hfresh⟩

/-- The template was processed, but its service could not be created. -/
def refusedService : Call where
  op := .create
  failures := [false, false, false, false, true]

/-- The credentials stay. -/
theorem destroy_leaves_secret_of_refused_service :
    secret exampleConfig ∈ ((destroy exampleConfig).run
      ((run (step (perform exampleConfig)) [refusedService] (init .empty [])).withFailures
        [])).2.project.resources :=
  (destroy_leaves_secret_iff exampleConfig .empty [] (by simp [Fresh]) [refusedService]).2.1.mpr
    (by decide)

end TemplateApicast

end ThreescaleTests.Gateways.Deployed
