import ThreescaleTests.Factories.Fixtures

/-!
# The course of a service call

`custom_service` looks at `proxy_params`, prepares `params`, creates the service, attaches the
backends and updates the proxy. Where it stops decides which of the hooks are called and what is
sent. The other steps neither touch memory nor send what a hook has prepared.
-/

namespace ThreescaleTests.Factories

open Library

/-- Which memory a part of a call leaves, and which requests it sends for objects that hooks have
prepared. -/
structure Ends (w w' : World) (m : Memory) (requests : List Request) : Prop where
  memory : w'.memory = m
  sent : ∃ new, w'.sent = w.sent ++ new ∧ new.filter Request.prepared = requests

theorem Ends.trans {w w' w'' : World} {m m' : Memory} {requests requests' : List Request}
    (h : Ends w w' m requests) (h' : Ends w' w'' m' requests') :
    Ends w w'' m' (requests ++ requests') := by
  obtain ⟨new, hsent, hnew⟩ := h.sent
  obtain ⟨new', hsent', hnew'⟩ := h'.sent
  refine ⟨h'.memory, new ++ new', ?_, ?_⟩
  · rw [hsent', hsent, List.append_assoc]
  · rw [List.filter_append, hnew, hnew']

/-- A part of a call that neither touches memory nor sends what hooks have prepared. -/
def Quiet (w w' : World) : Prop := Ends w w' w.memory []

theorem Quiet.of_eq {w w' : World} (hmemory : w'.memory = w.memory) (hsent : w'.sent = w.sent) :
    Quiet w w' := ⟨hmemory, [], by simp [hsent], rfl⟩

theorem Quiet.refl (w : World) : Quiet w w := Quiet.of_eq rfl rfl

theorem Quiet.trans (w w' w'' : World) (h : Quiet w w') (h' : Quiet w' w'') : Quiet w w'' := by
  have hends : Ends w w'' w'.memory ([] ++ []) := Ends.trans h h'
  rwa [h.memory] at hends

section

variable (remote : Remote)

theorem onMemory_ends {α : Type} (p : Prog Memory α) (w : World) :
    Ends w ((onMemory p).run w).2 (p.run w.memory).2 [] := ⟨rfl, [], by simp [onMemory_run], rfl⟩

theorem send_ends {request : Request} (h : request.prepared = true) (n : Nat) (w : World) :
    Ends w ((send remote request n).run w).2 w.memory [request] :=
  ⟨rfl, [request], rfl, by simp [h]⟩

theorem ask_quiet {request : Request} (h : request.prepared = false) :
    Prog.Within Quiet (ask remote request) := by
  intro w
  rw [ask_run]
  exact ⟨rfl, [request], rfl, by simp [h]⟩

theorem createUsages_quiet (svc : Obj) (backends : List (String × Obj)) :
    Prog.Within Quiet (createUsages remote svc backends) :=
  Prog.Within.forEach Quiet.refl Quiet.trans fun _ _ => ask_quiet remote rfl

theorem createUsages_isOk (svc : Obj) (backends : List (String × Obj)) (w : World) :
    ((createUsages remote svc backends).run w).1.isOk =
      backends.all fun b => (remote (.createUsage svc b.1 b.2) 0).isOk := by
  induction backends generalizing w with
  | nil => rfl
  | cons b backends ih =>
      have hask := ask_run remote (.createUsage svc b.1 b.2) w
      rw [createUsages, Prog.forEach, List.all_cons]
      cases hr : remote (.createUsage svc b.1 b.2) 0 with
      | error e =>
          rw [Prog.bind_of_error (hask.trans (by rw [hr]; rfl))]
          rfl
      | ok id =>
          rw [Prog.bind_of_ok (hask.trans (by rw [hr]; rfl))]
          exact ih _

theorem registerFinalizer_quiet (cfg : Testconfig) (autoclean : Bool) (finalizer : Finalizer)
    (w : World) : ∃ w', (registerFinalizer cfg autoclean finalizer).run w = (.ok (), w') ∧
      Quiet w w' := by
  unfold registerFinalizer
  split
  · exact ⟨w, rfl, Quiet.refl w⟩
  · split <;> exact ⟨_, rfl, Quiet.of_eq rfl rfl⟩

/-- How often a request is sent: the tries are numbered from `k` on, and `n` may follow. -/
def tries (request : Request) : Nat → Nat → Nat
  | _, 0 => 1
  | k, n + 1 =>
    match remote request k with
    | .ok _ => 1
    | .error e => if Resilient.isApiClientError e then 1 + tries request (k + 1) n else 1

theorem retryEach_send_ends {request : Request} (h : request.prepared = true) (k n : Nat)
    (w : World) :
    Ends w ((Prog.retryEach Resilient.isApiClientError (send remote request) k n).run w).2 w.memory
      (List.replicate (tries remote request k n) request) := by
  induction n generalizing k w with
  | zero => exact send_ends remote h k w
  | succ n ih =>
      have hsend := send_run remote request k w
      have hends := send_ends remote h k w
      rw [tries]
      cases hr : remote request k with
      | ok id =>
          rw [hr] at hsend
          rw [Prog.retryEach_of_ok hsend, ← hsend]
          exact hends
      | error e =>
          rw [hr] at hsend
          cases he : Resilient.isApiClientError e with
          | false =>
              rw [Prog.retryEach_of_uncaught hsend he, ← hsend]
              simpa only [he, Bool.false_eq_true, if_false, List.replicate_one] using hends
          | true =>
              rw [Prog.retryEach_of_caught hsend he]
              rw [hsend] at hends
              simp only [he, if_true, List.replicate_add]
              exact hends.trans (ih (k + 1) _)

/-- The requests that the proxy of a service is updated with. -/
def updateRequests (svc : Obj) : Except Exn (Option Json) → List Request
  | .ok (some d) =>
      List.replicate (tries remote (.updateProxy svc d) 0 7) (.updateProxy svc d)
  | _ => []

theorem deployProxy_ends (onCreate : List (Obj → Except Exn Unit)) (svc : Obj) (d : Option Json)
    (w : World) : Ends w ((deployProxy remote onCreate svc d).run w).2 w.memory
      (updateRequests remote svc (.ok d)) := by
  have hdeploy : Prog.Within Quiet (deployProxy remote onCreate svc none) :=
    Prog.Within.bind Quiet.trans (ask_quiet remote rfl) fun _ =>
      Prog.Within.forEach Quiet.refl Quiet.trans fun _ _ => Prog.Within.lift Quiet.refl _
  cases d with
  | none => exact hdeploy w
  | some d =>
      have hupdate : Ends w ((proxyUpdate remote svc d).run w).2 w.memory
          (updateRequests remote svc (.ok (some d))) := retryEach_send_ends remote rfl 0 7 w
      cases hrun : (proxyUpdate remote svc d).run w with
      | mk r w' =>
          rw [hrun] at hupdate
          cases r with
          | error e =>
              rw [deployProxy, Prog.bind_of_error hrun]
              exact hupdate
          | ok id =>
              rw [deployProxy, Prog.bind_of_ok hrun]
              have hends := hupdate.trans (hdeploy w')
              rw [List.append_nil, hupdate.memory] at hends
              exact hends

/-- The service whose proxy is set up: it has been created, and all backends are attached. -/
def reached (c : ServiceArgs) (d : Json) : Option Obj :=
  match remote (.createService d) 0 with
  | .error _ => none
  | .ok id =>
      if c.backends.all fun b => (remote (.createUsage ⟨.service, id⟩ b.1 b.2) 0).isOk then
        some ⟨.service, id⟩
      else none

/-- How far a call comes, and what it leaves. -/
inductive ServiceCourse (cfg : Testconfig) (c : ServiceArgs) (w w' : World) : Prop where
  | noProxyParams {e : Exn} {m : Memory}
      (hproxy : (givenOrEmpty c.proxyParams).run w.memory = (.error e, m)) (hends : Ends w w' m [])
  | noParams {proxy : Loc} {e : Exn} {m m' : Memory}
      (hproxy : (givenOrEmpty c.proxyParams).run w.memory = (.ok proxy, m))
      (hparams : (serviceParams cfg c).run m = (.error e, m')) (hends : Ends w w' m' [])
  | notReached {proxy : Loc} {d : Json} {m m' : Memory}
      (hproxy : (givenOrEmpty c.proxyParams).run w.memory = (.ok proxy, m))
      (hparams : (serviceParams cfg c).run m = (.ok d, m')) (hreached : reached remote c d = none)
      (hends : Ends w w' m' [.createService d])
  | updated {proxy : Loc} {d : Json} {svc : Obj} {r : Except Exn (Option Json)} {m m' m'' : Memory}
      (hproxy : (givenOrEmpty c.proxyParams).run w.memory = (.ok proxy, m))
      (hparams : (serviceParams cfg c).run m = (.ok d, m'))
      (hreached : reached remote c d = some svc)
      (hupdate : (proxyParams c.hooks svc proxy).run m' = (r, m''))
      (hends : Ends w w' m'' (.createService d :: updateRequests remote svc r))

theorem setupProxy_ends (hooks : List Hook) (svc : Obj) (l : Loc) (w : World)
    {r : Except Exn (Option Json)} {m : Memory}
    (hrun : (proxyParams hooks svc l).run w.memory = (r, m)) :
    Ends w ((setupProxy remote hooks svc l).run w).2 m (updateRequests remote svc r) := by
  have hends := onMemory_ends (proxyParams hooks svc l) w
  have hmemory : (onMemory (proxyParams hooks svc l)).run w = (r, { w with memory := m }) := by
    rw [onMemory_run, hrun]
  rw [hmemory, hrun] at hends
  cases r with
  | error e =>
      rw [setupProxy, Prog.bind_of_error hmemory]
      exact hends
  | ok d =>
      rw [setupProxy, Prog.bind_of_ok hmemory]
      exact hends.trans (deployProxy_ends remote _ svc d _)

/-- Without parameters nothing is sent. -/
theorem createService_run_error (cfg : Testconfig) (c : ServiceArgs) {w : World} {e : Exn}
    {m : Memory} (hparams : (serviceParams cfg c).run w.memory = (.error e, m)) :
    (createService cfg remote c).run w = (.error e, { w with memory := m }) := by
  have hprepare : (onMemory (serviceParams cfg c)).run w = (.error e, { w with memory := m }) := by
    rw [onMemory_run, hparams]
  rw [createService, Prog.bind_of_error hprepare]

/-- With parameters the service is created, or refused. -/
theorem createService_ends (cfg : Testconfig) (c : ServiceArgs) {w : World} {d : Json}
    {m : Memory} (hparams : (serviceParams cfg c).run w.memory = (.ok d, m)) :
    ∃ w', (createService cfg remote c).run w =
        ((remote (.createService d) 0).map fun id => ⟨.service, id⟩, w') ∧
      Ends w w' m [.createService d] := by
  have hprepare : (onMemory (serviceParams cfg c)).run w = (.ok d, { w with memory := m }) := by
    rw [onMemory_run, hparams]
  have hsent : Ends w { w with memory := m, sent := w.sent ++ [.createService d] } m
      [.createService d] := ⟨rfl, [.createService d], rfl, rfl⟩
  rw [createService, Prog.bind_of_ok hprepare]
  cases hr : remote (.createService d) 0 with
  | error e =>
      rw [Prog.bind_of_error (create_run_error .service hr { w with memory := m })]
      exact ⟨_, rfl, hsent⟩
  | ok id =>
      rw [Prog.bind_of_ok (create_run_ok .service hr { w with memory := m })]
      obtain ⟨w', hregister, hquiet⟩ := registerFinalizer_quiet cfg c.autoclean
        ⟨⟨.service, id⟩, selectHooks Hook.onServiceDelete c.hooks⟩
        { w with
          memory := m
          sent := w.sent ++ [.createService d]
          created := w.created ++ [⟨.service, id⟩] }
      rw [Prog.bind_of_ok hregister]
      obtain ⟨new, hnew, hfilter⟩ := hquiet.sent
      refine ⟨w', rfl, hquiet.memory, .createService d :: new, by simp [hnew], ?_⟩
      rw [List.filter_cons_of_pos rfl, hfilter]

/-- The backends of a service that was created are attached just if its proxy is reached. -/
theorem createUsages_cases (c : ServiceArgs) {d : Json} {id : Nat}
    (hr : remote (.createService d) 0 = .ok id) (w : World) :
    (∃ e w', (createUsages remote ⟨.service, id⟩ c.backends).run w = (.error e, w') ∧
      reached remote c d = none ∧ Quiet w w') ∨
    ∃ w', (createUsages remote ⟨.service, id⟩ c.backends).run w = (.ok (), w') ∧
      reached remote c d = some ⟨.service, id⟩ ∧ Quiet w w' := by
  have hquiet := createUsages_quiet remote ⟨.service, id⟩ c.backends w
  have hall := createUsages_isOk remote ⟨.service, id⟩ c.backends w
  cases hrun : (createUsages remote ⟨.service, id⟩ c.backends).run w with
  | mk r w' =>
  rw [hrun] at hquiet hall
  cases r with
  | error e =>
      refine .inl ⟨e, w', rfl, ?_, hquiet⟩
      simp only [reached, hr, ← hall]
      rfl
  | ok u =>
      refine .inr ⟨w', rfl, ?_, hquiet⟩
      simp only [reached, hr, ← hall]
      rfl

theorem customService_course (cfg : Testconfig) (c : ServiceArgs) (w : World) :
    ServiceCourse remote cfg c w ((customService cfg remote c).run w).2 := by
  cases hproxy : (givenOrEmpty c.proxyParams).run w.memory with
  | mk r m =>
  have hgiven : (onMemory (givenOrEmpty c.proxyParams)).run w = (r, { w with memory := m }) := by
    rw [onMemory_run, hproxy]
  have hstart := onMemory_ends (givenOrEmpty c.proxyParams) w
  rw [hgiven, hproxy] at hstart
  cases r with
  | error e =>
      rw [customService, Prog.bind_of_error hgiven]
      exact .noProxyParams hproxy hstart
  | ok proxy =>
  rw [customService, Prog.bind_of_ok hgiven]
  cases hparams : (serviceParams cfg c).run m with
  | mk r m' =>
  have hmemory : ({ w with memory := m } : World).memory = m := rfl
  rw [← hmemory] at hparams
  cases r with
  | error e =>
      rw [Prog.bind_of_error (createService_run_error remote cfg c hparams)]
      exact .noParams hproxy hparams ⟨rfl, hstart.sent⟩
  | ok d =>
  obtain ⟨w₁, hcreate, hends⟩ := createService_ends remote cfg c hparams
  have hcreated := hstart.trans hends
  cases hr : remote (.createService d) 0 with
  | error e =>
      rw [hr] at hcreate
      rw [Prog.bind_of_error hcreate]
      exact .notReached hproxy hparams (by simp only [reached, hr]) hcreated
  | ok id =>
  rw [hr] at hcreate
  rw [Prog.bind_of_ok hcreate]
  rcases createUsages_cases remote c hr w₁ with
    ⟨e, w₂, hattach, hreached, hquiet⟩ | ⟨w₂, hattach, hreached, hquiet⟩
  · rw [Prog.bind_of_error hattach]
    exact .notReached hproxy hparams hreached (hcreated.memory ▸ hcreated.trans hquiet)
  · rw [Prog.bind_of_ok hattach, Prog.bind_pure_run_snd]
    cases hupdate : (proxyParams c.hooks ⟨.service, id⟩ proxy).run m' with
    | mk r m'' =>
        have hattached : w₂.memory = m' := hquiet.memory.trans hcreated.memory
        have hsetup := setupProxy_ends remote c.hooks ⟨.service, id⟩ proxy w₂
          (by rw [hattached, hupdate])
        exact .updated hproxy hparams hreached hupdate ((hcreated.trans hquiet).trans hsetup)

end

end ThreescaleTests.Factories
