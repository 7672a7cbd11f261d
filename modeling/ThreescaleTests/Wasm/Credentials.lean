import ThreescaleTests.Wasm.Extension

/-!
# When the deployed credentials follow the configuration

A remembered list that is not empty has to describe the deployed lists; then a
synchronisation that finds nothing to do is right. The extension remembers a new
list before it deploys it, and its other operations deploy without remembering, so
the invariant is kept by those steps only that do not fail in between.
-/

namespace ThreescaleTests.Wasm

open Library

/-! ## The lists of a document -/

/-- The value deployed for a label. -/
def deployedList (doc : Json) (label : CredentialLabel) : Option Json :=
  Json.get? (credentialsPath ++ [label.text]) doc

/-- The value below the credentials path is an object with the given lists. -/
def HoldsLists (c : Json) (lists : CredentialLabel → List Json) : Prop :=
  ∀ label, c.child? label.text = some (.arr (lists label))

/-- Every credential has an object to deploy. -/
def Deployable (credentials : List Credential) : Prop :=
  ∀ cred ∈ credentials, ∃ obj, credentialObj cred = .ok obj

def derivedList (credentials : List Credential) (label : CredentialLabel) : List Json :=
  (credentials.filter fun cred => decide (cred.label = label)).filterMap fun cred =>
    (credentialObj cred).toOption

/-- The deployed lists are exactly those derived from the credentials. -/
def DeployedAs (credentials : List Credential) (doc : Json) : Prop :=
  Deployable credentials ∧
    ∀ label, deployedList doc label = some (.arr (derivedList credentials label))

theorem text_injective {label label' : CredentialLabel} (h : label.text = label'.text) :
    label = label' := by
  cases label <;> cases label' <;> first | rfl | exact absurd h (by decide)

theorem tokenIndex?_text (label : CredentialLabel) : Json.tokenIndex? label.text = none := by
  cases label <;> decide

/-- Only objects have members with these names. -/
theorem HoldsLists.eq_obj {c : Json} {lists : CredentialLabel → List Json}
    (h : HoldsLists c lists) : ∃ fields, c = .obj fields := by
  have huser := h .userKey
  cases c with
  | obj fields => exact ⟨fields, rfl⟩
  | arr items => simp [Json.child?, tokenIndex?_text] at huser
  | _ => simp [Json.child?] at huser

theorem holdsLists_iff {doc c : Json} {lists : CredentialLabel → List Json}
    (hc : Json.get? credentialsPath doc = some c) :
    HoldsLists c lists ↔ ∀ label, deployedList doc label = some (.arr (lists label)) := by
  refine forall_congr' fun label => ?_
  simp [deployedList, Json.get?_append, hc, Json.get?]

theorem exists_holdsLists {doc : Json} {lists : CredentialLabel → List Json}
    (h : ∀ label, deployedList doc label = some (.arr (lists label))) :
    ∃ c, Json.get? credentialsPath doc = some c ∧ HoldsLists c lists := by
  cases hc : Json.get? credentialsPath doc with
  | none =>
      have huser := h .userKey
      simp [deployedList, Json.get?_append, hc] at huser
  | some c => exact ⟨c, rfl, (holdsLists_iff hc).mpr h⟩

/-! ## What the patches do to the lists -/

/-- One member is another list, and the rest is kept. -/
theorem HoldsLists.update {fields fields' : List (String × Json)}
    {lists : CredentialLabel → List Json} (h : HoldsLists (.obj fields) lists)
    {label : CredentialLabel} {objs : List Json}
    (hlookup : ∀ t, fields'.lookup t =
      if t = label.text then some (.arr objs) else fields.lookup t) :
    HoldsLists (.obj fields') (Function.update lists label objs) := by
  intro label'
  have hlabel' := h label'
  simp only [Json.child?] at hlabel' ⊢
  rw [hlookup]
  by_cases heq : label' = label
  · simp [heq]
  · have htext : label'.text ≠ label.text := fun ht => heq (text_injective ht)
    simp [heq, htext, hlabel']

theorem applyPatch_resetOps {c : Json} {lists : CredentialLabel → List Json}
    (h : HoldsLists c lists) (label : CredentialLabel) :
    ∃ c', Json.applyPatch (resetOps label) c = some c' ∧
      HoldsLists c' (Function.update lists label []) := by
  obtain ⟨fields, hfields⟩ := h.eq_obj
  subst hfields
  have hmem : (fields.lookup label.text).isSome := by
    have hlabel := h label
    simp only [Json.child?] at hlabel
    simp [hlabel]
  obtain ⟨fields', happly, hlookup⟩ := Json.applyPatch_remove_add hmem (.arr [])
  exact ⟨.obj fields', happly, h.update hlookup⟩

theorem run_addOp {c : Json} {lists : CredentialLabel → List Json} (h : HoldsLists c lists)
    (label : CredentialLabel) (obj : Json) :
    ∃ c', (Json.PatchOp.add [label.text] "-" obj).run c = some c' ∧
      HoldsLists c' (Function.update lists label (lists label ++ [obj])) := by
  obtain ⟨fields, hfields⟩ := h.eq_obj
  subst hfields
  refine ⟨.obj (Dict.setEntry label.text (.arr (lists label ++ [obj])) fields), ?_,
    h.update fun t => Dict.lookup_setEntry _ _ _ _⟩
  simp [Json.PatchOp.run, Json.atPath, h label, Json.addMember, Json.setChild]

theorem applyPatch_resets {c : Json} {lists : CredentialLabel → List Json}
    (h : HoldsLists c lists) (labels : List CredentialLabel) :
    ∃ c', Json.applyPatch (labels.flatMap resetOps) c = some c' ∧
      HoldsLists c' fun label => if label ∈ labels then [] else lists label := by
  induction labels generalizing c lists with
  | nil => exact ⟨c, rfl, by simpa using h⟩
  | cons label labels ih =>
      obtain ⟨c1, hc1, hlists1⟩ := applyPatch_resetOps h label
      obtain ⟨c2, hc2, hlists2⟩ := ih hlists1
      refine ⟨c2, ?_, fun label' => ?_⟩
      · rw [List.flatMap_cons, Json.applyPatch_append, hc1]
        exact hc2
      · rw [hlists2 label']
        by_cases heq : label' = label
        · simp [heq]
        · simp [heq]

theorem applyPatch_addOps {c : Json} {lists : CredentialLabel → List Json}
    (h : HoldsLists c lists) {credentials : List Credential} {ops : List Json.PatchOp}
    (hops : addOps credentials = .ok ops) :
    ∃ c', Json.applyPatch ops c = some c' ∧
      HoldsLists c' fun label => lists label ++ derivedList credentials label := by
  induction credentials generalizing c lists ops with
  | nil =>
      have heq : [] = ops := by simpa [addOps] using hops
      subst heq
      exact ⟨c, rfl, by simpa [derivedList] using h⟩
  | cons cred credentials ih =>
      obtain ⟨obj, hobj, hrest⟩ := bind_eq_ok_iff.mp hops
      obtain ⟨ops', hops', heq⟩ := bind_eq_ok_iff.mp hrest
      have hcons : .add [cred.label.text] "-" obj :: ops' = ops := by simpa using heq
      subst hcons
      obtain ⟨c1, hc1, hlists1⟩ := run_addOp h cred.label obj
      obtain ⟨c2, hc2, hlists2⟩ := ih hlists1 hops'
      refine ⟨c2, by simp [Json.applyPatch, hc1, hc2], fun label => ?_⟩
      rw [hlists2 label]
      by_cases hlabel : label = cred.label
      · subst hlabel
        simp [derivedList, hobj, Except.toOption]
      · have hne : ¬ cred.label = label := fun h => hlabel h.symm
        simp [derivedList, hlabel, hne]

theorem addOps_eq_ok {credentials : List Credential} (h : Deployable credentials) :
    ∃ ops, addOps credentials = .ok ops := by
  induction credentials with
  | nil => exact ⟨[], rfl⟩
  | cons cred credentials ih =>
      have hall := List.forall_mem_cons.mp h
      obtain ⟨obj, hobj⟩ := hall.1
      obtain ⟨ops, hops⟩ := ih hall.2
      exact ⟨.add [cred.label.text] "-" obj :: ops, by simp [addOps, hobj, hops]⟩

theorem deployable_of_addOps {credentials : List Credential} {ops : List Json.PatchOp}
    (h : addOps credentials = .ok ops) : Deployable credentials := by
  induction credentials generalizing ops with
  | nil => simp [Deployable]
  | cons cred credentials ih =>
      obtain ⟨obj, hobj, hrest⟩ := bind_eq_ok_iff.mp h
      obtain ⟨ops', hops', _⟩ := bind_eq_ok_iff.mp hrest
      exact List.forall_mem_cons.mpr ⟨⟨obj, hobj⟩, ih hops'⟩

/-! ## What the operations do -/

/-- The resource has its three lists. -/
def HasLists (w : World) : Prop :=
  ∃ lists : CredentialLabel → List Json,
    ∀ label, deployedList w.deployed label = some (.arr (lists label))

/-- An accepted patch whose effect on the lists is known. -/
theorem patch_accepted {w : World} {ops : List Json.PatchOp}
    {lists lists' : CredentialLabel → List Json}
    (h : ∀ label, deployedList w.deployed label = some (.arr (lists label)))
    (hops : ∀ c, HoldsLists c lists →
      ∃ c', Json.applyPatch ops c = some c' ∧ HoldsLists c' lists') :
    ∃ doc, patch true ops w = (.ok (), { w with deployed := doc }) ∧
      ∀ label, deployedList doc label = some (.arr (lists' label)) := by
  obtain ⟨c, hc, hlists⟩ := exists_holdsLists h
  obtain ⟨c', hc', hlists'⟩ := hops c hlists
  obtain ⟨doc, hdoc, hget⟩ := Json.applyPatch_under_of hc hc'
  exact ⟨doc, by simp [patch, hdoc], (holdsLists_iff hget).mp hlists'⟩

/-- An accepted replacement by deployable credentials deploys exactly their lists. -/
theorem replaceCredentials_accepted {w : World} (h : HasLists w) {credentials : List Credential}
    (hdep : Deployable credentials) :
    ∃ doc, replaceCredentials true credentials w = (.ok (), { w with deployed := doc }) ∧
      DeployedAs credentials doc := by
  obtain ⟨lists, hlists⟩ := h
  obtain ⟨ops, hops⟩ := addOps_eq_ok hdep
  have heffect : ∀ c, HoldsLists c lists →
      ∃ c', Json.applyPatch (allLabels.flatMap resetOps ++ ops) c = some c' ∧
        HoldsLists c' (derivedList credentials) := by
    intro c hc
    obtain ⟨c1, hc1, hlists1⟩ := applyPatch_resets hc allLabels
    obtain ⟨c2, hc2, hlists2⟩ := applyPatch_addOps hlists1 hops
    refine ⟨c2, by simp [Json.applyPatch_append, hc1, hc2], fun label => ?_⟩
    have hall : label ∈ allLabels := by cases label <;> decide
    simpa [hall] using hlists2 label
  obtain ⟨doc, hpatch, hdoc⟩ := patch_accepted hlists heffect
  exact ⟨doc, by simp [replaceCredentials, hops, hpatch], hdep, hdoc⟩

/-- A replacement that raises leaves everything as it is. -/
theorem replaceCredentials_failed {w : World} {accepted : Bool} {credentials : List Credential}
    (h : accepted = false ∨ ¬ Deployable credentials) :
    ∃ e, replaceCredentials accepted credentials w = (.error e, w) := by
  cases hops : addOps credentials with
  | error e => exact ⟨e, by simp [replaceCredentials, hops]⟩
  | ok ops =>
      have hdep := deployable_of_addOps hops
      rcases h with hrejected | hnot
      · subst hrejected
        exact ⟨_, by simp [replaceCredentials, hops, patch]; rfl⟩
      · exact absurd hdep hnot

theorem removeCredentials_accepted {w : World} {lists : CredentialLabel → List Json}
    (h : ∀ label, deployedList w.deployed label = some (.arr (lists label)))
    (labels : List CredentialLabel) :
    ∃ doc, removeCredentials true labels w = (.ok (), { w with deployed := doc }) ∧
      ∀ label, deployedList doc label =
        some (.arr (if label ∈ labels then [] else lists label)) :=
  patch_accepted h fun _ hc => applyPatch_resets hc labels

/-! ## The invariant -/

/-- A remembered list that is not empty describes the deployed lists. -/
structure CacheInStep (w : World) : Prop where
  lists : HasLists w
  cached : ∀ cached, w.credentials = some cached → cached ≠ [] → DeployedAs cached w.deployed

/-- The steps that do not leave the remembered list ahead of or behind the resource. -/
def StepOk (auth : AuthMethods) : Op → World → Prop
  | .changeConfig _, _ => True
  | .synchronise readFails accepted, w =>
      readFails = none → ∀ credentials, configCredentials auth w.config = .ok credentials →
        credentials ≠ [] → w.credentials ≠ some credentials →
          accepted = true ∧ Deployable credentials
  | .replace credentials accepted, w =>
      accepted = false ∨ ¬ Deployable credentials ∨
        ∀ cached, w.credentials = some cached → cached ≠ [] →
          ∀ label, derivedList credentials label = derivedList cached label
  | .remove labels accepted, w =>
      accepted = false ∨ ∀ cached, w.credentials = some cached →
        ∀ cred ∈ cached, cred.label ∉ labels
  | .removeAll accepted, w =>
      accepted = false ∨ ∀ cached, w.credentials = some cached → cached = []

theorem pluginTemplate_lists (config : Dict String Json) : HasLists (World.create config) := by
  have hlists : ∀ label, ∃ items, deployedList pluginTemplate label = some (.arr items) := by
    intro label
    cases label <;> exact ⟨_, rfl⟩
  exact ⟨fun label => (hlists label).choose, fun label => (hlists label).choose_spec⟩

theorem create_inStep (config : Dict String Json) : CacheInStep (World.create config) := by
  refine ⟨pluginTemplate_lists config, fun cached hcached => ?_⟩
  cases hcached

theorem replace_inStep {w : World} (h : CacheInStep w) {credentials : List Credential}
    {accepted : Bool}
    (hok : accepted = false ∨ ¬ Deployable credentials ∨
      ∀ cached, w.credentials = some cached → cached ≠ [] →
        ∀ label, derivedList credentials label = derivedList cached label) :
    CacheInStep (replaceCredentials accepted credentials w).2 := by
  by_cases hfails : accepted = false ∨ ¬ Deployable credentials
  · obtain ⟨e, heq⟩ := replaceCredentials_failed (w := w) hfails
    rw [heq]
    exact h
  · rw [not_or, not_not, Bool.not_eq_false] at hfails
    have hsame := (hok.resolve_left (by simp [hfails.1])).resolve_left (by simp [hfails.2])
    obtain ⟨doc, heq, hdoc⟩ := replaceCredentials_accepted h.lists hfails.2
    rw [hfails.1, heq]
    refine ⟨⟨_, hdoc.2⟩, fun cached hcached hne => ⟨(h.cached cached hcached hne).1, ?_⟩⟩
    intro label
    rw [← hsame cached hcached hne label]
    exact hdoc.2 label

theorem remove_inStep {w : World} (h : CacheInStep w) {labels : List CredentialLabel}
    {accepted : Bool}
    (hok : accepted = false ∨ ∀ cached, w.credentials = some cached →
      ∀ cred ∈ cached, cred.label ∉ labels) :
    CacheInStep (removeCredentials accepted labels w).2 := by
  cases accepted with
  | false => exact h
  | true =>
      have hkeep := hok.resolve_left (by decide)
      obtain ⟨lists, hlists⟩ := h.lists
      obtain ⟨doc, heq, hdoc⟩ := removeCredentials_accepted hlists labels
      rw [heq]
      refine ⟨⟨_, hdoc⟩, fun cached hcached hne => ?_⟩
      have hold := h.cached cached hcached hne
      refine ⟨hold.1, fun label => ?_⟩
      rw [hdoc label]
      by_cases hmem : label ∈ labels
      · -- nothing remembered carries a removed label, so its list was empty before
        have hnone : derivedList cached label = [] := by
          have hfilter : (cached.filter fun cred => decide (cred.label = label)) = [] := by
            rw [List.filter_eq_nil_iff]
            intro cred hcred hlabel
            exact hkeep cached hcached cred hcred (of_decide_eq_true hlabel ▸ hmem)
          simp [derivedList, hfilter]
        rw [if_pos hmem, hnone]
      · have hsame : lists label = derivedList cached label := by
          have heqLists := (hlists label).symm.trans (hold.2 label)
          simpa using heqLists
        rw [if_neg hmem, hsame]

/-- The cache is up to date where it holds these credentials, and there are some. -/
theorem outdated_eq_false_iff {cached : Option (List Credential)} {credentials : List Credential} :
    outdated cached credentials = false ↔ cached = some credentials ∧ credentials ≠ [] := by
  cases cached with
  | none => simp [outdated]
  | some remembered =>
      simp only [outdated, reduceCtorEq, false_or, Option.some.injEq, ne_eq,
        decide_eq_false_iff_not, not_or, not_not]
      constructor
      · rintro ⟨hnil, rfl⟩
        exact ⟨rfl, hnil⟩
      · rintro ⟨rfl, hnil⟩
        exact ⟨hnil, rfl⟩

/-- What a synchronisation does: raise or return without touching anything, or remember and
deploy. -/
theorem synchroniseCredentials_cases (auth : AuthMethods) (readFails : Option Exn)
    (accepted : Bool) (w : World) :
    (∃ e, synchroniseCredentials auth readFails accepted w = (.error e, w)) ∨
    (∃ credentials, configCredentials auth w.config = .ok credentials ∧ credentials ≠ [] ∧
      w.credentials = some credentials ∧
      synchroniseCredentials auth readFails accepted w = (.ok false, w)) ∨
    (∃ credentials, readFails = none ∧ configCredentials auth w.config = .ok credentials ∧
      (credentials = [] ∨ w.credentials ≠ some credentials) ∧
      (synchroniseCredentials auth readFails accepted w).1 ≠ .ok false ∧
      (synchroniseCredentials auth readFails accepted w).2 =
        (replaceCredentials accepted credentials
          { w with credentials := some credentials }).2) := by
  cases readFails with
  | some e =>
      left
      exact ⟨e, rfl⟩
  | none =>
      cases hcreds : configCredentials auth w.config with
      | error e =>
          left
          exact ⟨e, by simp [synchroniseCredentials, hcreds]⟩
      | ok credentials =>
          right
          cases hout : outdated w.credentials credentials with
          | false =>
              left
              obtain ⟨hcached, hnil⟩ := outdated_eq_false_iff.mp hout
              exact ⟨credentials, rfl, hnil, hcached,
                by simp [synchroniseCredentials, hcreds, hout]⟩
          | true =>
              right
              have hstale : ¬ (w.credentials = some credentials ∧ credentials ≠ []) := by
                rw [← outdated_eq_false_iff, hout]
                exact Bool.noConfusion
              refine ⟨credentials, rfl, rfl, by tauto, ?_, ?_⟩
              · simp only [synchroniseCredentials, hcreds, hout, if_true]
                split <;> simp
              · simp only [synchroniseCredentials, hcreds, hout, if_true]
                split <;> simp_all

theorem synchronise_inStep {auth : AuthMethods} {w : World} (h : CacheInStep w)
    {readFails : Option Exn} {accepted : Bool}
    (hok : StepOk auth (.synchronise readFails accepted) w) :
    CacheInStep (synchroniseCredentials auth readFails accepted w).2 := by
  rcases synchroniseCredentials_cases auth readFails accepted w with ⟨e, heq⟩ |
    ⟨_, _, _, _, heq⟩ | ⟨credentials, hread, hcreds, hstale, _, heq⟩
  · rw [heq]
    exact h
  · rw [heq]
    exact h
  · rw [heq]
    have hlists : HasLists { w with credentials := some credentials } := h.lists
    by_cases hfails : accepted = false ∨ ¬ Deployable credentials
    · -- only an empty list may be remembered without being deployed
      obtain ⟨e, hrepl⟩ :=
        replaceCredentials_failed (w := { w with credentials := some credentials }) hfails
      rw [hrepl]
      refine ⟨hlists, fun cached hcached hne => ?_⟩
      have hcached' : credentials = cached := by simpa using hcached
      subst hcached'
      obtain ⟨haccepted, hdep⟩ := hok hread credentials hcreds hne (hstale.resolve_left hne)
      rcases hfails with hrejected | hnot
      · simp [haccepted] at hrejected
      · exact absurd hdep hnot
    · rw [not_or, not_not, Bool.not_eq_false] at hfails
      obtain ⟨doc, hrepl, hdoc⟩ := replaceCredentials_accepted hlists hfails.2
      rw [hfails.1, hrepl]
      refine ⟨⟨_, hdoc.2⟩, fun cached hcached _ => ?_⟩
      have hcached' : credentials = cached := by simpa using hcached
      exact hcached' ▸ hdoc

theorem step_inStep {auth : AuthMethods} (o : Op) (w : World) (hok : StepOk auth o w)
    (h : CacheInStep w) : CacheInStep (step auth o w) := by
  cases o with
  | changeConfig proxy => exact ⟨h.lists, h.cached⟩
  | synchronise readFails accepted => exact synchronise_inStep h hok
  | replace credentials accepted => exact replace_inStep h hok
  | remove labels accepted => exact remove_inStep h hok
  | removeAll accepted =>
      refine remove_inStep h (hok.imp id fun hempty cached hcached cred hcred => ?_)
      rw [hempty cached hcached] at hcred
      cases hcred

/-- In a run of such steps a synchronisation that finds nothing to do is right: the deployed lists
are those of the current production configuration. -/
theorem synchronise_false_deployed (auth : AuthMethods) (config : Dict String Json)
    (ops : List Op) (hops : EveryStep (step auth) (StepOk auth) ops (World.create config))
    (readFails : Option Exn) (accepted : Bool) :
    let w := run (step auth) ops (World.create config)
    let result := synchroniseCredentials auth readFails accepted w
    result.1 = .ok false →
      ∃ credentials, configCredentials auth w.config = .ok credentials ∧
        DeployedAs credentials result.2.deployed := by
  intro w result hfalse
  have hw : CacheInStep w := run_invariant_of_everyStep step_inStep hops (create_inStep config)
  rcases synchroniseCredentials_cases auth readFails accepted w with ⟨e, heq⟩ |
    ⟨credentials, hcreds, hne, hcached, heq⟩ | ⟨_, _, _, _, hnot, _⟩
  · have hresult : result = (.error e, w) := heq
    rw [hresult] at hfalse
    cases hfalse
  · have hresult : result = (.ok false, w) := heq
    rw [hresult]
    exact ⟨credentials, hcreds, hw.cached credentials hcached hne⟩
  · exact absurd hfalse hnot

/-- The production configuration of a service with a user key at the given location. -/
def userKeyConfig (location : String) : Dict String Json :=
  Dict.ofList [("auth_app_id", .str "app_id"), ("auth_app_key", .str "app_key"),
    ("auth_user_key", .str "user_key"), ("credentials_location", .str location),
    ("authentication_method", .str "1")]

def exampleAuth : AuthMethods := ⟨"1", "2", "oidc"⟩

theorem configCredentials_userKey {location loc : String}
    (h : translate (.str location) = .ok loc) :
    configCredentials exampleAuth (userKeyConfig location) =
      .ok [⟨.userKey, some (.str "user_key"), loc⟩] := by
  simp [configCredentials, userKeyConfig, Dict.getItem, Dict.ofList, h, exampleAuth]

/-- Synchronised, moved from the query to the headers, and synchronised again. -/
def movedRun : List Op :=
  [.synchronise none true, .changeConfig (userKeyConfig "headers"), .synchronise none true]

theorem movedRun_ok :
    EveryStep (step exampleAuth) (StepOk exampleAuth) movedRun
      (World.create (userKeyConfig "query")) := by
  have hdep : ∀ loc ∈ ["query_string", "header"],
      Deployable [⟨.userKey, some (.str "user_key"), loc⟩] := by
    intro loc hloc cred hcred
    rw [List.mem_singleton.mp hcred]
    exact ⟨_, if_pos hloc⟩
  have hsync : ∀ location loc, translate (.str location) = .ok loc →
      loc ∈ ["query_string", "header"] → ∀ credentials,
        configCredentials exampleAuth (userKeyConfig location) = .ok credentials →
          true = true ∧ Deployable credentials := by
    intro location loc hloc hmem credentials hcreds
    have heq := (configCredentials_userKey hloc).symm.trans hcreds
    cases heq
    exact ⟨rfl, hdep loc hmem⟩
  exact ⟨fun _ credentials h _ _ => hsync "query" "query_string" rfl (by decide) credentials h,
    trivial, fun _ credentials h _ _ => hsync "headers" "header" rfl (by decide) credentials h,
    trivial⟩

theorem synchronise_false_deployed_moved :
    ∃ credentials, configCredentials exampleAuth (userKeyConfig "headers") = .ok credentials ∧
      DeployedAs credentials (synchroniseCredentials exampleAuth none true
        (run (step exampleAuth) movedRun (World.create (userKeyConfig "query")))).2.deployed :=
  synchronise_false_deployed exampleAuth (userKeyConfig "query") movedRun movedRun_ok none true
    (by decide)

theorem not_deployedAs {credentials : List Credential} {doc : Json}
    (h : deployedList doc .userKey ≠ some (.arr (derivedList credentials .userKey))) :
    ¬ DeployedAs credentials doc := fun hdep => h (hdep.2 .userKey)

/-- After the operations a synchronisation finds nothing to do, and the deployed lists are not
those of the configuration. -/
def FalseWhileStale (ops : List Op) : Prop :=
  let w := run (step exampleAuth) ops (World.create (userKeyConfig "query"))
  let result := synchroniseCredentials exampleAuth none true w
  result.1 = .ok false ∧
    ¬ ∃ credentials, configCredentials exampleAuth w.config = .ok credentials ∧
      DeployedAs credentials result.2.deployed

/-- A rejected first deployment, a change to an unsupported location, and a removal that the
extension object does not remember. -/
theorem synchronise_false_stale :
    FalseWhileStale [.synchronise none false] ∧
      FalseWhileStale [.synchronise none true, .changeConfig (userKeyConfig "authorization"),
        .synchronise none true] ∧
      FalseWhileStale [.synchronise none true, .removeAll true] := by
  have hquery : translate (.str "query") = .ok "query_string" := rfl
  have hauthorization : translate (.str "authorization") = .ok "authorization" := rfl
  refine ⟨⟨by decide, fun ⟨credentials, hconfig, hdep⟩ => ?_⟩,
    ⟨by decide, fun ⟨credentials, hconfig, hdep⟩ => ?_⟩,
    ⟨by decide, fun ⟨credentials, hconfig, hdep⟩ => ?_⟩⟩
  · have heq := (configCredentials_userKey hquery).symm.trans hconfig
    cases heq
    exact not_deployedAs (by decide) hdep
  · have heq := (configCredentials_userKey hauthorization).symm.trans hconfig
    cases heq
    exact not_deployedAs (by decide) hdep
  · have heq := (configCredentials_userKey hquery).symm.trans hconfig
    cases heq
    exact not_deployedAs (by decide) hdep

end ThreescaleTests.Wasm
