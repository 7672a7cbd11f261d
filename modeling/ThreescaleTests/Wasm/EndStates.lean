import ThreescaleTests.Library.JsonFrame
import ThreescaleTests.Wasm.Credentials
import ThreescaleTests.Wasm.MappingRules

/-!
# End states of the patches

A patch of the extension first empties a list and then appends to it. Applied to a
resource that holds the list, it leaves exactly the appended objects, in their
order, and everything outside the list as it was. A list that is not there cannot be
emptied: the template of the extension has no mapping rules, so that those of a new
extension can neither be removed nor added.
-/

namespace ThreescaleTests.Wasm

open Library

/-! ## Credentials -/

/-- The credentials that `replace_credentials` knows how to deploy. -/
def Supported (cred : Credential) : Prop :=
  cred.credentialLocation = "oidc" ∨
    cred.credentialLocation ∈ ["query_string", "header"] ∧ ∃ key, cred.key = some key

/-- What stands for a credential in the resource: its key at the location, or the claims of the
token that the proxy has verified. -/
inductive CredentialForm : Credential → Json → Prop
  | key (label : CredentialLabel) (location : String) (key : Json)
      (hlocation : location = "query_string" ∨ location = "header") :
      CredentialForm ⟨label, some key, location⟩ (.obj [(location, .obj [("keys", .arr [key])])])
  | token (label : CredentialLabel) (key : Option Json) :
      CredentialForm ⟨label, key, "oidc"⟩ (.obj [("filter", .obj [
        ("path", .arr [.str "envoy.filters.http.jwt_authn", .str "0"]),
        ("keys", .arr [.str "azp", .str "aud"]),
        ("ops", .arr [.obj [("take", .obj [("head", .num 1)])]])])])

theorem Supported.exists_form {cred : Credential} (h : Supported cred) :
    ∃ obj, credentialObj cred = .ok obj ∧ CredentialForm cred obj := by
  obtain ⟨label, key?, location⟩ := cred
  rcases h with hoidc | ⟨hlocation, key, hkey⟩
  · subst hoidc
    exact ⟨_, rfl, .token label key?⟩
  · subst hkey
    exact ⟨_, if_pos hlocation, .key label location key (by simpa using hlocation)⟩

theorem Supported.deployable {credentials : List Credential}
    (h : ∀ cred ∈ credentials, Supported cred) : Deployable credentials := by
  intro cred hcred
  obtain ⟨obj, hobj, -⟩ := (h cred hcred).exists_form
  exact ⟨obj, hobj⟩

/-- The derived lists hold the objects of the credentials one by one. -/
theorem forall₂_derivedList {credentials : List Credential}
    (h : ∀ cred ∈ credentials, Supported cred) (label : CredentialLabel) :
    List.Forall₂ CredentialForm (credentials.filter fun cred => decide (cred.label = label))
      (derivedList credentials label) := by
  have hall : ∀ cred ∈ credentials.filter fun cred => decide (cred.label = label),
      Supported cred := fun cred hcred => h cred (List.mem_of_mem_filter hcred)
  unfold derivedList
  revert hall
  generalize credentials.filter _ = chosen
  intro hall
  induction chosen with
  | nil => exact .nil
  | cons cred chosen ih =>
      rw [List.forall_mem_cons] at hall
      obtain ⟨obj, hobj, hform⟩ := hall.1.exists_form
      have hoption : (credentialObj cred).toOption = some obj := by rw [hobj]; rfl
      rw [List.filterMap_cons, hoption]
      exact .cons hform (ih hall.2)

theorem resetOps_member {labels : List CredentialLabel} {op : Json.PatchOp}
    (h : op ∈ labels.flatMap resetOps) : op.member ∈ labels.map CredentialLabel.text := by
  obtain ⟨label, hlabel, hop⟩ := List.mem_flatMap.mp h
  have hmember : op.member = label.text := by
    simp only [resetOps, List.mem_cons, List.not_mem_nil, or_false] at hop
    rcases hop with rfl | rfl <;> rfl
  exact hmember ▸ List.mem_map_of_mem hlabel

theorem addOps_member {credentials : List Credential} {ops : List Json.PatchOp}
    (h : addOps credentials = .ok ops) :
    ∀ op ∈ ops, op.member ∈ allLabels.map CredentialLabel.text := by
  induction credentials generalizing ops with
  | nil =>
      have heq : [] = ops := by simpa [addOps] using h
      simp [← heq]
  | cons cred credentials ih =>
      obtain ⟨obj, -, hrest⟩ := bind_eq_ok_iff.mp h
      obtain ⟨ops', hops', heq⟩ := bind_eq_ok_iff.mp hrest
      have hcons : .add [cred.label.text] "-" obj :: ops' = ops := by simpa using heq
      rw [← hcons, List.forall_mem_cons]
      refine ⟨?_, ih hops'⟩
      have hlabel : cred.label ∈ allLabels := by cases cred.label <;> decide
      exact List.mem_map_of_mem hlabel

/-- What an operation of a patch that was applied did to the document. -/
theorem applyPatch_of_patch {accepted : Bool} {ops : List Json.PatchOp} {w w' : World}
    (h : patch accepted ops w = (.ok (), w')) :
    Json.applyPatch (ops.map (Json.PatchOp.under credentialsPath)) w.deployed =
      some w'.deployed := by
  cases accepted with
  | false => cases h
  | true =>
      rw [patch, if_pos rfl] at h
      split at h
      · rename_i doc hdoc
        rw [hdoc, ← (Prod.mk.inj h).2]
      · cases h

theorem HasLists.obj {w : World} (h : HasLists w) {c : Json}
    (hc : Json.get? credentialsPath w.deployed = some c) : ∃ fields, c = .obj fields := by
  obtain ⟨lists, hlists⟩ := h
  exact ((holdsLists_iff hc).mpr hlists).eq_obj

theorem replaceCredentials_changedOnly {w : World} (h : HasLists w) {accepted : Bool}
    {credentials : List Credential} {w' : World}
    (hreplaced : replaceCredentials accepted credentials w = (.ok (), w')) :
    Json.ChangedOnly (allLabels.map fun label => credentialsPath ++ [label.text])
      w.deployed w'.deployed := by
  unfold replaceCredentials at hreplaced
  cases hops : addOps credentials with
  | error e => simp [hops] at hreplaced
  | ok ops =>
      simp only [hops] at hreplaced
      have hpatch := applyPatch_of_patch hreplaced
      have hmembers : ∀ op ∈ allLabels.flatMap resetOps ++ ops,
          op.member ∈ allLabels.map CredentialLabel.text := by
        intro op hop
        rcases List.mem_append.mp hop with hreset | hadd
        · exact resetOps_member hreset
        · exact addOps_member hops op hadd
      have hchanged := Json.applyPatch_under_changedOnly (fun _ hc => h.obj hc) hmembers hpatch
      rw [List.map_map] at hchanged
      exact hchanged

/-! ## Lists of the service -/

theorem emptyOps_member {token : String} {op : Json.PatchOp} (h : op ∈ emptyOps token) :
    op.member ∈ [token] := by
  simp only [emptyOps, List.mem_cons, List.not_mem_nil, or_false] at h
  rcases h with rfl | rfl <;> exact List.mem_singleton.mpr rfl

theorem appendOps_member {token : String} {values : List Json} {op : Json.PatchOp}
    (h : op ∈ appendOps token values) : op.member ∈ [token] := by
  obtain ⟨value, -, rfl⟩ := List.mem_map.mp h
  exact List.mem_singleton.mpr rfl

/-- An accepted patch of one list of the service. -/
theorem patchService_list {w : World} {token : String} (htoken : Json.tokenIndex? token = none)
    {ops : List Json.PatchOp} (hmembers : ∀ op ∈ ops, op.member ∈ [token]) {v v' : Json}
    (h : serviceList w.deployed token = some v)
    (hops : ∀ c, c.child? token = some v →
      ∃ c', Json.applyPatch ops c = some c' ∧ c'.child? token = some v') :
    ∃ doc, patchService true ops w = (.ok (), { w with deployed := doc }) ∧
      serviceList doc token = some v' ∧
      Json.ChangedOnly [servicePath ++ [token]] w.deployed doc := by
  obtain ⟨c, hc, hv⟩ := serviceList_eq_some_iff.mp h
  obtain ⟨c', hc', hv'⟩ := hops c hv
  obtain ⟨doc, hpatch, happly, hget⟩ := patchService_accepted hc hc'
  refine ⟨doc, hpatch, serviceList_eq_some_iff.mpr ⟨c', hget, hv'⟩, ?_⟩
  have hobj : ∀ d, Json.get? servicePath w.deployed = some d → ∃ fields, d = .obj fields := by
    intro d hd
    rw [hc] at hd
    exact Option.some.inj hd ▸ obj_of_child htoken hv
  exact Json.applyPatch_under_changedOnly hobj hmembers happly

/-- The attributes of a rule that are deployed. -/
def HasAttributes (rule : Json) : Prop :=
  ∃ fields, rule = .obj fields ∧
    ∀ key ∈ ["http_method", "pattern", "metric_system_name", "delta", "last"],
      ∃ value, fields.lookup key = some value

/-- What stands for a mapping rule in the resource. -/
inductive RuleForm : Json → Json → Prop
  | usage (fields : List (String × Json)) (httpMethod pattern metricSystemName delta last : Json)
      (hmethod : fields.lookup "http_method" = some httpMethod)
      (hpattern : fields.lookup "pattern" = some pattern)
      (hname : fields.lookup "metric_system_name" = some metricSystemName)
      (hdelta : fields.lookup "delta" = some delta)
      (hlast : fields.lookup "last" = some last) :
      RuleForm (.obj fields) (.obj [("method", httpMethod), ("pattern", pattern),
        ("usages", .arr [.obj [("name", metricSystemName), ("delta", delta)]]), ("last", last)])

theorem HasAttributes.exists_form {rule : Json} (h : HasAttributes rule) :
    ∃ obj, ruleObj rule = .ok obj ∧ RuleForm rule obj := by
  obtain ⟨fields, rfl, hkeys⟩ := h
  obtain ⟨httpMethod, hmethod⟩ := hkeys "http_method" (by decide)
  obtain ⟨pattern, hpattern⟩ := hkeys "pattern" (by decide)
  obtain ⟨metricSystemName, hname⟩ := hkeys "metric_system_name" (by decide)
  obtain ⟨delta, hdelta⟩ := hkeys "delta" (by decide)
  obtain ⟨last, hlast⟩ := hkeys "last" (by decide)
  refine ⟨_, ?_, .usage fields httpMethod pattern metricSystemName delta last hmethod hpattern hname
    hdelta hlast⟩
  simp only [ruleObj, ruleItem, hmethod, hpattern, hname, hdelta, hlast, ok_bind]

theorem ruleObjs_forall₂ {rules : List Json} (h : ∀ rule ∈ rules, HasAttributes rule) :
    ∃ objs, ruleObjs rules = .ok objs ∧ List.Forall₂ RuleForm rules objs := by
  induction rules with
  | nil => exact ⟨[], rfl, .nil⟩
  | cons rule rules ih =>
      rw [List.forall_mem_cons] at h
      obtain ⟨obj, hobj, hform⟩ := h.1.exists_form
      obtain ⟨objs, hobjs, hall⟩ := ih h.2
      exact ⟨obj :: objs, by simp [ruleObjs, hobj, hobjs], .cons hform hall⟩

/-- An applied patch edits the service. -/
theorem patchService_ok {accepted : Bool} {op : Json.PatchOp} {ops : List Json.PatchOp}
    {w w' : World} (h : patchService accepted (op :: ops) w = (.ok (), w')) :
    ∃ c c', Json.get? servicePath w.deployed = some c ∧
      Json.applyPatch (op :: ops) c = some c' ∧ Json.get? servicePath w'.deployed = some c' := by
  cases accepted with
  | false => cases h
  | true =>
      rw [patchService, if_pos rfl] at h
      split at h
      · rename_i doc hdoc
        rw [Json.applyPatch_under] at hdoc
        rw [← (Prod.mk.inj h).2]
        exact Json.get?_of_atPath hdoc
      · cases h

/-- A patch that is not applied leaves the resource. -/
theorem patchService_cases (accepted : Bool) (ops : List Json.PatchOp) (w : World) :
    (∃ w', patchService accepted ops w = (.ok (), w')) ∨
      ∃ e, patchService accepted ops w = (.error e, w) := by
  cases accepted with
  | false => exact Or.inr ⟨_, rfl⟩
  | true =>
      rw [patchService, if_pos rfl]
      split
      · exact Or.inl ⟨_, rfl⟩
      · exact Or.inr ⟨_, rfl⟩

/-! ## Authorities -/

/-- The authorities of the resource; a member that is no list holds none. -/
def deployedAuthorities (w : World) : List Json :=
  match serviceList w.deployed "authorities" with
  | some (.arr items) => items
  | _ => []

/-- What the patch of the authorities finds: a member to replace, or a list to append to. -/
def HasAuthorities (overwrite : Bool) (w : World) : Prop :=
  if overwrite then ∃ old, serviceList w.deployed "authorities" = some old
  else ∃ old, serviceList w.deployed "authorities" = some (.arr old)

def AuthoritiesReached (w : World) (rollout : Except Exn Unit) (authorities : List String)
    (wait overwrite : Bool) : Prop :=
  ∃ doc, replaceAuthorities true rollout authorities wait overwrite w =
      (if wait then rollout else .ok (), { w with deployed := doc }) ∧
    serviceList doc "authorities" = some (.arr
      ((if overwrite then [] else deployedAuthorities w) ++ authorities.map Json.str)) ∧
    Json.ChangedOnly [servicePath ++ ["authorities"]] w.deployed doc

theorem replaceAuthorities_reaches {w : World} {overwrite : Bool} (h : HasAuthorities overwrite w)
    (rollout : Except Exn Unit) (authorities : List String) (wait : Bool) :
    AuthoritiesReached w rollout authorities wait overwrite := by
  have hmembers : ∀ op ∈ (if overwrite then emptyOps "authorities" else []) ++
      appendOps "authorities" (authorities.map Json.str), op.member ∈ ["authorities"] := by
    intro op hop
    rcases List.mem_append.mp hop with hempty | happend
    · split_ifs at hempty with hover
      · exact emptyOps_member hempty
      · cases hempty
    · exact appendOps_member happend
  have hlist : ∃ old, serviceList w.deployed "authorities" = some old ∧
      ∀ c : Json, c.child? "authorities" = some old →
        ∃ c', Json.applyPatch ((if overwrite then emptyOps "authorities" else []) ++
            appendOps "authorities" (authorities.map Json.str)) c = some c' ∧
          c'.child? "authorities" = some (.arr
            ((if overwrite then [] else deployedAuthorities w) ++ authorities.map Json.str)) := by
    cases overwrite with
    | true =>
        obtain ⟨old, hold⟩ := h
        refine ⟨old, hold, fun c hc => ?_⟩
        obtain ⟨c', hc', hempty⟩ := applyPatch_emptyOps (by decide) hc
        rw [Json.applyPatch_append, if_pos rfl, hc', Option.bind_some]
        exact applyPatch_appendOps hempty _
    | false =>
        obtain ⟨old, hold⟩ := h
        have hdeployed : deployedAuthorities w = old := by rw [deployedAuthorities, hold]
        refine ⟨.arr old, hold, fun c hc => ?_⟩
        rw [if_neg Bool.false_ne_true, if_neg Bool.false_ne_true, hdeployed]
        exact applyPatch_appendOps hc _
  obtain ⟨old, hold, hops⟩ := hlist
  obtain ⟨doc, hpatch, hreached, hchanged⟩ := patchService_list (by decide) hmembers hold hops
  refine ⟨doc, ?_, hreached, hchanged⟩
  rw [replaceAuthorities, hpatch]
  cases wait <;> rfl

/-- What is no list before an append is none after it. -/
theorem applyPatch_appendOps_no_list {token : String} {c c' : Json} {values : List Json}
    (h : ∀ items, c.child? token ≠ some (.arr items))
    (hpatch : Json.applyPatch (appendOps token values) c = some c') :
    ∀ items, c'.child? token ≠ some (.arr items) := by
  induction values generalizing c with
  | nil =>
      cases hpatch
      exact h
  | cons value values ih =>
      obtain ⟨c1, hrun, hrest⟩ := Option.bind_eq_some_iff.mp hpatch
      obtain ⟨d, hd, hedit⟩ := Option.bind_eq_some_iff.mp hrun
      obtain ⟨d', hadded, hset⟩ := Option.bind_eq_some_iff.mp hedit
      refine ih (fun items hitems => ?_) hrest
      cases hset
      rw [Json.child?_setChild_self hd] at hitems
      cases hitems
      cases d with
      | arr old => exact h old hd
      | _ => cases hadded

/-- A service whose member is no list has none after an append either. -/
theorem patchService_appendOps_no_list {w : World} {token : String} {values : List Json}
    (h : ∀ items, serviceList w.deployed token ≠ some (.arr items)) :
    ∀ items, serviceList (patchService true (appendOps token values) w).2.deployed token ≠
      some (.arr items) := by
  rcases patchService_cases true (appendOps token values) w with ⟨w', happly⟩ | ⟨e, hfailed⟩
  · cases values with
    | nil =>
        cases happly
        exact h
    | cons value values =>
        obtain ⟨c, c', hc, hops, hc'⟩ := patchService_ok happly
        have hno : ∀ items, c.child? token ≠ some (.arr items) :=
          fun items hitems => h items (serviceList_eq_some_iff.mpr ⟨c, hc, hitems⟩)
        intro items hitems
        rw [happly] at hitems
        obtain ⟨d, hd, hlist⟩ := serviceList_eq_some_iff.mp hitems
        obtain rfl := Option.some.inj (hc'.symm.trans hd)
        exact @applyPatch_appendOps_no_list token c c' (value :: values) hno hops items hlist
  · rw [hfailed]
    exact h

/-- A member that is not there cannot be replaced. -/
theorem patchService_emptyOps_missing {w : World} {token : String}
    (h : serviceList w.deployed token = none) (ops : List Json.PatchOp) :
    (patchService true (emptyOps token ++ ops) w).2 = w := by
  rcases patchService_cases true (emptyOps token ++ ops) w with ⟨w', happly⟩ | ⟨e, hfailed⟩
  · obtain ⟨c, c', hc, hops, -⟩ := patchService_ok happly
    obtain ⟨d, hremove, -⟩ := Option.bind_eq_some_iff.mp hops
    obtain ⟨v, hv⟩ := Json.child?_of_removeMember hremove
    rw [serviceList_eq_some_iff.mpr ⟨c, hc, hv⟩] at h
    cases h
  · rw [hfailed]

theorem replaceAuthorities_world (rollout : Except Exn Unit) (authorities : List String)
    (wait overwrite : Bool) (w : World) :
    (replaceAuthorities true rollout authorities wait overwrite w).2 =
      (patchService true ((if overwrite then emptyOps "authorities" else []) ++
        appendOps "authorities" (authorities.map Json.str)) w).2 := by
  unfold replaceAuthorities
  split
  · rename_i e w' hpatch
    rw [hpatch]
  · rename_i w' hpatch
    rw [hpatch]
    cases wait <;> rfl

/-- The authorities that are replaced have to be there, and those that are kept to be a list. -/
theorem AuthoritiesReached.hasAuthorities {w : World} {rollout : Except Exn Unit}
    {authorities : List String} {wait overwrite : Bool}
    (h : AuthoritiesReached w rollout authorities wait overwrite) :
    HasAuthorities overwrite w := by
  obtain ⟨doc, hreplaced, hlist, -⟩ := h
  have hworld := replaceAuthorities_world rollout authorities wait overwrite w
  rw [hreplaced] at hworld
  have hdoc : doc = (patchService true ((if overwrite then emptyOps "authorities" else []) ++
      appendOps "authorities" (authorities.map Json.str)) w).2.deployed :=
    congrArg World.deployed hworld
  by_contra hnot
  cases overwrite with
  | true =>
      have hnone : serviceList w.deployed "authorities" = none :=
        Option.eq_none_iff_forall_ne_some.mpr fun old hold => hnot ⟨old, hold⟩
      rw [if_pos rfl, patchService_emptyOps_missing hnone] at hdoc
      rw [hdoc, hnone] at hlist
      cases hlist
  | false =>
      have hno : ∀ items, serviceList w.deployed "authorities" ≠ some (.arr items) :=
        fun items hitems => hnot ⟨items, hitems⟩
      rw [if_neg Bool.false_ne_true, List.nil_append] at hdoc
      rw [hdoc] at hlist
      exact patchService_appendOps_no_list hno _ hlist

/-! ## Mapping rules -/

/-- Removing all mapping rules and adding the given ones leaves exactly these. -/
def RulesReached (w : World) (rules : List Json) : Prop :=
  ∃ w1 doc objs, removeAllMappingRules true w = (.ok (), w1) ∧
    addMappingRules true rules w1 = (.ok (), { w with deployed := doc }) ∧
    List.Forall₂ RuleForm rules objs ∧ serviceList doc "mapping_rules" = some (.arr objs) ∧
    Json.ChangedOnly [servicePath ++ ["mapping_rules"]] w.deployed doc

theorem removeAll_add_reaches {w : World} {old : Json} (h : deployedRules w = some old)
    {rules : List Json} (hrules : ∀ rule ∈ rules, HasAttributes rule) : RulesReached w rules := by
  obtain ⟨objs, hobjs, hall⟩ := ruleObjs_forall₂ hrules
  obtain ⟨doc1, hremoved, hempty, hchanged1⟩ := patchService_list (by decide)
    (fun _ hop => emptyOps_member hop) h fun c hc => applyPatch_emptyOps (by decide) hc
  obtain ⟨doc2, hadded, hlist, hchanged2⟩ :=
    patchService_list (w := { w with deployed := doc1 }) (by decide)
      (fun _ hop => appendOps_member hop) hempty fun c hc => applyPatch_appendOps hc objs
  refine ⟨_, doc2, objs, hremoved, ?_, hall, by simpa using hlist, ?_⟩
  · rw [addMappingRules, hobjs]
    exact hadded
  · exact hchanged1.trans hchanged2

theorem RulesReached.hasRules {w : World} {rules : List Json} (h : RulesReached w rules) :
    ∃ old, deployedRules w = some old := by
  by_contra hnot
  obtain ⟨w1, doc, objs, hremoved, -⟩ := h
  have hnone : deployedRules w = none :=
    Option.eq_none_iff_forall_ne_some.mpr fun old hold => hnot ⟨old, hold⟩
  obtain ⟨e, hfailed⟩ := @removeAllMappingRules_failed true w (Or.inr hnone)
  rw [hremoved] at hfailed
  cases hfailed

/-! ## The end states -/

/-- The credentials of each label are those given for it, in their order. -/
def CredentialsReached (w : World) (credentials : List Credential) : Prop :=
  ∃ doc, replaceCredentials true credentials w = (.ok (), { w with deployed := doc }) ∧
    (∀ label, ∃ objs, deployedList doc label = some (.arr objs) ∧
      List.Forall₂ CredentialForm (credentials.filter fun cred => decide (cred.label = label))
        objs) ∧
    Json.ChangedOnly (allLabels.map fun label => credentialsPath ++ [label.text])
      w.deployed doc

theorem replaceCredentials_reaches {w : World} (h : HasLists w) {credentials : List Credential}
    (hsupported : ∀ cred ∈ credentials, Supported cred) : CredentialsReached w credentials := by
  obtain ⟨doc, hreplaced, -, hdeployed⟩ :=
    replaceCredentials_accepted h (Supported.deployable hsupported)
  refine ⟨doc, hreplaced, fun label => ?_, replaceCredentials_changedOnly h hreplaced⟩
  exact ⟨_, hdeployed label, forall₂_derivedList hsupported label⟩

/-- Every accepted replacement leaves the given objects, in their order, and nothing else changed:
the credentials of each label always, the authorities and the mapping rules exactly where the
resource has what is replaced. -/
theorem replacements_reach_iff {w : World} (hlists : HasLists w) {credentials : List Credential}
    (hsupported : ∀ cred ∈ credentials, Supported cred) {rules : List Json}
    (hrules : ∀ rule ∈ rules, HasAttributes rule) (rollout : Except Exn Unit)
    (authorities : List String) (wait overwrite : Bool) :
    CredentialsReached w credentials ∧
      (AuthoritiesReached w rollout authorities wait overwrite ↔ HasAuthorities overwrite w) ∧
      (RulesReached w rules ↔ ∃ old, deployedRules w = some old) := by
  refine ⟨replaceCredentials_reaches hlists hsupported,
    ⟨AuthoritiesReached.hasAuthorities, fun h => ?_⟩, ⟨RulesReached.hasRules, fun h => ?_⟩⟩
  · exact replaceAuthorities_reaches h rollout authorities wait
  · obtain ⟨old, hold⟩ := h
    exact removeAll_add_reaches hold hrules

/-! ## A new extension, and one with rules -/

def exampleCredentials : List Credential :=
  [⟨.appId, some (.str "id"), "header"⟩, ⟨.userKey, none, "oidc"⟩,
    ⟨.appId, some (.str "app_id"), "query_string"⟩]

def exampleMappingRule : Json :=
  .obj [("http_method", .str "POST"), ("pattern", .str "/ip"), ("metric_system_name", .str "hits"),
    ("delta", .num 1), ("last", .bool false)]

theorem exampleMappingRule_attributes : ∀ rule ∈ [exampleMappingRule], HasAttributes rule := by
  intro rule hrule
  rw [List.mem_singleton.mp hrule]
  refine ⟨_, rfl, fun key hkey => Option.isSome_iff_exists.mp ?_⟩
  revert key
  decide

/-- The template of the extension has no mapping rules to remove. -/
theorem not_rulesReached_created :
    HasLists (World.create (.ofList [])) ∧ HasAttributes exampleMappingRule ∧
      ¬ RulesReached (World.create (.ofList [])) [exampleMappingRule] := by
  refine ⟨pluginTemplate_lists _, exampleMappingRule_attributes _ List.mem_cons_self, fun h => ?_⟩
  obtain ⟨old, hold⟩ := h.hasRules
  cases hold

/-- An extension with the given rules beside the lists of the template. -/
def extensionWithRules (rules : List Json) : World where
  credentials := none
  deployed := .obj [("spec", .obj [("pluginConfig", .obj [("services", .arr [.obj [
    ("authorities", .arr [.str "*"]),
    ("credentials", .obj [("user_key", .arr [.str "old"]), ("app_id", .arr []),
      ("app_key", .arr [.null])]),
    ("mapping_rules", .arr rules)]])])])]
  config := Dict.ofList []

theorem extensionWithRules_lists (rules : List Json) : HasLists (extensionWithRules rules) :=
  ⟨fun label => if label = .userKey then [.str "old"] else if label = .appKey then [.null] else [],
    fun label => by cases label <;> rfl⟩

/-- Both credentials of the application ID take the place of none, and the rule that of another. -/
theorem replacements_reach_iff_rules :
    CredentialsReached (extensionWithRules [.null]) exampleCredentials ∧
      AuthoritiesReached (extensionWithRules [.null]) (.ok ()) ["api"] false false ∧
      RulesReached (extensionWithRules [.null]) [exampleMappingRule] := by
  have hsupported : ∀ cred ∈ exampleCredentials, Supported cred := by
    simp [exampleCredentials, Supported]
  obtain ⟨hcredentials, hauthorities, hrules⟩ :=
    replacements_reach_iff (extensionWithRules_lists [.null]) hsupported
      exampleMappingRule_attributes (.ok ()) ["api"] false false
  exact ⟨hcredentials, hauthorities.mpr ⟨[.str "*"], rfl⟩, hrules.mpr ⟨_, rfl⟩⟩

end ThreescaleTests.Wasm
