import ThreescaleTests.Wasm.Extension

/-!
# Mapping rules and authorities of the WASM extension

Two further lists of the deployed service, the mapping rules and the authorities, are
replaced by JSON patches as the credentials are. The mapping rules are removed by one
patch and added by another, and the production configuration is read in between.
-/

namespace ThreescaleTests.Wasm

open Library

/-! ## Lists of the service -/

def servicePath : List String := ["spec", "pluginConfig", "services", "0"]

/-- `httpbin.patch`, with operations located below the service. -/
def patchService (accepted : Bool) (ops : List Json.PatchOp) (w : World) :
    Except Exn Unit × World :=
  if accepted then
    match Json.applyPatch (ops.map (Json.PatchOp.under servicePath)) w.deployed with
    | some doc => (.ok (), { w with deployed := doc })
    | none => (.error (.other "OpenShiftPythonException"), w)
  else (.error (.other "OpenShiftPythonException"), w)

/-- Remove a list and add an empty one. -/
def emptyOps (token : String) : List Json.PatchOp :=
  [.remove [] token, .add [] token (.arr [])]

def appendOps (token : String) (values : List Json) : List Json.PatchOp :=
  values.map fun value => .add [token] "-" value

/-! ## Mapping rules -/

def ruleItem (key : String) : Json → Except Exn Json
  | .obj fields =>
      match fields.lookup key with
      | some value => .ok value
      | none => .error (.keyError key)
  | _ => .error .typeError

def ruleObj (rule : Json) : Except Exn Json := do
  let httpMethod ← ruleItem "http_method" rule
  let pattern ← ruleItem "pattern" rule
  let metricSystemName ← ruleItem "metric_system_name" rule
  let delta ← ruleItem "delta" rule
  let last ← ruleItem "last" rule
  .ok (.obj [("method", httpMethod), ("pattern", pattern),
    ("usages", .arr [.obj [("name", metricSystemName), ("delta", delta)]]), ("last", last)])

def ruleObjs : List Json → Except Exn (List Json)
  | [] => .ok []
  | rule :: rules => do
    let obj ← ruleObj rule
    let objs ← ruleObjs rules
    .ok (obj :: objs)

def addMappingRules (accepted : Bool) (rules : List Json) (w : World) : Except Exn Unit × World :=
  match ruleObjs rules with
  | .error e => (.error e, w)
  | .ok objs => patchService accepted (appendOps "mapping_rules" objs) w

def removeAllMappingRules (accepted : Bool) (w : World) : Except Exn Unit × World :=
  patchService accepted (emptyOps "mapping_rules") w

/-- What a `for` loop over a value goes through. -/
def iterated : Json → Except Exn (List Json)
  | .arr items => .ok items
  | .obj fields => .ok (fields.map fun field => .str field.1)
  | .str s => .ok (s.toList.map fun c => .str (String.singleton c))
  | _ => .error .typeError

/-- The mapping rules of the production configuration. -/
def productionRules (proxy : Dict String Json) : Except Exn (List Json) :=
  proxy.getItem "proxy_rules" >>= iterated

/-- `synchronise_mapping_rules`; `readFails` is the exception of a failed read. -/
def synchroniseMappingRules (readFails : Option Exn) (removalAccepted additionAccepted : Bool)
    (w : World) : Except Exn Unit × World :=
  match removeAllMappingRules removalAccepted w with
  | (.error e, w') => (.error e, w')
  | (.ok (), w') =>
    match readFails with
    | some e => (.error e, w')
    | none =>
      match productionRules w'.config with
      | .error e => (.error e, w')
      | .ok rules => addMappingRules additionAccepted rules w'

/-! ## Authorities -/

/-- `replace_authorities`; `rollout` is how the roll-out of the deployment ends. -/
def replaceAuthorities (accepted : Bool) (rollout : Except Exn Unit) (authorities : List String)
    (wait overwrite : Bool) (w : World) : Except Exn Unit × World :=
  match patchService accepted ((if overwrite then emptyOps "authorities" else []) ++
      appendOps "authorities" (authorities.map Json.str)) w with
  | (.error e, w') => (.error e, w')
  | (.ok (), w') => if wait then (rollout, w') else (.ok (), w')

/-! ## What the patches do to a list -/

def serviceList (doc : Json) (token : String) : Option Json :=
  Json.get? (servicePath ++ [token]) doc

theorem serviceList_eq_some_iff {doc v : Json} {token : String} :
    serviceList doc token = some v ↔
      ∃ c, Json.get? servicePath doc = some c ∧ c.child? token = some v := by
  unfold serviceList
  rw [Json.get?_append, Option.bind_eq_some_iff]
  simp [Json.get?]

/-- A value with a member that is no element is an object. -/
theorem obj_of_child {token : String} (htoken : Json.tokenIndex? token = none) {c v : Json}
    (h : c.child? token = some v) : ∃ fields, c = .obj fields := by
  cases c with
  | obj fields => exact ⟨fields, rfl⟩
  | arr items => simp [Json.child?, htoken] at h
  | _ => simp [Json.child?] at h

theorem applyPatch_emptyOps {token : String} (htoken : Json.tokenIndex? token = none)
    {c v : Json} (h : c.child? token = some v) :
    ∃ c', Json.applyPatch (emptyOps token) c = some c' ∧ c'.child? token = some (.arr []) := by
  obtain ⟨fields, rfl⟩ := obj_of_child htoken h
  have hmem : (fields.lookup token).isSome := by
    simp only [Json.child?] at h
    simp [h]
  obtain ⟨fields', happly, hlookup⟩ := Json.applyPatch_remove_add hmem (.arr [])
  refine ⟨.obj fields', happly, ?_⟩
  simp [Json.child?, hlookup]

theorem applyPatch_appendOps {token : String} {c : Json} {items : List Json}
    (h : c.child? token = some (.arr items)) (values : List Json) :
    ∃ c', Json.applyPatch (appendOps token values) c = some c' ∧
      c'.child? token = some (.arr (items ++ values)) := by
  induction values generalizing c items with
  | nil => exact ⟨c, rfl, by simpa using h⟩
  | cons value values ih =>
      have hself := Json.child?_setChild_self h (.arr (items ++ [value]))
      obtain ⟨c', hc', hlist⟩ := ih hself
      refine ⟨c', ?_, by simpa using hlist⟩
      have hrun : (Json.PatchOp.add [token] "-" value).run c =
          some (c.setChild token (.arr (items ++ [value]))) := by
        simp [Json.PatchOp.run, Json.atPath, h, Json.addMember]
      rw [appendOps, List.map_cons, Json.applyPatch, hrun]
      exact hc'

/-- An accepted patch that applies to the service. -/
theorem patchService_accepted {w : World} {ops : List Json.PatchOp} {c c' : Json}
    (hc : Json.get? servicePath w.deployed = some c) (hops : Json.applyPatch ops c = some c') :
    ∃ doc, patchService true ops w = (.ok (), { w with deployed := doc }) ∧
      Json.applyPatch (ops.map (Json.PatchOp.under servicePath)) w.deployed = some doc ∧
      Json.get? servicePath doc = some c' := by
  obtain ⟨doc, hdoc, hget⟩ := Json.applyPatch_under_of hc hops
  exact ⟨doc, by simp [patchService, hdoc], hdoc, hget⟩

theorem patchService_rejected (ops : List Json.PatchOp) (w : World) :
    ∃ e, patchService false ops w = (.error e, w) := ⟨_, rfl⟩

/-! ## Synchronisation of the mapping rules -/

/-- The deployed mapping rules. -/
def deployedRules (w : World) : Option Json := serviceList w.deployed "mapping_rules"

theorem removeAllMappingRules_accepted {w : World} {v : Json} (h : deployedRules w = some v) :
    ∃ doc, removeAllMappingRules true w = (.ok (), { w with deployed := doc }) ∧
      serviceList doc "mapping_rules" = some (.arr []) := by
  obtain ⟨c, hc, hv⟩ := serviceList_eq_some_iff.mp h
  obtain ⟨c', hc', hempty⟩ := applyPatch_emptyOps (by decide) hv
  obtain ⟨doc, hdoc, -, hget⟩ := patchService_accepted hc hc'
  exact ⟨doc, hdoc, serviceList_eq_some_iff.mpr ⟨c', hget, hempty⟩⟩

/-- A list that is not there cannot be removed. -/
theorem removeAllMappingRules_failed {accepted : Bool} {w : World}
    (h : accepted = false ∨ deployedRules w = none) :
    ∃ e, removeAllMappingRules accepted w = (.error e, w) := by
  cases accepted with
  | false => exact patchService_rejected _ w
  | true =>
      have hnone := h.resolve_left (by decide)
      cases hpatch : Json.applyPatch ((emptyOps "mapping_rules").map
          (Json.PatchOp.under servicePath)) w.deployed with
      | none => exact ⟨_, by rw [removeAllMappingRules, patchService, if_pos rfl, hpatch]⟩
      | some doc =>
          rw [emptyOps, Json.applyPatch_under] at hpatch
          obtain ⟨c, c', hc, hops, -⟩ := Json.get?_of_atPath hpatch
          obtain ⟨d, hremove, -⟩ := Option.bind_eq_some_iff.mp hops
          obtain ⟨v, hv⟩ := Json.child?_of_removeMember hremove
          have hsome := serviceList_eq_some_iff.mpr ⟨c, hc, hv⟩
          rw [deployedRules, hsome] at hnone
          cases hnone

/-- The production configuration holds rules, each of which has an object to deploy. -/
def Translatable (proxy : Dict String Json) : Prop :=
  ∃ objs, (productionRules proxy >>= ruleObjs) = .ok objs

/-- After the removal nothing but a complete addition brings rules back. -/
theorem synchroniseMappingRules_removed {w : World} {v : Json} (h : deployedRules w = some v)
    (readFails : Option Exn) (additionAccepted : Bool) :
    ((readFails = none ∧ additionAccepted = true ∧ Translatable w.config) ∧
      (synchroniseMappingRules readFails true additionAccepted w).1 = .ok ()) ∨
    (¬ (readFails = none ∧ additionAccepted = true ∧ Translatable w.config) ∧
      ∃ e w', synchroniseMappingRules readFails true additionAccepted w = (.error e, w') ∧
        deployedRules w' = some (.arr [])) := by
  obtain ⟨doc, hremoved, hempty⟩ := removeAllMappingRules_accepted h
  unfold synchroniseMappingRules
  rw [hremoved]
  cases readFails with
  | some e => exact .inr ⟨by simp, e, _, rfl, hempty⟩
  | none =>
      cases hrules : productionRules w.config with
      | error e =>
          refine .inr ⟨fun hall => ?_, e, { w with deployed := doc }, by simp [hrules], hempty⟩
          obtain ⟨objs, hobjs⟩ := hall.2.2
          rw [hrules] at hobjs
          cases hobjs
      | ok rules =>
          cases hobjs : ruleObjs rules with
          | error e =>
              refine .inr ⟨fun hall => ?_, e, { w with deployed := doc }, ?_, hempty⟩
              · obtain ⟨objs, htranslated⟩ := hall.2.2
                rw [hrules, ok_bind, hobjs] at htranslated
                cases htranslated
              · simp [hrules, addMappingRules, hobjs]
          | ok objs =>
              cases additionAccepted with
              | false =>
                  obtain ⟨e, hrejected⟩ := patchService_rejected
                    (appendOps "mapping_rules" objs) { w with deployed := doc }
                  refine .inr ⟨by simp, e, { w with deployed := doc }, ?_, hempty⟩
                  simp [hrules, addMappingRules, hobjs, hrejected]
              | true =>
                  obtain ⟨c, hc, hlist⟩ := serviceList_eq_some_iff.mp hempty
                  obtain ⟨c', hc', -⟩ := applyPatch_appendOps hlist objs
                  obtain ⟨doc', hadded, -⟩ :=
                    patchService_accepted (w := { w with deployed := doc }) hc hc'
                  refine .inl ⟨⟨rfl, rfl, objs, by rw [hrules, ok_bind, hobjs]⟩, ?_⟩
                  simp [hrules, addMappingRules, hobjs, hadded]

/-- A synchronisation that raises leaves the rules of the resource as they were exactly if it
cannot remove them, finds none to remove, or does not raise after the removal. -/
theorem synchroniseMappingRules_atomic_iff (readFails : Option Exn)
    (removalAccepted additionAccepted : Bool) (w : World) :
    ((∃ e, (synchroniseMappingRules readFails removalAccepted additionAccepted w).1 = .error e) →
      deployedRules (synchroniseMappingRules readFails removalAccepted additionAccepted w).2 =
        deployedRules w) ↔
    removalAccepted = false ∨ deployedRules w = none ∨ deployedRules w = some (.arr []) ∨
      (readFails = none ∧ additionAccepted = true ∧ Translatable w.config) := by
  by_cases hfails : removalAccepted = false ∨ deployedRules w = none
  · obtain ⟨e, hfailed⟩ := removeAllMappingRules_failed hfails
    have hunchanged : synchroniseMappingRules readFails removalAccepted additionAccepted w =
        (.error e, w) := by
      rw [synchroniseMappingRules, hfailed]
    rw [hunchanged]
    exact iff_of_true (fun _ => rfl) (by tauto)
  · rw [not_or, Bool.not_eq_false] at hfails
    obtain ⟨hremoval, hnot⟩ := hfails
    obtain ⟨v, hv⟩ := Option.ne_none_iff_exists'.mp hnot
    subst hremoval
    rcases synchroniseMappingRules_removed hv readFails additionAccepted with
      ⟨hall, hok⟩ | ⟨hnotall, e, w', heq, hempty⟩
    · refine iff_of_true ?_ (.inr (.inr (.inr hall)))
      rintro ⟨e, he⟩
      rw [hok] at he
      cases he
    · rw [heq]
      constructor
      · intro hkept
        have hsame := hkept ⟨e, rfl⟩
        exact .inr (.inr (.inl (hsame.symm.trans hempty)))
      · rintro (hremoval | hnone | hnil | hall)
        · cases hremoval
        · exact absurd hnone hnot
        · exact fun _ => hempty.trans hnil.symm
        · exact absurd hall hnotall

/-- A deployed extension with one authority and one mapping rule. -/
def ruledExtension : World where
  credentials := none
  deployed := .obj [("spec", .obj [("pluginConfig", .obj [("services", .arr [.obj [
    ("authorities", .arr [.str "*"]),
    ("mapping_rules", .arr [.obj [("method", .str "GET"), ("pattern", .str "/")]])]])])])]
  config := Dict.ofList []

/-- A configuration that cannot be read costs the extension its rules. -/
theorem synchroniseMappingRules_not_atomic :
    let result := synchroniseMappingRules (some (.other "ApiClientError")) true true ruledExtension
    result.1 = .error (.other "ApiClientError") ∧
      deployedRules ruledExtension =
        some (.arr [.obj [("method", .str "GET"), ("pattern", .str "/")]]) ∧
      deployedRules result.2 = some (.arr []) := by
  decide

end ThreescaleTests.Wasm
