import ThreescaleTests.Toolbox.FaithfulCopy
import ThreescaleTests.Toolbox.PairCheck

/-!
# What an accepted pair of proxies has in common

The latest configurations are compared level by level. A part that is ignored on
one level is opened on the next, except for the proxy rules: the loop over them
takes both of its operands from the first proxy, so the rules of the second one
are never read.
-/

namespace ThreescaleTests.Toolbox

open Library

variable {V : Type} [PyValue V]

/-! ## Agreement of two proxies -/

/-- The attributes of the `proxy` part that are left out of its comparison. -/
def lastProxyIgnored : ProductService → List String
  | .product => proxyConfigContentProxyCmpAttrs
  | .service => "api_backend" :: proxyConfigContentProxyCmpAttrs

/-- The contents of the latest sandbox configurations and the `proxy` parts in them. -/
structure ConfigParts (proxy1 proxy2 : Proxy V)
    (content1 content2 lastProxy1 lastProxy2 : Attrs V) : Prop where
  hasContent1 : DictAt (proxy1.latestConfig "sandbox") "content" content1
  hasContent2 : DictAt (proxy2.latestConfig "sandbox") "content" content2
  hasProxy1 : DictAt content1 "proxy" lastProxy1
  hasProxy2 : DictAt content2 "proxy" lastProxy2

/-- Proxy rules that are equal up to the ignored attributes. -/
def ProxyRuleSame (rule1 rule2 : V) : Prop :=
  ∃ d1 d2, PyValue.dict? rule1 = some d1 ∧ PyValue.dict? rule2 = some d2 ∧
    EqExcept proxyRulesCmpAttrs d1 d2

/-- As many rules on both sides, equal one by one. -/
def ProxyRulesAgree (lastProxy1 lastProxy2 : Attrs V) : Prop :=
  ∃ rules1 rules2, ListAt lastProxy1 "proxy_rules" rules1 ∧
    ListAt lastProxy2 "proxy_rules" rules2 ∧ List.Forall₂ ProxyRuleSame rules1 rules2

/-- Policy chains that are equal after the policy inserted by the system. -/
def ChainsAgree (lastProxy1 lastProxy2 : Attrs V) : Prop :=
  ∃ chain1 chain2, ListAt lastProxy1 "policy_chain" chain1 ∧
    ListAt lastProxy2 "policy_chain" chain2 ∧ chain1.drop 1 = chain2.drop 1

/-- Everything in the latest configurations that is not ignored is equal. -/
def ProxiesAgree (proxy1 proxy2 : Proxy V) (productService : ProductService) : Prop :=
  ∃ content1 content2 lastProxy1 lastProxy2,
    ConfigParts proxy1 proxy2 content1 content2 lastProxy1 lastProxy2 ∧
    EqExcept proxyConfigContentCmpAttrs content1 content2 ∧
    EqExcept (lastProxyIgnored productService) lastProxy1 lastProxy2 ∧
    (productService = .product → ChainsAgree lastProxy1 lastProxy2) ∧
    ProxyRulesAgree lastProxy1 lastProxy2

/-- The second configuration has no attributes of its own, on either level, and its rules are
those of the first. -/
def NothingMissed (proxy1 proxy2 : Proxy V) (productService : ProductService) : Prop :=
  ∃ content1 content2 lastProxy1 lastProxy2,
    ConfigParts proxy1 proxy2 content1 content2 lastProxy1 lastProxy2 ∧
    surplus proxyConfigContentCmpAttrs content1 content2 = [] ∧
    surplus (lastProxyIgnored productService) lastProxy1 lastProxy2 = [] ∧
    ProxyRulesAgree lastProxy1 lastProxy2

/-! ## Reading a configuration -/

theorem dictAt_iff {ent d : Attrs V} {k : String} :
    (ent.getItem k >>= asDict) = .ok d ↔ DictAt ent k d := by
  refine ⟨fun h => ?_, DictAt.eval⟩
  obtain ⟨v, hv, hd⟩ := bind_eq_ok_iff.mp h
  exact ⟨v, getItem_eq_ok_iff.mp hv, asDict_eq_ok_iff.mp hd⟩

theorem listAt_iff {ent : Attrs V} {k : String} {vs : List V} :
    (ent.getItem k >>= asList) = .ok vs ↔ ListAt ent k vs := by
  refine ⟨fun h => ?_, ListAt.eval⟩
  obtain ⟨v, hv, hl⟩ := bind_eq_ok_iff.mp h
  refine ⟨v, getItem_eq_ok_iff.mp hv, ?_⟩
  unfold asList at hl
  cases hlist : PyValue.list? v with
  | none => simp [hlist] at hl
  | some vs' => simpa [hlist] using hl

theorem DictAt.unique {ent d d' : Attrs V} {k : String} (h : DictAt ent k d)
    (h' : DictAt ent k d') : d = d' := Except.ok.inj (h.eval.symm.trans h'.eval)

theorem ConfigParts.unique {proxy1 proxy2 : Proxy V} {c1 c2 l1 l2 c1' c2' l1' l2' : Attrs V}
    (h : ConfigParts proxy1 proxy2 c1 c2 l1 l2) (h' : ConfigParts proxy1 proxy2 c1' c2' l1' l2') :
    c1 = c1' ∧ c2 = c2' ∧ l1 = l1' ∧ l2 = l2' := by
  have hc1 := h.hasContent1.unique h'.hasContent1
  have hc2 := h.hasContent2.unique h'.hasContent2
  refine ⟨hc1, hc2, h.hasProxy1.unique (hc1 ▸ h'.hasProxy1), ?_⟩
  exact h.hasProxy2.unique (hc2 ▸ h'.hasProxy2)

omit [PyValue V] in
theorem attrsExcept_cons (ent : Attrs V) (attr : String) (ignored : List String) :
    attrsExcept ent (attr :: ignored) =
      (attrsExcept ent ignored).filter fun k => decide (k ≠ attr) := by
  unfold attrsExcept
  rw [List.filter_filter]
  refine List.filter_congr fun k _ => ?_
  simp [not_or]

/-! ## What acceptance says -/

variable [DecidableEq V] [JsonDiff V]

/-- The `proxy` parts of an accepted pair: the attributes of the first are found in the second, the
chains of products agree, and nothing is said about the rules of the second. -/
theorem cmpLastProxies_ok [LawfulJsonDiff V] {lastProxy1 lastProxy2 : Attrs V}
    {productService : ProductService}
    (h : cmpLastProxies lastProxy1 lastProxy2 productService = .ok ()) :
    PartExcept (lastProxyIgnored productService) lastProxy1 lastProxy2 ∧
      (productService = .product → ChainsAgree lastProxy1 lastProxy2) := by
  unfold cmpLastProxies at h
  rw [assertThat_bind_eq_ok_iff] at h
  cases productService with
  | product =>
      obtain ⟨-, h⟩ := h
      rw [if_neg (by decide), ok_bind, seq_eq_ok_iff, cmpEnts_attrsExcept_iff, if_pos rfl] at h
      obtain ⟨hpart, h⟩ := h
      obtain ⟨chain1, hchain1, h⟩ := bind_eq_ok_iff.mp h
      obtain ⟨chain2, hchain2, h⟩ := bind_eq_ok_iff.mp h
      obtain ⟨hdiff, -⟩ := assertThat_bind_eq_ok_iff.mp h
      refine ⟨hpart, fun _ => ⟨chain1, chain2, listAt_iff.mp hchain1, listAt_iff.mp hchain2, ?_⟩⟩
      exact (LawfulJsonDiff.differ_eq_false_iff _ _).mp hdiff
  | service =>
      obtain ⟨-, h⟩ := h
      rw [if_pos rfl] at h
      obtain ⟨attrs, hattrs, h⟩ := bind_eq_ok_iff.mp h
      obtain ⟨hcmp, -⟩ := seq_eq_ok_iff.mp h
      unfold removeAttr at hattrs
      split at hattrs
      · have heq := Except.ok.inj hattrs
        rw [← heq, ← attrsExcept_cons, cmpEnts_attrsExcept_iff] at hcmp
        exact ⟨hcmp, fun he => by cases he⟩
      · cases hattrs

theorem cmpProxies_ok [LawfulJsonDiff V] {proxy1 proxy2 : Proxy V} {productService : ProductService}
    (h : cmpProxies proxy1 proxy2 productService = .ok ()) :
    ∃ content1 content2 lastProxy1 lastProxy2,
      ConfigParts proxy1 proxy2 content1 content2 lastProxy1 lastProxy2 ∧
      PartExcept proxyConfigContentCmpAttrs content1 content2 ∧
      PartExcept (lastProxyIgnored productService) lastProxy1 lastProxy2 ∧
      (productService = .product → ChainsAgree lastProxy1 lastProxy2) := by
  unfold cmpProxies at h
  rw [assertThat_bind_eq_ok_iff, seq_eq_ok_iff, assertThat_bind_eq_ok_iff, forEach_eq_ok_iff] at h
  have hsandbox := h.2.2.2 "sandbox" (List.mem_singleton.mpr rfl)
  unfold cmpLastConfigs at hsandbox
  obtain ⟨content1, hcontent1, hsandbox⟩ := bind_eq_ok_iff.mp hsandbox
  obtain ⟨content2, hcontent2, hsandbox⟩ := bind_eq_ok_iff.mp hsandbox
  rw [assertThat_bind_eq_ok_iff, seq_eq_ok_iff, cmpEnts_attrsExcept_iff] at hsandbox
  obtain ⟨-, hpart, hsandbox⟩ := hsandbox
  obtain ⟨lastProxy1, hlast1, hsandbox⟩ := bind_eq_ok_iff.mp hsandbox
  obtain ⟨lastProxy2, hlast2, hsandbox⟩ := bind_eq_ok_iff.mp hsandbox
  obtain ⟨hlast, hchains⟩ := cmpLastProxies_ok hsandbox
  exact ⟨content1, content2, lastProxy1, lastProxy2, ⟨dictAt_iff.mp hcontent1,
    dictAt_iff.mp hcontent2, dictAt_iff.mp hlast1, dictAt_iff.mp hlast2⟩, hpart, hlast, hchains⟩

/-- Replacing the rules of the second proxy changes no verdict. -/
theorem cmpLastProxies_set_rules (lastProxy1 lastProxy2 : Attrs V) (productService : ProductService)
    (hrules : "proxy_rules" ∈ lastProxy2.keys) (rules : V) :
    cmpLastProxies lastProxy1 (lastProxy2.set "proxy_rules" rules) productService =
      cmpLastProxies lastProxy1 lastProxy2 productService := by
  have hsize : (lastProxy2.set "proxy_rules" rules).size = lastProxy2.size := by
    rw [Dict.size_eq_keys_length, Dict.size_eq_keys_length]
    exact congrArg List.length (Dict.setEntry_keys_of_mem rules hrules)
  have hget : ∀ k, k ≠ "proxy_rules" →
      (lastProxy2.set "proxy_rules" rules).getItem k = lastProxy2.getItem k := by
    intro k hk
    rw [Dict.getItem, Dict.getItem, Dict.get?_set_of_ne _ _ hk]
  have hents : ∀ attrs : List String, "proxy_rules" ∉ attrs →
      cmpEnts lastProxy1 (lastProxy2.set "proxy_rules" rules) attrs =
        cmpEnts lastProxy1 lastProxy2 attrs := by
    intro attrs hnot
    induction attrs with
    | nil => rfl
    | cons attr attrs ih =>
        rw [List.mem_cons, not_or] at hnot
        simp only [cmpEnts, forEach, hget attr (Ne.symm hnot.1)]
        exact congrArg _ (funext fun _ => ih hnot.2)
  have hnot : "proxy_rules" ∉ attrsExcept lastProxy1 proxyConfigContentProxyCmpAttrs := by
    intro hmem
    exact (mem_attrsExcept.mp hmem).2 (by decide)
  have hchain := hget "policy_chain" (by decide)
  unfold cmpLastProxies removeAttr
  rw [hsize, hchain]
  cases productService with
  | product => simp only [reduceCtorEq, if_false, ok_bind, hents _ hnot]
  | service =>
      have hnot' : "proxy_rules" ∉ (attrsExcept lastProxy1 proxyConfigContentProxyCmpAttrs).filter
          fun k => decide (k ≠ "api_backend") := fun hmem => hnot (List.mem_of_mem_filter hmem)
      by_cases hattr : "api_backend" ∈ attrsExcept lastProxy1 proxyConfigContentProxyCmpAttrs
      · simp only [if_pos hattr, if_true, ok_bind, hents _ hnot']
      · simp only [if_neg hattr, if_true, error_bind]

/-- The accepted pairs that agree are those whose second configuration has nothing that the
comparison missed. -/
theorem cmpProxies_agree_iff [LawfulJsonDiff V] {proxy1 proxy2 : Proxy V}
    {productService : ProductService} (h : cmpProxies proxy1 proxy2 productService = .ok ()) :
    ProxiesAgree proxy1 proxy2 productService ↔ NothingMissed proxy1 proxy2 productService := by
  constructor
  · rintro ⟨content1, content2, lastProxy1, lastProxy2, hparts, hcontent, hlast, -, hrules⟩
    exact ⟨content1, content2, lastProxy1, lastProxy2, hparts, (eqExcept_iff.mp hcontent).2,
      (eqExcept_iff.mp hlast).2, hrules⟩
  · rintro ⟨content1, content2, lastProxy1, lastProxy2, hparts, hcontent, hlast, hrules⟩
    obtain ⟨_, _, _, _, hparts', hpart, hlastPart, hchains⟩ := cmpProxies_ok h
    obtain ⟨rfl, rfl, rfl, rfl⟩ := hparts.unique hparts'
    exact ⟨content1, content2, lastProxy1, lastProxy2, hparts, eqExcept_iff.mpr ⟨hpart, hcontent⟩,
      eqExcept_iff.mpr ⟨hlastPart, hlast⟩, hchains, hrules⟩

/-! ## Rules that nobody compares -/

def exampleLastConfig (rules : List Json) : Attrs Json :=
  .ofList [("content", .obj [("proxy", .obj [("policy_chain", .arr [.str "routing"]),
    ("proxy_rules", .arr rules)])])]

/-- A proxy whose latest sandbox configuration has the given rules. -/
def proxyWithRules (rules : List Json) : Proxy Json :=
  ⟨.ofList [("auth_user_key", .str "user_key")], [], fun _ => exampleLastConfig rules⟩

theorem proxyWithRules_parts (rules1 rules2 : List Json) :
    ConfigParts (proxyWithRules rules1) (proxyWithRules rules2)
      (.ofList [("proxy", .obj [("policy_chain", .arr [.str "routing"]),
        ("proxy_rules", .arr rules1)])])
      (.ofList [("proxy", .obj [("policy_chain", .arr [.str "routing"]),
        ("proxy_rules", .arr rules2)])])
      (.ofList [("policy_chain", .arr [.str "routing"]), ("proxy_rules", .arr rules1)])
      (.ofList [("policy_chain", .arr [.str "routing"]), ("proxy_rules", .arr rules2)]) :=
  ⟨⟨_, rfl, rfl⟩, ⟨_, rfl, rfl⟩, ⟨_, rfl, rfl⟩, ⟨_, rfl, rfl⟩⟩

/-- A proxy with a rule and one without rules. -/
theorem cmpProxies_not_agree :
    cmpProxies (proxyWithRules [.obj [("pattern", .str "/")]]) (proxyWithRules []) .product =
        .ok () ∧
      ¬ ProxiesAgree (proxyWithRules [.obj [("pattern", .str "/")]]) (proxyWithRules [])
        .product := by
  refine ⟨by decide, ?_⟩
  rintro ⟨_, _, _, _, hparts, -, -, -, rules1, rules2, hrules1, hrules2, hsame⟩
  obtain ⟨rfl, rfl, rfl, rfl⟩ := hparts.unique (proxyWithRules_parts _ _)
  have heq1 : rules1 = [.obj [("pattern", .str "/")]] := by
    obtain ⟨v, hv, hl⟩ := hrules1
    cases hv
    exact (Option.some.inj hl).symm
  have heq2 : rules2 = [] := by
    obtain ⟨v, hv, hl⟩ := hrules2
    cases hv
    exact (Option.some.inj hl).symm
  rw [heq1, heq2] at hsame
  cases hsame

/-! ## A proxy and its copy -/

/-- A rule as it is stored for the proxy of the ID. -/
def copiedRule (id : Nat) (pattern : String) (delta : Int) : Json :=
  .obj [("id", .num id), ("proxy_id", .num id), ("pattern", .str pattern),
    ("http_method", .str "GET"), ("delta", .num delta)]

def copiedRules (id : Nat) : List Json :=
  [copiedRule id "/" 1, copiedRule (id + 1) "/get" 2, copiedRule (id + 2) "/get" 3]

def copiedLastProxy (id : Nat) (routing : String) : List (String × Json) :=
  [("service_id", .num id), ("credentials_location", .str "query"),
    ("policy_chain", .arr [.str routing, .str "headers", .str "apicast"]),
    ("proxy_rules", .arr (copiedRules id))]

def copiedContent (id : Nat) (routing : String) : List (String × Json) :=
  [("id", .num id), ("name", .str "svc"), ("proxy", .obj (copiedLastProxy id routing))]

/-- A proxy with two policies after the inserted one and three rules. -/
def copiedProxy (id : Nat) (routing : String) : Proxy Json where
  attrs := .ofList [("service_id", .num id), ("auth_user_key", .str "user_key")]
  policiesRegistry := [.obj [("name", .str "example")]]
  latestConfig _ := .ofList [("content", .obj (copiedContent id routing))]

theorem copiedRules_agree :
    ProxyRulesAgree (.ofList (copiedLastProxy 1 "routing"))
      (.ofList (copiedLastProxy 7 "apicast")) := by
  have hsame : ∀ (id1 id2 : Nat) (pattern : String) (delta : Int),
      ProxyRuleSame (copiedRule id1 pattern delta) (copiedRule id2 pattern delta) := by
    intro id1 id2 pattern delta
    refine ⟨_, _, rfl, rfl, fun k hk => ?_⟩
    have hid : (k == "id") = false := by
      rw [beq_eq_false_iff_ne]
      exact fun h => hk (h ▸ by decide)
    have hproxy : (k == "proxy_id") = false := by
      rw [beq_eq_false_iff_ne]
      exact fun h => hk (h ▸ by decide)
    simp [Dict.get?, List.lookup_cons, hid, hproxy]
  exact ⟨copiedRules 1, copiedRules 7, ⟨_, rfl, rfl⟩, ⟨_, rfl, rfl⟩,
    .cons (hsame _ _ _ _) (.cons (hsame _ _ _ _) (.cons (hsame _ _ _ _) .nil))⟩

/-- The inserted policies, the IDs of the rules and the service are not the same. -/
theorem cmpProxies_agree_iff_copy :
    (ProxiesAgree (copiedProxy 1 "routing") (copiedProxy 7 "apicast") .product ↔
        NothingMissed (copiedProxy 1 "routing") (copiedProxy 7 "apicast") .product) ∧
      NothingMissed (copiedProxy 1 "routing") (copiedProxy 7 "apicast") .product :=
  ⟨cmpProxies_agree_iff (by decide),
    .ofList (copiedContent 1 "routing"), .ofList (copiedContent 7 "apicast"),
    .ofList (copiedLastProxy 1 "routing"), .ofList (copiedLastProxy 7 "apicast"),
    ⟨⟨_, rfl, rfl⟩, ⟨_, rfl, rfl⟩, ⟨_, rfl, rfl⟩, ⟨_, rfl, rfl⟩⟩,
    by decide, by decide, copiedRules_agree⟩

end ThreescaleTests.Toolbox
