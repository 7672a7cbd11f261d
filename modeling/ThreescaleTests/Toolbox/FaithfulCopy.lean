import ThreescaleTests.Toolbox.CmpServices

/-!
# Faithful copies are accepted

A faithful copy of a tree has the same attribute keys, equal values on all
attributes that are not ignored, and lists of children that are rearrangements of
the original's, again faithful copies one by one. Where the identifying attributes
are unique among siblings the comparison pairs every child with its own copy, so
acceptance follows kind by kind from the children up to the service.
-/

namespace ThreescaleTests.Toolbox

open Library

variable {V : Type}

/-! ## Copies of one entity -/

/-- Same keys, equal values on every attribute that is not ignored. -/
structure EntCopy (ignored : List String) (ent1 ent2 : Attrs V) : Prop where
  keys : ∀ k, k ∈ ent1.keys ↔ k ∈ ent2.keys
  values : ∀ k, k ∉ ignored → ent1.get? k = ent2.get? k

theorem EntCopy.size_eq {ignored : List String} {ent1 ent2 : Attrs V}
    (h : EntCopy ignored ent1 ent2) : ent1.size = ent2.size :=
  Dict.size_eq_of_mem_keys_iff h.keys

section

variable [DecidableEq V]

/-- A copy passes the comparison of any of its attributes that are not ignored. -/
theorem EntCopy.cmpEnts_sublist {ignored attrlist : List String} {ent1 ent2 : Attrs V}
    (h : EntCopy ignored ent1 ent2) (hsub : ∀ k ∈ attrlist, k ∈ attrsExcept ent1 ignored) :
    cmpEnts ent1 ent2 attrlist = .ok () := by
  rw [cmpEnts_eq_ok_iff]
  intro k hk
  have hmem : k ∈ ent1.keys ∧ k ∉ ignored := by simpa [attrsExcept] using hsub k hk
  obtain ⟨v, hv⟩ := Dict.mem_keys_iff.mp hmem.1
  exact ⟨v, hv, (h.values k hmem.2).symm.trans hv⟩

theorem EntCopy.cmpEnts_ok {ignored : List String} {ent1 ent2 : Attrs V}
    (h : EntCopy ignored ent1 ent2) :
    cmpEnts ent1 ent2 (attrsExcept ent1 ignored) = .ok () :=
  h.cmpEnts_sublist fun _ hk => hk

end

/-! ## Copies of a list of siblings -/

section Siblings

variable {E : Type} [Resource E V]

/-- Every sibling carries the identifying attributes, and no two siblings share their values. -/
structure UniqueIdents (idAttr : List String) (siblings : List E) : Prop where
  carries : ∀ e ∈ siblings, ∀ r ∈ idAttr, r ∈ (entity e).keys
  nodup : (siblings.map (ident idAttr)).Nodup

/-- A rearrangement of copies of uniquely identified siblings. -/
structure SiblingsCopy (copy : E → E → Prop) (idAttr : List String) (list1 list2 : List E) :
    Prop where
  copies : Matched copy list1 list2
  idents : UniqueIdents idAttr list1

variable [DecidableEq V]

/-- Between entities that carry the identifying attributes the agreement test does not raise. -/
theorem agree_of_carries {idAttr : List String} {ent1 ent2 : Attrs V}
    (h1 : ∀ r ∈ idAttr, r ∈ ent1.keys) (h2 : ∀ r ∈ idAttr, r ∈ ent2.keys) :
    ∃ b, agree ent1 ent2 idAttr = .ok b := by
  induction idAttr with
  | nil => exact ⟨true, rfl⟩
  | cons r idAttr ih =>
      rw [List.forall_mem_cons] at h1 h2
      obtain ⟨v1, hv1⟩ := Dict.mem_keys_iff.mp h1.1
      obtain ⟨v2, hv2⟩ := Dict.mem_keys_iff.mp h2.1
      have hitem1 : ent1.getItem r = .ok v1 := getItem_eq_ok_iff.mpr hv1
      have hitem2 : ent2.getItem r = .ok v2 := getItem_eq_ok_iff.mpr hv2
      by_cases hv : v1 = v2
      · obtain ⟨b, hb⟩ := ih h1.2 h2.2
        refine ⟨b, bind_eq_ok_iff.mpr ⟨v1, hitem1, bind_eq_ok_iff.mpr ⟨v2, hitem2, ?_⟩⟩⟩
        rw [if_pos hv, hb]
      · refine ⟨false, bind_eq_ok_iff.mpr ⟨v1, hitem1, bind_eq_ok_iff.mpr ⟨v2, hitem2, ?_⟩⟩⟩
        rw [if_neg hv]

/-- An object with the sought identity is found. -/
theorem firstAgreeing_of_mem {idAttr : List String} {ent1 y : E} {list2 : List E}
    (h1 : ∀ r ∈ idAttr, r ∈ (entity ent1).keys)
    (h2 : ∀ e ∈ list2, ∀ r ∈ idAttr, r ∈ (entity e).keys) (hy : y ∈ list2)
    (hident : ident idAttr ent1 = ident idAttr y) :
    ∃ ent2, firstAgreeing idAttr ent1 list2 = .ok (some ent2) := by
  induction list2 with
  | nil => simp at hy
  | cons e list2 ih =>
      rw [List.forall_mem_cons] at h2
      obtain ⟨b, hb⟩ := agree_of_carries h1 h2.1
      cases b with
      | true => exact ⟨e, bind_eq_ok_iff.mpr ⟨true, hb, by simp⟩⟩
      | false =>
          have hne : y ≠ e := by
            intro heq
            have htrue := agree_eq_true_iff.mpr (agreeOn_of_ident_eq h1 (heq ▸ hident))
            rw [htrue] at hb
            cases hb
          have hmem : y ∈ list2 := by
            rcases List.mem_cons.mp hy with h | h
            · exact absurd h hne
            · exact h
          obtain ⟨ent2, hfound⟩ := ih h2.2 hmem
          exact ⟨ent2, bind_eq_ok_iff.mpr ⟨false, hb, by simpa using hfound⟩⟩

variable [ApiEq V] [LawfulApiEq V]

/-- Uniquely identified siblings are queued with their own copies, in any order of the copies. -/
theorem pairQueue_of_copies {copy : E → E → Prop} {idAttr : List String}
    (hident : ∀ e1 e2, copy e1 e2 → ident idAttr e1 = ident idAttr e2) {list1 list2 : List E}
    (hcopies : Matched copy list1 list2) (hunique : UniqueIdents idAttr list1)
    (hcarries : ∀ e ∈ list2, ∀ r ∈ idAttr, r ∈ (entity e).keys) :
    ∃ queue, pairQueue idAttr list1 list2 = .ok queue ∧ ∀ p ∈ queue, copy p.1 p.2 := by
  induction list1 generalizing list2 with
  | nil => exact ⟨[], rfl, by simp⟩
  | cons ent1 list1 ih =>
      have h1 := List.forall_mem_cons.mp hunique.carries
      obtain ⟨y, ys, hperm, hcopy, _⟩ := hcopies.exists_partner
      have hy : y ∈ list2 := hperm.mem_iff.mpr List.mem_cons_self
      obtain ⟨ent2, hfound⟩ := firstAgreeing_of_mem h1.1 hcarries hy (hident _ _ hcopy)
      obtain ⟨pre, post, hl, hagree, hpre⟩ := firstAgreeing_eq_some hfound
      have hmiddle : list2.Perm (ent2 :: (pre ++ post)) := hl ▸ List.perm_middle
      -- identities are unique on the right as well, so the object found is the copy
      have hnodup : ((ent2 :: (pre ++ post)).map (ident idAttr)).Nodup := by
        have hidents : ((ent1 :: list1).map (ident idAttr)).Perm
            ((ent2 :: (pre ++ post)).map (ident idAttr)) :=
          (hcopies.map_perm hident).trans (hmiddle.map _)
        exact hidents.nodup_iff.mp hunique.nodup
      obtain ⟨hown, hrest⟩ :=
        (hcopies.perm_right hmiddle).partner_of_key hident hagree.ident_eq hnodup
      have huniqueRest : UniqueIdents idAttr list1 :=
        ⟨h1.2, (List.nodup_cons.mp hunique.nodup).2⟩
      have hcarriesRest : ∀ e ∈ pre ++ post, ∀ r ∈ idAttr, r ∈ (entity e).keys :=
        fun e he => hcarries e (hmiddle.mem_iff.mpr (List.mem_cons_of_mem _ he))
      obtain ⟨queue, hqueue, hall⟩ := ih hrest huniqueRest hcarriesRest
      have hremove : removeEnt ent2 list2 = pre ++ post := by
        rw [hl]
        exact removeEnt_of_first hagree hpre
      refine ⟨(ent1, ent2) :: queue, bind_eq_ok_iff.mpr ⟨some ent2, hfound, ?_⟩, ?_⟩
      · exact bind_eq_ok_iff.mpr ⟨queue, hremove ▸ hqueue, rfl⟩
      · rw [List.forall_mem_cons]
        exact ⟨hown, hall⟩

/-- `find_and_cmp` accepts copied siblings whose sub-comparison accepts copies. The identifying
attributes must not be among the ignored ones. -/
theorem findAndCmp_of_copies {copy : E → E → Prop} {ignored idAttr : List String}
    {list1 list2 : List E} {cmpFunction : E → E → Except Exn Unit} {cmpLength : Bool}
    (hcopy : ∀ e1 e2, copy e1 e2 → EntCopy ignored (entity e1) (entity e2))
    (hidAttr : ∀ r ∈ idAttrOr idAttr, r ∉ ignored)
    (h : SiblingsCopy copy (idAttrOr idAttr) list1 list2)
    (hcmp : ∀ e1 e2, copy e1 e2 → cmpFunction e1 e2 = .ok ()) :
    findAndCmp list1 list2 cmpFunction idAttr cmpLength = .ok () := by
  have hident : ∀ e1 e2, copy e1 e2 → ident (idAttrOr idAttr) e1 = ident (idAttrOr idAttr) e2 :=
    fun e1 e2 hc => List.map_congr_left fun r hr => (hcopy e1 e2 hc).values r (hidAttr r hr)
  have hcarries : ∀ e ∈ list2, ∀ r ∈ idAttrOr idAttr, r ∈ (entity e).keys := by
    obtain ⟨zs, hperm, hall⟩ := h.copies
    intro e he
    obtain ⟨i, hi, hei⟩ := List.mem_iff_getElem.mp (hperm.mem_iff.mpr he)
    have hi1 : i < list1.length := hall.length_eq ▸ hi
    have hc := hcopy _ _ (hall.get hi1 hi)
    intro r hr
    have hmem := (hc.keys r).mp (h.idents.carries _ (List.getElem_mem hi1) r hr)
    simpa [hei] using hmem
  obtain ⟨queue, hqueue, hall⟩ := pairQueue_of_copies hident h.copies h.idents hcarries
  refine findAndCmp_eq_ok_iff.mpr ⟨fun _ => h.copies.length_eq, queue, hqueue, fun p hp => ?_⟩
  exact ⟨(hcopy _ _ (hall p hp)).size_eq, hcmp _ _ (hall p hp)⟩

end Siblings

/-! ## Copies of the kinds of entities -/

/-- Copies of objects that have no children. -/
def ObjectCopy (ignored : List String) (obj1 obj2 : ApiObject V) : Prop :=
  EntCopy ignored obj1.attrs obj2.attrs

structure MetricCopy (metr1 metr2 : Metric V) : Prop where
  entity : EntCopy metricCmpAttrs metr1.attrs metr2.attrs
  methods : SiblingsCopy (ObjectCopy metricMethodCmpAttrs) ["system_name"]
    metr1.methods metr2.methods

def MetricsCopy (metrs1 metrs2 : List (Metric V)) : Prop :=
  SiblingsCopy MetricCopy ["friendly_name"] metrs1 metrs2

def MappingsCopy (maps1 maps2 : List (ApiObject V)) : Prop :=
  SiblingsCopy (ObjectCopy mappingCmpAttrs) ["pattern"] maps1 maps2

/-- A plan's limits and pricing rules are copied metric by metric. -/
structure AppPlanCopy (ap1 ap2 : AppPlan V) : Prop where
  entity : EntCopy appPlansCmpAttrs ap1.attrs ap2.attrs
  limits : ∀ metr1 ∈ ap1.serviceMetrics, ∀ metr2 ∈ ap2.serviceMetrics, MetricCopy metr1 metr2 →
    SiblingsCopy (ObjectCopy limitsCmpAttr) ["period"] (ap1.limits metr1) (ap2.limits metr2)
  pricingRules : ∀ metr1 ∈ ap1.serviceMetrics, ∀ metr2 ∈ ap2.serviceMetrics,
    MetricCopy metr1 metr2 →
      SiblingsCopy (ObjectCopy pricingRulesCmpAttrs) ["min", "max"]
        (ap1.pricingRules metr1) (ap2.pricingRules metr2)

structure BackendCopy (back1 back2 : Backend V) : Prop where
  entity : EntCopy backendCmpAttrs back1.attrs back2.attrs
  metrics : MetricsCopy back1.metrics back2.metrics
  mappingRules : MappingsCopy back1.mappingRules back2.mappingRules

/-- The usage names the service it is listed below. -/
def OwnService (svc : Service V) (bus : ApiObject V) : Prop :=
  ∃ id, bus.attrs.get? "service_id" = some id ∧ svc.attrs.get? "id" = some id

/-- The backend a usage refers to can be read. -/
def UsedBackend (svc : Service V) (bus : ApiObject V) (back : Backend V) : Prop :=
  ∃ id, bus.attrs.get? "backend_id" = some id ∧ svc.readBackend id = .ok back

structure BackendUsageCopy (svc1 svc2 : Service V) (bus1 bus2 : ApiObject V) : Prop where
  entity : EntCopy backendUsagesCmpAttrs bus1.attrs bus2.attrs
  service1 : OwnService svc1 bus1
  service2 : OwnService svc2 bus2
  backend : ∃ back1 back2, UsedBackend svc1 bus1 back1 ∧ UsedBackend svc2 bus2 back2 ∧
    BackendCopy back1 back2

section Proxies

variable [PyValue V]

def DictAt (ent : Attrs V) (k : String) (d : Attrs V) : Prop :=
  ∃ v, ent.get? k = some v ∧ PyValue.dict? v = some d

def ListAt (ent : Attrs V) (k : String) (vs : List V) : Prop :=
  ∃ v, ent.get? k = some v ∧ PyValue.list? v = some vs

/-- The `proxy` parts of two configurations: a copy may differ in the first policy of the chain,
which the system inserts; the proxy rules are a list of dictionaries. -/
structure LastProxyCopy (lastProxy1 lastProxy2 : Attrs V) : Prop where
  entity : EntCopy proxyConfigContentProxyCmpAttrs lastProxy1 lastProxy2
  apiBackend : "api_backend" ∈ lastProxy1.keys
  policyChain : ∃ chain1 chain2, ListAt lastProxy1 "policy_chain" chain1 ∧
    ListAt lastProxy2 "policy_chain" chain2 ∧ chain1.drop 1 = chain2.drop 1
  proxyRules : ∃ rules, ListAt lastProxy1 "proxy_rules" rules ∧
    ∀ rule ∈ rules, ∃ d, PyValue.dict? rule = some d

structure LastConfigCopy (config1 config2 : Attrs V) : Prop where
  content : ∃ content1 content2, DictAt config1 "content" content1 ∧
    DictAt config2 "content" content2 ∧
    EntCopy proxyConfigContentCmpAttrs content1 content2 ∧
    ∃ lastProxy1 lastProxy2, DictAt content1 "proxy" lastProxy1 ∧
      DictAt content2 "proxy" lastProxy2 ∧ LastProxyCopy lastProxy1 lastProxy2

structure ProxyCopy (proxy1 proxy2 : Proxy V) : Prop where
  entity : EntCopy proxyCmpAttrs proxy1.attrs proxy2.attrs
  policiesRegistry : proxy1.policiesRegistry = proxy2.policiesRegistry
  sandbox : LastConfigCopy (proxy1.latestConfig "sandbox") (proxy2.latestConfig "sandbox")

structure ServiceCopy (svc1 svc2 : Service V) : Prop where
  entity : EntCopy serviceCmpAttrs svc1.attrs svc2.attrs
  proxy : ProxyCopy svc1.proxy svc2.proxy
  metrics : MetricsCopy svc1.metrics svc2.metrics
  mappingRules : MappingsCopy svc1.mappingRules svc2.mappingRules
  appPlans : SiblingsCopy AppPlanCopy ["system_name"] svc1.appPlans svc2.appPlans
  activeDocs : SiblingsCopy (ObjectCopy activedocsCmpAttrs) ["system_name"]
    svc1.activeDocs svc2.activeDocs
  backendUsages : SiblingsCopy (BackendUsageCopy svc1 svc2) ["path"]
    svc1.backendUsages svc2.backendUsages

end Proxies

/-! ## Acceptance, kind by kind -/

section Acceptance

variable [DecidableEq V] [ApiEq V] [LawfulApiEq V]

omit [ApiEq V] [LawfulApiEq V] in
theorem cmpObjects_of_copy {ignored : List String} {obj1 obj2 : ApiObject V}
    (h : ObjectCopy ignored obj1 obj2) : cmpObjects ignored obj1 obj2 = .ok () :=
  EntCopy.cmpEnts_ok h

theorem findAndCmp_objects {ignored idAttr : List String} {list1 list2 : List (ApiObject V)}
    {cmpLength : Bool} (hidAttr : ∀ r ∈ idAttrOr idAttr, r ∉ ignored)
    (h : SiblingsCopy (ObjectCopy ignored) (idAttrOr idAttr) list1 list2) :
    findAndCmp list1 list2 (cmpObjects ignored) idAttr cmpLength = .ok () :=
  findAndCmp_of_copies (fun _ _ hc => hc) hidAttr h fun _ _ hc => cmpObjects_of_copy hc

theorem cmpMethods_of_copy {metr1 metr2 : Metric V} (h : MetricCopy metr1 metr2)
    (cmpLength : Bool) : cmpMethods metr1 metr2 cmpLength = .ok () :=
  findAndCmp_objects (by decide) h.methods

theorem cmpMetrics_of_copy {metrs1 metrs2 : List (Metric V)} (h : MetricsCopy metrs1 metrs2)
    (cmpLength : Bool) : cmpMetrics metrs1 metrs2 cmpLength = .ok () :=
  findAndCmp_of_copies (fun _ _ hc => hc.entity) (by decide) h fun _ _ hc =>
    seq_eq_ok_iff.mpr ⟨hc.entity.cmpEnts_ok, cmpMethods_of_copy hc cmpLength⟩

theorem cmpMappings_of_copy {maps1 maps2 : List (ApiObject V)} (h : MappingsCopy maps1 maps2)
    (cmpLength : Bool) : cmpMappings maps1 maps2 cmpLength = .ok () :=
  findAndCmp_objects (by decide) h

omit [DecidableEq V] [ApiEq V] [LawfulApiEq V] in
/-- Members matched along a relation are matched as members of their lists. -/
theorem SiblingsCopy.with_mem {E : Type} [Resource E V] {copy : E → E → Prop}
    {idAttr : List String} {list1 list2 : List E} (h : SiblingsCopy copy idAttr list1 list2) :
    SiblingsCopy (fun e1 e2 => copy e1 e2 ∧ e1 ∈ list1 ∧ e2 ∈ list2) idAttr list1 list2 := by
  obtain ⟨zs, hperm, hall⟩ := h.copies
  refine ⟨⟨zs, hperm, ?_⟩, h.idents⟩
  rw [List.forall₂_iff_get] at hall ⊢
  refine ⟨hall.1, fun i hi hz => ⟨hall.2 i hi hz, List.get_mem _ _, ?_⟩⟩
  exact hperm.mem_iff.mp (List.get_mem _ _)

theorem cmpLimits_of_copy {ap1 ap2 : AppPlan V} (h : AppPlanCopy ap1 ap2)
    (hmetrics : MetricsCopy ap1.serviceMetrics ap2.serviceMetrics) (cmpLength : Bool) :
    cmpLimits ap1 ap2 cmpLength = .ok () :=
  findAndCmp_of_copies (fun _ _ hc => hc.1.entity) (by decide) hmetrics.with_mem
    fun _ _ hc => findAndCmp_objects (by decide) (h.limits _ hc.2.1 _ hc.2.2 hc.1)

theorem cmpPricingRules_of_copy {ap1 ap2 : AppPlan V} (h : AppPlanCopy ap1 ap2)
    (hmetrics : MetricsCopy ap1.serviceMetrics ap2.serviceMetrics) (cmpLength : Bool) :
    cmpPricingRules ap1 ap2 cmpLength = .ok () :=
  findAndCmp_of_copies (fun _ _ hc => hc.1.entity) (by decide) hmetrics.with_mem
    fun _ _ hc => findAndCmp_objects (by decide) (h.pricingRules _ hc.2.1 _ hc.2.2 hc.1)

theorem cmpBackends_of_copy {back1 back2 : Backend V} (h : BackendCopy back1 back2)
    (cmpLength : Bool) : cmpBackends back1 back2 cmpLength = .ok () := by
  unfold cmpBackends
  rw [assertThat_bind_eq_ok_iff, seq_eq_ok_iff, seq_eq_ok_iff]
  exact ⟨h.entity.size_eq, h.entity.cmpEnts_ok, cmpMetrics_of_copy h.metrics cmpLength,
    cmpMappings_of_copy h.mappingRules cmpLength⟩

theorem cmpBackendUsage_of_copy {svc1 svc2 : Service V} {bus1 bus2 : ApiObject V}
    (h : BackendUsageCopy svc1 svc2 bus1 bus2) (cmpLength : Bool) :
    cmpBackendUsage svc1 svc2 cmpLength bus1 bus2 = .ok () := by
  obtain ⟨id1, hbus1, hsvc1⟩ := h.service1
  obtain ⟨id2, hbus2, hsvc2⟩ := h.service2
  obtain ⟨back1, back2, ⟨bid1, hbid1, hread1⟩, ⟨bid2, hbid2, hread2⟩, hback⟩ := h.backend
  unfold cmpBackendUsage
  have hown : ∀ id : V, assertThat (id = id) = .ok () := fun _ => assertThat_eq_ok_iff.mpr rfl
  simp only [bind_eq_ok_iff, getItem_eq_ok_iff]
  exact ⟨(), h.entity.cmpEnts_ok, id1, hbus1, id1, hsvc1, (), hown id1, id2, hbus2, id2, hsvc2, (),
    hown id2, bid1, hbid1, back1, hread1, bid2, hbid2, back2, hread2,
    cmpBackends_of_copy hback cmpLength⟩

theorem cmpBackendUsages_of_copy [PyValue V] {svc1 svc2 : Service V} (h : ServiceCopy svc1 svc2)
    (cmpLength : Bool) : cmpBackendUsages svc1 svc2 cmpLength = .ok () :=
  findAndCmp_of_copies (fun _ _ hc => hc.entity) (by decide) h.backendUsages
    fun _ _ hc => cmpBackendUsage_of_copy hc cmpLength

theorem cmpAppPlans_of_copy [PyValue V] {svc1 svc2 : Service V} (h : ServiceCopy svc1 svc2)
    (cmpLength : Bool) : cmpAppPlans svc1 svc2 cmpLength = .ok () := by
  refine findAndCmp_of_copies (fun _ _ hc => hc.1.entity) (by decide) h.appPlans.with_mem ?_
  rintro ap1 ap2 ⟨hcopy, hmem1, hmem2⟩
  have hmetrics : MetricsCopy ap1.serviceMetrics ap2.serviceMetrics := by
    rw [svc1.plans_service ap1 hmem1, svc2.plans_service ap2 hmem2]
    exact h.metrics
  rw [seq_eq_ok_iff, seq_eq_ok_iff]
  exact ⟨hcopy.entity.cmpEnts_ok, cmpPricingRules_of_copy hcopy hmetrics true,
    cmpLimits_of_copy hcopy hmetrics true⟩

end Acceptance

section Proxies

variable [DecidableEq V] [PyValue V]

omit [DecidableEq V] in
theorem asDict_eq_ok_iff {v : V} {d : Attrs V} : asDict v = .ok d ↔ PyValue.dict? v = some d := by
  unfold asDict
  cases PyValue.dict? v <;> simp

omit [DecidableEq V] in
theorem DictAt.eval {ent d : Attrs V} {k : String} (h : DictAt ent k d) :
    (ent.getItem k >>= asDict) = .ok d := by
  obtain ⟨v, hv, hd⟩ := h
  exact bind_eq_ok_iff.mpr ⟨v, getItem_eq_ok_iff.mpr hv, asDict_eq_ok_iff.mpr hd⟩

omit [DecidableEq V] in
theorem ListAt.eval {ent : Attrs V} {k : String} {vs : List V} (h : ListAt ent k vs) :
    (ent.getItem k >>= asList) = .ok vs := by
  obtain ⟨v, hv, hl⟩ := h
  have hlist : asList v = .ok vs := by simp [asList, hl]
  exact bind_eq_ok_iff.mpr ⟨v, getItem_eq_ok_iff.mpr hv, hlist⟩

omit [DecidableEq V] [PyValue V] in
theorem EntCopy.refl (ignored : List String) (ent : Attrs V) : EntCopy ignored ent ent :=
  ⟨fun _ => Iff.rfl, fun _ _ => rfl⟩

/-- A list of dictionaries passes the comparison with itself. -/
theorem cmpProxyRules_self {rules : List V} (h : ∀ rule ∈ rules, ∃ d, PyValue.dict? rule = some d) :
    cmpProxyRules rules rules = .ok () := by
  unfold cmpProxyRules
  rw [forEach_eq_ok_iff]
  intro p hp
  rw [List.zip_eq_zipWith, List.zipWith_self, List.mem_map] at hp
  obtain ⟨rule, hrule, hpair⟩ := hp
  subst hpair
  obtain ⟨d, hd⟩ := h rule hrule
  have hdict : asDict rule = .ok d := asDict_eq_ok_iff.mpr hd
  rw [hdict, ok_bind, ok_bind, assertThat_bind_eq_ok_iff]
  exact ⟨rfl, (EntCopy.refl proxyRulesCmpAttrs d).cmpEnts_ok⟩

variable [JsonDiff V] [LawfulJsonDiff V]

theorem cmpLastProxies_of_copy {lastProxy1 lastProxy2 : Attrs V}
    (h : LastProxyCopy lastProxy1 lastProxy2) (productService : ProductService) :
    cmpLastProxies lastProxy1 lastProxy2 productService = .ok () := by
  obtain ⟨chain1, chain2, hchain1, hchain2, hdrop⟩ := h.policyChain
  obtain ⟨rules, hrules, hdicts⟩ := h.proxyRules
  have hdiff : JsonDiff.differ (chain1.drop 1) (chain2.drop 1) = false :=
    (LawfulJsonDiff.differ_eq_false_iff _ _).mpr hdrop
  have hrulesOk : (lastProxy1.getItem "proxy_rules" >>= asList >>= fun rules1 =>
      cmpProxyRules rules1 rules1) = .ok () :=
    bind_eq_ok_iff.mpr ⟨rules, hrules.eval, cmpProxyRules_self hdicts⟩
  unfold cmpLastProxies
  rw [assertThat_bind_eq_ok_iff]
  refine ⟨h.entity.size_eq, ?_⟩
  cases productService with
  | product =>
      rw [if_neg (by decide), ok_bind, seq_eq_ok_iff, if_pos rfl, hchain1.eval, ok_bind,
        hchain2.eval, ok_bind, assertThat_bind_eq_ok_iff]
      exact ⟨h.entity.cmpEnts_ok, hdiff, hrulesOk⟩
  | service =>
      have hmem : "api_backend" ∈ attrsExcept lastProxy1 proxyConfigContentProxyCmpAttrs := by
        simp only [attrsExcept, List.mem_filter, decide_eq_true_eq]
        exact ⟨h.apiBackend, by decide⟩
      have hremove : removeAttr "api_backend"
          (attrsExcept lastProxy1 proxyConfigContentProxyCmpAttrs) = .ok _ := if_pos hmem
      rw [if_pos rfl, hremove, ok_bind, seq_eq_ok_iff, if_neg (by decide)]
      exact ⟨h.entity.cmpEnts_sublist fun k hk => (List.mem_filter.mp hk).1, hrulesOk⟩

theorem cmpLastConfigs_of_copy {proxy1 proxy2 : Proxy V} {env : String}
    (h : LastConfigCopy (proxy1.latestConfig env) (proxy2.latestConfig env))
    (productService : ProductService) :
    cmpLastConfigs proxy1 proxy2 productService env = .ok () := by
  obtain ⟨content1, content2, hcontent1, hcontent2, hcopy, lastProxy1, lastProxy2, hproxy1,
    hproxy2, hlast⟩ := h.content
  unfold cmpLastConfigs
  rw [hcontent1.eval, ok_bind, hcontent2.eval, ok_bind, assertThat_bind_eq_ok_iff, seq_eq_ok_iff,
    hproxy1.eval, ok_bind, hproxy2.eval, ok_bind]
  exact ⟨hcopy.size_eq, hcopy.cmpEnts_ok, cmpLastProxies_of_copy hlast productService⟩

theorem cmpProxies_of_copy {proxy1 proxy2 : Proxy V} (h : ProxyCopy proxy1 proxy2)
    (productService : ProductService) : cmpProxies proxy1 proxy2 productService = .ok () := by
  unfold cmpProxies
  rw [assertThat_bind_eq_ok_iff, seq_eq_ok_iff, assertThat_bind_eq_ok_iff, forEach_eq_ok_iff]
  refine ⟨h.entity.size_eq, h.entity.cmpEnts_ok,
    (LawfulJsonDiff.differ_eq_false_iff _ _).mpr h.policiesRegistry, ?_⟩
  intro env henv
  have hsandbox : env = "sandbox" := by simpa using henv
  subst hsandbox
  exact cmpLastConfigs_of_copy h.sandbox productService

/-- `cmp_services` accepts every faithful copy, in whatever order its lists come back. -/
theorem cmpServices_of_copy [ApiEq V] [LawfulApiEq V] {svc1 svc2 : Service V}
    (h : ServiceCopy svc1 svc2) (productService : ProductService) :
    cmpServices svc1 svc2 productService true = .ok () := by
  unfold cmpServices
  rw [assertThat_bind_eq_ok_iff, seq_eq_ok_iff, seq_eq_ok_iff, seq_eq_ok_iff, seq_eq_ok_iff,
    seq_eq_ok_iff, seq_eq_ok_iff]
  exact ⟨h.entity.size_eq, h.entity.cmpEnts_ok, cmpProxies_of_copy h.proxy productService,
    cmpMetrics_of_copy h.metrics true, cmpMappings_of_copy h.mappingRules true,
    cmpAppPlans_of_copy h true, findAndCmp_objects (by decide) h.activeDocs,
    cmpBackendUsages_of_copy h true⟩

end Proxies

/-! ## A service and its copy -/

section Example

instance : PyValue Json where
  dict?
    | .obj fields => if h : (fields.map Prod.fst).Nodup then some ⟨fields, h⟩ else none
    | _ => none
  list?
    | .arr items => some items
    | _ => none

instance : JsonDiff Json := ⟨fun a b => decide (a ≠ b)⟩

instance : LawfulJsonDiff Json := ⟨fun a b => by simp [JsonDiff.differ]⟩

/-- Attributes as stored under an id of their own. -/
def stored (id : Int) (fields : List (String × Json)) : Attrs Json :=
  (Dict.ofList fields).set "id" (.num id)

theorem stored_copy {ignored : List String} (hid : "id" ∈ ignored) (i j : Int)
    (fields : List (String × Json)) : EntCopy ignored (stored i fields) (stored j fields) := by
  refine ⟨fun k => ?_, fun k hk => ?_⟩
  · unfold stored
    rw [Dict.mem_keys_set, Dict.mem_keys_set]
  · have hne : k ≠ "id" := fun heq => hk (heq ▸ hid)
    unfold stored
    rw [Dict.get?_set_of_ne _ _ hne, Dict.get?_set_of_ne _ _ hne]

theorem SiblingsCopy.swap {V E : Type} [Resource E V] {copy : E → E → Prop}
    {idAttr : List String} {a b a' b' : E} (ha : copy a a') (hb : copy b b')
    (hu : UniqueIdents idAttr [a, b]) : SiblingsCopy copy idAttr [a, b] [b', a'] :=
  ⟨⟨[a', b'], List.Perm.swap b' a' [], .cons ha (.cons hb .nil)⟩, hu⟩

theorem SiblingsCopy.single {V E : Type} [Resource E V] {copy : E → E → Prop}
    {idAttr : List String} {a a' : E} (ha : copy a a') (hu : UniqueIdents idAttr [a]) :
    SiblingsCopy copy idAttr [a] [a'] :=
  ⟨⟨[a'], List.Perm.refl _, .cons ha .nil⟩, hu⟩

/-- Two siblings, listed in reverse order in the copy. -/
def listed {α : Type} (copied : Bool) (a b : α) : List α := if copied then [b, a] else [a, b]

/-- Ids in a copy differ from those in the original. -/
def copyId (copied : Bool) (n : Int) : Int := if copied then n + 100 else n

def exampleObject (copied : Bool) (n : Int) (key name : String) : ApiObject Json :=
  ⟨stored (copyId copied n) [(key, .str name)]⟩

def exampleMetric (copied : Bool) (n : Int) (name : String) : Metric Json where
  attrs := stored (copyId copied n) [("friendly_name", .str name)]
  methods := listed copied (exampleObject copied 11 "system_name" "get")
    (exampleObject copied 12 "system_name" "post")

def exampleMetrics (copied : Bool) : List (Metric Json) :=
  listed copied (exampleMetric copied 10 "hits") (exampleMetric copied 20 "misses")

def exampleRules (copied : Bool) : List (ApiObject Json) :=
  listed copied (exampleObject copied 30 "pattern" "/") (exampleObject copied 31 "pattern" "/ip")

def examplePlan (copied : Bool) : AppPlan Json where
  attrs := stored (copyId copied 40) [("system_name", .str "basic")]
  limits _ := listed copied (exampleObject copied 41 "period" "hour")
    (exampleObject copied 42 "period" "day")
  pricingRules _ := []
  serviceMetrics := exampleMetrics copied

def exampleBackend (copied : Bool) : Backend Json where
  attrs := stored (copyId copied 50) [("name", .str "echo")]
  metrics := exampleMetrics copied
  mappingRules := exampleRules copied

def exampleUsage (copied : Bool) : ApiObject Json where
  attrs := stored (copyId copied 60) [("path", .str "/"),
    ("service_id", .num (copyId copied 1)), ("backend_id", .num (copyId copied 50))]

def exampleLastProxy : List (String × Json) :=
  [("api_backend", .str "https://echo"), ("policy_chain", .arr [.str "routing", .str "apicast"]),
    ("proxy_rules", .arr [.obj [("pattern", .str "/")]])]

def exampleConfig : Attrs Json :=
  Dict.ofList [("content", .obj [("proxy", .obj exampleLastProxy)])]

def exampleService (copied : Bool) : Service Json where
  attrs := stored (copyId copied 1) [("name", .str "api")]
  proxy := ⟨Dict.ofList [("auth_user_key", .str "user_key")], [.str "cors"], fun _ => exampleConfig⟩
  metrics := exampleMetrics copied
  mappingRules := exampleRules copied
  appPlans := [examplePlan copied]
  activeDocs := []
  backendUsages := [exampleUsage copied]
  readBackend _ := .ok (exampleBackend copied)
  plans_service := fun ap hap => by
    rw [List.mem_singleton.mp hap]
    rfl

theorem exampleMetrics_copy : MetricsCopy (exampleMetrics false) (exampleMetrics true) := by
  have hmetric : ∀ n name, MetricCopy (exampleMetric false n name) (exampleMetric true n name) :=
    fun n name => ⟨stored_copy (by decide) _ _ _,
      .swap (stored_copy (by decide) _ _ _) (stored_copy (by decide) _ _ _)
        ⟨by decide, by decide⟩⟩
  exact .swap (hmetric 10 "hits") (hmetric 20 "misses") ⟨by decide, by decide⟩

theorem exampleRules_copy : MappingsCopy (exampleRules false) (exampleRules true) :=
  .swap (stored_copy (by decide) _ _ _) (stored_copy (by decide) _ _ _) ⟨by decide, by decide⟩

theorem examplePlan_copy : AppPlanCopy (examplePlan false) (examplePlan true) where
  entity := stored_copy (by decide) _ _ _
  limits := fun _ _ _ _ _ =>
    .swap (stored_copy (by decide) _ _ _) (stored_copy (by decide) _ _ _) ⟨by decide, by decide⟩
  pricingRules := fun _ _ _ _ _ => ⟨Matched.nil, by simp [examplePlan], by simp [examplePlan]⟩

theorem exampleUsage_copy : BackendUsageCopy (exampleService false) (exampleService true)
    (exampleUsage false) (exampleUsage true) where
  entity := by
    have hkeys : (exampleUsage false).attrs.keys = (exampleUsage true).attrs.keys := by decide
    refine ⟨fun k => by rw [hkeys], fun k hk => ?_⟩
    have hne : k ≠ "id" ∧ k ≠ "service_id" ∧ k ≠ "backend_id" ∧ k ≠ "links" := by
      simpa [backendUsagesCmpAttrs] using hk
    simp [exampleUsage, stored, Dict.ofList, hne.1, hne.2.1, hne.2.2.1]
  service1 := ⟨.num 1, by decide, by decide⟩
  service2 := ⟨.num 101, by decide, by decide⟩
  backend := ⟨exampleBackend false, exampleBackend true, ⟨.num 50, by decide, rfl⟩,
    ⟨.num 150, by decide, rfl⟩, stored_copy (by decide) _ _ _, exampleMetrics_copy,
    exampleRules_copy⟩

theorem exampleConfig_copy : LastConfigCopy exampleConfig exampleConfig := by
  have hcontent : DictAt exampleConfig "content" (Dict.ofList [("proxy", .obj exampleLastProxy)]) :=
    ⟨_, rfl, rfl⟩
  have hproxy : DictAt (Dict.ofList [("proxy", .obj exampleLastProxy)]) "proxy"
      (Dict.ofList exampleLastProxy) := ⟨_, rfl, rfl⟩
  have hchain : ListAt (Dict.ofList exampleLastProxy) "policy_chain"
      [.str "routing", .str "apicast"] := ⟨_, rfl, rfl⟩
  have hrules : ListAt (Dict.ofList exampleLastProxy) "proxy_rules"
      [.obj [("pattern", .str "/")]] := ⟨_, rfl, rfl⟩
  refine ⟨_, _, hcontent, hcontent, EntCopy.refl _ _, _, _, hproxy, hproxy, EntCopy.refl _ _,
    by decide, ⟨_, _, hchain, hchain, rfl⟩, _, hrules, fun rule hrule => ?_⟩
  rw [List.mem_singleton.mp hrule]
  exact ⟨_, rfl⟩

theorem exampleService_copy : ServiceCopy (exampleService false) (exampleService true) where
  entity := stored_copy (by decide) 1 101 [("name", .str "api")]
  proxy := ⟨EntCopy.refl _ _, rfl, exampleConfig_copy⟩
  metrics := exampleMetrics_copy
  mappingRules := exampleRules_copy
  appPlans := .single examplePlan_copy ⟨by decide, by decide⟩
  activeDocs := ⟨Matched.nil, by simp [exampleService], by simp [exampleService]⟩
  backendUsages := .single exampleUsage_copy ⟨by decide, by decide⟩

theorem cmpServices_of_copy_example :
    cmpServices (exampleService false) (exampleService true) .product true = .ok () :=
  cmpServices_of_copy exampleService_copy .product

end Example

end ThreescaleTests.Toolbox
