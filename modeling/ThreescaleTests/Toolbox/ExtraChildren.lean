import Mathlib.Data.List.Nodup
import ThreescaleTests.Toolbox.Mappings

/-!
# Trees with extra children

With `cmp_length` off the second tree may hold more children than the first. Every
child of the first tree has an equal counterpart, and whatever else the second
tree holds has another identity. The flag does not reach every list: the plans'
rules and limits and the backend usages are compared with equal lengths, and
siblings that share an identity are compared in the order of the two lists.
-/

namespace ThreescaleTests.Toolbox

open Library

variable {V : Type}

/-! ## Lists with extra children -/

section Siblings

variable {E : Type} [Resource E V]

/-- Every sibling carries the identifying attributes. -/
def Carries (idAttr : List String) (siblings : List E) : Prop :=
  ∀ e ∈ siblings, ∀ r ∈ idAttr, r ∈ (entity e).keys

instance (idAttr : List String) (siblings : List E) : Decidable (Carries idAttr siblings) :=
  inferInstanceAs (Decidable (∀ e ∈ siblings, ∀ r ∈ idAttr, r ∈ (entity e).keys))

/-- Every child on the left has a counterpart on the right, and the children on the right that are
nobody's counterpart have identities that do not occur on the left. -/
structure Extended (copy : E → E → Prop) (idAttr : List String) (list1 list2 : List E) : Prop where
  counterpart : ∀ e1 ∈ list1, ∃ e2 ∈ list2, copy e1 e2
  additional : ∀ e2 ∈ list2, (∃ e1 ∈ list1, copy e1 e2) ∨
    ∀ e1 ∈ list1, ident idAttr e1 ≠ ident idAttr e2

/-- Of two siblings with one identity the second is somebody's counterpart. -/
theorem Extended.original {copy : E → E → Prop} {idAttr : List String} {list1 list2 : List E}
    (h : Extended copy idAttr list1 list2) {e1 e2 : E} (h1 : e1 ∈ list1) (h2 : e2 ∈ list2)
    (hident : ident idAttr e1 = ident idAttr e2) : ∃ e ∈ list1, copy e e2 :=
  (h.additional e2 h2).resolve_right fun hother => hother e1 h1 hident

variable [DecidableEq V]

/-- Siblings of one identity fit in the order of the lists, the first to the first and so on. -/
def Aligned (idAttr : List String) (fits : E → E → Prop) (list1 list2 : List E) : Prop :=
  ∀ i, ∀ p ∈ (identified idAttr i list1).zip (identified idAttr i list2), fits p.1 p.2

theorem ident_of_identified {idAttr : List String} {i : List (Option V)}
    {list1 list2 : List E} {p : E × E}
    (hp : p ∈ (identified idAttr i list1).zip (identified idAttr i list2)) :
    (p.1 ∈ list1 ∧ ident idAttr p.1 = i) ∧ p.2 ∈ list2 ∧ ident idAttr p.2 = i := by
  obtain ⟨h1, h2⟩ := List.of_mem_zip hp
  exact ⟨by simpa [identified] using h1, by simpa [identified] using h2⟩

/-- Siblings with identities of their own stand beside their counterparts. -/
theorem Extended.aligned {copy fits : E → E → Prop} {idAttr : List String} {list1 list2 : List E}
    (h : Extended copy idAttr list1 list2) (hunique : (list1.map (ident idAttr)).Nodup)
    (hident : ∀ e1 e2, copy e1 e2 → ident idAttr e1 = ident idAttr e2)
    (hfits : ∀ e1 ∈ list1, ∀ e2 ∈ list2, copy e1 e2 → fits e1 e2) :
    Aligned idAttr fits list1 list2 := by
  intro i p hp
  obtain ⟨⟨h1, hi1⟩, h2, hi2⟩ := ident_of_identified hp
  obtain ⟨e, he, hcopy⟩ := h.original h1 h2 (hi1.trans hi2.symm)
  have hsame : e = p.1 :=
    List.inj_on_of_nodup_map hunique he h1 ((hident e p.2 hcopy).trans (hi2.trans hi1.symm))
  exact hfits p.1 h1 p.2 h2 (hsame ▸ hcopy)

variable [ApiEq V] [LawfulApiEq V]

/-- The queue holds the pairs of every identity. -/
theorem mem_identified_zip_iff {idAttr : List String} {list1 list2 : List E}
    {queue : List (E × E)} (h : pairQueue idAttr list1 list2 = .ok queue) {i : List (Option V)}
    {p : E × E} : p ∈ (identified idAttr i list1).zip (identified idAttr i list2) ↔
      p ∈ queue ∧ ident idAttr p.1 = i := by
  rw [← pairQueue_identified h i, List.mem_filter, decide_eq_true_eq]

/-- `find_and_cmp` on lists that carry the identifying attributes: the lengths if they are asked
for, and the siblings of each identity in their order. -/
theorem findAndCmp_aligned_iff (idAttr : List String) {fits : E → E → Prop}
    {list1 list2 : List E} {cmpFunction : E → E → Except Exn Unit} {cmpLength : Bool}
    (h1 : Carries (idAttrOr idAttr) list1) (h2 : Carries (idAttrOr idAttr) list2)
    (hcmp : ∀ e1 ∈ list1, ∀ e2 ∈ list2, ident (idAttrOr idAttr) e1 = ident (idAttrOr idAttr) e2 →
      ((entity e1).size = (entity e2).size ∧ cmpFunction e1 e2 = .ok () ↔ fits e1 e2)) :
    findAndCmp list1 list2 cmpFunction idAttr cmpLength = .ok () ↔
      (cmpLength = true → list1.length = list2.length) ∧
        Aligned (idAttrOr idAttr) fits list1 list2 := by
  obtain ⟨queue, hqueue⟩ := pairQueue_of_carries h1 h2
  rw [findAndCmp_eq_ok_iff]
  refine and_congr_right fun _ => ⟨?_, fun haligned => ⟨queue, hqueue, fun p hp => ?_⟩⟩
  · rintro ⟨queue', hqueue', hall⟩ i p hp
    obtain ⟨⟨hmem1, hi1⟩, hmem2, hi2⟩ := ident_of_identified hp
    have hq := (mem_identified_zip_iff hqueue').mp hp
    exact (hcmp p.1 hmem1 p.2 hmem2 (hi1.trans hi2.symm)).mp (hall p hq.1)
  · have hzip := (mem_identified_zip_iff hqueue).mpr ⟨hp, rfl⟩
    obtain ⟨⟨hmem1, hi1⟩, hmem2, hi2⟩ := ident_of_identified hzip
    exact (hcmp p.1 hmem1 p.2 hmem2 (hi1.trans hi2.symm)).mpr (haligned _ p hzip)

end Siblings

/-! ## Trees that extend a tree -/

structure MetricExtended (metr1 metr2 : Metric V) : Prop where
  entity : EntCopy metricCmpAttrs metr1.attrs metr2.attrs
  methods : Extended (ObjectCopy metricMethodCmpAttrs) ["system_name"] metr1.methods metr2.methods

def MetricsExtended (metrs1 metrs2 : List (Metric V)) : Prop :=
  Extended MetricExtended ["friendly_name"] metrs1 metrs2

def MappingsExtended (maps1 maps2 : List (ApiObject V)) : Prop :=
  Extended (ObjectCopy mappingCmpAttrs) ["pattern"] maps1 maps2

structure AppPlanExtended (ap1 ap2 : AppPlan V) : Prop where
  entity : EntCopy appPlansCmpAttrs ap1.attrs ap2.attrs
  limits : ∀ metr1 ∈ ap1.serviceMetrics, ∀ metr2 ∈ ap2.serviceMetrics,
    MetricExtended metr1 metr2 →
      Extended (ObjectCopy limitsCmpAttr) ["period"] (ap1.limits metr1) (ap2.limits metr2)
  pricingRules : ∀ metr1 ∈ ap1.serviceMetrics, ∀ metr2 ∈ ap2.serviceMetrics,
    MetricExtended metr1 metr2 →
      Extended (ObjectCopy pricingRulesCmpAttrs) ["min", "max"]
        (ap1.pricingRules metr1) (ap2.pricingRules metr2)

structure BackendExtended (back1 back2 : Backend V) : Prop where
  entity : EntCopy backendCmpAttrs back1.attrs back2.attrs
  metrics : MetricsExtended back1.metrics back2.metrics
  mappingRules : MappingsExtended back1.mappingRules back2.mappingRules

structure BackendUsageExtended (svc1 svc2 : Service V) (bus1 bus2 : ApiObject V) : Prop where
  entity : EntCopy backendUsagesCmpAttrs bus1.attrs bus2.attrs
  service1 : OwnService svc1 bus1
  service2 : OwnService svc2 bus2
  backend : ∃ back1 back2, UsedBackend svc1 bus1 back1 ∧ UsedBackend svc2 bus2 back2 ∧
    BackendExtended back1 back2

section

variable (holds : {E : Type} → [Resource E V] → List String → List E → Prop)

def MetricsHold (metrs : List (Metric V)) : Prop :=
  holds ["friendly_name"] metrs ∧ ∀ metr ∈ metrs, holds ["system_name"] metr.methods

def BackendHolds (back : Backend V) : Prop :=
  MetricsHold holds back.metrics ∧ holds ["pattern"] back.mappingRules

/-- A condition on every list of siblings in a tree, and on what identifies the siblings. -/
structure ServiceHolds (svc : Service V) : Prop where
  metrics : MetricsHold holds svc.metrics
  mappingRules : holds ["pattern"] svc.mappingRules
  appPlans : holds ["system_name"] svc.appPlans
  limits : ∀ ap ∈ svc.appPlans, ∀ metr ∈ svc.metrics, holds ["period"] (ap.limits metr)
  pricingRules : ∀ ap ∈ svc.appPlans, ∀ metr ∈ svc.metrics,
    holds ["min", "max"] (ap.pricingRules metr)
  activeDocs : holds ["system_name"] svc.activeDocs
  backendUsages : holds ["path"] svc.backendUsages
  backends : ∀ bus ∈ svc.backendUsages, ∀ back, UsedBackend svc bus back →
    BackendHolds holds back

end

/-- The second tree extends the first, and the objects of both carry what identifies them. -/
structure ServiceExtended [PyValue V] (svc1 svc2 : Service V) : Prop where
  carried1 : ServiceHolds (@Carries V) svc1
  carried2 : ServiceHolds (@Carries V) svc2
  entity : EntCopy serviceCmpAttrs svc1.attrs svc2.attrs
  proxy : ProxyCopy svc1.proxy svc2.proxy
  metrics : MetricsExtended svc1.metrics svc2.metrics
  mappingRules : MappingsExtended svc1.mappingRules svc2.mappingRules
  appPlans : Extended AppPlanExtended ["system_name"] svc1.appPlans svc2.appPlans
  activeDocs : Extended (ObjectCopy activedocsCmpAttrs) ["system_name"]
    svc1.activeDocs svc2.activeDocs
  backendUsages : Extended (BackendUsageExtended svc1 svc2) ["path"]
    svc1.backendUsages svc2.backendUsages

/-! ## What the comparison still asks for -/

/-- Equally many attributes, and those of the first that are not ignored in the second. -/
structure EntFits (ignored : List String) (ent1 ent2 : Attrs V) : Prop where
  size_eq : ent1.size = ent2.size
  part : PartExcept ignored ent1 ent2

theorem EntCopy.fits {ignored : List String} {ent1 ent2 : Attrs V}
    (h : EntCopy ignored ent1 ent2) : EntFits ignored ent1 ent2 :=
  ⟨h.size_eq, fun k hk _ hv => (h.values k hk).symm.trans hv⟩

section Tolerated

variable [DecidableEq V]

def ObjectFits (ignored : List String) (obj1 obj2 : ApiObject V) : Prop :=
  EntFits ignored obj1.attrs obj2.attrs

structure MetricFits (metr1 metr2 : Metric V) : Prop where
  entity : EntFits metricCmpAttrs metr1.attrs metr2.attrs
  methods : Aligned ["system_name"] (ObjectFits metricMethodCmpAttrs) metr1.methods metr2.methods

def MetricsFit (metrs1 metrs2 : List (Metric V)) : Prop :=
  Aligned ["friendly_name"] MetricFits metrs1 metrs2

def MappingsFit (maps1 maps2 : List (ApiObject V)) : Prop :=
  Aligned ["pattern"] (ObjectFits mappingCmpAttrs) maps1 maps2

/-- What a plan holds for each metric: equally many metrics, and equally many rules or limits for
each of them. -/
def PerMetricFit (ignored idAttr : List String) (listed1 listed2 : Metric V → List (ApiObject V))
    (metrs1 metrs2 : List (Metric V)) : Prop :=
  metrs1.length = metrs2.length ∧
    Aligned ["friendly_name"]
      (fun metr1 metr2 => metr1.attrs.size = metr2.attrs.size ∧
        (listed1 metr1).length = (listed2 metr2).length ∧
        Aligned idAttr (ObjectFits ignored) (listed1 metr1) (listed2 metr2))
      metrs1 metrs2

structure AppPlanFits (ap1 ap2 : AppPlan V) : Prop where
  entity : EntFits appPlansCmpAttrs ap1.attrs ap2.attrs
  pricingRules : PerMetricFit pricingRulesCmpAttrs ["min", "max"]
    ap1.pricingRules ap2.pricingRules ap1.serviceMetrics ap2.serviceMetrics
  limits : PerMetricFit limitsCmpAttr ["period"]
    ap1.limits ap2.limits ap1.serviceMetrics ap2.serviceMetrics

structure BackendFits (back1 back2 : Backend V) : Prop where
  entity : EntFits backendCmpAttrs back1.attrs back2.attrs
  metrics : MetricsFit back1.metrics back2.metrics
  mappingRules : MappingsFit back1.mappingRules back2.mappingRules

/-- Usages that fit, of backends that fit. -/
structure BackendUsageFits (svc1 svc2 : Service V) (bus1 bus2 : ApiObject V) : Prop where
  entity : EntFits backendUsagesCmpAttrs bus1.attrs bus2.attrs
  backend : ∀ back1 back2, UsedBackend svc1 bus1 back1 → UsedBackend svc2 bus2 back2 →
    BackendFits back1 back2

/-- The lists that are compared with equal lengths have them, and siblings that share an identity
are equal in their order. -/
structure ServiceTolerated (svc1 svc2 : Service V) : Prop where
  metrics : MetricsFit svc1.metrics svc2.metrics
  mappingRules : MappingsFit svc1.mappingRules svc2.mappingRules
  appPlans : Aligned ["system_name"] AppPlanFits svc1.appPlans svc2.appPlans
  activeDocs : Aligned ["system_name"] (ObjectFits activedocsCmpAttrs)
    svc1.activeDocs svc2.activeDocs
  usagesLength : svc1.backendUsages.length = svc2.backendUsages.length
  backendUsages : Aligned ["path"] (BackendUsageFits svc1 svc2)
    svc1.backendUsages svc2.backendUsages

end Tolerated

/-! ## Acceptance, kind by kind -/

section Acceptance

variable [DecidableEq V] [ApiEq V] [LawfulApiEq V]

/-- Siblings without children. -/
theorem findAndCmp_objects_iff (idAttr : List String) (cmpLength : Bool) {ignored : List String}
    {list1 list2 : List (ApiObject V)} (h1 : Carries (idAttrOr idAttr) list1)
    (h2 : Carries (idAttrOr idAttr) list2) :
    findAndCmp list1 list2 (cmpObjects ignored) idAttr cmpLength = .ok () ↔
      (cmpLength = true → list1.length = list2.length) ∧
        Aligned (idAttrOr idAttr) (ObjectFits ignored) list1 list2 := by
  refine findAndCmp_aligned_iff idAttr h1 h2 fun obj1 _ obj2 _ _ => ?_
  rw [cmpObjects, cmpEnts_attrsExcept_iff]
  exact ⟨fun h => ⟨h.1, h.2⟩, fun h => ⟨h.size_eq, h.part⟩⟩

/-- Without the flag nothing is asked of the lengths. -/
theorem lengths_not_asked {lengths rest : Prop} : (false = true → lengths) ∧ rest ↔ rest := by
  simp

/-- With the flag the lengths have to be equal. -/
theorem lengths_asked {lengths rest : Prop} :
    (true = true → lengths) ∧ rest ↔ lengths ∧ rest := by
  simp

theorem cmpMetrics_fit_iff {metrs1 metrs2 : List (Metric V)} (h1 : MetricsHold (@Carries V) metrs1)
    (h2 : MetricsHold (@Carries V) metrs2) :
    cmpMetrics metrs1 metrs2 false = .ok () ↔ MetricsFit metrs1 metrs2 := by
  refine (findAndCmp_aligned_iff ["friendly_name"] h1.1 h2.1 ?_).trans lengths_not_asked
  intro metr1 hmetr1 metr2 hmetr2 _
  have hmethods : cmpMethods metr1 metr2 false = .ok () ↔ _ :=
    (findAndCmp_objects_iff [] false (h1.2 metr1 hmetr1) (h2.2 metr2 hmetr2)).trans
      lengths_not_asked
  rw [seq_eq_ok_iff, cmpEnts_attrsExcept_iff, hmethods]
  constructor
  · rintro ⟨hsize, hpart, hfit⟩
    exact ⟨⟨hsize, hpart⟩, hfit⟩
  · intro hfits
    exact ⟨hfits.entity.size_eq, hfits.entity.part, hfits.methods⟩

theorem cmpMappings_fit_iff {maps1 maps2 : List (ApiObject V)} (h1 : Carries ["pattern"] maps1)
    (h2 : Carries ["pattern"] maps2) :
    cmpMappings maps1 maps2 false = .ok () ↔ MappingsFit maps1 maps2 :=
  (findAndCmp_objects_iff ["pattern"] false h1 h2).trans lengths_not_asked

/-- What a plan holds for each metric, compared with the default of `cmp_length`. -/
theorem cmpPerMetric_fit_iff {ignored idAttr : List String}
    {listed1 listed2 : Metric V → List (ApiObject V)} {metrs1 metrs2 : List (Metric V)}
    (hgiven : idAttrOr idAttr = idAttr) (hmetrics1 : Carries ["friendly_name"] metrs1)
    (hmetrics2 : Carries ["friendly_name"] metrs2)
    (h1 : ∀ metr ∈ metrs1, Carries idAttr (listed1 metr))
    (h2 : ∀ metr ∈ metrs2, Carries idAttr (listed2 metr)) :
    findAndCmp metrs1 metrs2 (fun metr1 metr2 =>
        findAndCmp (listed1 metr1) (listed2 metr2) (cmpObjects ignored) idAttr true)
        ["friendly_name"] true = .ok () ↔
      PerMetricFit ignored idAttr listed1 listed2 metrs1 metrs2 := by
  refine (findAndCmp_aligned_iff ["friendly_name"] hmetrics1 hmetrics2 ?_).trans lengths_asked
  intro metr1 hmetr1 metr2 hmetr2 _
  have hlisted1 := h1 metr1 hmetr1
  have hlisted2 := h2 metr2 hmetr2
  rw [← hgiven] at hlisted1 hlisted2
  rw [findAndCmp_objects_iff idAttr true hlisted1 hlisted2, lengths_asked, hgiven]
  exact Iff.rfl

theorem cmpAppPlans_fit_iff {svc1 svc2 : Service V} (h1 : ServiceHolds (@Carries V) svc1)
    (h2 : ServiceHolds (@Carries V) svc2) :
    cmpAppPlans svc1 svc2 false = .ok () ↔
      Aligned ["system_name"] AppPlanFits svc1.appPlans svc2.appPlans := by
  refine (findAndCmp_aligned_iff [] h1.appPlans h2.appPlans ?_).trans lengths_not_asked
  intro ap1 hap1 ap2 hap2 _
  have hmetrics1 := svc1.plans_service ap1 hap1
  have hmetrics2 := svc2.plans_service ap2 hap2
  have hrules : cmpPricingRules ap1 ap2 true = .ok () ↔ _ :=
    cmpPerMetric_fit_iff rfl (hmetrics1 ▸ h1.metrics.1) (hmetrics2 ▸ h2.metrics.1)
      (hmetrics1 ▸ h1.pricingRules ap1 hap1) (hmetrics2 ▸ h2.pricingRules ap2 hap2)
  have hlimits : cmpLimits ap1 ap2 true = .ok () ↔ _ :=
    cmpPerMetric_fit_iff rfl (hmetrics1 ▸ h1.metrics.1) (hmetrics2 ▸ h2.metrics.1)
      (hmetrics1 ▸ h1.limits ap1 hap1) (hmetrics2 ▸ h2.limits ap2 hap2)
  rw [seq_eq_ok_iff, seq_eq_ok_iff, cmpEnts_attrsExcept_iff, hrules, hlimits]
  constructor
  · rintro ⟨hsize, hpart, hrules, hlimits⟩
    exact ⟨⟨hsize, hpart⟩, hrules, hlimits⟩
  · intro hfits
    exact ⟨hfits.entity.size_eq, hfits.entity.part, hfits.pricingRules, hfits.limits⟩

theorem cmpBackends_fit_iff {back1 back2 : Backend V} (h1 : BackendHolds (@Carries V) back1)
    (h2 : BackendHolds (@Carries V) back2) :
    cmpBackends back1 back2 false = .ok () ↔ BackendFits back1 back2 := by
  unfold cmpBackends
  rw [assertThat_bind_eq_ok_iff, seq_eq_ok_iff, seq_eq_ok_iff, cmpEnts_attrsExcept_iff,
    cmpMetrics_fit_iff h1.1 h2.1, cmpMappings_fit_iff h1.2 h2.2]
  constructor
  · rintro ⟨hsize, hpart, hmetrics, hmappings⟩
    exact ⟨⟨hsize, hpart⟩, hmetrics, hmappings⟩
  · intro hfits
    exact ⟨hfits.entity.size_eq, hfits.entity.part, hfits.metrics, hfits.mappingRules⟩

omit [DecidableEq V] [ApiEq V] [LawfulApiEq V] in
theorem UsedBackend.eq {svc : Service V} {bus : ApiObject V} {back back' : Backend V}
    (h : UsedBackend svc bus back) (h' : UsedBackend svc bus back') : back = back' := by
  obtain ⟨id, hid, hread⟩ := h
  obtain ⟨id', hid', hread'⟩ := h'
  rw [hid] at hid'
  rw [← Option.some.inj hid', hread] at hread'
  exact Except.ok.inj hread'

/-- Usages of their services whose backends can be read. -/
theorem cmpBackendUsage_fit_iff {svc1 svc2 : Service V} {bus1 bus2 : ApiObject V}
    {back1 back2 : Backend V} (hown1 : OwnService svc1 bus1) (hown2 : OwnService svc2 bus2)
    (hused1 : UsedBackend svc1 bus1 back1) (hused2 : UsedBackend svc2 bus2 back2)
    (h1 : BackendHolds (@Carries V) back1) (h2 : BackendHolds (@Carries V) back2) :
    bus1.attrs.size = bus2.attrs.size ∧ cmpBackendUsage svc1 svc2 false bus1 bus2 = .ok () ↔
      BackendUsageFits svc1 svc2 bus1 bus2 := by
  obtain ⟨id1, hbus1, hsvc1⟩ := hown1
  obtain ⟨id2, hbus2, hsvc2⟩ := hown2
  have hsame : ∀ id : V, assertThat (id = id) = .ok () := fun _ => assertThat_eq_ok_iff.mpr rfl
  have hbackends : cmpBackendUsage svc1 svc2 false bus1 bus2 = (do
      cmpEnts bus1.attrs bus2.attrs (attrsExcept bus1.attrs backendUsagesCmpAttrs)
      cmpBackends back1 back2 false) := by
    obtain ⟨bid1, hbid1, hread1⟩ := hused1
    obtain ⟨bid2, hbid2, hread2⟩ := hused2
    unfold cmpBackendUsage
    rw [getItem_eq_ok_iff.mpr hbus1, ok_bind, getItem_eq_ok_iff.mpr hsvc1, ok_bind, hsame, ok_bind,
      getItem_eq_ok_iff.mpr hbus2, ok_bind, getItem_eq_ok_iff.mpr hsvc2, ok_bind, hsame, ok_bind,
      getItem_eq_ok_iff.mpr hbid1, ok_bind, hread1, ok_bind, getItem_eq_ok_iff.mpr hbid2, ok_bind,
      hread2, ok_bind]
  rw [hbackends, seq_eq_ok_iff, cmpEnts_attrsExcept_iff, cmpBackends_fit_iff h1 h2]
  constructor
  · rintro ⟨hsize, hpart, hfits⟩
    refine ⟨⟨hsize, hpart⟩, fun back1' back2' hused1' hused2' => ?_⟩
    rw [← hused1.eq hused1', ← hused2.eq hused2']
    exact hfits
  · intro hfits
    exact ⟨hfits.entity.size_eq, hfits.entity.part, hfits.backend back1 back2 hused1 hused2⟩

theorem cmpBackendUsages_fit_iff [PyValue V] {svc1 svc2 : Service V}
    (h : ServiceExtended svc1 svc2) :
    cmpBackendUsages svc1 svc2 false = .ok () ↔
      svc1.backendUsages.length = svc2.backendUsages.length ∧
        Aligned ["path"] (BackendUsageFits svc1 svc2) svc1.backendUsages svc2.backendUsages := by
  refine (findAndCmp_aligned_iff ["path"] h.carried1.backendUsages h.carried2.backendUsages
    ?_).trans lengths_asked
  intro bus1 hbus1 bus2 hbus2 hident
  -- the one has a counterpart and the other is somebody's, so both can be read
  obtain ⟨_, -, hcopy⟩ := h.backendUsages.counterpart bus1 hbus1
  obtain ⟨_, -, horiginal⟩ := h.backendUsages.original hbus1 hbus2 hident
  obtain ⟨back1, -, hused1, -, -⟩ := hcopy.backend
  obtain ⟨-, back2, -, hused2, -⟩ := horiginal.backend
  exact cmpBackendUsage_fit_iff hcopy.service1 horiginal.service2 hused1 hused2
    (h.carried1.backends bus1 hbus1 back1 hused1) (h.carried2.backends bus2 hbus2 back2 hused2)

/-- With `cmp_length` off `cmp_services` accepts exactly those extended trees whose backend usages,
and below each plan whose metrics, rules and limits, have no extra members, and whose siblings with
a common identity are equal in their order. -/
theorem cmpServices_extended_iff [PyValue V] [JsonDiff V] [LawfulJsonDiff V]
    {svc1 svc2 : Service V} (h : ServiceExtended svc1 svc2) (productService : ProductService) :
    cmpServices svc1 svc2 productService false = .ok () ↔ ServiceTolerated svc1 svc2 := by
  have hdocs : cmpActiveDocs svc1 svc2 false = .ok () ↔ _ :=
    (findAndCmp_objects_iff [] false h.carried1.activeDocs h.carried2.activeDocs).trans
      lengths_not_asked
  unfold cmpServices
  rw [assertThat_bind_eq_ok_iff, seq_eq_ok_iff, seq_eq_ok_iff, seq_eq_ok_iff, seq_eq_ok_iff,
    seq_eq_ok_iff, seq_eq_ok_iff, cmpMetrics_fit_iff h.carried1.metrics h.carried2.metrics,
    cmpMappings_fit_iff h.carried1.mappingRules h.carried2.mappingRules,
    cmpAppPlans_fit_iff h.carried1 h.carried2, hdocs, cmpBackendUsages_fit_iff h]
  constructor
  · rintro ⟨-, -, -, hmetrics, hmappings, hplans, hdocs, hlength, husages⟩
    exact ⟨hmetrics, hmappings, hplans, hdocs, hlength, husages⟩
  · intro ht
    exact ⟨h.entity.size_eq, h.entity.cmpEnts_ok, cmpProxies_of_copy h.proxy productService,
      ht.metrics, ht.mappingRules, ht.appPlans, ht.activeDocs, ht.usagesLength, ht.backendUsages⟩

end Acceptance

/-! ## Trees whose siblings have identities of their own -/

section Unique

variable [DecidableEq V]

omit [DecidableEq V] in
theorem EntCopy.ident_eq {E : Type} [Resource E V] {ignored idAttr : List String} {e1 e2 : E}
    (h : EntCopy ignored (Resource.entity e1) (Resource.entity e2))
    (hidAttr : ∀ r ∈ idAttr, r ∉ ignored) : ident idAttr e1 = ident idAttr e2 :=
  List.map_congr_left fun r hr => h.values r (hidAttr r hr)

theorem objectsFit_of_extended {ignored idAttr : List String} {list1 list2 : List (ApiObject V)}
    (h : Extended (ObjectCopy ignored) idAttr list1 list2) (hunique : UniqueIdents idAttr list1)
    (hidAttr : ∀ r ∈ idAttr, r ∉ ignored) : Aligned idAttr (ObjectFits ignored) list1 list2 :=
  h.aligned hunique.nodup (fun _ _ hc => EntCopy.ident_eq hc hidAttr) fun _ _ _ _ hc =>
    EntCopy.fits hc

theorem metricsFit_of_extended {metrs1 metrs2 : List (Metric V)}
    (h : MetricsExtended metrs1 metrs2) (hunique : MetricsHold (@UniqueIdents V) metrs1) :
    MetricsFit metrs1 metrs2 := by
  refine h.aligned hunique.1.nodup (fun _ _ hc => hc.entity.ident_eq (by decide)) ?_
  intro metr1 hmetr1 metr2 _ hc
  exact ⟨hc.entity.fits, objectsFit_of_extended hc.methods (hunique.2 metr1 hmetr1) (by decide)⟩

/-- The lists that are compared with equal lengths. -/
structure SameLengths (svc1 svc2 : Service V) : Prop where
  metrics : svc1.metrics.length = svc2.metrics.length
  limits : ∀ ap1 ∈ svc1.appPlans, ∀ ap2 ∈ svc2.appPlans, AppPlanExtended ap1 ap2 →
    ∀ metr1 ∈ svc1.metrics, ∀ metr2 ∈ svc2.metrics, MetricExtended metr1 metr2 →
      (ap1.limits metr1).length = (ap2.limits metr2).length
  pricingRules : ∀ ap1 ∈ svc1.appPlans, ∀ ap2 ∈ svc2.appPlans, AppPlanExtended ap1 ap2 →
    ∀ metr1 ∈ svc1.metrics, ∀ metr2 ∈ svc2.metrics, MetricExtended metr1 metr2 →
      (ap1.pricingRules metr1).length = (ap2.pricingRules metr2).length
  backendUsages : svc1.backendUsages.length = svc2.backendUsages.length

theorem perMetricFit_of_extended {ignored idAttr : List String}
    {listed1 listed2 : Metric V → List (ApiObject V)} {metrs1 metrs2 : List (Metric V)}
    (hmetrics : MetricsExtended metrs1 metrs2) (hunique : MetricsHold (@UniqueIdents V) metrs1)
    (hlength : metrs1.length = metrs2.length) (hidAttr : ∀ r ∈ idAttr, r ∉ ignored)
    (hlisted : ∀ metr ∈ metrs1, UniqueIdents idAttr (listed1 metr))
    (h : ∀ metr1 ∈ metrs1, ∀ metr2 ∈ metrs2, MetricExtended metr1 metr2 →
      (listed1 metr1).length = (listed2 metr2).length ∧
        Extended (ObjectCopy ignored) idAttr (listed1 metr1) (listed2 metr2)) :
    PerMetricFit ignored idAttr listed1 listed2 metrs1 metrs2 := by
  refine ⟨hlength, hmetrics.aligned hunique.1.nodup
    (fun _ _ hc => hc.entity.ident_eq (by decide)) ?_⟩
  intro metr1 hmetr1 metr2 hmetr2 hc
  obtain ⟨hlengths, hextended⟩ := h metr1 hmetr1 metr2 hmetr2 hc
  exact ⟨hc.entity.size_eq, hlengths,
    objectsFit_of_extended hextended (hlisted metr1 hmetr1) hidAttr⟩

theorem appPlansFit_of_extended [PyValue V] {svc1 svc2 : Service V}
    (h : ServiceExtended svc1 svc2) (hunique : ServiceHolds (@UniqueIdents V) svc1)
    (hlengths : SameLengths svc1 svc2) :
    Aligned ["system_name"] AppPlanFits svc1.appPlans svc2.appPlans := by
  refine h.appPlans.aligned hunique.appPlans.nodup
    (fun _ _ hc => hc.entity.ident_eq (by decide)) ?_
  intro ap1 hap1 ap2 hap2 hc
  have hmetrics1 := svc1.plans_service ap1 hap1
  have hmetrics2 := svc2.plans_service ap2 hap2
  have hrules := hc.pricingRules
  have hlimits := hc.limits
  rw [hmetrics1, hmetrics2] at hrules hlimits
  refine ⟨hc.entity.fits, ?_, ?_⟩
  · rw [hmetrics1, hmetrics2]
    exact perMetricFit_of_extended h.metrics hunique.metrics hlengths.metrics (by decide)
      (hunique.pricingRules ap1 hap1) fun metr1 hmetr1 metr2 hmetr2 hm =>
        ⟨hlengths.pricingRules ap1 hap1 ap2 hap2 hc metr1 hmetr1 metr2 hmetr2 hm,
          hrules metr1 hmetr1 metr2 hmetr2 hm⟩
  · rw [hmetrics1, hmetrics2]
    exact perMetricFit_of_extended h.metrics hunique.metrics hlengths.metrics (by decide)
      (hunique.limits ap1 hap1) fun metr1 hmetr1 metr2 hmetr2 hm =>
        ⟨hlengths.limits ap1 hap1 ap2 hap2 hc metr1 hmetr1 metr2 hmetr2 hm,
          hlimits metr1 hmetr1 metr2 hmetr2 hm⟩

/-- Of trees whose siblings have identities of their own nothing is asked but the lengths. -/
theorem serviceTolerated_of_unique [PyValue V] {svc1 svc2 : Service V}
    (h : ServiceExtended svc1 svc2) (hunique : ServiceHolds (@UniqueIdents V) svc1)
    (hlengths : SameLengths svc1 svc2) : ServiceTolerated svc1 svc2 where
  metrics := metricsFit_of_extended h.metrics hunique.metrics
  mappingRules := objectsFit_of_extended h.mappingRules hunique.mappingRules (by decide)
  appPlans := appPlansFit_of_extended h hunique hlengths
  activeDocs := objectsFit_of_extended h.activeDocs hunique.activeDocs (by decide)
  usagesLength := hlengths.backendUsages
  backendUsages := by
    refine h.backendUsages.aligned hunique.backendUsages.nodup
      (fun _ _ hc => hc.entity.ident_eq (by decide)) ?_
    intro bus1 hbus1 bus2 _ hc
    refine ⟨hc.entity.fits, fun back1' back2' hused1' hused2' => ?_⟩
    obtain ⟨back1, back2, hused1, hused2, hback⟩ := hc.backend
    obtain ⟨hmetrics, hmappings⟩ := hunique.backends bus1 hbus1 back1 hused1
    rw [← hused1.eq hused1', ← hused2.eq hused2']
    exact ⟨hback.entity.fits, metricsFit_of_extended hback.metrics hmetrics,
      objectsFit_of_extended hback.mappingRules hmappings (by decide)⟩

end Unique

/-! ## A copy with an extra backend usage -/

/-- A rearrangement of copies extends a list, without extra children. -/
theorem SiblingsCopy.extended {E : Type} [Resource E V] {copy copy' : E → E → Prop}
    {idAttr : List String} {list1 list2 : List E} (h : SiblingsCopy copy idAttr list1 list2)
    (hcopy : ∀ e1 e2, copy e1 e2 → copy' e1 e2) : Extended copy' idAttr list1 list2 := by
  obtain ⟨zs, hperm, hall⟩ := h.copies
  constructor
  · intro e1 he1
    obtain ⟨i, hi, heq⟩ := List.mem_iff_getElem.mp he1
    have hi2 : i < zs.length := hall.length_eq ▸ hi
    refine ⟨zs[i], hperm.mem_iff.mp (List.getElem_mem hi2), ?_⟩
    rw [← heq]
    exact hcopy _ _ (hall.get hi hi2)
  · intro e2 he2
    obtain ⟨i, hi, heq⟩ := List.mem_iff_getElem.mp (hperm.mem_iff.mpr he2)
    have hi1 : i < list1.length := hall.length_eq ▸ hi
    refine Or.inl ⟨list1[i], List.getElem_mem hi1, ?_⟩
    rw [← heq]
    exact hcopy _ _ (hall.get hi1 hi)

theorem MetricCopy.extended {metr1 metr2 : Metric V} (h : MetricCopy metr1 metr2) :
    MetricExtended metr1 metr2 :=
  ⟨h.entity, h.methods.extended fun _ _ hc => hc⟩

theorem MetricsCopy.extended {metrs1 metrs2 : List (Metric V)} (h : MetricsCopy metrs1 metrs2) :
    MetricsExtended metrs1 metrs2 :=
  SiblingsCopy.extended h fun _ _ hc => hc.extended

theorem MappingsCopy.extended {maps1 maps2 : List (ApiObject V)} (h : MappingsCopy maps1 maps2) :
    MappingsExtended maps1 maps2 :=
  SiblingsCopy.extended h fun _ _ hc => hc

theorem BackendCopy.extended {back1 back2 : Backend V} (h : BackendCopy back1 back2) :
    BackendExtended back1 back2 :=
  ⟨h.entity, h.metrics.extended, h.mappingRules.extended⟩

theorem examplePlan_extended : AppPlanExtended (examplePlan false) (examplePlan true) where
  entity := examplePlan_copy.entity
  limits := fun metr1 _ metr2 _ _ =>
    have hlimits : SiblingsCopy (ObjectCopy limitsCmpAttr) ["period"]
        ((examplePlan false).limits metr1) ((examplePlan true).limits metr2) :=
      .swap (stored_copy (by decide) _ _ _) (stored_copy (by decide) _ _ _)
        ⟨by decide, by decide⟩
    hlimits.extended fun _ _ hc => hc
  pricingRules := fun _ _ _ _ _ => ⟨by simp [examplePlan], by simp [examplePlan]⟩

theorem exampleService_plans : Extended AppPlanExtended ["system_name"]
    (exampleService false).appPlans (exampleService true).appPlans where
  counterpart := fun ap1 hap1 => by
    rw [List.mem_singleton.mp hap1]
    exact ⟨examplePlan true, List.mem_singleton.mpr rfl, examplePlan_extended⟩
  additional := fun ap2 hap2 => by
    left
    rw [List.mem_singleton.mp hap2]
    exact ⟨examplePlan false, List.mem_singleton.mpr rfl, examplePlan_extended⟩

/-- The copy of the example with a further backend usage. -/
def exampleExtended : Service Json where
  attrs := (exampleService true).attrs
  proxy := (exampleService true).proxy
  metrics := (exampleService true).metrics
  mappingRules := (exampleService true).mappingRules
  appPlans := (exampleService true).appPlans
  activeDocs := (exampleService true).activeDocs
  backendUsages := [exampleObject true 70 "path" "/extra", exampleUsage true]
  readBackend := (exampleService true).readBackend
  plans_service := (exampleService true).plans_service

theorem exampleUsage_extended : BackendUsageExtended (exampleService false) exampleExtended
    (exampleUsage false) (exampleUsage true) := by
  obtain ⟨back1, back2, hused1, hused2, hback⟩ := exampleUsage_copy.backend
  exact ⟨exampleUsage_copy.entity, exampleUsage_copy.service1, exampleUsage_copy.service2,
    back1, back2, hused1, hused2, hback.extended⟩

theorem exampleExtended_usages :
    Extended (BackendUsageExtended (exampleService false) exampleExtended) ["path"]
    (exampleService false).backendUsages exampleExtended.backendUsages where
  counterpart := fun bus1 hbus1 => by
    rw [List.mem_singleton.mp hbus1]
    exact ⟨exampleUsage true, by simp [exampleExtended], exampleUsage_extended⟩
  additional := fun bus2 hbus2 => by
    rcases List.mem_cons.mp hbus2 with hextra | hcopied
    · right
      intro bus1 hbus1
      rw [List.mem_singleton.mp hbus1, hextra]
      decide
    · left
      rw [List.mem_singleton.mp hcopied]
      exact ⟨exampleUsage false, List.mem_singleton.mpr rfl, exampleUsage_extended⟩

/-- The objects of the example carry what identifies them. -/
theorem holds_of_parts {svc : Service Json} {copied : Bool}
    (hmetrics : svc.metrics = exampleMetrics copied)
    (hmappings : svc.mappingRules = exampleRules copied)
    (hplans : svc.appPlans = [examplePlan copied]) (hdocs : svc.activeDocs = [])
    (husages : Carries ["path"] svc.backendUsages)
    (hbackends : ∀ id, svc.readBackend id = .ok (exampleBackend copied)) :
    ServiceHolds (@Carries Json) svc where
  metrics := by rw [hmetrics]; cases copied <;> exact ⟨by decide, by decide⟩
  mappingRules := by rw [hmappings]; cases copied <;> decide
  appPlans := by rw [hplans]; cases copied <;> decide
  limits := by rw [hplans, hmetrics]; cases copied <;> decide
  pricingRules := by rw [hplans, hmetrics]; cases copied <;> decide
  activeDocs := by rw [hdocs]; decide
  backendUsages := husages
  backends := by
    rintro bus - back ⟨id, -, hread⟩
    rw [hbackends id] at hread
    rw [← Except.ok.inj hread]
    cases copied <;> exact ⟨⟨by decide, by decide⟩, by decide⟩

theorem exampleExtended_extended : ServiceExtended (exampleService false) exampleExtended where
  carried1 := holds_of_parts rfl rfl rfl rfl (by decide) fun _ => rfl
  carried2 := holds_of_parts rfl rfl rfl rfl (by decide) fun _ => rfl
  entity := exampleService_copy.entity
  proxy := exampleService_copy.proxy
  metrics := exampleService_copy.metrics.extended
  mappingRules := exampleService_copy.mappingRules.extended
  appPlans := exampleService_plans
  activeDocs := exampleService_copy.activeDocs.extended fun _ _ hc => hc
  backendUsages := exampleExtended_usages

/-- The extra usage is not tolerated. -/
theorem cmpServices_not_tolerant :
    ServiceExtended (exampleService false) exampleExtended ∧
      cmpServices (exampleService false) exampleExtended .product false =
        .error .assertionError :=
  ⟨exampleExtended_extended, by decide⟩

theorem cmpServices_extended_iff_example :
    cmpServices (exampleService false) exampleExtended .product false = .ok () ↔
      ServiceTolerated (exampleService false) exampleExtended :=
  cmpServices_extended_iff exampleExtended_extended .product

end ThreescaleTests.Toolbox
