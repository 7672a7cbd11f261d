import Mathlib.Algebra.Order.BigOperators.Group.List
import Mathlib.Algebra.Order.Group.Nat
import ThreescaleTests.Toolbox.FaithfulCopy
import ThreescaleTests.Toolbox.PairCheck

/-!
# Mapping rules with a common pattern

Mapping rules are paired by their pattern alone. Within one pattern the pairing
follows the order of the two lists, so a list and a rearrangement of it compare
successfully only when the rules of each pattern come in the same order.
-/

namespace ThreescaleTests.Toolbox

open Library

variable {V : Type}

/-! ## The queue, identity by identity -/

section Queue

variable [DecidableEq V] {E : Type} [Resource E V]

/-- The siblings with the given identity, in their order. -/
def identified (idAttr : List String) (i : List (Option V)) (list : List E) : List E :=
  list.filter fun e => decide (ident idAttr e = i)

theorem identified_cons_self {idAttr : List String} {i : List (Option V)} {e : E}
    (h : ident idAttr e = i) (list : List E) :
    identified idAttr i (e :: list) = e :: identified idAttr i list :=
  List.filter_cons_of_pos (by simp [h])

theorem identified_cons_of_ne {idAttr : List String} {i : List (Option V)} {e : E}
    (h : ident idAttr e ≠ i) (list : List E) :
    identified idAttr i (e :: list) = identified idAttr i list :=
  List.filter_cons_of_neg (by simp [h])

theorem identified_append (idAttr : List String) (i : List (Option V)) (list list' : List E) :
    identified idAttr i (list ++ list') = identified idAttr i list ++ identified idAttr i list' :=
  List.filter_append list list'

theorem length_identified (idAttr : List String) (i : List (Option V)) (list : List E) :
    (identified idAttr i list).length = (list.map (ident idAttr)).count i := by
  induction list with
  | nil => rfl
  | cons e list ih =>
      rw [List.map_cons]
      by_cases h : ident idAttr e = i
      · rw [identified_cons_self h, List.length_cons, h, List.count_cons_self, ih]
      · rw [identified_cons_of_ne h, List.count_cons_of_ne h, ih]

/-- Entities that the scan passes over have another identity. -/
theorem ident_ne_of_agree_false {idAttr : List String} {e1 e2 : E}
    (h : agree (entity e1) (entity e2) idAttr = .ok false) : ident idAttr e2 ≠ ident idAttr e1 := by
  intro hident
  induction idAttr with
  | nil => cases h
  | cons r idAttr ih =>
      simp only [ident, List.map_cons, List.cons.injEq] at hident
      obtain ⟨v1, h1, hrest⟩ := bind_eq_ok_iff.mp h
      obtain ⟨v2, h2, hrest⟩ := bind_eq_ok_iff.mp hrest
      rw [getItem_eq_ok_iff] at h1 h2
      have hv : v1 = v2 := by
        rw [h1, h2] at hident
        exact (Option.some.inj hident.1).symm
      rw [if_pos hv] at hrest
      exact ih hrest hident.2

theorem identified_eq_nil_of_agree_false {idAttr : List String} {e : E} {list : List E}
    (h : ∀ e' ∈ list, agree (entity e) (entity e') idAttr = .ok false) :
    identified idAttr (ident idAttr e) list = [] := by
  rw [identified, List.filter_eq_nil_iff]
  intro e' he'
  simpa using ident_ne_of_agree_false (h e' he')

variable [ApiEq V]

/-- Siblings with a common identity are paired in the order of the lists. -/
theorem pairQueue_identified [LawfulApiEq V] {idAttr : List String} {list1 list2 : List E}
    {queue : List (E × E)} (h : pairQueue idAttr list1 list2 = .ok queue) (i : List (Option V)) :
    queue.filter (fun p => decide (ident idAttr p.1 = i)) =
      (identified idAttr i list1).zip (identified idAttr i list2) := by
  induction list1 generalizing list2 queue with
  | nil =>
      have hq : [] = queue := by simpa [pairQueue] using h
      subst hq
      rfl
  | cons ent1 list1 ih =>
      rcases pairQueue_cons h with
        ⟨hnone, hrest⟩ | ⟨ent2, pre, post, queue', rfl, hagree, hpre, hqueue', rfl⟩
      · rw [ih hrest]
        by_cases hi : ident idAttr ent1 = i
        · -- nothing on the right has this identity
          have hnil := identified_eq_nil_of_agree_false hnone
          rw [← hi, hnil, List.zip_nil_right, List.zip_nil_right]
        · rw [identified_cons_of_ne hi]
      · have htail := ih hqueue'
        rw [identified_append] at htail
        rw [identified_append]
        have hsame := hagree.ident_eq
        by_cases hi : ident idAttr ent1 = i
        · have hnil : identified idAttr i pre = [] := by
            rw [← hi]
            exact identified_eq_nil_of_agree_false hpre
          rw [hnil, List.nil_append] at htail
          rw [identified_cons_self hi, identified_cons_self (hsame.symm.trans hi), hnil,
            List.nil_append, List.zip_cons_cons, List.filter_cons_of_pos (by simp [hi]), htail]
        · have hi2 : ident idAttr ent2 ≠ i := fun h2 => hi (hsame.trans h2)
          rw [identified_cons_of_ne hi, identified_cons_of_ne hi2,
            List.filter_cons_of_neg (by simp [hi]), htail]

/-- The queue of entities that carry the identifying attributes. -/
theorem pairQueue_of_carries {idAttr : List String} {list1 list2 : List E}
    (h1 : ∀ e ∈ list1, ∀ r ∈ idAttr, r ∈ (entity e).keys)
    (h2 : ∀ e ∈ list2, ∀ r ∈ idAttr, r ∈ (entity e).keys) :
    ∃ queue, pairQueue idAttr list1 list2 = .ok queue := by
  induction list1 generalizing list2 with
  | nil => exact ⟨[], rfl⟩
  | cons ent1 list1 ih =>
      rw [List.forall_mem_cons] at h1
      have hscan : ∃ found, firstAgreeing idAttr ent1 list2 = .ok found := by
        clear ih
        induction list2 with
        | nil => exact ⟨none, rfl⟩
        | cons e list2 ih =>
            rw [List.forall_mem_cons] at h2
            obtain ⟨b, hb⟩ := agree_of_carries h1.1 h2.1
            cases b with
            | true => exact ⟨some e, bind_eq_ok_iff.mpr ⟨true, hb, by simp⟩⟩
            | false =>
                obtain ⟨found, hfound⟩ := ih h2.2
                exact ⟨found, bind_eq_ok_iff.mpr ⟨false, hb, by simpa using hfound⟩⟩
      obtain ⟨found, hfound⟩ := hscan
      cases found with
      | none =>
          obtain ⟨queue, hqueue⟩ := ih h1.2 h2
          exact ⟨queue, bind_eq_ok_iff.mpr ⟨none, hfound, hqueue⟩⟩
      | some ent2 =>
          have hsub : ∀ e ∈ removeEnt ent2 list2, ∀ r ∈ idAttr, r ∈ (entity e).keys :=
            fun e he => h2 e (List.mem_of_mem_eraseP he)
          obtain ⟨queue, hqueue⟩ := ih h1.2 hsub
          exact ⟨(ent1, ent2) :: queue, bind_eq_ok_iff.mpr ⟨some ent2, hfound,
            bind_eq_ok_iff.mpr ⟨queue, hqueue, rfl⟩⟩⟩

/-- With one identifying attribute and enough entities on the right, an entity that lacks the
attribute raises. -/
theorem carries_of_pairQueue [LawfulApiEq V] {r : String} {list1 list2 : List E}
    {queue : List (E × E)}
    (h : pairQueue [r] list1 list2 = .ok queue) (hlength : list1.length ≤ list2.length) :
    ∀ e ∈ list1, r ∈ (entity e).keys := by
  induction list1 generalizing list2 queue with
  | nil => simp
  | cons ent1 list1 ih =>
      obtain ⟨found, hfound, -⟩ := bind_eq_ok_iff.mp h
      have hhead : r ∈ (entity ent1).keys := by
        cases list2 with
        | nil => simp at hlength
        | cons e list2 =>
            obtain ⟨b, hb, -⟩ := bind_eq_ok_iff.mp hfound
            obtain ⟨v, hv, -⟩ := bind_eq_ok_iff.mp hb
            exact Dict.mem_keys_iff.mpr ⟨v, getItem_eq_ok_iff.mp hv⟩
      rw [List.forall_mem_cons]
      refine ⟨hhead, ?_⟩
      rw [List.length_cons] at hlength
      rcases pairQueue_cons h with
        ⟨-, hrest⟩ | ⟨ent2, pre, post, queue', rfl, -, -, hqueue', -⟩
      · exact ih hrest (by omega)
      · refine ih hqueue' ?_
        rw [List.length_append, List.length_cons] at hlength
        rw [List.length_append]
        omega

end Queue

/-! ## Mapping rules -/

/-- Mapping rules that are equal up to the ignored attributes. -/
def RuleSame (map1 map2 : ApiObject V) : Prop := EqExcept mappingCmpAttrs map1.attrs map2.attrs

variable [DecidableEq V]

def withPattern (pattern : V) (maps : List (ApiObject V)) : List (ApiObject V) :=
  maps.filter fun map => decide (map.attrs.get? "pattern" = some pattern)

/-- All rules have a pattern, and the rules of one pattern come in the same order, up to rules that
are equal and have equally many attributes. -/
structure InOrder (maps1 maps2 : List (ApiObject V)) : Prop where
  patterns : ∀ map ∈ maps1, "pattern" ∈ map.attrs.keys
  order : ∀ pattern, List.Forall₂
    (fun map1 map2 => RuleSame map1 map2 ∧ map1.attrs.size = map2.attrs.size)
    (withPattern pattern maps1) (withPattern pattern maps2)

theorem identified_pattern (pattern : V) (maps : List (ApiObject V)) :
    identified ["pattern"] [some pattern] maps = withPattern pattern maps := by
  unfold identified withPattern ident
  simp [entity]

omit [DecidableEq V] in
theorem RuleSame.ident_eq {map1 map2 : ApiObject V} (h : RuleSame map1 map2) :
    ident ["pattern"] map1 = ident ["pattern"] map2 := by
  have hget := h "pattern" (by decide)
  simpa [ident, entity] using hget

omit [DecidableEq V] in
/-- The rules of the second list have a pattern if those of the first have. -/
theorem patterns_right {maps1 maps2 : List (ApiObject V)} (h : Matched RuleSame maps1 maps2)
    (hpatterns : ∀ map ∈ maps1, "pattern" ∈ map.attrs.keys) :
    ∀ map ∈ maps2, "pattern" ∈ map.attrs.keys := by
  intro map2 hmap2
  have hperm := h.map_perm fun _ _ hsame => RuleSame.ident_eq hsame
  have hmem := hperm.mem_iff.mpr (List.mem_map_of_mem (f := ident ["pattern"]) hmap2)
  obtain ⟨map1, hmap1, hident⟩ := List.mem_map.mp hmem
  have hget : map1.attrs.get? "pattern" = map2.attrs.get? "pattern" := by
    simpa [ident, entity] using hident
  rw [← Dict.isSome_get?_iff, ← hget, Dict.isSome_get?_iff]
  exact hpatterns map1 hmap1

omit [DecidableEq V] in
/-- Parts paired along a queue that covers two lists of equal rules are equal rules: there is
nothing that could be left over. -/
theorem queued_same {maps1 maps2 : List (ApiObject V)} {queue : List (ApiObject V × ApiObject V)}
    (h : Matched RuleSame maps1 maps2) (hleft : queue.map Prod.fst = maps1)
    (hright : (queue.map Prod.snd).Perm maps2)
    (hparts : ∀ p ∈ queue, PartExcept mappingCmpAttrs p.1.attrs p.2.attrs) :
    ∀ p ∈ queue, RuleSame p.1 p.2 := by
  let count : ApiObject V → Nat := fun map => (attrsExcept map.attrs mappingCmpAttrs).length
  have hcounts : ∀ map1 map2, RuleSame map1 map2 → count map1 = count map2 := by
    intro map1 map2 hsame
    have hlength := hsame.part.length_eq
    rw [(eqExcept_iff.mp hsame).2] at hlength
    exact hlength.symm
  have hsum : (queue.map fun p => count p.1).sum = (queue.map fun p => count p.2).sum := by
    have hperm := (h.map_perm hcounts).trans (hright.map count).symm
    rw [← hleft, List.map_map, List.map_map] at hperm
    exact hperm.sum_eq
  intro p hp
  refine eqExcept_iff.mpr ⟨hparts p hp, ?_⟩
  by_contra hne
  have hle : ∀ q ∈ queue, count q.1 ≤ count q.2 := by
    intro q hq
    have hlength := (hparts q hq).length_eq
    show (attrsExcept q.1.attrs mappingCmpAttrs).length ≤
      (attrsExcept q.2.attrs mappingCmpAttrs).length
    omega
  have hlt : count p.1 < count p.2 := by
    have hlength := (hparts p hp).length_eq
    have hpos := List.length_pos_iff.mpr hne
    show (attrsExcept p.1.attrs mappingCmpAttrs).length <
      (attrsExcept p.2.attrs mappingCmpAttrs).length
    omega
  exact absurd hsum (Nat.ne_of_lt (List.sum_lt_sum _ _ hle ⟨p, hp, hlt⟩))

omit [DecidableEq V] in
theorem carries_pattern {maps : List (ApiObject V)}
    (h : ∀ map ∈ maps, "pattern" ∈ map.attrs.keys) :
    ∀ map ∈ maps, ∀ r ∈ ["pattern"], r ∈ (entity map).keys := by
  intro map hmap r hr
  rw [List.mem_singleton.mp hr]
  exact h map hmap

section Pairs

variable [ApiEq V] [LawfulApiEq V] {maps1 maps2 : List (ApiObject V)}
  {queue : List (ApiObject V × ApiObject V)}

/-- The queue pairs the rules of a pattern in their order. -/
theorem mem_queue_iff (hqueue : pairQueue ["pattern"] maps1 maps2 = .ok queue) {pattern : V}
    {p : ApiObject V × ApiObject V} :
    p ∈ (withPattern pattern maps1).zip (withPattern pattern maps2) ↔
      p ∈ queue ∧ p.1.attrs.get? "pattern" = some pattern := by
  rw [← identified_pattern, ← identified_pattern, ← pairQueue_identified hqueue [some pattern],
    List.mem_filter, decide_eq_true_eq]
  simp [ident, entity]

/-- Where all pairs of the queue pass, the rules of each pattern come in the same order. -/
theorem inOrder_of_queue (h : Matched RuleSame maps1 maps2)
    (hqueue : pairQueue ["pattern"] maps1 maps2 = .ok queue)
    (hsizes : ∀ p ∈ queue, p.1.attrs.size = p.2.attrs.size)
    (hparts : ∀ p ∈ queue, PartExcept mappingCmpAttrs p.1.attrs p.2.attrs) :
    InOrder maps1 maps2 := by
  have hidents := h.map_perm fun _ _ hsame => RuleSame.ident_eq hsame
  have hpatterns := carries_of_pairQueue hqueue (Nat.le_of_eq h.length_eq)
  obtain ⟨hleft, hright⟩ := pairQueue_covers hqueue ⟨carries_pattern hpatterns, hidents⟩
  have hsame := queued_same h hleft hright hparts
  refine ⟨hpatterns, fun pattern => List.forall₂_iff_zip.mpr ⟨?_, ?_⟩⟩
  · rw [← identified_pattern, ← identified_pattern, length_identified, length_identified]
    exact hidents.count_eq [some pattern]
  · intro map1 map2 hmem
    obtain ⟨hp, -⟩ := (mem_queue_iff hqueue).mp hmem
    exact ⟨hsame _ hp, hsizes _ hp⟩

/-- Where the rules of each pattern come in the same order, all pairs of the queue pass. -/
theorem queue_of_inOrder (horder : InOrder maps1 maps2)
    (hqueue : pairQueue ["pattern"] maps1 maps2 = .ok queue) {p : ApiObject V × ApiObject V}
    (hp : p ∈ queue) :
    p.1.attrs.size = p.2.attrs.size ∧ PartExcept mappingCmpAttrs p.1.attrs p.2.attrs := by
  have hmem1 : p.1 ∈ maps1 := (pairQueue_queued hqueue).left.subset (List.mem_map_of_mem hp)
  obtain ⟨pattern, hpattern⟩ := Dict.mem_keys_iff.mp (horder.patterns p.1 hmem1)
  -- the pair stands at its place among the rules of its pattern
  have hmem := (mem_queue_iff hqueue).mpr ⟨hp, hpattern⟩
  obtain ⟨hsame, hsize⟩ := (List.forall₂_iff_zip.mp (horder.order pattern)).2 hmem
  exact ⟨hsize, hsame.part⟩

end Pairs

/-- Two lists with the same rules compare successfully exactly if the rules of each pattern come in
the same order. -/
theorem cmpMappings_multiset_iff [ApiEq V] [LawfulApiEq V] {maps1 maps2 : List (ApiObject V)}
    (h : Matched RuleSame maps1 maps2) (cmpLength : Bool) :
    cmpMappings maps1 maps2 cmpLength = .ok () ↔ InOrder maps1 maps2 := by
  have hcheck : ∀ map1 map2 : ApiObject V, cmpObjects mappingCmpAttrs map1 map2 = .ok () ↔
      PartExcept mappingCmpAttrs map1.attrs map2.attrs := fun _ _ => cmpEnts_attrsExcept_iff
  have hidAttr : idAttrOr ["pattern"] = ["pattern"] := rfl
  unfold cmpMappings
  rw [findAndCmp_eq_ok_iff, hidAttr]
  constructor
  · rintro ⟨-, queue, hqueue, hcmp⟩
    exact inOrder_of_queue h hqueue (fun p hp => (hcmp p hp).1)
      fun p hp => (hcheck p.1 p.2).mp (hcmp p hp).2
  · intro horder
    obtain ⟨queue, hqueue⟩ := pairQueue_of_carries (carries_pattern horder.patterns)
      (carries_pattern (patterns_right h horder.patterns))
    refine ⟨fun _ => h.length_eq, queue, hqueue, fun p hp => ?_⟩
    obtain ⟨hsize, hpart⟩ := queue_of_inOrder horder hqueue hp
    exact ⟨hsize, (hcheck p.1 p.2).mpr hpart⟩

/-! ## One pattern, two methods -/

def exampleRule (pattern method : String) : ApiObject Json :=
  ⟨.ofList [("pattern", .str pattern), ("http_method", .str method), ("delta", .num 1)]⟩

/-- The rules of a product, listed in another order by its copy. -/
theorem cmpMappings_not_multiset :
    Matched RuleSame [exampleRule "/anything" "GET", exampleRule "/anything" "POST"]
        [exampleRule "/anything" "POST", exampleRule "/anything" "GET"] ∧
      cmpMappings [exampleRule "/anything" "GET", exampleRule "/anything" "POST"]
        [exampleRule "/anything" "POST", exampleRule "/anything" "GET"] true ≠ .ok () := by
  have hrefl : ∀ map : ApiObject Json, RuleSame map map := fun _ _ _ => rfl
  refine ⟨⟨_, List.Perm.swap _ _ [], .cons (hrefl _) (.cons (hrefl _) .nil)⟩, by decide⟩

theorem cmpMappings_multiset_iff_swap :
    cmpMappings [exampleRule "/ip" "GET", exampleRule "/put" "PUT"]
        [exampleRule "/put" "PUT", exampleRule "/ip" "GET"] true = .ok () ↔
      InOrder [exampleRule "/ip" "GET", exampleRule "/put" "PUT"]
        [exampleRule "/put" "PUT", exampleRule "/ip" "GET"] :=
  cmpMappings_multiset_iff
    ⟨_, List.Perm.swap _ _ [], .cons (fun _ _ => rfl) (.cons (fun _ _ => rfl) .nil)⟩ true

end ThreescaleTests.Toolbox
