import ThreescaleTests.Library.Exn
import ThreescaleTests.Library.Json
import ThreescaleTests.Library.Matching

/-!
# Comparing two lists of API objects

`findAndCmp` first queues pairs of objects that agree on the identifying
attributes, taking the partner of each object of the first list out of the second
list, and then compares the queued pairs. Objects for which no partner is left
are not queued. The results below say what the queue contains and when it covers
both lists.
-/

namespace ThreescaleTests.Toolbox

open Library

/-- The attributes of an API object, `entity` in the source. -/
abbrev Attrs (V : Type) := Dict String V

/-- `==` of the client library's objects, by which `list.remove` finds what to remove. -/
class ApiEq (V : Type) where
  same : Attrs V → Attrs V → Bool

/-- API objects are mappings: an object equals itself, and equal objects have equal items. -/
class LawfulApiEq (V : Type) [ApiEq V] : Prop where
  same_self : ∀ e : Attrs V, ApiEq.same e e = true
  same_items : ∀ e e' : Attrs V, ApiEq.same e e' = true → e.Same e'

/-- What the comparisons read of an API object of any kind. -/
class Resource (E : Type) (V : outParam Type) where
  entity : E → Attrs V

export Resource (entity)

/-- An object of which only its own attributes are compared. -/
structure ApiObject (V : Type) where
  attrs : Attrs V

instance (V : Type) : Resource (ApiObject V) V := ⟨ApiObject.attrs⟩

/-- At JSON values, `==` of objects is equality of mappings. -/
instance : ApiEq Json := ⟨Dict.beq⟩

instance : LawfulApiEq Json where
  same_self e := Dict.beq_eq_true_iff.mpr (Dict.Same.refl e)
  same_items _ _ h := Dict.beq_eq_true_iff.mp h

variable {V : Type} [DecidableEq V]

/-! ## The comparisons -/

/-- `cmp_ents`: assert equality of two entities, attribute by attribute. -/
def cmpEnts (ent1 ent2 : Attrs V) (attrlist : List String) : Except Exn Unit :=
  forEach (fun attr => do
    let v1 ← ent1.getItem attr
    let v2 ← ent2.getItem attr
    assertThat (v1 = v2)) attrlist

/-- `all(ent1.entity[r] == ent2.entity[r] for r in id_attr)`, which stops at the first
difference. -/
def agree (ent1 ent2 : Attrs V) : List String → Except Exn Bool
  | [] => .ok true
  | r :: idAttr => do
    let v1 ← ent1.getItem r
    let v2 ← ent2.getItem r
    if v1 = v2 then agree ent1 ent2 idAttr else .ok false

/-- The inner loop up to its `break`: the first object of `list2` that agrees with `ent1`. -/
def firstAgreeing {E : Type} [Resource E V] (idAttr : List String) (ent1 : E) :
    List E → Except Exn (Option E)
  | [] => .ok none
  | ent2 :: list2 => do
    if ← agree (entity ent1) (entity ent2) idAttr then .ok (some ent2)
    else firstAgreeing idAttr ent1 list2

def removeEnt {E : Type} [Resource E V] [ApiEq V] (ent2 : E) (list2 : List E) : List E :=
  list2.eraseP (fun e => ApiEq.same (entity e) (entity ent2))

/-- The loop over `list1` that fills the queue and shrinks `list2`. -/
def pairQueue {E : Type} [Resource E V] [ApiEq V] (idAttr : List String) :
    List E → List E → Except Exn (List (E × E))
  | [], _ => .ok []
  | ent1 :: list1, list2 => do
    match ← firstAgreeing idAttr ent1 list2 with
    | none => pairQueue idAttr list1 list2
    | some ent2 =>
      let queue ← pairQueue idAttr list1 (removeEnt ent2 list2)
      .ok ((ent1, ent2) :: queue)

def idAttrOr (idAttr : List String) : List String :=
  if idAttr = [] then ["system_name"] else idAttr

def findAndCmp {E : Type} [Resource E V] [ApiEq V] (list1 list2 : List E)
    (cmpFunction : E → E → Except Exn Unit) (idAttr : List String) (cmpLength : Bool) :
    Except Exn Unit := do
  if cmpLength then assertThat (list1.length = list2.length)
  let queue ← pairQueue (idAttrOr idAttr) list1 list2
  forEach (fun p => do
    assertThat ((entity p.1).size = (entity p.2).size)
    cmpFunction p.1 p.2) queue

/-! ## Attribute comparison -/

theorem cmpEnts_eq_ok_iff {ent1 ent2 : Attrs V} {attrlist : List String} :
    cmpEnts ent1 ent2 attrlist = .ok () ↔
      ∀ attr ∈ attrlist, ∃ v, ent1.get? attr = some v ∧ ent2.get? attr = some v := by
  unfold cmpEnts
  rw [forEach_eq_ok_iff]
  refine forall₂_congr fun attr _ => ?_
  simp only [bind_eq_ok_iff, getItem_eq_ok_iff, assertThat_eq_ok_iff]
  constructor
  · rintro ⟨v1, h1, v2, h2, rfl⟩
    exact ⟨v1, h1, h2⟩
  · rintro ⟨v, h1, h2⟩
    exact ⟨v, h1, v, h2, rfl⟩

/-- Both entities carry the attributes, with equal values. -/
def AgreeOn (idAttr : List String) (ent1 ent2 : Attrs V) : Prop :=
  ∀ r ∈ idAttr, ∃ v, ent1.get? r = some v ∧ ent2.get? r = some v

theorem agree_eq_true_iff {ent1 ent2 : Attrs V} {idAttr : List String} :
    agree ent1 ent2 idAttr = .ok true ↔ AgreeOn idAttr ent1 ent2 := by
  induction idAttr with
  | nil => simp [agree, AgreeOn]
  | cons r idAttr ih =>
      simp only [agree, bind_eq_ok_iff, getItem_eq_ok_iff, AgreeOn, List.forall_mem_cons]
      constructor
      · rintro ⟨v1, h1, v2, h2, h⟩
        by_cases heq : v1 = v2
        · subst heq
          rw [if_pos rfl] at h
          exact ⟨⟨v1, h1, h2⟩, ih.mp h⟩
        · simp [heq] at h
      · rintro ⟨⟨v, h1, h2⟩, hrest⟩
        exact ⟨v, h1, v, h2, by simpa using ih.mpr hrest⟩

/-- Agreement is decided by the attributes alone. -/
theorem agree_congr {ent1 ent2 ent2' : Attrs V} (h : ent2.Same ent2') (idAttr : List String) :
    agree ent1 ent2 idAttr = agree ent1 ent2' idAttr := by
  induction idAttr with
  | nil => rfl
  | cons r idAttr ih => simp [agree, Dict.getItem, h r, ih]

omit [DecidableEq V] in
theorem AgreeOn.get?_eq {idAttr : List String} {ent1 ent2 : Attrs V}
    (h : AgreeOn idAttr ent1 ent2) {r : String} (hr : r ∈ idAttr) :
    ent1.get? r = ent2.get? r := by
  obtain ⟨v, h1, h2⟩ := h r hr
  rw [h1, h2]

/-! ## The queue -/

variable {E : Type} [Resource E V] [ApiEq V]

omit [ApiEq V] in
theorem firstAgreeing_eq_none {idAttr : List String} {ent1 : E} {list2 : List E}
    (h : firstAgreeing idAttr ent1 list2 = .ok none) :
    ∀ ent2 ∈ list2, agree (entity ent1) (entity ent2) idAttr = .ok false := by
  induction list2 with
  | nil => simp
  | cons ent2 list2 ih =>
      have hbind := bind_eq_ok_iff.mp h
      obtain ⟨b, hb, hrest⟩ := hbind
      cases b with
      | true => simp at hrest
      | false =>
          rw [List.forall_mem_cons]
          exact ⟨hb, ih (by simpa using hrest)⟩

omit [ApiEq V] in
/-- The partner found is the first object that agrees: the ones before it differ. -/
theorem firstAgreeing_eq_some {idAttr : List String} {ent1 ent2 : E} {list2 : List E}
    (h : firstAgreeing idAttr ent1 list2 = .ok (some ent2)) :
    ∃ pre post, list2 = pre ++ ent2 :: post ∧
      AgreeOn idAttr (entity ent1) (entity ent2) ∧
      ∀ e ∈ pre, agree (entity ent1) (entity e) idAttr = .ok false := by
  induction list2 with
  | nil => simp [firstAgreeing] at h
  | cons e list2 ih =>
      have hbind := bind_eq_ok_iff.mp h
      obtain ⟨b, hb, hrest⟩ := hbind
      cases b with
      | true =>
          have heq : e = ent2 := by simpa using hrest
          subst heq
          exact ⟨[], list2, rfl, agree_eq_true_iff.mp hb, by simp⟩
      | false =>
          obtain ⟨pre, post, hl, hagree, hpre⟩ := ih (by simpa using hrest)
          refine ⟨e :: pre, post, by simp [hl], hagree, ?_⟩
          rw [List.forall_mem_cons]
          exact ⟨hb, hpre⟩

/-- `list2.remove` takes out exactly the partner found, because an equal object standing
before it would have agreed as well. -/
theorem removeEnt_of_first [LawfulApiEq V] {idAttr : List String} {ent1 ent2 : E}
    {pre post : List E} (hagree : AgreeOn idAttr (entity ent1) (entity ent2))
    (hpre : ∀ e ∈ pre, agree (entity ent1) (entity e) idAttr = .ok false) :
    removeEnt ent2 (pre ++ ent2 :: post) = pre ++ post := by
  have hne : ∀ e ∈ pre, ¬ ApiEq.same (entity e) (entity ent2) = true := by
    intro e he hsame
    have hcongr :
        agree (entity ent1) (entity e) idAttr = agree (entity ent1) (entity ent2) idAttr :=
      agree_congr (LawfulApiEq.same_items _ _ hsame) idAttr
    rw [hpre e he, agree_eq_true_iff.mpr hagree] at hcongr
    cases hcongr
  unfold removeEnt
  rw [List.eraseP_append_right _ hne, List.eraseP_cons_of_pos]
  exact LawfulApiEq.same_self (entity ent2)

/-- One round of the loop: nothing on the right agrees with the first object, or the first one that
does is paired with it and removed. -/
theorem pairQueue_cons [LawfulApiEq V] {idAttr : List String} {ent1 : E} {list1 list2 : List E}
    {queue : List (E × E)} (h : pairQueue idAttr (ent1 :: list1) list2 = .ok queue) :
    ((∀ e ∈ list2, agree (entity ent1) (entity e) idAttr = .ok false) ∧
      pairQueue idAttr list1 list2 = .ok queue) ∨
    ∃ ent2 pre post queue', list2 = pre ++ ent2 :: post ∧
      AgreeOn idAttr (entity ent1) (entity ent2) ∧
      (∀ e ∈ pre, agree (entity ent1) (entity e) idAttr = .ok false) ∧
      pairQueue idAttr list1 (pre ++ post) = .ok queue' ∧ queue = (ent1, ent2) :: queue' := by
  obtain ⟨found, hfound, hrest⟩ := bind_eq_ok_iff.mp h
  cases found with
  | none => exact Or.inl ⟨firstAgreeing_eq_none hfound, hrest⟩
  | some ent2 =>
      obtain ⟨queue', hqueue', heq⟩ := bind_eq_ok_iff.mp hrest
      obtain ⟨pre, post, hl, hagree, hpre⟩ := firstAgreeing_eq_some hfound
      rw [hl, removeEnt_of_first hagree hpre] at hqueue'
      exact Or.inr ⟨ent2, pre, post, queue', hl, hagree, hpre, hqueue', (Except.ok.inj heq).symm⟩

/-- What a queue may contain: pairs that agree, from an unpaired part of either list. -/
structure Queued (idAttr : List String) (list1 list2 : List E) (queue : List (E × E)) : Prop where
  left : (queue.map Prod.fst).Sublist list1
  right : ∃ rest, (queue.map Prod.snd ++ rest).Perm list2
  agrees : ∀ p ∈ queue, AgreeOn idAttr (entity p.1) (entity p.2)

theorem pairQueue_queued [LawfulApiEq V] {idAttr : List String} {list1 list2 : List E}
    {queue : List (E × E)} (h : pairQueue idAttr list1 list2 = .ok queue) :
    Queued idAttr list1 list2 queue := by
  induction list1 generalizing list2 queue with
  | nil =>
      have hq : [] = queue := by simpa [pairQueue] using h
      subst hq
      exact ⟨by simp, ⟨list2, by simp⟩, by simp⟩
  | cons ent1 list1 ih =>
      rcases pairQueue_cons h with
        ⟨-, hrest⟩ | ⟨ent2, pre, post, queue', rfl, hagree, -, hqueue', rfl⟩
      · have hq := ih hrest
        exact ⟨hq.left.cons ent1, hq.right, hq.agrees⟩
      · have hq := ih hqueue'
        obtain ⟨rest, hperm⟩ := hq.right
        refine ⟨hq.left.cons_cons ent1, ⟨rest, ?_⟩, ?_⟩
        · exact (hperm.cons ent2).trans List.perm_middle.symm
        · rw [List.forall_mem_cons]
          exact ⟨hagree, hq.agrees⟩

/-! ## When the queue covers both lists -/

def ident (idAttr : List String) (e : E) : List (Option V) :=
  idAttr.map (fun r => (entity e).get? r)

/-- The lists hold the same identities, each as often as the other list, and every object of
the first list carries all identifying attributes. -/
def SameIdents (idAttr : List String) (list1 list2 : List E) : Prop :=
  (∀ e ∈ list1, ∀ r ∈ idAttr, r ∈ (entity e).keys) ∧
    (list1.map (ident idAttr)).Perm (list2.map (ident idAttr))

omit [DecidableEq V] [ApiEq V] in
theorem AgreeOn.ident_eq {idAttr : List String} {e1 e2 : E}
    (h : AgreeOn idAttr (entity e1) (entity e2)) : ident idAttr e1 = ident idAttr e2 := by
  unfold ident
  exact List.map_congr_left fun r hr => h.get?_eq hr

omit [DecidableEq V] [ApiEq V] in
theorem agreeOn_of_ident_eq {idAttr : List String} {e1 e2 : E}
    (hcarries : ∀ r ∈ idAttr, r ∈ (entity e1).keys) (h : ident idAttr e1 = ident idAttr e2) :
    AgreeOn idAttr (entity e1) (entity e2) := by
  intro r hr
  obtain ⟨v, hv⟩ := Dict.mem_keys_iff.mp (hcarries r hr)
  have heq : (entity e1).get? r = (entity e2).get? r := List.map_inj_left.mp h r hr
  exact ⟨v, hv, heq ▸ hv⟩

/-- With the same identities on both sides, nobody is left unpaired. -/
theorem pairQueue_covers [LawfulApiEq V] {idAttr : List String} {list1 list2 : List E}
    {queue : List (E × E)} (h : pairQueue idAttr list1 list2 = .ok queue)
    (hids : SameIdents idAttr list1 list2) :
    queue.map Prod.fst = list1 ∧ (queue.map Prod.snd).Perm list2 := by
  induction list1 generalizing list2 queue with
  | nil =>
      have hq : [] = queue := by simpa [pairQueue] using h
      have hnil : list2 = [] := by simpa using hids.2.symm.eq_nil
      subst hq hnil
      exact ⟨rfl, List.Perm.refl _⟩
  | cons ent1 list1 ih =>
      have hcarries := List.forall_mem_cons.mp hids.1
      rcases pairQueue_cons h with
        ⟨hnone, -⟩ | ⟨ent2, pre, post, queue', rfl, hagree, -, hqueue', rfl⟩
      · -- some object of the second list has the identity of `ent1`, so the scan finds one
        have hmem : ident idAttr ent1 ∈ list2.map (ident idAttr) :=
          hids.2.mem_iff.mp (by simp)
        obtain ⟨e2, he2, heq⟩ := List.mem_map.mp hmem
        have hagree := agree_eq_true_iff.mpr (agreeOn_of_ident_eq hcarries.1 heq.symm)
        rw [hnone e2 he2] at hagree
        cases hagree
      · have hrestIds : SameIdents idAttr list1 (pre ++ post) := by
          refine ⟨hcarries.2, ?_⟩
          have hmid : ((pre ++ ent2 :: post).map (ident idAttr)).Perm
              (ident idAttr ent2 :: (pre ++ post).map (ident idAttr)) :=
            List.perm_middle.map _
          have hall := hids.2.trans hmid
          rw [List.map_cons, hagree.ident_eq] at hall
          exact hall.cons_inv
        have hcov := ih hqueue' hrestIds
        refine ⟨by simp [hcov.1], ?_⟩
        exact (hcov.2.cons ent2).trans List.perm_middle.symm

/-- One-to-one correspondence of two lists of objects: partners agree on the identifying
attributes and the sub-comparison accepts them. -/
def Correspond (idAttr : List String) (cmpFunction : E → E → Except Exn Unit)
    (list1 list2 : List E) : Prop :=
  Matched (fun e1 e2 => AgreeOn idAttr (entity e1) (entity e2) ∧ cmpFunction e1 e2 = .ok ())
    list1 list2

omit [DecidableEq V] [ApiEq V] in
theorem Correspond.sameIdents {idAttr : List String} {cmpFunction : E → E → Except Exn Unit}
    {list1 list2 : List E} (h : Correspond idAttr cmpFunction list1 list2) :
    SameIdents idAttr list1 list2 := by
  refine ⟨Matched.forall_left (fun e1 e2 hR r hr => ?_) h,
    Matched.map_perm (fun e1 e2 hR => hR.1.ident_eq) h⟩
  obtain ⟨v, hv, _⟩ := hR.1 r hr
  exact Dict.mem_keys_iff.mpr ⟨v, hv⟩

/-- A normal return: the lengths match if asked for, and every queued pair was accepted. -/
theorem findAndCmp_eq_ok_iff {list1 list2 : List E} {cmpFunction : E → E → Except Exn Unit}
    {idAttr : List String} {cmpLength : Bool} :
    findAndCmp list1 list2 cmpFunction idAttr cmpLength = .ok () ↔
      (cmpLength = true → list1.length = list2.length) ∧
      ∃ queue, pairQueue (idAttrOr idAttr) list1 list2 = .ok queue ∧
        ∀ p ∈ queue, (entity p.1).size = (entity p.2).size ∧ cmpFunction p.1 p.2 = .ok () := by
  have hloop : ∀ queue : List (E × E),
      forEach (fun p => do
        assertThat ((entity p.1).size = (entity p.2).size)
        cmpFunction p.1 p.2) queue = .ok () ↔
      ∀ p ∈ queue, (entity p.1).size = (entity p.2).size ∧ cmpFunction p.1 p.2 = .ok () := by
    intro queue
    rw [forEach_eq_ok_iff]
    exact forall₂_congr fun p _ => assertThat_bind_eq_ok_iff
  cases cmpLength with
  | true =>
      have hunfold : findAndCmp list1 list2 cmpFunction idAttr true =
          (assertThat (list1.length = list2.length) >>= fun _ =>
            pairQueue (idAttrOr idAttr) list1 list2 >>= fun queue =>
              forEach (fun p => do
                assertThat ((entity p.1).size = (entity p.2).size)
                cmpFunction p.1 p.2) queue) := rfl
      rw [hunfold, assertThat_bind_eq_ok_iff, bind_eq_ok_iff]
      simp only [hloop, forall_const]
  | false =>
      have hunfold : findAndCmp list1 list2 cmpFunction idAttr false =
          (pairQueue (idAttrOr idAttr) list1 list2 >>= fun queue =>
              forEach (fun p => do
                assertThat ((entity p.1).size = (entity p.2).size)
                cmpFunction p.1 p.2) queue) := rfl
      rw [hunfold, bind_eq_ok_iff]
      simp [hloop]

/-- Of the calls that return normally, those have compared the whole of both lists whose lists
hold the same identities. -/
theorem findAndCmp_sound_iff [LawfulApiEq V] {list1 list2 : List E}
    {cmpFunction : E → E → Except Exn Unit} {idAttr : List String}
    (h : findAndCmp list1 list2 cmpFunction idAttr true = .ok ()) :
    Correspond (idAttrOr idAttr) cmpFunction list1 list2 ↔
      SameIdents (idAttrOr idAttr) list1 list2 := by
  refine ⟨Correspond.sameIdents, fun hids => ?_⟩
  obtain ⟨_, queue, hqueue, hcmp⟩ := findAndCmp_eq_ok_iff.mp h
  have hagrees := (pairQueue_queued hqueue).agrees
  obtain ⟨hleft, hright⟩ := pairQueue_covers hqueue hids
  have hmatched : Correspond (idAttrOr idAttr) cmpFunction (queue.map Prod.fst) list2 :=
    Matched.of_pairs hright fun p hp => ⟨hagrees p hp, (hcmp p hp).2⟩
  exact hleft ▸ hmatched

/-- An entity with the given system name and nothing else. -/
def namedEntity (name : String) : ApiObject Json := ⟨Dict.ofList [("system_name", .str name)]⟩

/-- Two one-element lists whose elements have nothing in common compare successfully, whatever
the sub-comparison. -/
theorem findAndCmp_not_sound :
    findAndCmp [namedEntity "src"] [namedEntity "dst"] (fun _ _ => .error .assertionError) [] true =
        .ok () ∧
      ¬ Correspond (idAttrOr []) (fun _ _ => .error .assertionError)
        [namedEntity "src"] [namedEntity "dst"] := by
  refine ⟨by decide, fun h => ?_⟩
  have hperm := h.sameIdents.2
  revert hperm
  decide

theorem findAndCmp_sound_iff_pair :
    Correspond (idAttrOr []) (fun _ _ => .ok ()) [namedEntity "a", namedEntity "b"]
        [namedEntity "b", namedEntity "a"] ↔
      SameIdents (idAttrOr []) [namedEntity "a", namedEntity "b"]
        [namedEntity "b", namedEntity "a"] :=
  findAndCmp_sound_iff (by decide)

end ThreescaleTests.Toolbox
