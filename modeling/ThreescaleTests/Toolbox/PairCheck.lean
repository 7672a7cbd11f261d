import ThreescaleTests.Toolbox.CmpServices

/-!
# The check of a matched pair

A queued pair passes when both entities have equally many attributes and every
attribute of the first one that is not ignored is found in the second with the
same value. The count is taken over all attributes, the ignored ones included, so
what the check says about the attributes that are compared depends on how many
ignored ones each side carries.
-/

namespace ThreescaleTests.Toolbox

open Library

variable {V : Type}

/-- One iteration of the last loop of `find_and_cmp`, for objects without children. -/
def cmpPair [DecidableEq V] (ignored : List String) (ent1 ent2 : Attrs V) : Except Exn Unit := do
  assertThat (ent1.size = ent2.size)
  cmpEnts ent1 ent2 (attrsExcept ent1 ignored)

/-! ## Restrictions -/

/-- Equality of the entities restricted to the attributes that are not ignored. -/
def EqExcept (ignored : List String) (ent1 ent2 : Attrs V) : Prop :=
  ∀ k, k ∉ ignored → ent1.get? k = ent2.get? k

/-- Every attribute of the first entity that is not ignored is an attribute of the second. -/
def PartExcept (ignored : List String) (ent1 ent2 : Attrs V) : Prop :=
  ∀ k, k ∉ ignored → ∀ v, ent1.get? k = some v → ent2.get? k = some v

def ignoredKeys (ignored : List String) (ent : Attrs V) : List String :=
  ent.keys.filter fun k => decide (k ∈ ignored)

/-- The attributes of the second entity, not ignored, that the first does not carry. -/
def surplus (ignored : List String) (ent1 ent2 : Attrs V) : List String :=
  (attrsExcept ent2 ignored).filter fun k => decide (k ∉ ent1.keys)

theorem EqExcept.symm {ignored : List String} {ent1 ent2 : Attrs V}
    (h : EqExcept ignored ent1 ent2) : EqExcept ignored ent2 ent1 := fun k hk => (h k hk).symm

theorem EqExcept.part {ignored : List String} {ent1 ent2 : Attrs V}
    (h : EqExcept ignored ent1 ent2) : PartExcept ignored ent1 ent2 := by
  intro k hk v hv
  rw [← h k hk]
  exact hv

theorem mem_attrsExcept {ignored : List String} {ent : Attrs V} {k : String} :
    k ∈ attrsExcept ent ignored ↔ k ∈ ent.keys ∧ k ∉ ignored := by
  simp [attrsExcept]

theorem attrsExcept_nodup (ent : Attrs V) (ignored : List String) :
    (attrsExcept ent ignored).Nodup := ent.keys_nodup.filter _

theorem mem_surplus {ignored : List String} {ent1 ent2 : Attrs V} {k : String} :
    k ∈ surplus ignored ent1 ent2 ↔ (k ∈ ent2.keys ∧ k ∉ ignored) ∧ k ∉ ent1.keys := by
  simp [surplus, mem_attrsExcept]

theorem PartExcept.mem_keys {ignored : List String} {ent1 ent2 : Attrs V}
    (h : PartExcept ignored ent1 ent2) {k : String} (hk : k ∉ ignored) (hmem : k ∈ ent1.keys) :
    k ∈ ent2.keys := by
  obtain ⟨v, hv⟩ := Dict.mem_keys_iff.mp hmem
  exact Dict.mem_keys_iff.mpr ⟨v, h k hk v hv⟩

/-- The restrictions are equal when the one is part of the other and nothing is left over. -/
theorem eqExcept_iff {ignored : List String} {ent1 ent2 : Attrs V} :
    EqExcept ignored ent1 ent2 ↔
      PartExcept ignored ent1 ent2 ∧ surplus ignored ent1 ent2 = [] := by
  constructor
  · intro h
    refine ⟨h.part, List.eq_nil_iff_forall_not_mem.mpr ?_⟩
    intro k hk
    obtain ⟨⟨hmem2, hk⟩, hmem1⟩ := mem_surplus.mp hk
    exact hmem1 (h.symm.part.mem_keys hk hmem2)
  · rintro ⟨hpart, hsurplus⟩ k hk
    cases hget : ent1.get? k with
    | some v => exact (hpart k hk v hget).symm
    | none =>
        have hnot1 := Dict.get?_eq_none_iff.mp hget
        have hnot2 : k ∉ ent2.keys := by
          intro hmem2
          have hmem : k ∈ surplus ignored ent1 ent2 := mem_surplus.mpr ⟨⟨hmem2, hk⟩, hnot1⟩
          rw [hsurplus] at hmem
          exact List.not_mem_nil hmem
        exact (Dict.get?_eq_none_iff.mpr hnot2).symm

/-! ## Counting attributes -/

theorem size_eq_add (ignored : List String) (ent : Attrs V) :
    ent.size = (ignoredKeys ignored ent).length + (attrsExcept ent ignored).length := by
  rw [Dict.size_eq_keys_length, ignoredKeys, attrsExcept]
  have hsplit := List.length_eq_length_filter_add (l := ent.keys) fun k => decide (k ∈ ignored)
  simpa using hsplit

/-- A part and what is left over make up the whole. -/
theorem PartExcept.length_eq {ignored : List String} {ent1 ent2 : Attrs V}
    (h : PartExcept ignored ent1 ent2) :
    (attrsExcept ent2 ignored).length =
      (attrsExcept ent1 ignored).length + (surplus ignored ent1 ent2).length := by
  have hsplit := List.length_eq_length_filter_add (l := attrsExcept ent2 ignored)
    fun k => decide (k ∈ ent1.keys)
  have hperm : ((attrsExcept ent2 ignored).filter fun k => decide (k ∈ ent1.keys)).Perm
      (attrsExcept ent1 ignored) := by
    rw [List.perm_ext_iff_of_nodup ((attrsExcept_nodup ent2 ignored).filter _)
      (attrsExcept_nodup ent1 ignored)]
    intro k
    rw [List.mem_filter, mem_attrsExcept, mem_attrsExcept, decide_eq_true_eq]
    constructor
    · rintro ⟨⟨-, hk⟩, hmem1⟩
      exact ⟨hmem1, hk⟩
    · rintro ⟨hmem1, hk⟩
      exact ⟨⟨h.mem_keys hk hmem1, hk⟩, hmem1⟩
  rw [hsplit, hperm.length_eq, surplus]
  simp

theorem PartExcept.size_eq_iff {ignored : List String} {ent1 ent2 : Attrs V}
    (h : PartExcept ignored ent1 ent2) :
    ent1.size = ent2.size ↔ (ignoredKeys ignored ent1).length =
      (ignoredKeys ignored ent2).length + (surplus ignored ent1 ent2).length := by
  have h1 := size_eq_add ignored ent1
  have h2 := size_eq_add ignored ent2
  have hlength := h.length_eq
  omega

/-! ## What the check decides -/

section

variable [DecidableEq V]

theorem cmpEnts_attrsExcept_iff {ignored : List String} {ent1 ent2 : Attrs V} :
    cmpEnts ent1 ent2 (attrsExcept ent1 ignored) = .ok () ↔ PartExcept ignored ent1 ent2 := by
  rw [cmpEnts_eq_ok_iff]
  constructor
  · intro h k hk v hv
    obtain ⟨w, hw, hw2⟩ := h k (mem_attrsExcept.mpr ⟨Dict.mem_keys_iff.mpr ⟨v, hv⟩, hk⟩)
    rw [hv, Option.some.injEq] at hw
    rw [hw]
    exact hw2
  · intro h k hk
    obtain ⟨hmem, hk⟩ := mem_attrsExcept.mp hk
    obtain ⟨v, hv⟩ := Dict.mem_keys_iff.mp hmem
    exact ⟨v, hv, h k hk v hv⟩

theorem cmpPair_eq_ok_iff {ignored : List String} {ent1 ent2 : Attrs V} :
    cmpPair ignored ent1 ent2 = .ok () ↔
      ent1.size = ent2.size ∧ PartExcept ignored ent1 ent2 := by
  unfold cmpPair
  rw [assertThat_bind_eq_ok_iff, cmpEnts_attrsExcept_iff]

end

/-- Where the first entity is part of the second, the ignored attributes make up for what is left
over exactly if nothing is left over. -/
def CountsTell (ignored : List String) (ent1 ent2 : Attrs V) : Prop :=
  PartExcept ignored ent1 ent2 →
    ((ignoredKeys ignored ent1).length =
        (ignoredKeys ignored ent2).length + (surplus ignored ent1 ent2).length ↔
      surplus ignored ent1 ent2 = [])

variable [DecidableEq V]

/-- In one direction the check is equality of the restrictions where the counts tell. -/
theorem cmpPair_iff_eqExcept_iff {ignored : List String} {ent1 ent2 : Attrs V} :
    (cmpPair ignored ent1 ent2 = .ok () ↔ EqExcept ignored ent1 ent2) ↔
      CountsTell ignored ent1 ent2 := by
  rw [cmpPair_eq_ok_iff, eqExcept_iff, CountsTell]
  by_cases hpart : PartExcept ignored ent1 ent2
  · rw [hpart.size_eq_iff]
    simp only [hpart, and_true, true_and, true_imp_iff]
  · simp only [hpart, and_false, false_and, false_imp_iff]

/-- The check is equality of the restrictions, and symmetric, exactly where the counts tell in both
directions. -/
theorem cmpPair_exact_iff (ignored : List String) (ent1 ent2 : Attrs V) :
    ((cmpPair ignored ent1 ent2 = .ok () ↔ EqExcept ignored ent1 ent2) ∧
      (cmpPair ignored ent1 ent2 = .ok () ↔ cmpPair ignored ent2 ent1 = .ok ())) ↔
      CountsTell ignored ent1 ent2 ∧ CountsTell ignored ent2 ent1 := by
  have hsymm : EqExcept ignored ent2 ent1 ↔ EqExcept ignored ent1 ent2 :=
    ⟨EqExcept.symm, EqExcept.symm⟩
  rw [← cmpPair_iff_eqExcept_iff, ← cmpPair_iff_eqExcept_iff, hsymm]
  constructor
  · rintro ⟨hexact, hswap⟩
    exact ⟨hexact, hswap.symm.trans hexact⟩
  · rintro ⟨hexact, hexact'⟩
    exact ⟨hexact, hexact.trans hexact'.symm⟩

/-! ## A wrong acceptance and a wrong rejection -/

/-- The second entity has a method that the first lacks, the first an id that is ignored. -/
def withId : Attrs Json := .ofList [("pattern", .str "/"), ("id", .num 1)]

def withMethod : Attrs Json := .ofList [("pattern", .str "/"), ("http_method", .str "GET")]

def patternOnly : Attrs Json := .ofList [("pattern", .str "/")]

theorem cmpPair_not_exact :
    (cmpPair mappingCmpAttrs withId withMethod = .ok () ∧
      ¬ EqExcept mappingCmpAttrs withId withMethod ∧
      cmpPair mappingCmpAttrs withMethod withId ≠ .ok ()) ∧
    (EqExcept mappingCmpAttrs withId patternOnly ∧
      cmpPair mappingCmpAttrs withId patternOnly ≠ .ok ()) := by
  refine ⟨⟨by decide, ?_, by decide⟩, ?_, by decide⟩
  · intro h
    have hmethod := h "http_method" (by decide)
    exact absurd hmethod (by decide)
  · rw [eqExcept_iff, ← cmpEnts_attrsExcept_iff]
    exact ⟨by decide, by decide⟩

end ThreescaleTests.Toolbox
