import Mathlib.Data.List.Perm.Subperm

/-!
# Insertion-ordered dictionaries

A dictionary keeps its entries in the order in which their keys were first
assigned, and the distinctness of the keys is a field of the structure. Lookups
see contents only; `Same` is equality of contents, which forgets the order.
-/

namespace Library

/-- Entries in insertion order, one for each key. -/
structure Dict (κ : Type*) (ν : Type*) where
  items : List (κ × ν)
  nodup : (items.map Prod.fst).Nodup
deriving DecidableEq

namespace Dict

variable {κ ν : Type*} [DecidableEq κ]

/-! ## Entry lists -/

/-- Assignment replaces an entry in place and appends a new one. -/
def setEntry (k : κ) (v : ν) : List (κ × ν) → List (κ × ν)
  | [] => [(k, v)]
  | e :: es => if e.1 = k then (k, v) :: es else e :: setEntry k v es

theorem setEntry_keys_of_mem {k : κ} (v : ν) {es : List (κ × ν)} (h : k ∈ es.map Prod.fst) :
    (setEntry k v es).map Prod.fst = es.map Prod.fst := by
  induction es with
  | nil => simp at h
  | cons e es ih =>
      by_cases he : e.1 = k
      · simp [setEntry, he]
      · have ht : k ∈ es.map Prod.fst := by
          rcases List.mem_cons.mp h with h | h
          · exact absurd h.symm he
          · exact h
        simp [setEntry, he, ih ht]

theorem setEntry_keys_of_not_mem {k : κ} (v : ν) {es : List (κ × ν)}
    (h : k ∉ es.map Prod.fst) :
    (setEntry k v es).map Prod.fst = es.map Prod.fst ++ [k] := by
  induction es with
  | nil => rfl
  | cons e es ih =>
      simp only [List.map_cons, List.mem_cons, not_or] at h
      have he : ¬ e.1 = k := fun hk => h.1 hk.symm
      simp [setEntry, he, ih h.2]

theorem setEntry_of_not_mem {k : κ} (v : ν) {es : List (κ × ν)} (h : k ∉ es.map Prod.fst) :
    setEntry k v es = es ++ [(k, v)] := by
  induction es with
  | nil => rfl
  | cons e es ih =>
      simp only [List.map_cons, List.mem_cons, not_or] at h
      have he : ¬ e.1 = k := fun hk => h.1 hk.symm
      simp [setEntry, he, ih h.2]

theorem setEntry_nodup (k : κ) (v : ν) {es : List (κ × ν)} (h : (es.map Prod.fst).Nodup) :
    ((setEntry k v es).map Prod.fst).Nodup := by
  by_cases hk : k ∈ es.map Prod.fst
  · rw [setEntry_keys_of_mem v hk]
    exact h
  · rw [setEntry_keys_of_not_mem v hk]
    rw [List.nodup_append]
    refine ⟨h, by simp, ?_⟩
    intro a ha b hb hab
    rw [List.mem_singleton.mp hb] at hab
    exact hk (hab ▸ ha)

theorem lookup_cons_ite (k a : κ) (b : ν) (es : List (κ × ν)) :
    ((a, b) :: es).lookup k = if k = a then some b else es.lookup k := by
  rw [List.lookup_cons]
  by_cases h : k = a
  · simp [h]
  · simp [h, beq_eq_false_iff_ne.mpr h]

theorem lookup_setEntry (k k' : κ) (v : ν) (es : List (κ × ν)) :
    (setEntry k v es).lookup k' = if k' = k then some v else es.lookup k' := by
  induction es with
  | nil => simp [setEntry, lookup_cons_ite]
  | cons e es ih =>
      obtain ⟨a, b⟩ := e
      by_cases ha : a = k
      · subst ha
        by_cases h : k' = a <;> simp [setEntry, lookup_cons_ite, h]
      · by_cases h : k' = a
        · subst h
          simp [setEntry, ha]
        · simp [setEntry, ha, lookup_cons_ite, h, ih]

theorem lookup_filter_ne (k k' : κ) (es : List (κ × ν)) :
    (es.filter (fun e => decide (e.1 ≠ k))).lookup k' =
      if k' = k then none else es.lookup k' := by
  induction es with
  | nil => simp
  | cons e es ih =>
      obtain ⟨a, b⟩ := e
      by_cases ha : a = k
      · subst ha
        rw [List.filter_cons_of_neg (by simp), ih]
        by_cases h : k' = a <;> simp [lookup_cons_ite, h]
      · rw [List.filter_cons_of_pos (by simp [ha]), lookup_cons_ite, lookup_cons_ite, ih]
        by_cases h : k' = a
        · subst h
          simp [ha]
        · simp [h]

theorem lookup_map_snd {μ : Type*} (f : ν → μ) (k : κ) (es : List (κ × ν)) :
    (es.map fun e => (e.1, f e.2)).lookup k = (es.lookup k).map f := by
  induction es with
  | nil => rfl
  | cons e es ih =>
      obtain ⟨a, b⟩ := e
      rw [List.map_cons, lookup_cons_ite, lookup_cons_ite, ih]
      by_cases h : k = a <;> simp [h]

theorem map_setEntry {μ : Type*} (f : ν → μ) (k : κ) (v : ν) (es : List (κ × ν)) :
    (setEntry k v es).map (fun e => (e.1, f e.2)) =
      setEntry k (f v) (es.map fun e => (e.1, f e.2)) := by
  induction es with
  | nil => rfl
  | cons e es ih =>
      simp only [setEntry, List.map_cons, ← ih]
      split <;> rfl

theorem mem_setEntry {k : κ} {v : ν} {es : List (κ × ν)} {e : κ × ν} (h : e ∈ setEntry k v es) :
    e = (k, v) ∨ e ∈ es := by
  induction es with
  | nil => exact .inl (List.mem_singleton.mp h)
  | cons e' es ih =>
      rw [setEntry] at h
      split at h
      · exact (List.mem_cons.mp h).imp_right (List.mem_cons_of_mem e')
      · rcases List.mem_cons.mp h with rfl | h
        · exact .inr List.mem_cons_self
        · exact (ih h).imp_right (List.mem_cons_of_mem e')

theorem lookup_eq_some_of_mem {es : List (κ × ν)} (h : (es.map Prod.fst).Nodup) {k : κ} {v : ν}
    (hm : (k, v) ∈ es) : es.lookup k = some v := by
  induction es with
  | nil => simp at hm
  | cons e es ih =>
      obtain ⟨a, b⟩ := e
      obtain ⟨hne, hrest⟩ := List.nodup_cons.mp h
      rw [lookup_cons_ite]
      rcases List.mem_cons.mp hm with heq | hmem
      · cases heq
        simp
      · have hk : ¬ k = a := by
          rintro rfl
          exact hne (List.mem_map.mpr ⟨_, hmem, rfl⟩)
        rw [if_neg hk, ih hrest hmem]

/-! ## Operations -/

def empty : Dict κ ν := ⟨[], List.nodup_nil⟩

def get? (d : Dict κ ν) (k : κ) : Option ν := d.items.lookup k

def keys (d : Dict κ ν) : List κ := d.items.map Prod.fst

def values (d : Dict κ ν) : List ν := d.items.map Prod.snd

def size (d : Dict κ ν) : Nat := d.items.length

def set (d : Dict κ ν) (k : κ) (v : ν) : Dict κ ν :=
  ⟨setEntry k v d.items, setEntry_nodup k v d.nodup⟩

def erase (d : Dict κ ν) (k : κ) : Dict κ ν :=
  ⟨d.items.filter (fun e => decide (e.1 ≠ k)), d.nodup.sublist (List.filter_sublist.map _)⟩

def update (d : Dict κ ν) (es : List (κ × ν)) : Dict κ ν :=
  es.foldl (fun d e => d.set e.1 e.2) d

/-- The dictionary displayed by its entries; a repeated key keeps its last value. -/
def ofList (es : List (κ × ν)) : Dict κ ν := empty.update es

def mapValues {μ : Type*} (f : ν → μ) (d : Dict κ ν) : Dict κ μ :=
  ⟨d.items.map fun e => (e.1, f e.2), by
    rw [List.map_map]
    exact d.nodup⟩

/-- Equality of contents. -/
def Same (d d' : Dict κ ν) : Prop := ∀ k, d.get? k = d'.get? k

/-! ## Lookups -/

@[simp] theorem get?_empty (k : κ) : (empty : Dict κ ν).get? k = none := rfl

@[simp] theorem get?_set (d : Dict κ ν) (k k' : κ) (v : ν) :
    (d.set k v).get? k' = if k' = k then some v else d.get? k' :=
  lookup_setEntry k k' v d.items

theorem get?_set_self (d : Dict κ ν) (k : κ) (v : ν) : (d.set k v).get? k = some v := by simp

theorem get?_set_of_ne (d : Dict κ ν) {k k' : κ} (v : ν) (h : k' ≠ k) :
    (d.set k v).get? k' = d.get? k' := by simp [h]

@[simp] theorem get?_erase (d : Dict κ ν) (k k' : κ) :
    (d.erase k).get? k' = if k' = k then none else d.get? k' :=
  lookup_filter_ne k k' d.items

@[simp] theorem get?_mapValues {μ : Type*} (f : ν → μ) (d : Dict κ ν) (k : κ) :
    (d.mapValues f).get? k = (d.get? k).map f :=
  lookup_map_snd f k d.items

theorem mapValues_set {μ : Type*} (f : ν → μ) (d : Dict κ ν) (k : κ) (v : ν) :
    (d.set k v).mapValues f = (d.mapValues f).set k (f v) := by
  simp only [mapValues, set, mk.injEq]
  exact map_setEntry f k v d.items

/-- Setting an entry to the value it has changes nothing. -/
theorem set_eq_self_iff {d : Dict κ ν} {k : κ} {v : ν} : d.set k v = d ↔ d.get? k = some v := by
  constructor
  · intro h
    rw [← h, get?_set_self]
  · intro h
    have hentry : ∀ es : List (κ × ν), es.lookup k = some v → setEntry k v es = es := by
      intro es
      induction es with
      | nil => simp
      | cons e es ih =>
          intro hlookup
          rw [lookup_cons_ite] at hlookup
          by_cases heq : k = e.1
          · rw [if_pos heq] at hlookup
            cases hlookup
            simp [setEntry, heq]
          · have hne : ¬ e.1 = k := fun h => heq h.symm
            rw [if_neg heq] at hlookup
            simp [setEntry, hne, ih hlookup]
    cases d with
    | mk items nodup =>
        simp only [set, mk.injEq]
        exact hentry items h

theorem get?_eq_some_iff {d : Dict κ ν} {k : κ} {v : ν} :
    d.get? k = some v ↔ (k, v) ∈ d.items := by
  constructor
  · intro h
    obtain ⟨l₁, l₂, hl, _⟩ := List.lookup_eq_some_iff.mp h
    rw [hl]
    exact List.mem_append_right _ List.mem_cons_self
  · exact lookup_eq_some_of_mem d.nodup

theorem mem_keys_iff {d : Dict κ ν} {k : κ} : k ∈ d.keys ↔ ∃ v, d.get? k = some v := by
  simp [get?_eq_some_iff, keys]

theorem get?_eq_none_iff {d : Dict κ ν} {k : κ} : d.get? k = none ↔ k ∉ d.keys := by
  rw [mem_keys_iff, Option.eq_none_iff_forall_ne_some]
  simp

theorem isSome_get?_iff {d : Dict κ ν} {k : κ} : (d.get? k).isSome ↔ k ∈ d.keys := by
  rw [mem_keys_iff, Option.isSome_iff_exists]

omit [DecidableEq κ] in
theorem keys_nodup (d : Dict κ ν) : d.keys.Nodup := d.nodup

theorem mem_keys_set {d : Dict κ ν} {k k' : κ} {v : ν} :
    k' ∈ (d.set k v).keys ↔ k' = k ∨ k' ∈ d.keys := by
  rw [← isSome_get?_iff, ← isSome_get?_iff, get?_set]
  by_cases h : k' = k <;> simp [h]

theorem mem_keys_erase {d : Dict κ ν} {k k' : κ} :
    k' ∈ (d.erase k).keys ↔ k' ≠ k ∧ k' ∈ d.keys := by
  rw [← isSome_get?_iff, ← isSome_get?_iff, get?_erase]
  by_cases h : k' = k
  · simp [h]
  · simp [h]

omit [DecidableEq κ] in
theorem size_eq_keys_length (d : Dict κ ν) : d.size = d.keys.length := by
  simp [size, keys]

omit [DecidableEq κ] in
/-- Dictionaries with the same keys have the same size, whatever the order of the keys. -/
theorem size_eq_of_mem_keys_iff {μ : Type*} {d : Dict κ ν} {d' : Dict κ μ}
    (h : ∀ k, k ∈ d.keys ↔ k ∈ d'.keys) : d.size = d'.size := by
  rw [size_eq_keys_length, size_eq_keys_length]
  exact ((List.perm_ext_iff_of_nodup d.keys_nodup d'.keys_nodup).mpr h).length_eq

omit [DecidableEq κ] in
/-- A dictionary whose keys all occur in another one of the same size has exactly its keys. -/
theorem mem_keys_iff_of_subset_of_size {μ : Type*} {d : Dict κ ν} {d' : Dict κ μ}
    (hsub : ∀ k ∈ d.keys, k ∈ d'.keys) (hsize : d.size = d'.size) (k : κ) :
    k ∈ d.keys ↔ k ∈ d'.keys := by
  refine ⟨hsub k, fun hk => ?_⟩
  have hperm : d.keys.Perm d'.keys := by
    refine (List.Nodup.subperm d.keys_nodup hsub).perm_of_length_le ?_
    rw [← size_eq_keys_length, ← size_eq_keys_length]
    exact Nat.le_of_eq hsize.symm
  exact hperm.mem_iff.mpr hk

/-! ## Bulk assignment -/

@[simp] theorem update_nil (d : Dict κ ν) : d.update [] = d := rfl

@[simp] theorem update_cons (d : Dict κ ν) (e : κ × ν) (es : List (κ × ν)) :
    d.update (e :: es) = (d.set e.1 e.2).update es := rfl

theorem mapValues_update {μ : Type*} (f : ν → μ) (d : Dict κ ν) (es : List (κ × ν)) :
    (d.update es).mapValues f = (d.mapValues f).update (es.map fun e => (e.1, f e.2)) := by
  induction es generalizing d with
  | nil => rfl
  | cons e es ih => rw [update_cons, ih, mapValues_set, List.map_cons, update_cons]

theorem get?_update_of_not_mem {es : List (κ × ν)} {k : κ} (h : k ∉ es.map Prod.fst)
    (d : Dict κ ν) : (d.update es).get? k = d.get? k := by
  induction es generalizing d with
  | nil => rfl
  | cons e es ih =>
      simp only [List.map_cons, List.mem_cons, not_or] at h
      rw [update_cons, ih h.2, get?_set_of_ne _ _ h.1]

theorem get?_update_of_mem {es : List (κ × ν)} (hn : (es.map Prod.fst).Nodup) {k : κ} {v : ν}
    (h : (k, v) ∈ es) (d : Dict κ ν) : (d.update es).get? k = some v := by
  induction es generalizing d with
  | nil => simp at h
  | cons e es ih =>
      obtain ⟨hne, hrest⟩ := List.nodup_cons.mp hn
      rcases List.mem_cons.mp h with rfl | h
      · rw [update_cons, get?_update_of_not_mem hne, get?_set_self]
      · exact ih hrest h _

/-- A bulk assignment of distinct keys overrides the old contents. -/
theorem get?_update {es : List (κ × ν)} (hn : (es.map Prod.fst).Nodup) (d : Dict κ ν) (k : κ) :
    (d.update es).get? k = (es.lookup k).or (d.get? k) := by
  cases hk : es.lookup k with
  | none =>
      have hnot : k ∉ es.map Prod.fst := by
        intro hm
        obtain ⟨e, he, rfl⟩ := List.mem_map.mp hm
        rw [lookup_eq_some_of_mem hn he] at hk
        cases hk
      simp [get?_update_of_not_mem hnot]
  | some v =>
      obtain ⟨l₁, l₂, hl, _⟩ := List.lookup_eq_some_iff.mp hk
      have hm : (k, v) ∈ es := by simp [hl]
      simp [get?_update_of_mem hn hm]

theorem get?_ofList {es : List (κ × ν)} (hn : (es.map Prod.fst).Nodup) (k : κ) :
    (ofList es).get? k = es.lookup k := by
  simp [ofList, get?_update hn]

/-- The assigned entries come first, the old contents after them. -/
theorem get?_update_or (es : List (κ × ν)) (d : Dict κ ν) (k : κ) :
    (d.update es).get? k = ((ofList es).get? k).or (d.get? k) := by
  induction es generalizing d with
  | nil => simp [ofList]
  | cons e es ih =>
      rw [ofList, update_cons, update_cons, ih (d.set e.1 e.2), ih (empty.set e.1 e.2),
        Option.or_assoc]
      congr 1
      by_cases hk : k = e.1
      · simp [hk]
      · simp [hk]

/-- New keys are appended in the order in which they are assigned. -/
theorem items_update {es : List (κ × ν)} (hn : (es.map Prod.fst).Nodup) {d : Dict κ ν}
    (hd : ∀ k ∈ es.map Prod.fst, k ∉ d.keys) : (d.update es).items = d.items ++ es := by
  induction es generalizing d with
  | nil => simp
  | cons e es ih =>
      obtain ⟨hne, hrest⟩ := List.nodup_cons.mp hn
      have hset : (d.set e.1 e.2).items = d.items ++ [e] :=
        setEntry_of_not_mem e.2 (hd e.1 (List.mem_cons_self))
      have hdisjoint : ∀ k ∈ es.map Prod.fst, k ∉ (d.set e.1 e.2).keys := by
        intro k hk hkeys
        rcases mem_keys_set.mp hkeys with heq | hmem
        · exact hne (heq ▸ hk)
        · exact hd k (List.mem_cons_of_mem _ hk) hmem
      rw [update_cons, ih hrest hdisjoint, hset, List.append_assoc]
      rfl

theorem items_ofList {es : List (κ × ν)} (hn : (es.map Prod.fst).Nodup) :
    (ofList es).items = es :=
  items_update hn fun _ _ => List.not_mem_nil

theorem mem_keys_update {es : List (κ × ν)} {d : Dict κ ν} {k : κ} :
    k ∈ (d.update es).keys ↔ k ∈ es.map Prod.fst ∨ k ∈ d.keys := by
  induction es generalizing d with
  | nil => simp
  | cons e es ih =>
      rw [update_cons, ih, mem_keys_set, List.map_cons, List.mem_cons]
      tauto

theorem mem_keys_ofList {es : List (κ × ν)} {k : κ} :
    k ∈ (ofList es).keys ↔ k ∈ es.map Prod.fst := by
  rw [ofList, mem_keys_update]
  simp [empty, keys]

/-- A key that is assigned, perhaps several times, has one of the assigned values. -/
theorem exists_get?_update {es : List (κ × ν)} {d : Dict κ ν} {k : κ}
    (h : k ∈ es.map Prod.fst) : ∃ v, (k, v) ∈ es ∧ (d.update es).get? k = some v := by
  induction es generalizing d with
  | nil => simp at h
  | cons e es ih =>
      by_cases hk : k ∈ es.map Prod.fst
      · obtain ⟨v, hv, hget⟩ := ih (d := d.set e.1 e.2) hk
        exact ⟨v, List.mem_cons_of_mem e hv, hget⟩
      · have he : k = e.1 := by
          rcases List.mem_cons.mp h with he | he
          · exact he
          · exact absurd he hk
        refine ⟨e.2, ?_, ?_⟩
        · rw [he]
          exact List.mem_cons_self
        · rw [update_cons, get?_update_of_not_mem hk, he, get?_set_self]

theorem mem_of_get?_ofList {es : List (κ × ν)} {k : κ} {v : ν} (h : (ofList es).get? k = some v) :
    (k, v) ∈ es := by
  have hk : k ∈ es.map Prod.fst := mem_keys_ofList.mp (mem_keys_iff.mpr ⟨v, h⟩)
  obtain ⟨w, hw, hget⟩ := exists_get?_update (d := empty) hk
  rw [ofList, hget, Option.some.injEq] at h
  rw [← h]
  exact hw

/-! ## Equality of contents -/

theorem Same.refl (d : Dict κ ν) : Same d d := fun _ => rfl

theorem Same.mem_keys_iff {d d' : Dict κ ν} (h : Same d d') (k : κ) : k ∈ d.keys ↔ k ∈ d'.keys := by
  rw [← isSome_get?_iff, ← isSome_get?_iff, h k]

/-- `==` of two dictionaries: as many entries, and each entry of the one found in the other. -/
def beq [DecidableEq ν] (d d' : Dict κ ν) : Bool :=
  decide (d.size = d'.size) && d.items.all fun e => decide (d'.get? e.1 = some e.2)

theorem beq_eq_true_iff [DecidableEq ν] {d d' : Dict κ ν} : d.beq d' = true ↔ Same d d' := by
  have hitems : d.beq d' = true ↔
      d.size = d'.size ∧ ∀ k v, d.get? k = some v → d'.get? k = some v := by
    simp [beq, get?_eq_some_iff]
  rw [hitems]
  constructor
  · rintro ⟨hsize, hsub⟩ k
    have hkeys := mem_keys_iff_of_subset_of_size
      (fun k hk => by
        obtain ⟨v, hv⟩ := mem_keys_iff.mp hk
        exact mem_keys_iff.mpr ⟨v, hsub k v hv⟩) hsize k
    cases hk : d.get? k with
    | some v => exact (hsub k v hk).symm
    | none =>
        have hnot : k ∉ d'.keys := fun h => (get?_eq_none_iff.mp hk) (hkeys.mpr h)
        exact (get?_eq_none_iff.mpr hnot).symm
  · intro h
    exact ⟨size_eq_of_mem_keys_iff h.mem_keys_iff, fun k v hv => (h k) ▸ hv⟩

end Dict

end Library
