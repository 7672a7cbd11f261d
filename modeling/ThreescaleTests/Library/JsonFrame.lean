import Mathlib.Data.Nat.Digits.Defs
import ThreescaleTests.Library.Json

/-!
# What a patch leaves alone

Two documents agree at a pointer when the pointer leads to values of one shape:
the same scalar, lists of one length, or objects. A patch that edits members of one
object leaves the shape of every value outside those members as it is, wherever in
the document the object stands.
-/

namespace Library

namespace Json

/-! ## Reference tokens of array elements -/

theorem tokenIndex?_foldl (cs : List Char) :
    cs.foldl (fun n c => 10 * n + (c.toNat - 48)) 0 =
      Nat.ofDigits 10 (cs.map fun c => c.toNat - 48).reverse := by
  rw [Nat.ofDigits_eq_foldr, List.foldr_reverse, List.foldl_map]
  congr 1
  funext n c
  simp [Nat.add_comm]

theorem digit_bounds {c : Char} (h : c.isDigit) : 48 ≤ c.toNat ∧ c.toNat ≤ 57 := by
  simpa [Char.isDigit, UInt32.le_iff_toNat_le] using h

theorem digitValues_injective {ds ds' : List Char} (hds : ds.all Char.isDigit)
    (hds' : ds'.all Char.isDigit)
    (h : (ds.map fun c => c.toNat - 48) = ds'.map fun c => c.toNat - 48) : ds = ds' := by
  induction ds generalizing ds' with
  | nil => exact (List.map_eq_nil_iff.mp h.symm).symm
  | cons d ds ih =>
      cases ds' with
      | nil => simp at h
      | cons d' ds' =>
          simp only [List.all_cons, Bool.and_eq_true] at hds hds'
          simp only [List.map_cons, List.cons.injEq] at h
          have hd := digit_bounds hds.1
          have hd' := digit_bounds hds'.1
          have hval : d.toNat = d'.toNat := by omega
          rw [Char.toNat_inj.mp hval, ih hds.2 hds'.2 h.2]

/-- The digits of a numeral without leading zeros are those of its value. -/
theorem digits_tokenIndex {d : Char} {ds : List Char} (hds : (d :: ds).all Char.isDigit)
    (hd : d ≠ '0') :
    Nat.digits 10 ((d :: ds).foldl (fun n c => 10 * n + (c.toNat - 48)) 0) =
      ((d :: ds).map fun c => c.toNat - 48).reverse := by
  rw [tokenIndex?_foldl]
  refine Nat.digits_ofDigits 10 (by omega) _ (fun l hl => ?_) fun hne => ?_
  · obtain ⟨e, he, rfl⟩ := List.mem_map.mp (List.mem_reverse.mp hl)
    have hbounds := digit_bounds (List.all_eq_true.mp hds e he)
    omega
  · have hbounds := digit_bounds (List.all_eq_true.mp hds d List.mem_cons_self)
    have hnot : d.toNat ≠ 48 := fun heq => hd (Char.toNat_inj.mp heq)
    simp only [List.map_cons, List.reverse_cons, List.getLast_append_singleton]
    omega

/-- An index token is `0`, or the numeral of its value. -/
theorem tokenIndex?_cases {t : String} {i : Nat} (h : tokenIndex? t = some i) :
    (t.toList = ['0'] ∧ i = 0) ∨
      (t.toList.all Char.isDigit ∧ i ≠ 0 ∧
        Nat.digits 10 i = (t.toList.map fun c => c.toNat - 48).reverse) := by
  unfold tokenIndex? at h
  split at h
  · cases h
  · rename_i hzero
    exact .inl ⟨hzero, (Option.some.inj h).symm⟩
  · cases h
  · rename_i cs hnil hzero hlead
    right
    split_ifs at h with hdigits
    have hi := Option.some.inj h
    cases hcs : t.toList with
    | nil => exact absurd hcs hnil
    | cons d ds =>
        have hd : d ≠ '0' := fun heq => hlead ds (by rw [hcs, heq])
        rw [hcs] at hdigits hi
        have hvalue := digits_tokenIndex hdigits hd
        rw [hi] at hvalue
        refine ⟨hdigits, fun hzero => ?_, hvalue⟩
        rw [hzero] at hvalue
        simp at hvalue

/-- Different tokens select different elements. -/
theorem tokenIndex?_injective {t t' : String} {i : Nat} (h : tokenIndex? t = some i)
    (h' : tokenIndex? t' = some i) : t = t' := by
  apply String.toList_injective
  rcases tokenIndex?_cases h with ⟨ht, hi⟩ | ⟨hds, hi, hdigits⟩
  · rcases tokenIndex?_cases h' with ⟨ht', -⟩ | ⟨-, hi', -⟩
    · rw [ht, ht']
    · exact absurd hi hi'
  · rcases tokenIndex?_cases h' with ⟨-, hi'⟩ | ⟨hds', -, hdigits'⟩
    · exact absurd hi' hi
    · have hmap := hdigits.symm.trans hdigits'
      exact digitValues_injective hds hds' (List.reverse_inj.mp hmap)

/-! ## Shapes -/

/-- A value without its members. -/
inductive Shape where
  | null
  | bool (b : Bool)
  | num (n : Int)
  | str (s : String)
  | arr (length : Nat)
  | obj
deriving DecidableEq

def shape : Json → Shape
  | .null => .null
  | .bool b => .bool b
  | .num n => .num n
  | .str s => .str s
  | .arr items => .arr items.length
  | .obj _ => .obj

def shapeAt (q : List String) (doc : Json) : Option Shape := (get? q doc).map shape

/-- Nothing changes but what lies at the given locations or below them. -/
def ChangedOnly (paths : List (List String)) (doc doc' : Json) : Prop :=
  ∀ q, (∀ p ∈ paths, ¬ p <+: q) → shapeAt q doc' = shapeAt q doc

theorem ChangedOnly.refl (paths : List (List String)) (doc : Json) : ChangedOnly paths doc doc :=
  fun _ _ => rfl

theorem ChangedOnly.trans {paths : List (List String)} {doc doc' doc'' : Json}
    (h : ChangedOnly paths doc doc') (h' : ChangedOnly paths doc' doc'') :
    ChangedOnly paths doc doc'' := fun q hq => (h' q hq).trans (h q hq)

theorem shape_setChild (doc : Json) (t : String) (c : Json) :
    (doc.setChild t c).shape = doc.shape := by
  cases doc with
  | arr items =>
      cases hi : tokenIndex? t with
      | none => simp [setChild, hi]
      | some i => simp [setChild, hi, shape]
  | _ => rfl

theorem child?_setChild_of_ne {t t' : String} (hne : t' ≠ t) (doc c : Json) :
    (doc.setChild t c).child? t' = doc.child? t' := by
  cases doc with
  | obj fields => simp [setChild, child?, Dict.lookup_setEntry, hne]
  | arr items =>
      cases hi : tokenIndex? t with
      | none => simp [setChild, hi]
      | some i =>
          cases hi' : tokenIndex? t' with
          | none => simp [setChild, child?, hi, hi']
          | some i' =>
              have hindex : i ≠ i' := by
                rintro rfl
                exact hne (tokenIndex?_injective hi' hi)
              simp [setChild, child?, hi, hi', hindex]
  | _ => rfl

/-- Editing below a pointer changes nothing elsewhere. -/
theorem atPath_changedOnly {base : List String} {f : Json → Option Json}
    {paths : List (List String)} {doc doc' : Json}
    (hf : ∀ c c', get? base doc = some c → f c = some c' → ChangedOnly paths c c')
    (h : atPath base f doc = some doc') : ChangedOnly (paths.map (base ++ ·)) doc doc' := by
  induction base generalizing doc doc' with
  | nil =>
      have hid : (paths.map fun p => [] ++ p) = paths := by simp
      rw [hid]
      exact hf doc doc' rfl h
  | cons t base ih =>
      cases hc : doc.child? t with
      | none => simp [atPath, hc] at h
      | some c =>
          cases hd : atPath base f c with
          | none => simp [atPath, hc, hd] at h
          | some d =>
              have hdoc : doc.setChild t d = doc' := by simpa [atPath, hc, hd] using h
              have hrest := ih (fun a a' ha => hf a a' (by simpa [get?, hc] using ha)) hd
              rw [← hdoc]
              intro q hq
              cases q with
              | nil => simp [shapeAt, get?, shape_setChild]
              | cons t' q =>
                  by_cases heq : t' = t
                  · subst heq
                    have hself := child?_setChild_self hc d
                    have hbelow : ∀ p ∈ paths.map (base ++ ·), ¬ p <+: q := by
                      intro p hp hprefix
                      obtain ⟨p', hp', rfl⟩ := List.mem_map.mp hp
                      refine hq (t' :: base ++ p') (List.mem_map_of_mem hp') ?_
                      exact (List.prefix_cons_inj t').mpr hprefix
                    simpa [shapeAt, get?, hself, hc] using hrest q hbelow
                  · simp [shapeAt, get?, child?_setChild_of_ne heq]

/-! ## Patches of the members of an object -/

/-- The member of the edited object that an operation is about. -/
def PatchOp.member : PatchOp → String
  | .add [] t _ => t
  | .add (t :: _) _ _ => t
  | .remove [] t => t
  | .remove (t :: _) _ => t

/-- An object after an edit is an object with the same other members. -/
def SameButMembers (tokens : List String) (c c' : Json) : Prop :=
  ∃ fields fields', c = .obj fields ∧ c' = .obj fields' ∧
    ∀ t, t ∉ tokens → c'.child? t = c.child? t

theorem SameButMembers.trans {tokens : List String} {c d e : Json}
    (h : SameButMembers tokens c d) (h' : SameButMembers tokens d e) :
    SameButMembers tokens c e := by
  obtain ⟨fields, _, hc, -, hsame⟩ := h
  obtain ⟨-, fields', -, he, hsame'⟩ := h'
  exact ⟨fields, fields', hc, he, fun t ht => (hsame' t ht).trans (hsame t ht)⟩

theorem SameButMembers.changedOnly {tokens : List String} {c c' : Json}
    (h : SameButMembers tokens c c') : ChangedOnly (tokens.map ([·])) c c' := by
  obtain ⟨fields, fields', hc, hc', hsame⟩ := h
  intro q hq
  cases q with
  | nil => rw [hc, hc']; rfl
  | cons t q =>
      have ht : t ∉ tokens := by
        intro hmem
        exact hq [t] (List.mem_map_of_mem hmem) ⟨q, rfl⟩
      simp [shapeAt, get?, hsame t ht]

/-- An edit below a member is an edit of the member. -/
theorem sameButMembers_of_atPath {p : String} {parent : List String} {f : Json → Option Json}
    {fields : List (String × Json)} {c' : Json}
    (h : atPath (p :: parent) f (.obj fields) = some c') :
    SameButMembers [p] (.obj fields) c' := by
  obtain ⟨c, -, hrest⟩ := Option.bind_eq_some_iff.mp h
  obtain ⟨d, -, heq⟩ := Option.bind_eq_some_iff.mp hrest
  have hc' : (Json.obj fields).setChild p d = c' := Option.some.inj heq
  refine ⟨fields, Dict.setEntry p d fields, rfl, hc'.symm, fun t ht => ?_⟩
  rw [← hc']
  exact child?_setChild_of_ne (by simpa using ht) _ _

theorem PatchOp.run_sameButMembers {op : PatchOp} {fields : List (String × Json)} {c' : Json}
    (h : op.run (.obj fields) = some c') : SameButMembers [op.member] (.obj fields) c' := by
  cases op with
  | add parent t v =>
      cases parent with
      | nil =>
          have hc' : .obj (Dict.setEntry t v fields) = c' := by
            simpa [PatchOp.run, atPath, addMember] using h
          refine ⟨fields, _, rfl, hc'.symm, fun t' ht' => ?_⟩
          have hne : t' ≠ t := by simpa [PatchOp.member] using ht'
          rw [← hc']
          simp [child?, Dict.lookup_setEntry, hne]
      | cons p parent => exact sameButMembers_of_atPath h
  | remove parent t =>
      cases parent with
      | nil =>
          have hc' : .obj (fields.filter fun e => decide (e.1 ≠ t)) = c' := by
            simp only [PatchOp.run, atPath, removeMember] at h
            split_ifs at h
            exact Option.some.inj h
          refine ⟨fields, _, rfl, hc'.symm, fun t' ht' => ?_⟩
          have hne : t' ≠ t := by simpa [PatchOp.member] using ht'
          rw [← hc']
          simp only [child?]
          rw [Dict.lookup_filter_ne, if_neg hne]
      | cons p parent => exact sameButMembers_of_atPath h

theorem applyPatch_sameButMembers {tokens : List String} {ops : List PatchOp} {c c' : Json}
    (hobj : ∃ fields, c = .obj fields) (hops : ∀ op ∈ ops, op.member ∈ tokens)
    (h : applyPatch ops c = some c') : SameButMembers tokens c c' := by
  induction ops generalizing c with
  | nil =>
      obtain ⟨fields, hc⟩ := hobj
      have heq : c = c' := by simpa [applyPatch] using h
      exact ⟨fields, fields, hc, heq ▸ hc, fun t _ => by rw [heq]⟩
  | cons op ops ih =>
      obtain ⟨fields, rfl⟩ := hobj
      rw [List.forall_mem_cons] at hops
      obtain ⟨d, hd, hrest⟩ := Option.bind_eq_some_iff.mp h
      obtain ⟨fields0, fields', hc, hd', hsame⟩ := PatchOp.run_sameButMembers hd
      have hfirst : SameButMembers tokens (.obj fields) d := by
        refine ⟨fields0, fields', hc, hd', fun t ht => hsame t fun hmem => ht ?_⟩
        rw [List.mem_singleton.mp hmem]
        exact hops.1
      exact hfirst.trans (ih ⟨fields', hd'⟩ hops.2 hrest)

/-- A patch of members of the object at a location changes nothing but these members. -/
theorem applyPatch_under_changedOnly {base tokens : List String} {ops : List PatchOp}
    {doc doc' : Json} (hobj : ∀ c, get? base doc = some c → ∃ fields, c = .obj fields)
    (hops : ∀ op ∈ ops, op.member ∈ tokens)
    (h : applyPatch (ops.map (PatchOp.under base)) doc = some doc') :
    ChangedOnly (tokens.map fun t => base ++ [t]) doc doc' := by
  cases ops with
  | nil =>
      have heq : doc = doc' := by simpa [applyPatch] using h
      exact heq ▸ ChangedOnly.refl _ doc
  | cons op ops =>
      rw [applyPatch_under] at h
      have hmap : (tokens.map fun t => base ++ [t]) = (tokens.map ([·])).map (base ++ ·) := by
        rw [List.map_map]
        rfl
      rw [hmap]
      exact atPath_changedOnly (fun c c' hc hc' =>
        (applyPatch_sameButMembers (hobj c hc) hops hc').changedOnly) h

end Json

end Library
