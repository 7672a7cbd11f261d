import ThreescaleTests.Library.Dict

/-!
# JSON documents and their patches

Documents, reference tokens and the operations of RFC 6902 that edit a member of
an object or an element of an array. `atPath` edits the value a pointer leads to;
consecutive edits below one location are one edit of that location, so a patch
whose pointers share a prefix is understood at the end of the prefix.
-/

namespace Library

/-- Documents with integral numbers. -/
inductive Json where
  | null
  | bool (b : Bool)
  | num (n : Int)
  | str (s : String)
  | arr (items : List Json)
  | obj (fields : List (String × Json))

namespace Json

mutual

def decEq : (a b : Json) → Decidable (a = b)
  | .null, .null => isTrue rfl
  | .bool a, .bool b =>
      if h : a = b then isTrue (h ▸ rfl) else isFalse fun e => h (Json.bool.inj e)
  | .num a, .num b =>
      if h : a = b then isTrue (h ▸ rfl) else isFalse fun e => h (Json.num.inj e)
  | .str a, .str b =>
      if h : a = b then isTrue (h ▸ rfl) else isFalse fun e => h (Json.str.inj e)
  | .arr a, .arr b =>
      match decEqItems a b with
      | isTrue h => isTrue (h ▸ rfl)
      | isFalse h => isFalse fun e => h (Json.arr.inj e)
  | .obj a, .obj b =>
      match decEqFields a b with
      | isTrue h => isTrue (h ▸ rfl)
      | isFalse h => isFalse fun e => h (Json.obj.inj e)
  | .null, .bool _ | .null, .num _ | .null, .str _ | .null, .arr _ | .null, .obj _
  | .bool _, .null | .bool _, .num _ | .bool _, .str _ | .bool _, .arr _ | .bool _, .obj _
  | .num _, .null | .num _, .bool _ | .num _, .str _ | .num _, .arr _ | .num _, .obj _
  | .str _, .null | .str _, .bool _ | .str _, .num _ | .str _, .arr _ | .str _, .obj _
  | .arr _, .null | .arr _, .bool _ | .arr _, .num _ | .arr _, .str _ | .arr _, .obj _
  | .obj _, .null | .obj _, .bool _ | .obj _, .num _ | .obj _, .str _ | .obj _, .arr _ =>
      isFalse fun e => by cases e

def decEqItems : (a b : List Json) → Decidable (a = b)
  | [], [] => isTrue rfl
  | [], _ :: _ => isFalse fun e => by cases e
  | _ :: _, [] => isFalse fun e => by cases e
  | a :: as, b :: bs =>
      match decEq a b, decEqItems as bs with
      | isTrue h, isTrue h' => isTrue (h ▸ h' ▸ rfl)
      | isFalse h, _ => isFalse fun e => h (List.cons.inj e).1
      | _, isFalse h => isFalse fun e => h (List.cons.inj e).2

def decEqFields : (a b : List (String × Json)) → Decidable (a = b)
  | [], [] => isTrue rfl
  | [], _ :: _ => isFalse fun e => by cases e
  | _ :: _, [] => isFalse fun e => by cases e
  | (k, a) :: as, (l, b) :: bs =>
      match instDecidableEqString k l, decEq a b, decEqFields as bs with
      | isTrue h, isTrue h', isTrue h'' => isTrue (h ▸ h' ▸ h'' ▸ rfl)
      | isFalse h, _, _ => isFalse fun e => h (Prod.mk.inj (List.cons.inj e).1).1
      | _, isFalse h, _ => isFalse fun e => h (Prod.mk.inj (List.cons.inj e).1).2
      | _, _, isFalse h => isFalse fun e => h (List.cons.inj e).2

end

instance : DecidableEq Json := decEq

/-! ## Pointers -/

/-- An array index: decimal digits without a leading zero. -/
def tokenIndex? (t : String) : Option Nat :=
  match t.toList with
  | [] => none
  | ['0'] => some 0
  | '0' :: _ => none
  | cs =>
      if cs.all Char.isDigit then some (cs.foldl (fun n c => 10 * n + (c.toNat - 48)) 0) else none

/-- The value a reference token selects. -/
def child? (t : String) : Json → Option Json
  | .obj fields => fields.lookup t
  | .arr items => (tokenIndex? t).bind fun i => items[i]?
  | _ => none

def setChild (doc : Json) (t : String) (c : Json) : Json :=
  match doc with
  | .obj fields => .obj (Dict.setEntry t c fields)
  | .arr items =>
      match tokenIndex? t with
      | some i => .arr (items.set i c)
      | none => .arr items
  | doc => doc

def get? : List String → Json → Option Json
  | [], doc => some doc
  | t :: ts, doc => (doc.child? t).bind (get? ts)

/-- Edit the value at a pointer; it fails where the pointer leads nowhere or the edit fails. -/
def atPath : List String → (Json → Option Json) → Json → Option Json
  | [], f, doc => f doc
  | t :: ts, f, doc => do
      let c ← doc.child? t
      let c' ← atPath ts f c
      pure (doc.setChild t c')

/-! ## Patches -/

/-- `add` at a reference token below the given value. -/
def addMember (t : String) (v : Json) : Json → Option Json
  | .obj fields => some (.obj (Dict.setEntry t v fields))
  | .arr items =>
      if t = "-" then some (.arr (items ++ [v]))
      else do
        let i ← tokenIndex? t
        if i ≤ items.length then some (.arr (items.insertIdx i v)) else none
  | _ => none

/-- `remove` at a reference token below the given value, which has to exist. -/
def removeMember (t : String) : Json → Option Json
  | .obj fields =>
      if (fields.lookup t).isSome then
        some (.obj (fields.filter fun e => decide (e.1 ≠ t)))
      else none
  | .arr items => do
      let i ← tokenIndex? t
      if i < items.length then some (.arr (items.eraseIdx i)) else none
  | _ => none

/-- One operation, its pointer split into the parent location and the last token. -/
inductive PatchOp where
  | add (parent : List String) (token : String) (value : Json)
  | remove (parent : List String) (token : String)
deriving DecidableEq

def PatchOp.run : PatchOp → Json → Option Json
  | .add parent t v => atPath parent (addMember t v)
  | .remove parent t => atPath parent (removeMember t)

/-- The same operation below a location. -/
def PatchOp.under (base : List String) : PatchOp → PatchOp
  | .add parent t v => .add (base ++ parent) t v
  | .remove parent t => .remove (base ++ parent) t

/-- The operations one after the other; one failure fails the patch. -/
def applyPatch : List PatchOp → Json → Option Json
  | [], doc => some doc
  | op :: ops, doc => (op.run doc).bind (applyPatch ops)

/-! ## Edits at one location -/

theorem setEntry_setEntry (k : String) (v w : Json) (es : List (String × Json)) :
    Dict.setEntry k v (Dict.setEntry k w es) = Dict.setEntry k v es := by
  induction es with
  | nil => simp [Dict.setEntry]
  | cons e es ih =>
      by_cases h : e.1 = k
      · simp [Dict.setEntry, h]
      · simp [Dict.setEntry, h, ih]

/-- What is removed is there. -/
theorem child?_of_removeMember {t : String} {doc doc' : Json} (h : removeMember t doc = some doc') :
    ∃ c, doc.child? t = some c := by
  cases doc with
  | obj fields =>
      simp only [removeMember] at h
      split_ifs at h with hmem
      exact Option.isSome_iff_exists.mp hmem
  | arr items =>
      obtain ⟨i, hi, hrest⟩ := Option.bind_eq_some_iff.mp h
      split_ifs at hrest with hlt
      exact ⟨items[i], by simp [child?, hi, hlt]⟩
  | _ => cases h

/-- A member of an object is removed and added again. -/
theorem applyPatch_remove_add {fields : List (String × Json)} {t : String}
    (h : (fields.lookup t).isSome = true) (v : Json) :
    ∃ fields', applyPatch [.remove [] t, .add [] t v] (.obj fields) = some (.obj fields') ∧
      ∀ t', fields'.lookup t' = if t' = t then some v else fields.lookup t' := by
  refine ⟨Dict.setEntry t v (fields.filter fun e => decide (e.1 ≠ t)), ?_, fun t' => ?_⟩
  · simp [applyPatch, PatchOp.run, atPath, removeMember, addMember, h]
  · rw [Dict.lookup_setEntry, Dict.lookup_filter_ne]
    by_cases heq : t' = t
    · simp [heq]
    · simp [heq]

theorem child?_setChild_self {t : String} {doc c : Json} (h : doc.child? t = some c) (c' : Json) :
    (doc.setChild t c').child? t = some c' := by
  cases doc with
  | obj fields => simp [setChild, child?, Dict.lookup_setEntry]
  | arr items =>
      cases hi : tokenIndex? t with
      | none => simp [child?, hi] at h
      | some i =>
          have hget : items[i]? = some c := by simpa [child?, hi] using h
          have hlt : i < items.length := (List.getElem?_eq_some_iff.mp hget).choose
          simp [setChild, child?, hi, hlt]
  | _ => simp [child?] at h

theorem setChild_setChild (doc : Json) (t : String) (c c' : Json) :
    (doc.setChild t c).setChild t c' = doc.setChild t c' := by
  cases doc with
  | obj fields => simp [setChild, setEntry_setEntry]
  | arr items =>
      cases hi : tokenIndex? t with
      | none => simp [setChild, hi]
      | some i => simp [setChild, hi]
  | _ => rfl

theorem atPath_append (p q : List String) (f : Json → Option Json) (doc : Json) :
    atPath (p ++ q) f doc = atPath p (atPath q f) doc := by
  induction p generalizing doc with
  | nil => rfl
  | cons t p ih => simp [atPath, ih]

/-- Two edits of one location are one edit by the composite. -/
theorem atPath_bind_atPath (p : List String) (f g : Json → Option Json) (doc : Json) :
    (atPath p f doc).bind (atPath p g) = atPath p (fun c => (f c).bind g) doc := by
  induction p generalizing doc f with
  | nil => rfl
  | cons t p ih =>
      cases hc : doc.child? t with
      | none => simp [atPath, hc]
      | some c =>
          cases hf : atPath p f c with
          | none =>
              have hcomp := ih f c
              rw [hf] at hcomp
              simp [atPath, hc, hf, ← hcomp]
          | some c' =>
              have hcomp := ih f c
              rw [hf, Option.bind_some] at hcomp
              have hself := child?_setChild_self hc c'
              have hleft : (atPath (t :: p) f doc).bind (atPath (t :: p) g) =
                  (atPath p g c').bind fun d => some ((doc.setChild t c').setChild t d) := by
                simp [atPath, hc, hf, hself]
              have hright : atPath (t :: p) (fun c => (f c).bind g) doc =
                  (atPath p (fun c => (f c).bind g) c).bind fun d => some (doc.setChild t d) := by
                simp [atPath, hc]
              rw [hleft, hright, hcomp]
              simp only [setChild_setChild]

theorem get?_append (p q : List String) (doc : Json) :
    get? (p ++ q) doc = (get? p doc).bind (get? q) := by
  induction p generalizing doc with
  | nil => rfl
  | cons t p ih =>
      cases h : doc.child? t with
      | none => simp [get?, h]
      | some c => simp [get?, h, ih]

/-- An edit happens where the pointer leads, and its result is found there afterwards. -/
theorem get?_of_atPath {p : List String} {f : Json → Option Json} {doc doc' : Json}
    (h : atPath p f doc = some doc') :
    ∃ c c', get? p doc = some c ∧ f c = some c' ∧ get? p doc' = some c' := by
  induction p generalizing doc doc' with
  | nil => exact ⟨doc, doc', rfl, h, rfl⟩
  | cons t p ih =>
      cases hc : doc.child? t with
      | none => simp [atPath, hc] at h
      | some c =>
          cases hf : atPath p f c with
          | none => simp [atPath, hc, hf] at h
          | some d =>
              have hdoc : doc.setChild t d = doc' := by simpa [atPath, hc, hf] using h
              obtain ⟨a, b, ha, hab, hb⟩ := ih hf
              have hself := child?_setChild_self hc d
              refine ⟨a, b, by simp [get?, hc, ha], hab, ?_⟩
              rw [← hdoc]
              simp [get?, hself, hb]

/-- An edit fails only where the pointer leads nowhere or the edited value rejects it. -/
theorem atPath_isSome {p : List String} {f : Json → Option Json} {doc c c' : Json}
    (hc : get? p doc = some c) (hf : f c = some c') : ∃ doc', atPath p f doc = some doc' := by
  induction p generalizing doc with
  | nil =>
      have hdoc : doc = c := by simpa [get?] using hc
      exact ⟨c', hdoc ▸ hf⟩
  | cons t p ih =>
      cases hd : doc.child? t with
      | none => simp [get?, hd] at hc
      | some d =>
          obtain ⟨d', hd'⟩ := ih (by simpa [get?, hd] using hc)
          exact ⟨doc.setChild t d', by simp [atPath, hd, hd']⟩

theorem PatchOp.run_under (base : List String) (op : PatchOp) (doc : Json) :
    (op.under base).run doc = atPath base op.run doc := by
  cases op <;> simp only [PatchOp.under, PatchOp.run, atPath_append]

/-- A patch below one location is one edit of that location. -/
theorem applyPatch_under (base : List String) (op : PatchOp) (ops : List PatchOp) (doc : Json) :
    applyPatch ((op :: ops).map (PatchOp.under base)) doc =
      atPath base (applyPatch (op :: ops)) doc := by
  induction ops generalizing op doc with
  | nil =>
      have hone : applyPatch [op] = op.run := by
        funext c
        simp [applyPatch]
      rw [hone]
      simp [applyPatch, PatchOp.run_under]
  | cons op' ops ih =>
      have htail : applyPatch (((op' :: ops)).map (PatchOp.under base)) =
          atPath base (applyPatch (op' :: ops)) := funext fun c => ih op' c
      rw [List.map_cons, applyPatch, htail, PatchOp.run_under, atPath_bind_atPath]
      rfl

/-- A patch that applies to the value at a location applies below that location. -/
theorem applyPatch_under_of {base : List String} {ops : List PatchOp} {doc c c' : Json}
    (hc : get? base doc = some c) (hops : applyPatch ops c = some c') :
    ∃ doc', applyPatch (ops.map (PatchOp.under base)) doc = some doc' ∧
      get? base doc' = some c' := by
  cases ops with
  | nil =>
      have heq : c = c' := by simpa [applyPatch] using hops
      exact ⟨doc, rfl, heq ▸ hc⟩
  | cons op ops =>
      rw [applyPatch_under]
      obtain ⟨doc', hdoc'⟩ := atPath_isSome hc hops
      obtain ⟨d, d', hd, hd', hget⟩ := get?_of_atPath hdoc'
      have hsame : d = c := Option.some.inj (hd.symm.trans hc)
      have hedit : d' = c' := Option.some.inj (hd'.symm.trans (hsame ▸ hops))
      exact ⟨doc', hdoc', hedit ▸ hget⟩

theorem applyPatch_append (ops ops' : List PatchOp) (doc : Json) :
    applyPatch (ops ++ ops') doc = (applyPatch ops doc).bind (applyPatch ops') := by
  induction ops generalizing doc with
  | nil => rfl
  | cons op ops ih =>
      cases h : op.run doc with
      | none => simp [applyPatch, h]
      | some d => simp [applyPatch, h, ih]

end Json

end Library
