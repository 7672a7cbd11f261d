import Mathlib.Data.List.Infix
import Mathlib.Tactic.SplitIfs

/-!
# Letter case and replacement

The ASCII case of strings, and the replacement of all occurrences of a text that do
not overlap, taken from the left. A replacement by nothing never makes a text longer,
and leaves exactly the texts without an occurrence as they are.
-/

namespace Library

/-! ## Case -/

theorem char_eq_iff {c d : Char} : c = d ↔ c.toNat = d.toNat :=
  ⟨fun h => h ▸ rfl, fun h => Char.ext (UInt32.toNat_inj.mp h)⟩

theorem toNat_toLower (c : Char) :
    c.toLower.toNat = if 65 ≤ c.toNat ∧ c.toNat ≤ 90 then c.toNat + 32 else c.toNat := by
  unfold Char.toLower
  split
  · rename_i h
    have hlow : 65 ≤ c.toNat := h.1
    have hhigh : c.toNat ≤ 90 := h.2
    rw [if_pos ⟨hlow, hhigh⟩]
    show (c.val + 32).toNat = _
    rw [UInt32.toNat_add]
    show (c.toNat + 32) % 2 ^ 32 = _
    omega
  · rename_i h
    have hnot : ¬ (65 ≤ c.toNat ∧ c.toNat ≤ 90) := h
    rw [if_neg hnot]

theorem toNat_toUpper (c : Char) :
    c.toUpper.toNat = if 97 ≤ c.toNat ∧ c.toNat ≤ 122 then c.toNat - 32 else c.toNat := by
  unfold Char.toUpper
  split
  · rename_i h
    have hlow : 97 ≤ c.toNat := h.1
    have hhigh : c.toNat ≤ 122 := h.2
    rw [if_pos ⟨hlow, hhigh⟩]
    show (c.val + ('A'.val - 'a'.val)).toNat = _
    rw [UInt32.toNat_add]
    show (c.toNat + 4294967264) % 2 ^ 32 = _
    omega
  · rename_i h
    have hnot : ¬ (97 ≤ c.toNat ∧ c.toNat ≤ 122) := h
    rw [if_neg hnot]

@[simp] theorem toLower_toUpper (c : Char) : c.toUpper.toLower = c.toLower := by
  rw [char_eq_iff, toNat_toLower, toNat_toUpper, toNat_toLower]
  split_ifs <;> omega

@[simp] theorem toUpper_toLower (c : Char) : c.toLower.toUpper = c.toUpper := by
  rw [char_eq_iff, toNat_toUpper, toNat_toLower, toNat_toUpper]
  split_ifs <;> omega

@[simp] theorem toLower_toLower (c : Char) : c.toLower.toLower = c.toLower := by
  rw [char_eq_iff, toNat_toLower, toNat_toLower]
  split_ifs <;> omega

/-- A character that is no letter is a letter's upper case only if it is the letter. -/
theorem toUpper_eq_iff {c d : Char} (hd : ¬ (65 ≤ d.toNat ∧ d.toNat ≤ 90))
    (hd' : ¬ (97 ≤ d.toNat ∧ d.toNat ≤ 122)) : c.toUpper = d ↔ c = d := by
  rw [char_eq_iff, char_eq_iff, toNat_toUpper]
  split_ifs <;> omega

theorem toLower_eq_iff {c d : Char} (hd : ¬ (65 ≤ d.toNat ∧ d.toNat ≤ 90))
    (hd' : ¬ (97 ≤ d.toNat ∧ d.toNat ≤ 122)) : c.toLower = d ↔ c = d := by
  rw [char_eq_iff, char_eq_iff, toNat_toLower]
  split_ifs <;> omega

/-- A string with every character changed. -/
def mapChars (f : Char → Char) (s : String) : String := String.ofList (s.toList.map f)

/-- `s.lower()`, of ASCII letters -/
def lower (s : String) : String := mapChars Char.toLower s

/-- `s.upper()`, of ASCII letters -/
def upper (s : String) : String := mapChars Char.toUpper s

@[simp] theorem toList_mapChars (f : Char → Char) (s : String) :
    (mapChars f s).toList = s.toList.map f := String.toList_ofList

@[simp] theorem toList_lower (s : String) : (lower s).toList = s.toList.map Char.toLower :=
  toList_mapChars _ s

@[simp] theorem toList_upper (s : String) : (upper s).toList = s.toList.map Char.toUpper :=
  toList_mapChars _ s

/-! ## Replacement -/

/-- Replace occurrences from the left; the first number of characters belongs to an occurrence that
was replaced already. -/
def replaceFrom (old new : List Char) : Nat → List Char → List Char
  | _, [] => []
  | skip + 1, _ :: text => replaceFrom old new skip text
  | 0, c :: text =>
      if old <+: c :: text then new ++ replaceFrom old new (old.length - 1) text
      else c :: replaceFrom old new 0 text

/-- `s.replace(old, new)`, of an `old` that is not empty -/
def replace (old new s : String) : String :=
  String.ofList (replaceFrom old.toList new.toList 0 s.toList)

@[simp] theorem toList_replace (old new s : String) :
    (replace old new s).toList = replaceFrom old.toList new.toList 0 s.toList :=
  String.toList_ofList

def startsWith (start s : String) : Bool := decide (start.toList <+: s.toList)

section

variable {old new text : List Char}

theorem replaceFrom_skip (old new : List Char) (n : Nat) (text : List Char) :
    replaceFrom old new n text = replaceFrom old new 0 (text.drop n) := by
  induction n generalizing text with
  | zero => rfl
  | succ n ih =>
      cases text with
      | nil => simp [replaceFrom]
      | cons c text => exact ih text

theorem replaceFrom_of_prefix (hold : old ≠ []) (text : List Char) :
    replaceFrom old new 0 (old ++ text) = new ++ replaceFrom old new 0 text := by
  cases old with
  | nil => exact absurd rfl hold
  | cons c cs =>
      have hprefix : c :: cs <+: c :: (cs ++ text) := List.prefix_append (c :: cs) text
      rw [List.cons_append, replaceFrom, if_pos hprefix, replaceFrom_skip]
      simp

theorem replaceFrom_eq_self (h : ¬ old <:+: text) : replaceFrom old new 0 text = text := by
  induction text with
  | nil => rfl
  | cons c text ih =>
      have hprefix : ¬ old <+: c :: text := fun hp => h hp.isInfix
      have hinfix : ¬ old <:+: text := fun hi => h (hi.trans (List.suffix_cons c text).isInfix)
      rw [replaceFrom, if_neg hprefix, ih hinfix]

/-- Every occurrence of one character is replaced by another one. -/
theorem replaceFrom_char (a b : Char) (text : List Char) :
    replaceFrom [a] [b] 0 text = text.map fun c => if c = a then b else c := by
  induction text with
  | nil => rfl
  | cons c text ih =>
      by_cases hc : c = a
      · subst hc
        simp [replaceFrom, ih]
      · have hprefix : ¬ [a] <+: c :: text := by
          rw [List.cons_prefix_cons]
          exact fun h => hc h.1.symm
        simp [replaceFrom, hprefix, hc, ih]

theorem length_replaceFrom_nil_le (n : Nat) (text : List Char) :
    (replaceFrom old [] n text).length ≤ text.length := by
  induction text generalizing n with
  | nil => simp [replaceFrom]
  | cons c text ih =>
      cases n with
      | succ n =>
          rw [replaceFrom, List.length_cons]
          exact Nat.le_succ_of_le (ih n)
      | zero =>
          rw [replaceFrom]
          split
          · rw [List.nil_append, List.length_cons]
            exact Nat.le_succ_of_le (ih _)
          · rw [List.length_cons, List.length_cons]
            exact Nat.succ_le_succ (ih 0)

/-- Removing an occurrence makes the text shorter. -/
theorem length_replaceFrom_nil_lt (hold : old ≠ []) (h : old <:+: text) :
    (replaceFrom old [] 0 text).length < text.length := by
  induction text with
  | nil => exact absurd (List.eq_nil_of_infix_nil h) hold
  | cons c text ih =>
      rw [replaceFrom]
      by_cases hprefix : old <+: c :: text
      · rw [if_pos hprefix, List.nil_append, List.length_cons]
        exact Nat.lt_succ_of_le (length_replaceFrom_nil_le _ text)
      · rw [if_neg hprefix, List.length_cons, List.length_cons]
        have htail : old <:+: text := (List.infix_cons_iff.mp h).resolve_left hprefix
        exact Nat.succ_lt_succ (ih htail)

end

example : replace "HTTP_" "" "HTTP_X_HTTP_METHOD" = "X_METHOD" := by decide

end Library
