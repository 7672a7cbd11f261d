import Mathlib.Data.List.Infix
import ThreescaleTests.Library.Pattern

/-!
# Lines, patterns and fields

Patterns of `grep` in which a dot stands for any character and every other character
for itself, and the fields of a line. A match of a longer pattern is one of its
prefixes; where the first character of a pattern occurs only at the start of a line,
so does the pattern. The first fields of a line are a prefix of it.
-/

namespace Library

/-! ## Patterns -/

/-- The line starts with a match: `grep ^pattern`, of one line -/
def matchesStart : Text → Text → Bool
  | [], _ => true
  | _ :: _, [] => false
  | p :: pattern, c :: line => (p == '.' || p == c) && matchesStart pattern line

/-- `grep pattern`, of one line -/
def matchesLine (pattern : Text) : Text → Bool
  | [] => matchesStart pattern []
  | c :: line => matchesStart pattern (c :: line) || matchesLine pattern line

theorem matchesStart_append (pattern rest : Text) :
    matchesStart pattern (pattern ++ rest) = true := by
  induction pattern with
  | nil => rfl
  | cons p pattern ih => simp [matchesStart, ih]

theorem matchesStart_of_longer {pattern longer line : Text} (h : pattern <+: longer)
    (hline : matchesStart longer line = true) : matchesStart pattern line = true := by
  induction pattern generalizing longer line with
  | nil => rfl
  | cons p pattern ih =>
      obtain ⟨rest, rfl⟩ := h
      cases line with
      | nil => cases hline
      | cons c line =>
          rw [List.cons_append, matchesStart, Bool.and_eq_true] at hline
          rw [matchesStart, Bool.and_eq_true]
          exact ⟨hline.1, ih (List.prefix_append pattern rest) hline.2⟩

theorem matchesLine_of_infix {pattern line : Text} (h : pattern <:+: line) :
    matchesLine pattern line = true := by
  obtain ⟨before, rest, rfl⟩ := h
  induction before with
  | nil =>
      have hstart := matchesStart_append pattern rest
      rw [List.nil_append]
      cases hline : pattern ++ rest with
      | nil => rw [matchesLine, ← hline, hstart]
      | cons c line => rw [matchesLine, ← hline, hstart, Bool.true_or]
  | cons c before ih => rw [List.cons_append, List.cons_append, matchesLine, ih, Bool.or_true]

/-- A character that the line does not have starts no match. -/
theorem matchesLine_eq_false {p : Char} (pattern : Text) {line : Text} (hp : p ≠ '.')
    (h : p ∉ line) : matchesLine (p :: pattern) line = false := by
  induction line with
  | nil => rfl
  | cons c line ih =>
      rw [List.mem_cons, not_or] at h
      have hc : (p == '.' || p == c) = false := by simp [hp, h.1]
      rw [matchesLine, matchesStart, hc, Bool.false_and, Bool.false_or, ih h.2]

theorem matchesLine_cons {p c : Char} (pattern : Text) {line : Text} (hp : p ≠ '.')
    (h : p ∉ line) :
    matchesLine (p :: pattern) (c :: line) = matchesStart (p :: pattern) (c :: line) := by
  rw [matchesLine, matchesLine_eq_false pattern hp h, Bool.or_false]

/-! ## Fields -/

/-- The fields with a character between them. -/
def joinFields (d : Char) : List Text → Text
  | [] => []
  | [field] => field
  | field :: fields => field ++ d :: joinFields d fields

/-- The first fields: `cut -f1-n -dd`, of one line -/
def cutFields (d : Char) : Nat → Text → Text
  | _, [] => []
  | n, c :: line =>
      if c = d then if n ≤ 1 then [] else c :: cutFields d (n - 1) line
      else c :: cutFields d n line

section

variable {d : Char}

theorem joinFields_cons {fields : List Text} (h : fields ≠ []) (field : Text) :
    joinFields d (field :: fields) = field ++ d :: joinFields d fields := by
  cases fields with
  | nil => exact absurd rfl h
  | cons _ _ => rfl

theorem joinFields_ne_nil {field : Text} (h : field ≠ []) (fields : List Text) :
    joinFields d (field :: fields) ≠ [] := by
  cases fields with
  | nil => exact h
  | cons _ _ => exact List.append_ne_nil_of_left_ne_nil h _

theorem mem_joinFields {fields : List Text} {c : Char} (h : c ∈ joinFields d fields) :
    c = d ∨ ∃ field ∈ fields, c ∈ field := by
  induction fields with
  | nil => cases h
  | cons field fields ih =>
      by_cases hfields : fields = []
      · subst hfields
        exact Or.inr ⟨field, List.mem_cons_self, h⟩
      · rw [joinFields_cons hfields, List.mem_append, List.mem_cons] at h
        rcases h with hfield | hd | hrest
        · exact Or.inr ⟨field, List.mem_cons_self, hfield⟩
        · exact Or.inl hd
        · exact (ih hrest).imp_right fun ⟨other, hother, hc⟩ =>
            ⟨other, List.mem_cons_of_mem _ hother, hc⟩

theorem joinFields_append {fields others : List Text} (h : fields ≠ []) (h' : others ≠ []) :
    joinFields d (fields ++ others) = joinFields d fields ++ d :: joinFields d others := by
  induction fields with
  | nil => exact absurd rfl h
  | cons field fields ih =>
      by_cases hfields : fields = []
      · subst hfields
        exact joinFields_cons h' field
      · have hall : fields ++ others ≠ [] := List.append_ne_nil_of_left_ne_nil hfields others
        rw [List.cons_append, joinFields_cons hall, joinFields_cons hfields, ih hfields,
          List.append_assoc, List.cons_append]

theorem joinFields_isPrefix {fields longer : List Text} (h : fields <+: longer) :
    joinFields d fields <+: joinFields d longer := by
  obtain ⟨others, rfl⟩ := h
  by_cases hfields : fields = []
  · rw [hfields]
    exact List.nil_prefix
  · by_cases hothers : others = []
    · rw [hothers, List.append_nil]
    · rw [joinFields_append hfields hothers]
      exact List.prefix_append _ _

/-- More fields make a longer text. -/
theorem length_joinFields_take_lt {fields : List Text} {k k' : Nat} (hk : 0 < k) (hlt : k < k')
    (hle : k' ≤ fields.length) :
    (joinFields d (fields.take k)).length < (joinFields d (fields.take k')).length := by
  have hsplit : fields.take k' = fields.take k ++ (fields.take k').drop k := by
    rw [← List.take_append_drop k (fields.take k'), List.take_take, Nat.min_eq_left hlt.le,
      List.drop_left' (by rw [List.length_take]; omega)]
  have hfirst : fields.take k ≠ [] := by
    apply List.ne_nil_of_length_pos
    rw [List.length_take]
    omega
  have hrest : (fields.take k').drop k ≠ [] := by
    apply List.ne_nil_of_length_pos
    rw [List.length_drop, List.length_take]
    omega
  rw [hsplit, joinFields_append hfirst hrest, List.length_append, List.length_cons]
  omega

/-- What comes before the first delimiter belongs to the first field. -/
theorem cutFields_append (n : Nat) {field : Text} (h : d ∉ field) (rest : Text) :
    cutFields d n (field ++ rest) = field ++ cutFields d n rest := by
  induction field with
  | nil => rfl
  | cons c field ih =>
      rw [List.mem_cons, not_or] at h
      rw [List.cons_append, cutFields, if_neg (Ne.symm h.1), ih h.2, List.cons_append]

theorem cutFields_joinFields {fields : List Text} (h : ∀ field ∈ fields, d ∉ field) (k : Nat) :
    cutFields d (k + 1) (joinFields d fields) = joinFields d (fields.take (k + 1)) := by
  induction fields generalizing k with
  | nil => rfl
  | cons field fields ih =>
      have hfield := h field List.mem_cons_self
      have hrest := ih fun other hother => h other (List.mem_cons_of_mem _ hother)
      by_cases hfields : fields = []
      · have hcut := cutFields_append (k + 1) hfield []
        rw [List.append_nil] at hcut
        rw [hfields, List.take_succ_cons, List.take_nil]
        exact hcut.trans (List.append_nil field)
      · rw [joinFields_cons hfields, cutFields_append _ hfield, cutFields, if_pos rfl,
          List.take_succ_cons]
        cases k with
        | zero =>
            rw [if_pos (Nat.le_refl 1), List.append_nil, List.take_zero]
            rfl
        | succ k =>
            have htake : fields.take (k + 1) ≠ [] := by
              rw [ne_eq, List.take_eq_nil_iff, not_or]
              exact ⟨Nat.succ_ne_zero k, hfields⟩
            rw [if_neg (by omega), Nat.add_sub_cancel, hrest, joinFields_cons htake]

end

end Library
