import Mathlib.Data.List.Infix
import Mathlib.Data.List.TakeWhile

/-!
# Greedy patterns

Regular expressions made of literals and of captured groups `(.*)`. A match starts
at the beginning of the text and may stop before its end; each group takes as much
as the rest of the pattern allows.
-/

namespace Library

abbrev Text := List Char

inductive Atom where
  | lit (text : Text)
  /-- `(.*)` -/
  | group
deriving DecidableEq

abbrev Pattern := List Atom

namespace Pattern

variable {α : Type}

/-- The answer of `f` at the largest number up to a bound that has one. -/
def greedy (f : Nat → Option α) : Nat → Option α
  | 0 => f 0
  | n + 1 => (f (n + 1)).or (greedy f n)

/-- A dot matches everything but a line break. -/
def dots (text : Text) : Nat := (text.takeWhile (fun c => c ≠ '\n')).length

/-- The groups of a match. -/
def find : Pattern → Text → Option (List Text)
  | [], _ => some []
  | .lit l :: ps, text => if l <+: text then find ps (text.drop l.length) else none
  | .group :: ps, text =>
      greedy (fun n => (find ps (text.drop n)).map (fun groups => text.take n :: groups))
        (dots text)

/-! ## The choice of a group -/

theorem greedy_eq_none {f : Nat → Option α} {k : Nat} (h : ∀ n ≤ k, f n = none) :
    greedy f k = none := by
  induction k with
  | zero => exact h 0 (Nat.le_refl 0)
  | succ k ih =>
      have hrest := ih (fun n hn => h n (by omega))
      rw [greedy, h (k + 1) (Nat.le_refl _), hrest]
      rfl

theorem greedy_eq_some {f : Nat → Option α} {k n : Nat} {a : α} (hn : n ≤ k) (ha : f n = some a)
    (h : ∀ m, n < m → m ≤ k → f m = none) : greedy f k = some a := by
  induction k with
  | zero =>
      have hzero : n = 0 := by omega
      rw [greedy, ← hzero]
      exact ha
  | succ k ih =>
      by_cases hk : n = k + 1
      · rw [greedy, ← hk, ha]
        rfl
      · have hlast := h (k + 1) (by omega) (Nat.le_refl _)
        have hrest := ih (by omega) (fun m hm hmk => h m hm (by omega))
        rw [greedy, hlast, hrest]
        rfl

theorem dots_of_line {text : Text} (h : '\n' ∉ text) : dots text = text.length := by
  have hall : text.takeWhile (fun c => decide (c ≠ '\n')) = text := by
    rw [List.takeWhile_eq_self_iff]
    intro c hc
    have hne : c ≠ '\n' := fun he => h (he ▸ hc)
    simp [hne]
  rw [dots, hall]

/-! ## Matching a line -/

theorem find_lit_append (l : Text) (ps : Pattern) (rest : Text) :
    find (.lit l :: ps) (l ++ rest) = find ps rest := by
  rw [find, if_pos (List.prefix_append l rest), List.drop_left]

/-- A last group takes the rest of the line. -/
theorem find_last_group {text : Text} (h : '\n' ∉ text) : find [.group] text = some [text] := by
  rw [find, dots_of_line h]
  apply greedy_eq_some (Nat.le_refl _)
  · simp [find]
  · intro m hm hle
    omega

/-- A literal that does not occur after the group has none. -/
theorem find_group_lit_none {l : Text} (ps : Pattern) {text : Text} (h : ¬ l <:+: text) :
    find (.group :: .lit l :: ps) text = none := by
  rw [find]
  apply greedy_eq_none
  intro n _
  have hn : ¬ l <+: text.drop n := by
    intro hp
    exact h (hp.isInfix.trans (List.drop_suffix n text).isInfix)
  rw [find, if_neg hn]
  rfl

/-- The group before a literal ends where the literal occurs last. -/
theorem find_group_lit {l x rest : Text} {ps : Pattern} {groups : List Text}
    (hline : '\n' ∉ x ++ l ++ rest) (hrest : find ps rest = some groups)
    (hlast : ∀ u w, u ++ l ++ w = x ++ l ++ rest → u.length ≤ x.length) :
    find (.group :: .lit l :: ps) (x ++ l ++ rest) = some (x :: groups) := by
  have hsplit : x ++ l ++ rest = x ++ (l ++ rest) := List.append_assoc x l rest
  rw [find, dots_of_line hline]
  apply greedy_eq_some (n := x.length)
  · simp [hsplit]
  · rw [hsplit, List.drop_left, List.take_left, find_lit_append, hrest]
    rfl
  · intro m hm hle
    have hnot : ¬ l <+: (x ++ l ++ rest).drop m := by
      rintro ⟨w, hw⟩
      have htext : (x ++ l ++ rest).take m ++ l ++ w = x ++ l ++ rest := by
        rw [List.append_assoc, hw, List.take_append_drop]
      have hlen := hlast _ w htext
      rw [List.length_take] at hlen
      omega
    rw [find, if_neg hnot]
    rfl

end Pattern

end Library
