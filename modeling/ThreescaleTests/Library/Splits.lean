import Mathlib.Data.List.Perm.Basic

/-!
# A list split in two

`Splits xs ys zs` says that every position of `xs` goes to exactly one of the two
lists, and that both keep the order of `xs`.
-/

namespace Library

inductive Splits {α : Type*} : List α → List α → List α → Prop
  | nil : Splits [] [] []
  | left (x : α) {xs ys zs : List α} : Splits xs ys zs → Splits (x :: xs) (x :: ys) zs
  | right (x : α) {xs ys zs : List α} : Splits xs ys zs → Splits (x :: xs) ys (x :: zs)

namespace Splits

variable {α : Type*}

theorem filter (p : α → Bool) (xs : List α) :
    Splits xs (xs.filter p) (xs.filter fun x => !p x) := by
  induction xs with
  | nil => exact nil
  | cons x xs ih =>
      cases hp : p x with
      | true =>
          rw [List.filter_cons_of_pos hp, List.filter_cons_of_neg (by simp [hp])]
          exact left x ih
      | false =>
          rw [List.filter_cons_of_neg (by simp [hp]), List.filter_cons_of_pos (by simp [hp])]
          exact right x ih

end Splits

end Library
