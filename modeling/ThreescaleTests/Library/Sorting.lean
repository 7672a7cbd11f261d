import Mathlib.Data.List.Pairwise
import Mathlib.Data.List.Sort
import Mathlib.Order.Basic

/-!
# Sorting by a key

Stable sorting of a list by the keys of its elements, in either direction. The first
element of a sorted list that passes a test is the extreme one among those that do,
and orders that agree on the elements sort them alike.
-/

namespace Library

section

variable {α κ ι : Type*}

def sortedBy [LE κ] [DecidableLE κ] (key : α → κ) (xs : List α) : List α :=
  xs.insertionSort fun a b => key a ≤ key b

/-- `sorted(xs, key=key, reverse=True)`, which keeps the order of equal keys as well. -/
def sortedByDesc [LE κ] [DecidableLE κ] (key : α → κ) (xs : List α) : List α :=
  xs.insertionSort fun a b => key b ≤ key a

theorem mem_sortedBy [LE κ] [DecidableLE κ] {key : α → κ} {xs : List α} {a : α} :
    a ∈ sortedBy key xs ↔ a ∈ xs :=
  List.mem_insertionSort _

theorem mem_sortedByDesc [LE κ] [DecidableLE κ] {key : α → κ} {xs : List α} {a : α} :
    a ∈ sortedByDesc key xs ↔ a ∈ xs :=
  List.mem_insertionSort _

variable [LinearOrder κ]

theorem pairwise_sortedBy (key : α → κ) (xs : List α) :
    (sortedBy key xs).Pairwise fun a b => key a ≤ key b := by
  have htotal : Std.Total fun a b : α => key a ≤ key b := ⟨fun a b => le_total (key a) (key b)⟩
  have htrans : IsTrans α fun a b => key a ≤ key b := ⟨fun _ _ _ => le_trans⟩
  exact List.pairwise_insertionSort _ xs

theorem pairwise_sortedByDesc (key : α → κ) (xs : List α) :
    (sortedByDesc key xs).Pairwise fun a b => key b ≤ key a := by
  have htotal : Std.Total fun a b : α => key b ≤ key a := ⟨fun a b => le_total (key b) (key a)⟩
  have htrans : IsTrans α fun a b => key b ≤ key a := ⟨fun _ _ _ h h' => le_trans h' h⟩
  exact List.pairwise_insertionSort _ xs

/-- Keys that are ordered alike sort alike. -/
theorem sortedBy_congr [LinearOrder ι] {key : α → κ} {key' : α → ι} {xs : List α}
    (h : ∀ a ∈ xs, ∀ b ∈ xs, key a ≤ key b ↔ key' a ≤ key' b) :
    sortedBy key xs = sortedBy key' xs := by
  have hmap := List.map_insertionSort (fun a b => key a ≤ key b) (fun a b => key' a ≤ key' b)
    id xs h
  rwa [List.map_id, List.map_id] at hmap

/-- In a list sorted in two ways, two elements come in an order that suits both. -/
theorem ordered_of_sortedBy_eq [LinearOrder ι] {key : α → κ} {key' : α → ι} {xs : List α}
    (h : sortedBy key xs = sortedBy key' xs) {a b : α} (ha : a ∈ xs) (hb : b ∈ xs) (hne : a ≠ b) :
    (key a ≤ key b ∧ key' a ≤ key' b) ∨ (key b ≤ key a ∧ key' b ≤ key' a) := by
  have hkey := pairwise_sortedBy key xs
  have hkey' := pairwise_sortedBy key' xs
  rw [← h] at hkey'
  have heither : (sortedBy key xs).Pairwise fun a b =>
      (key a ≤ key b ∧ key' a ≤ key' b) ∨ (key b ≤ key a ∧ key' b ≤ key' a) :=
    (hkey.and hkey').imp Or.inl
  have hsymm : Std.Symm fun a b =>
      (key a ≤ key b ∧ key' a ≤ key' b) ∨ (key b ≤ key a ∧ key' b ≤ key' a) :=
    ⟨fun _ _ => Or.symm⟩
  exact heither.forall (mem_sortedBy.mpr ha) (mem_sortedBy.mpr hb) hne

/-- The last element of a sorted list comes after all others. -/
theorem getLast?_last {r : α → α → Prop} {xs : List α} {a b : α} (hxs : xs.Pairwise r)
    (h : xs.getLast? = some a) (hb : b ∈ xs) : b = a ∨ r b a := by
  obtain ⟨before, rfl⟩ := List.getLast?_eq_some_iff.mp h
  rcases List.mem_append.mp hb with hb | hb
  · exact Or.inr ((List.pairwise_append.mp hxs).2.2 b hb a (List.mem_singleton_self a))
  · exact Or.inl (List.mem_singleton.mp hb)

/-- The first element that passes comes before all others that do. -/
theorem find?_first {r : α → α → Prop} {p : α → Bool} {xs : List α} {a : α}
    (hxs : xs.Pairwise r) (h : xs.find? p = some a) {b : α} (hb : b ∈ xs) (hp : p b = true) :
    b = a ∨ r a b := by
  obtain ⟨-, pre, post, rfl, hpre⟩ := List.find?_eq_some_iff_append.mp h
  rcases List.mem_append.mp hb with hb | hb
  · have hnot := hpre b hb
    rw [hp] at hnot
    cases hnot
  · rcases List.mem_cons.mp hb with rfl | hb
    · exact Or.inl rfl
    · have htail := (List.pairwise_append.mp hxs).2.1
      exact Or.inr ((List.pairwise_cons.mp htail).1 b hb)

end

end Library
