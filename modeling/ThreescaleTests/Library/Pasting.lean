import Mathlib.Data.List.Basic

/-!
# Rows over rows

An image is a list of rows, some of which are not painted yet. Rows are pasted over it
from some row on, and what does not fit is cut off. What is true of all pasted rows at
their places is true of the rows of the image, and a row is painted once something
reaches it.
-/

namespace Library

section

variable {α : Type*}

/-- Rows over an image, from a row on. -/
def paste (rows : List α) (offset : Nat) (image : List (Option α)) : List (Option α) :=
  image.mapIdx fun j old => if offset ≤ j then (rows[j - offset]?).or old else old

theorem length_paste (rows : List α) (offset : Nat) (image : List (Option α)) :
    (paste rows offset image).length = image.length :=
  List.length_mapIdx

theorem getElem?_paste (rows : List α) (offset : Nat) (image : List (Option α)) (j : Nat) :
    (paste rows offset image)[j]? =
      image[j]?.map fun old => if offset ≤ j then (rows[j - offset]?).or old else old :=
  List.getElem?_mapIdx

/-- A row of the image is one of the pasted rows, or what was there. -/
theorem paste_cases {rows : List α} {offset : Nat} {image : List (Option α)} {j : Nat} {row : α}
    (h : (paste rows offset image)[j]? = some (some row)) :
    (∃ i, j = offset + i ∧ rows[i]? = some row) ∨ image[j]? = some (some row) := by
  rw [getElem?_paste, Option.map_eq_some_iff] at h
  obtain ⟨old, hold, hrow⟩ := h
  by_cases hoffset : offset ≤ j
  · rw [if_pos hoffset, Option.or_eq_some_iff] at hrow
    rcases hrow with hrow | ⟨-, hrow⟩
    · exact Or.inl ⟨j - offset, by omega, hrow⟩
    · exact Or.inr (hrow ▸ hold)
  · rw [if_neg hoffset] at hrow
    exact Or.inr (hrow ▸ hold)

/-- A row that is reached is painted, and a painted one stays so. -/
theorem exists_getElem?_paste {rows : List α} {offset : Nat} {image : List (Option α)} {j : Nat}
    (hj : j < image.length)
    (h : (offset ≤ j ∧ j < offset + rows.length) ∨ ∃ row, image[j]? = some (some row)) :
    ∃ row, (paste rows offset image)[j]? = some (some row) := by
  rw [getElem?_paste]
  rcases h with hreached | ⟨row, hrow⟩
  · have hlt : j - offset < rows.length := by omega
    refine ⟨rows[j - offset], ?_⟩
    rw [List.getElem?_eq_getElem hj, Option.map_some, if_pos hreached.1,
      List.getElem?_eq_getElem hlt, Option.some_or]
  · rw [hrow, Option.map_some]
    by_cases hoffset : offset ≤ j
    · rw [if_pos hoffset]
      cases hpasted : rows[j - offset]? with
      | none => exact ⟨row, rfl⟩
      | some pasted => exact ⟨pasted, rfl⟩
    · rw [if_neg hoffset]
      exact ⟨row, rfl⟩

/-! ## Paste after paste -/

section

variable {β : Type*} {rows : β → List α} {offset : β → Nat} {parts : List β}
  {image : List (Option α)}

def pasteAll (rows : β → List α) (offset : β → Nat) (parts : List β) (image : List (Option α)) :
    List (Option α) :=
  parts.foldl (fun image part => paste (rows part) (offset part) image) image

theorem length_pasteAll : (pasteAll rows offset parts image).length = image.length := by
  induction parts generalizing image with
  | nil => rfl
  | cons part parts ih => exact ih.trans (length_paste _ _ _)

/-- What holds of every pasted row at its place, and of the image before, holds of the image. -/
theorem pasteAll_rows {P : Nat → α → Prop}
    (hrows : ∀ part ∈ parts, ∀ i row, (rows part)[i]? = some row → P (offset part + i) row)
    (himage : ∀ j row, image[j]? = some (some row) → P j row) {j : Nat} {row : α}
    (h : (pasteAll rows offset parts image)[j]? = some (some row)) : P j row := by
  induction parts generalizing image with
  | nil => exact himage j row h
  | cons part parts ih =>
      refine ih (fun part hpart => hrows part (List.mem_cons_of_mem _ hpart)) ?_ h
      intro k old hold
      rcases paste_cases hold with ⟨i, rfl, hpasted⟩ | hbefore
      · exact hrows part List.mem_cons_self i old hpasted
      · exact himage k old hbefore

/-- A row that one of the parts reaches is painted in the end. -/
theorem exists_getElem?_pasteAll {j : Nat} (hj : j < image.length)
    (h : (∃ part ∈ parts, offset part ≤ j ∧ j < offset part + (rows part).length) ∨
      ∃ row, image[j]? = some (some row)) :
    ∃ row, (pasteAll rows offset parts image)[j]? = some (some row) := by
  induction parts generalizing image with
  | nil =>
      rcases h with ⟨part, hpart, -⟩ | hpainted
      · cases hpart
      · exact hpainted
  | cons part parts ih =>
      refine ih ((length_paste _ _ _).symm ▸ hj) ?_
      rcases h with ⟨other, hother, hreached⟩ | hpainted
      · rcases List.mem_cons.mp hother with rfl | hother
        · exact Or.inr (exists_getElem?_paste hj (Or.inl hreached))
        · exact Or.inl ⟨other, hother, hreached⟩
      · exact Or.inr (exists_getElem?_paste hj (Or.inr hpainted))

end

end

end Library
