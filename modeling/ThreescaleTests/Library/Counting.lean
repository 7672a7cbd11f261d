import Mathlib.Data.List.Nodup
import Mathlib.Data.List.Perm.Subperm

/-!
# Counting up to what is free

A loop that counts while a number is taken ends at the least number that is not. Where
different numbers stand for different members of a list, one round more than the list
has members is enough.
-/

namespace Library

/-- `while p(n): n += 1`, for so many rounds at most -/
def countWhile (p : Nat → Bool) : Nat → Nat → Option Nat
  | 0, _ => none
  | rounds + 1, n => if p n then countWhile p rounds (n + 1) else some n

section

variable {p : Nat → Bool}

/-- The loop ends at the least number that is not taken. -/
theorem countWhile_spec {rounds n m : Nat} (h : countWhile p rounds n = some m) :
    n ≤ m ∧ p m = false ∧ ∀ k, n ≤ k → k < m → p k = true := by
  induction rounds generalizing n with
  | zero => cases h
  | succ rounds ih =>
      rw [countWhile] at h
      split at h
      · rename_i htaken
        obtain ⟨hle, hfree, hall⟩ := ih h
        refine ⟨by omega, hfree, fun k hn hk => ?_⟩
        by_cases hkn : k = n
        · exact hkn ▸ htaken
        · exact hall k (by omega) hk
      · rename_i hfree
        obtain rfl := Option.some.inj h
        exact ⟨Nat.le_refl n, by simpa using hfree, fun k hn hk => absurd hk (by omega)⟩

/-- Two loops that start at one number end at one number. -/
theorem countWhile_eq {rounds n m m' : Nat} (h : countWhile p rounds n = some m) (hn : n ≤ m')
    (hfree : p m' = false) (hall : ∀ k, n ≤ k → k < m' → p k = true) : m = m' := by
  obtain ⟨hle, hfree', hall'⟩ := countWhile_spec h
  rcases Nat.lt_trichotomy m m' with hlt | heq | hlt
  · exact absurd (hall m hle hlt) (by rw [hfree']; decide)
  · exact heq
  · exact absurd (hall' m' hn hlt) (by rw [hfree]; decide)

/-- If no number is given, all that were tried are taken. -/
theorem countWhile_eq_none {rounds n : Nat} (h : countWhile p rounds n = none) :
    ∀ k, n ≤ k → k < n + rounds → p k = true := by
  induction rounds generalizing n with
  | zero => exact fun k hn hk => absurd hk (by omega)
  | succ rounds ih =>
      rw [countWhile] at h
      split at h
      · rename_i htaken
        intro k hn hk
        by_cases hkn : k = n
        · exact hkn ▸ htaken
        · exact ih h k (by omega) (by omega)
      · cases h

/-- One round more than there are members. -/
theorem exists_countWhile {α : Type*} {name : Nat → α} (hname : Function.Injective name)
    {taken : List α} (htaken : ∀ k, p k = true → name k ∈ taken) (n : Nat) :
    ∃ m, countWhile p (taken.length + 1) n = some m := by
  by_contra hnone
  have hall := countWhile_eq_none (Option.eq_none_iff_forall_ne_some.mpr fun m hm =>
    hnone ⟨m, hm⟩)
  have hsubset : (List.range' n (taken.length + 1)).map name ⊆ taken := by
    intro member hmember
    obtain ⟨k, hk, rfl⟩ := List.mem_map.mp hmember
    rw [List.mem_range'_1] at hk
    exact htaken k (hall k hk.1 hk.2)
  have hnodup : ((List.range' n (taken.length + 1)).map name).Nodup :=
    List.Nodup.map hname List.nodup_range'
  have hlength := (List.subperm_of_subset hnodup hsubset).length_le
  rw [List.length_map, List.length_range'] at hlength
  omega

end

end Library
