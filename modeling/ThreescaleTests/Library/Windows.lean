import Mathlib.Data.List.Nodup

/-!
# Windows of a list

The slice of a list that starts somewhere and has some length at most. Windows laid
end to end are a prefix of the list; in a list without repetition an element is in a
window exactly if its only position is.
-/

namespace Library

section

variable {α : Type*}

/-- `xs[start:start + size]` -/
def window (start size : Nat) (xs : List α) : List α := (xs.drop start).take size

theorem mem_window_iff {start size : Nat} {xs : List α} {x : α} :
    x ∈ window start size xs ↔ ∃ i, start ≤ i ∧ i < start + size ∧ xs[i]? = some x := by
  rw [window, List.mem_iff_getElem?]
  constructor
  · intro h
    obtain ⟨i, hi⟩ := h
    have hlt : i < size := by
      by_contra hge
      rw [List.getElem?_take, if_neg hge] at hi
      cases hi
    rw [List.getElem?_take, if_pos hlt, List.getElem?_drop] at hi
    exact ⟨start + i, by omega, by omega, hi⟩
  · intro h
    obtain ⟨i, hstart, hlt, hi⟩ := h
    refine ⟨i - start, ?_⟩
    rw [List.getElem?_take, if_pos (by omega), List.getElem?_drop]
    have heq : start + (i - start) = i := by omega
    rw [heq]
    exact hi

/-- Windows end to end. -/
theorem flatten_windows (size n : Nat) (xs : List α) :
    ((List.range n).map fun j => window (j * size) size xs).flatten = xs.take (n * size) := by
  induction n with
  | zero => simp
  | succ n ih =>
      rw [List.range_succ, List.map_append, List.flatten_append, ih, Nat.succ_mul, List.take_add]
      simp [window]

/-! ## The number of windows -/

/-- The number of windows that a list of some length needs. -/
def windows (length size : Nat) : Nat := (length + size - 1) / size

theorem length_le_windows_mul (length : Nat) {size : Nat} (h : 0 < size) :
    length ≤ windows length size * size := by
  have hdiv := Nat.div_add_mod (length + size - 1) size
  have hmod := Nat.mod_lt (length + size - 1) h
  have hcomm := Nat.mul_comm size ((length + size - 1) / size)
  rw [windows]
  omega

/-- Every window starts inside. -/
theorem mul_lt_of_lt_windows {length size j : Nat} (h : j < windows length size) :
    j * size < length := by
  rw [windows] at h
  have hsize : 0 < size := by
    by_contra hzero
    have hz : size = 0 := by omega
    rw [hz, Nat.div_zero] at h
    omega
  have hdiv := Nat.div_add_mod (length + size - 1) size
  have hle : size * (j + 1) ≤ size * ((length + size - 1) / size) := Nat.mul_le_mul_left size h
  rw [Nat.mul_comm size (j + 1), Nat.add_one_mul] at hle
  omega

/-- Every position that is a multiple of the size and inside is the start of a window. -/
theorem lt_windows_of_mul_lt {length size j : Nat} (h : j * size < length) (hsize : 0 < size) :
    j < windows length size := by
  have hle := length_le_windows_mul length hsize
  exact Nat.lt_of_mul_lt_mul_right (Nat.lt_of_lt_of_le h hle)

theorem windows_zero (size : Nat) : windows 0 size = 0 := by
  rw [windows]
  rcases Nat.eq_zero_or_pos size with hzero | hpos
  · rw [hzero, Nat.div_zero]
  · exact Nat.div_eq_of_lt (by omega)

/-- The windows have no room left exactly for a multiple of their size. -/
theorem windows_mul_eq_iff {length size : Nat} (h : 0 < size) :
    windows length size * size = length ↔ size ∣ length := by
  constructor
  · intro heq
    exact ⟨windows length size, by rw [Nat.mul_comm]; exact heq.symm⟩
  · intro hdvd
    obtain ⟨k, rfl⟩ := hdvd
    have hk : windows (size * k) size = k := by
      rw [windows, Nat.add_sub_assoc h, Nat.mul_add_div h]
      rw [Nat.div_eq_of_lt (by omega), Nat.add_zero]
    rw [hk, Nat.mul_comm]

end

end Library
