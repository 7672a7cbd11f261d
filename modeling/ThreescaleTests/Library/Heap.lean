import Mathlib.Data.List.Basic

/-!
# A heap of mutable objects

Objects are allocated at fresh locations and shared by reference. `FrameExcept`
says that one location at most has changed among those that were there before.
-/

namespace Library

abbrev Loc := Nat

structure Heap (α : Type) where
  cells : List α

namespace Heap

variable {α : Type}

def size (h : Heap α) : Nat := h.cells.length

def read? (h : Heap α) (l : Loc) : Option α := h.cells[l]?

/-- Allocate at the location `h.size`. -/
def alloc (h : Heap α) (a : α) : Heap α := ⟨h.cells ++ [a]⟩

def write (h : Heap α) (l : Loc) (a : α) : Heap α := ⟨h.cells.set l a⟩

theorem read?_lt {h : Heap α} {l : Loc} {a : α} (hl : h.read? l = some a) : l < h.size :=
  (List.getElem?_eq_some_iff.mp hl).choose

theorem exists_read? {h : Heap α} {l : Loc} (hl : l < h.size) : ∃ a, h.read? l = some a :=
  ⟨_, List.getElem?_eq_getElem hl⟩

@[simp] theorem size_alloc (h : Heap α) (a : α) : (h.alloc a).size = h.size + 1 := by
  simp [size, alloc]

@[simp] theorem size_write (h : Heap α) (l : Loc) (a : α) : (h.write l a).size = h.size := by
  simp [size, write]

@[simp] theorem read?_alloc_self (h : Heap α) (a : α) : (h.alloc a).read? h.size = some a := by
  simp [read?, alloc, size]

theorem read?_alloc_of_lt {h : Heap α} {l : Loc} (hl : l < h.size) (a : α) :
    (h.alloc a).read? l = h.read? l := List.getElem?_append_left hl

theorem read?_write_self {h : Heap α} {l : Loc} (hl : l < h.size) (a : α) :
    (h.write l a).read? l = some a := List.getElem?_set_self hl

theorem read?_write_of_ne {h : Heap α} {l l' : Loc} (hne : l ≠ l') (a : α) :
    (h.write l a).read? l' = h.read? l' := List.getElem?_set_ne hne

theorem write_self {h : Heap α} {l : Loc} {a : α} (hl : h.read? l = some a) :
    h.write l a = h := by
  obtain ⟨hlt, rfl⟩ := List.getElem?_eq_some_iff.mp hl
  rw [write, List.set_getElem_self hlt]

/-! ## Frames -/

/-- Old locations hold what they held. -/
structure Extends (h h' : Heap α) : Prop where
  size_le : h.size ≤ h'.size
  same : ∀ l < h.size, h'.read? l = h.read? l

/-- Old locations other than `l` hold what they held. -/
structure FrameExcept (l : Loc) (h h' : Heap α) : Prop where
  size_le : h.size ≤ h'.size
  same : ∀ l' < h.size, l' ≠ l → h'.read? l' = h.read? l'

theorem Extends.refl (h : Heap α) : Extends h h := ⟨Nat.le_refl _, fun _ _ => rfl⟩

theorem Extends.trans {h h' h'' : Heap α} (hf : Extends h h') (hf' : Extends h' h'') :
    Extends h h'' := by
  refine ⟨Nat.le_trans hf.size_le hf'.size_le, fun l hl => ?_⟩
  rw [hf'.same l (Nat.lt_of_lt_of_le hl hf.size_le), hf.same l hl]

theorem Extends.alloc (h : Heap α) (a : α) : Extends h (h.alloc a) := by
  refine ⟨?_, fun l hl => read?_alloc_of_lt hl a⟩
  rw [size_alloc h a]
  omega

theorem Extends.read? {h h' : Heap α} (hf : Extends h h') {l : Loc} {a : α}
    (hl : h.read? l = some a) : h'.read? l = some a := by
  rw [hf.same l (read?_lt hl), hl]

theorem FrameExcept.trans {l : Loc} {h h' h'' : Heap α} (hf : FrameExcept l h h')
    (hf' : FrameExcept l h' h'') : FrameExcept l h h'' := by
  refine ⟨Nat.le_trans hf.size_le hf'.size_le, fun l' hl' hne => ?_⟩
  rw [hf'.same l' (Nat.lt_of_lt_of_le hl' hf.size_le) hne, hf.same l' hl' hne]

theorem FrameExcept.write (h : Heap α) (l : Loc) (a : α) : FrameExcept l h (h.write l a) := by
  refine ⟨?_, fun l' _ hne => read?_write_of_ne hne.symm a⟩
  exact Nat.le_of_eq (size_write h l a).symm

/-- A change confined to a location that was not there before is no change of the old heap. -/
theorem FrameExcept.extends {l : Loc} {h h' h'' : Heap α} (hf : Extends h h')
    (hf' : FrameExcept l h' h'') (hl : h.size ≤ l) : Extends h h'' := by
  refine ⟨Nat.le_trans hf.size_le hf'.size_le, fun l' hl' => ?_⟩
  have hne : l' ≠ l := by omega
  rw [hf'.same l' (Nat.lt_of_lt_of_le hl' hf.size_le) hne, hf.same l' hl']

end Heap

end Library
