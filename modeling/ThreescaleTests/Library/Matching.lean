import Mathlib.Data.List.Forall2
import Mathlib.Data.List.Perm.Basic

/-!
# One-to-one matchings of two lists

`Matched R xs ys` says that some rearrangement of `ys` is related to `xs`
position by position: every member of either list has exactly one partner.
-/

namespace Library

/-- The members of `xs` and `ys` are in one-to-one correspondence along `R`. -/
def Matched {α β : Type*} (R : α → β → Prop) (xs : List α) (ys : List β) : Prop :=
  ∃ zs, zs.Perm ys ∧ List.Forall₂ R xs zs

namespace Matched

variable {α β γ : Type*} {R S : α → β → Prop}

theorem nil : Matched R [] [] := ⟨[], List.Perm.refl _, List.Forall₂.nil⟩

theorem perm_right {xs : List α} {ys ys' : List β} (h : Matched R xs ys) (hp : ys.Perm ys') :
    Matched R xs ys' := by
  obtain ⟨zs, hperm, hall⟩ := h
  exact ⟨zs, hperm.trans hp, hall⟩

/-- The first member of the left list has a partner, and the rest is still matched. -/
theorem exists_partner {x : α} {xs : List α} {ys : List β} (h : Matched R (x :: xs) ys) :
    ∃ y ys', ys.Perm (y :: ys') ∧ R x y ∧ Matched R xs ys' := by
  obtain ⟨zs, hperm, hall⟩ := h
  cases hall with
  | cons hxy hrest => exact ⟨_, _, hperm.symm, hxy, _, List.Perm.refl _, hrest⟩

theorem length_eq {xs : List α} {ys : List β} (h : Matched R xs ys) : xs.length = ys.length := by
  obtain ⟨zs, hperm, hall⟩ := h
  rw [hall.length_eq, hperm.length_eq]

/-- A matching along equal keys permutes the keys. -/
theorem map_perm {f : α → γ} {g : β → γ} (hR : ∀ x y, R x y → f x = g y) {xs : List α}
    {ys : List β} (h : Matched R xs ys) : (xs.map f).Perm (ys.map g) := by
  obtain ⟨zs, hperm, hall⟩ := h
  have heq : xs.map f = zs.map g := by
    induction hall generalizing ys with
    | nil => rfl
    | cons hxy _ ih => simp [hR _ _ hxy, ih (List.Perm.refl _)]
  rw [heq]
  exact hperm.map g

theorem forall_left {P : α → Prop} (hR : ∀ x y, R x y → P x) {xs : List α} {ys : List β}
    (h : Matched R xs ys) : ∀ x ∈ xs, P x := by
  obtain ⟨zs, hperm, hall⟩ := h
  clear hperm
  induction hall with
  | nil => simp
  | cons hxy _ ih =>
      rw [List.forall_mem_cons]
      exact ⟨hR _ _ hxy, ih⟩

/-- Pairs whose left members are `xs` and whose right members rearrange `ys` match the two. -/
theorem of_pairs {pairs : List (α × β)} {ys : List β} (hys : (pairs.map Prod.snd).Perm ys)
    (hR : ∀ p ∈ pairs, R p.1 p.2) : Matched R (pairs.map Prod.fst) ys := by
  refine ⟨pairs.map Prod.snd, hys, ?_⟩
  clear hys
  induction pairs with
  | nil => exact List.Forall₂.nil
  | cons p pairs ih =>
      rw [List.forall_mem_cons] at hR
      exact List.Forall₂.cons hR.1 (ih hR.2)

/-- Where keys are distinct, the member with the key of `x` is the partner of `x`. -/
theorem partner_of_key {f : α → γ} {g : β → γ} (hR : ∀ x y, R x y → f x = g y) {x : α}
    {xs : List α} {y : β} {ys : List β} (h : Matched R (x :: xs) (y :: ys))
    (hkey : f x = g y) (hnodup : ((y :: ys).map g).Nodup) : R x y ∧ Matched R xs ys := by
  obtain ⟨z, zs, hperm, hxz, hrest⟩ := h.exists_partner
  have hgz : g z = g y := (hR x z hxz).symm.trans hkey
  have hz : z = y := by
    have hmem : z ∈ y :: ys := hperm.mem_iff.mpr List.mem_cons_self
    rcases List.mem_cons.mp hmem with h | h
    · exact h
    · have hy : g y ∈ ys.map g := hgz ▸ List.mem_map_of_mem h
      exact absurd hy (List.nodup_cons.mp hnodup).1
  subst hz
  exact ⟨hxz, hrest.perm_right (List.Perm.cons_inv hperm).symm⟩

end Matched

end Library
