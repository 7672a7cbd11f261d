import ThreescaleTests.Library.Dict

/-!
# What was found is kept

A lookup that keeps what it finds, and asks again for what it did not find. What it asks
may answer differently every time.
-/

namespace Library.Memo

variable {κ α : Type} [DecidableEq κ]

/-- Give what is kept under the key, or ask and keep what is found. -/
def get (fetch : κ → Option α) (k : κ) (cache : Dict κ α) : Option α × Dict κ α :=
  match cache.get? k with
  | some a => (some a, cache)
  | none =>
      match fetch k with
      | some a => (some a, cache.set k a)
      | none => (none, cache)

/-- Nothing that was kept is given up. -/
def Extends (cache cache' : Dict κ α) : Prop :=
  ∀ k a, cache.get? k = some a → cache'.get? k = some a

theorem Extends.refl (cache : Dict κ α) : Extends cache cache := fun _ _ => id

theorem Extends.trans {cache cache' cache'' : Dict κ α} (h : Extends cache cache')
    (h' : Extends cache' cache'') : Extends cache cache'' := fun k a hk => h' k a (h k a hk)

section

variable {fetch : κ → Option α} {k : κ} {cache : Dict κ α}

theorem get_of_kept {a : α} (h : cache.get? k = some a) : get fetch k cache = (some a, cache) := by
  rw [get, h]

theorem get_of_found {a : α} (h : cache.get? k = none) (hfetch : fetch k = some a) :
    get fetch k cache = (some a, cache.set k a) := by
  simp only [get, h, hfetch]

theorem get_of_missing (h : cache.get? k = none) (hfetch : fetch k = none) :
    get fetch k cache = (none, cache) := by
  simp only [get, h, hfetch]

theorem get_extends : Extends cache (get fetch k cache).2 := by
  intro k' a' hk'
  cases h : cache.get? k with
  | some a => rwa [get_of_kept h]
  | none =>
      cases hfetch : fetch k with
      | none => rwa [get_of_missing h hfetch]
      | some a =>
          rw [get_of_found h hfetch, Dict.get?_set_of_ne _ _ fun heq => ?_]
          · exact hk'
          · rw [heq, h] at hk'
            cases hk'

/-- What is given is kept. -/
theorem kept_of_get {a : α} (h : (get fetch k cache).1 = some a) :
    (get fetch k cache).2.get? k = some a := by
  cases hk : cache.get? k with
  | some a' =>
      rw [get_of_kept hk] at h ⊢
      exact hk.trans h
  | none =>
      cases hfetch : fetch k with
      | none =>
          rw [get_of_missing hk hfetch] at h
          cases h
      | some a' =>
          rw [get_of_found hk hfetch] at h ⊢
          rw [Dict.get?_set_self]
          exact h

/-- What is kept was kept before, or was found now. -/
theorem get_cases {k' : κ} {a : α} (h : (get fetch k cache).2.get? k' = some a) :
    cache.get? k' = some a ∨ k' = k ∧ fetch k = some a := by
  cases hk : cache.get? k with
  | some a' =>
      rw [get_of_kept hk] at h
      exact .inl h
  | none =>
      cases hfetch : fetch k with
      | none =>
          rw [get_of_missing hk hfetch] at h
          exact .inl h
      | some a' =>
          rw [get_of_found hk hfetch] at h
          by_cases heq : k' = k
          · subst heq
            rw [Dict.get?_set_self] at h
            exact .inr ⟨rfl, h⟩
          · rw [Dict.get?_set_of_ne _ _ heq] at h
            exact .inl h

theorem get_fst : (get fetch k cache).1 = (cache.get? k).or (fetch k) := by
  cases hk : cache.get? k with
  | some a => rw [get_of_kept hk, Option.some_or]
  | none =>
      cases hfetch : fetch k with
      | none => rw [get_of_missing hk hfetch, Option.none_or]
      | some a => rw [get_of_found hk hfetch, Option.none_or]

end

end Library.Memo
