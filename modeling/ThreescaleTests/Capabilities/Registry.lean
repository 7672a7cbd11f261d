import Mathlib.Data.Finset.Lattice.Fold
import ThreescaleTests.Library.Exn
import ThreescaleTests.Library.Run

/-!
# The capability registry

The registry runs a provider when a capability it declares is asked for the first
time, and answers later queries from what it has accumulated. Queries,
registrations and failing providers may interleave in any way: the answers are
those of a registry that evaluates every provider beforehand.
-/

namespace ThreescaleTests.Capabilities

open Library

variable {C P : Type} [DecidableEq C]

/-! ## The registry of the source -/

structure CapabilityRegistry (C P : Type) where
  providers : List (Finset C × P)
  discovered : Finset C
  capabilities : Finset C

def CapabilityRegistry.new : CapabilityRegistry C P := ⟨[], ∅, ∅⟩

def CapabilityRegistry.registerProvider (reg : CapabilityRegistry C P) (provider : P)
    (provides : Finset C) : CapabilityRegistry C P :=
  { reg with providers := reg.providers ++ [(provides, provider)] }

def CapabilityRegistry.findProvider (reg : CapabilityRegistry C P) (capability : C) :
    Option (Finset C × P) :=
  reg.providers.find? fun p => decide (capability ∈ p.1)

/-- A registry and, for the observer, the providers whose calls have returned. -/
structure Session (C P : Type) where
  registry : CapabilityRegistry C P
  evaluated : List P

/-- `__contains__`; `call` runs a provider. -/
def Session.contains (call : P → Except Exn (Finset C)) (item : C) (s : Session C P) :
    Except Exn Bool × Session C P :=
  if item ∈ s.registry.discovered then (.ok (decide (item ∈ s.registry.capabilities)), s)
  else
    match s.registry.findProvider item with
    -- `None` is unpacked into a pair before it could be compared with `None`
    | none => (.error .typeError, s)
    | some (capabilities, provider) =>
      match call provider with
      | .error e => (.error e, s)
      | .ok newCapabilities =>
        let reg := { s.registry with
          discovered := s.registry.discovered ∪ capabilities
          capabilities := s.registry.capabilities ∪ newCapabilities }
        (.ok (decide (item ∈ reg.capabilities)), ⟨reg, provider :: s.evaluated⟩)

/-! ## Families of providers -/

/-- What each provider declares and what it returns when it does not raise. -/
structure Family (C P : Type) where
  declared : P → Finset C
  result : P → Finset C
  result_subset : ∀ p, result p ⊆ declared p
  disjoint : ∀ p q, p ≠ q → Disjoint (declared p) (declared q)

/-- A call of a provider where `raises` says which providers fail this time. -/
def Family.call (fam : Family C P) (raises : P → Option Exn) (p : P) : Except Exn (Finset C) :=
  match raises p with
  | some e => .error e
  | none => .ok (fam.result p)

/-- Eager evaluation: whether any of the given providers returns the capability. -/
def Family.eager (fam : Family C P) (ps : List P) (item : C) : Bool :=
  ps.any fun p => decide (item ∈ fam.result p)

inductive Op (C P : Type) where
  | register (p : P)
  | query (item : C) (raises : P → Option Exn)

def step (fam : Family C P) : Op C P → Session C P → Session C P
  | .register p, s => { s with registry := s.registry.registerProvider p (fam.declared p) }
  | .query item raises, s => (s.contains (fam.call raises) item).2

def Session.start : Session C P := ⟨.new, []⟩

/-- The providers registered by the operations, in order. -/
def registered : List (Op C P) → List P
  | [] => []
  | .register p :: ops => p :: registered ops
  | .query _ _ :: ops => registered ops

/-! ## The invariant -/

/-- The accumulators are what the evaluated providers declared and returned. -/
structure Consistent (fam : Family C P) (s : Session C P) : Prop where
  providers : ∀ p ∈ s.registry.providers, p.1 = fam.declared p.2
  discovered : ∀ c, c ∈ s.registry.discovered ↔ ∃ p ∈ s.evaluated, c ∈ fam.declared p
  capabilities : ∀ c, c ∈ s.registry.capabilities ↔ ∃ p ∈ s.evaluated, c ∈ fam.result p
  nodup : s.evaluated.Nodup

omit [DecidableEq C] in
/-- Only one provider declares a capability. -/
theorem Family.declared_unique (fam : Family C P) {p q : P} {c : C} (hp : c ∈ fam.declared p)
    (hq : c ∈ fam.declared q) : p = q := by
  by_contra hne
  exact Finset.disjoint_left.mp (fam.disjoint p q hne) hp hq

omit [DecidableEq C] in
theorem start_consistent (fam : Family C P) : Consistent fam Session.start := by
  constructor <;> simp [Session.start, CapabilityRegistry.new]

omit [DecidableEq C] in
/-- Among the capabilities evaluated so far, a capability is present exactly if its own provider
returned it. -/
theorem Consistent.mem_capabilities_iff {fam : Family C P} {s : Session C P}
    (h : Consistent fam s) {p : P} {c : C} (hc : c ∈ fam.declared p)
    (hd : c ∈ s.registry.discovered) : c ∈ s.registry.capabilities ↔ c ∈ fam.result p := by
  rw [h.capabilities]
  constructor
  · intro hcap
    obtain ⟨q, _, hq⟩ := hcap
    exact fam.declared_unique hc (fam.result_subset q hq) ▸ hq
  · intro hp
    obtain ⟨q, hq, hcq⟩ := (h.discovered c).mp hd
    exact ⟨q, hq, fam.declared_unique hc hcq ▸ hp⟩

/-- The provider found for a capability is the one that declares it. -/
theorem Consistent.findProvider_eq {fam : Family C P} {s : Session C P} (h : Consistent fam s)
    {c : C} {found : Finset C × P} (hf : s.registry.findProvider c = some found) :
    found.1 = fam.declared found.2 ∧ c ∈ fam.declared found.2 := by
  have hmem := List.mem_of_find?_eq_some hf
  have hc : c ∈ found.1 := by simpa using List.find?_some hf
  have heq := h.providers found hmem
  exact ⟨heq, heq ▸ hc⟩

/-- A successful evaluation keeps the accumulators consistent: the provider is new, because a
capability it declares was not discovered. -/
theorem Consistent.evaluate {fam : Family C P} {s : Session C P} (h : Consistent fam s) {p : P}
    {c : C} (hc : c ∈ fam.declared p) (hd : c ∉ s.registry.discovered) :
    Consistent fam ⟨{ s.registry with
      discovered := s.registry.discovered ∪ fam.declared p
      capabilities := s.registry.capabilities ∪ fam.result p }, p :: s.evaluated⟩ where
  providers := h.providers
  discovered := by
    intro c'
    simp [h.discovered, or_comm]
  capabilities := by
    intro c'
    simp [h.capabilities, or_comm]
  nodup := by
    have hnew : p ∉ s.evaluated := fun hp => hd ((h.discovered c).mpr ⟨p, hp, hc⟩)
    exact List.nodup_cons.mpr ⟨hnew, h.nodup⟩

/-- What a query does: nothing but answer, raise without a change, or evaluate the provider that
declares the capability. -/
theorem contains_cases {fam : Family C P} {s : Session C P} (h : Consistent fam s)
    (raises : P → Option Exn) (item : C) :
    (item ∈ s.registry.discovered ∧
      s.contains (fam.call raises) item = (.ok (decide (item ∈ s.registry.capabilities)), s)) ∨
    (s.registry.findProvider item = none ∧
      s.contains (fam.call raises) item = (.error .typeError, s)) ∨
    (∃ p e, item ∈ fam.declared p ∧ raises p = some e ∧
      s.contains (fam.call raises) item = (.error e, s)) ∨
    (∃ p s', item ∈ fam.declared p ∧ item ∉ s.registry.discovered ∧
      s' = ⟨{ s.registry with
        discovered := s.registry.discovered ∪ fam.declared p
        capabilities := s.registry.capabilities ∪ fam.result p }, p :: s.evaluated⟩ ∧
      s.contains (fam.call raises) item =
        (.ok (decide (item ∈ s'.registry.capabilities)), s')) := by
  by_cases hd : item ∈ s.registry.discovered
  · left
    exact ⟨hd, if_pos hd⟩
  · right
    cases hf : s.registry.findProvider item with
    | none =>
        left
        exact ⟨rfl, by simp [Session.contains, hd, hf]⟩
    | some found =>
        right
        obtain ⟨hdecl, hitem⟩ := h.findProvider_eq hf
        cases hr : raises found.2 with
        | some e =>
            left
            exact ⟨found.2, e, hitem, hr, by simp [Session.contains, hd, hf, Family.call, hr]⟩
        | none =>
            right
            refine ⟨found.2, _, hitem, hd, rfl, ?_⟩
            simp [Session.contains, hd, hf, Family.call, hr, hdecl]

theorem step_consistent {fam : Family C P} (o : Op C P) (s : Session C P)
    (h : Consistent fam s) : Consistent fam (step fam o s) := by
  cases o with
  | register p =>
      refine ⟨fun q hq => ?_, h.discovered, h.capabilities, h.nodup⟩
      rcases List.mem_append.mp hq with hold | hnew
      · exact h.providers q hold
      · rw [List.mem_singleton.mp hnew]
  | query item raises =>
      have hstep : step fam (.query item raises) s = (s.contains (fam.call raises) item).2 := rfl
      rcases contains_cases h raises item with ⟨_, heq⟩ | ⟨_, heq⟩ | ⟨_, _, _, _, heq⟩ |
        ⟨p, s', hitem, hd, hs', heq⟩
      · rw [hstep, heq]
        exact h
      · rw [hstep, heq]
        exact h
      · rw [hstep, heq]
        exact h
      · rw [hstep, heq, hs']
        exact h.evaluate hitem hd

theorem run_consistent (fam : Family C P) (ops : List (Op C P)) :
    Consistent fam (run (step fam) ops Session.start) :=
  run_invariant step_consistent ops (start_consistent fam)

/-- Registered providers stay in the provider list, whatever is asked. -/
theorem step_providers (fam : Family C P) (o : Op C P) (s : Session C P) :
    (step fam o s).registry.providers =
      s.registry.providers ++ (registered [o]).map fun p => (fam.declared p, p) := by
  cases o with
  | register p => rfl
  | query item raises =>
      have hkeep : (s.contains (fam.call raises) item).2.registry.providers =
          s.registry.providers := by
        unfold Session.contains
        split
        · rfl
        · split
          · rfl
          · split <;> rfl
      simpa [step, registered] using hkeep

theorem run_providers (fam : Family C P) (ops : List (Op C P)) (s : Session C P) :
    (run (step fam) ops s).registry.providers =
      s.registry.providers ++ (registered ops).map fun p => (fam.declared p, p) := by
  induction ops generalizing s with
  | nil => simp [run, registered]
  | cons o ops ih =>
      rw [run, ih, step_providers, List.append_assoc, ← List.map_append]
      cases o <;> rfl

/-! ## The registry answers as if everything had been evaluated -/

/-- Eagerly, a declared capability is present exactly if the provider that declares it returned
it. -/
theorem eager_eq_decide (fam : Family C P) {ps : List P} {p : P} (hp : p ∈ ps) {item : C}
    (hitem : item ∈ fam.declared p) : fam.eager ps item = decide (item ∈ fam.result p) := by
  have hiff : (∃ q ∈ ps, item ∈ fam.result q) ↔ item ∈ fam.result p := by
    constructor
    · intro h
      obtain ⟨q, _, hq⟩ := h
      exact fam.declared_unique hitem (fam.result_subset q hq) ▸ hq
    · exact fun h => ⟨p, hp, h⟩
  rw [Bool.eq_iff_iff]
  simpa [Family.eager] using hiff

/-- A registered provider is found for what it declares. -/
theorem findProvider_isSome {fam : Family C P} {ops : List (Op C P)} {p : P}
    (hp : p ∈ registered ops) {item : C} (hitem : item ∈ fam.declared p) :
    (run (step fam) ops Session.start).registry.findProvider item ≠ none := by
  intro hnone
  have hmem : (fam.declared p, p) ∈ (run (step fam) ops Session.start).registry.providers := by
    rw [run_providers]
    exact List.mem_append_right _ (List.mem_map_of_mem hp)
  have hnot := List.find?_eq_none.mp hnone _ hmem
  simp [hitem] at hnot

/-- After any run a query about a declared capability gives the eager answer, unless the provider
that declares it raises now; then the registry is left as it was. No provider is evaluated
twice. -/
theorem registry_eager (fam : Family C P) (ops : List (Op C P)) :
    (run (step fam) ops Session.start).evaluated.Nodup ∧
    ∀ p ∈ registered ops, ∀ item ∈ fam.declared p,
      fam.eager (registered ops) item = decide (item ∈ fam.result p) ∧
      ∀ raises : P → Option Exn,
        let s := run (step fam) ops Session.start
        let answer := s.contains (fam.call raises) item
        answer.1 = .ok (decide (item ∈ fam.result p)) ∨
          ∃ e, raises p = some e ∧ answer = (.error e, s) := by
  have hinv := run_consistent fam ops
  refine ⟨hinv.nodup, fun p hp item hitem => ⟨eager_eq_decide fam hp hitem, fun raises => ?_⟩⟩
  rcases contains_cases hinv raises item with ⟨hd, heq⟩ | ⟨hnone, _⟩ | ⟨q, e, hq, hraises, heq⟩ |
    ⟨q, s', hq, hd, hs', heq⟩
  · left
    have hiff := hinv.mem_capabilities_iff hitem hd
    simp only [heq, hiff]
  · exact absurd hnone (findProvider_isSome hp hitem)
  · right
    exact ⟨e, fam.declared_unique hitem hq ▸ hraises, heq⟩
  · left
    have hinv' : Consistent fam s' := hs' ▸ hinv.evaluate hq hd
    have hdiscovered : item ∈ s'.registry.discovered :=
      (hinv'.discovered item).mpr ⟨q, by simp [hs'], hq⟩
    have hiff := hinv'.mem_capabilities_iff hitem hdiscovered
    simp only [heq, hiff]

/-- Two providers: the first finds nothing of what it declares, the second finds half. -/
def exampleFamily : Family Nat Bool where
  declared p := if p then {0} else {1, 2}
  result p := if p then ∅ else {2}
  result_subset := by decide
  disjoint := by decide

theorem registry_eager_retry :
    let s := run (step exampleFamily) [.register true, .register false,
      .query 2 (fun _ => some (.other "RuntimeError"))] Session.start
    let answer := s.contains (exampleFamily.call fun _ => none) 2
    answer.1 = .ok true ∨ ∃ e, none = some e ∧ answer = (.error e, s) :=
  ((registry_eager exampleFamily [.register true, .register false,
    .query 2 (fun _ => some (.other "RuntimeError"))]).2 false (by decide) 2 (by decide)).2
      fun _ => none

end ThreescaleTests.Capabilities
