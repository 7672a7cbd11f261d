import ThreescaleTests.Library.Exn
import ThreescaleTests.Library.Sorting
import ThreescaleTests.Library.Strings

/-!
# Skipping with a warning

A test with a missing precondition is skipped with a warning, without one, or fails.
The section `warn_and_skip` of the settings chooses by the path of the test, and the
longest path that fits decides.
-/

namespace ThreescaleTests.Selection

open Library

/-- The exceptions of pytest that end a test. -/
inductive Outcome where
  | skipped (message : String)
  | failed (message : String)
deriving DecidableEq

structure Ending where
  warning : Option String
  outcome : Outcome
deriving DecidableEq

/-- `_warn_and_skip` -/
def perform (message action : String) : Ending where
  warning := if action ≠ "quiet" then some message else none
  outcome := if action = "warn" ∨ action = "quiet" then .skipped message else .failed message

/-- The loop of `warn_and_skip`; the first path that fits ends the test. -/
def warnAndSkipFrom (rules : Dict String String) (current message action : String) :
    List String → Except Exn Ending
  | [] => .ok (perform message action)
  | key :: keys =>
      if startsWith key current then do
        let ruled ← rules.getItem key
        pure (perform message ruled)
      else warnAndSkipFrom rules current message action keys

def skipRules (settings : Option (Dict String String)) : Dict String String :=
  settings.getD Dict.empty

/-- `warn_and_skip`, where `current` is the name of the test that runs. -/
def warnAndSkip (settings : Option (Dict String String)) (current message action : String) :
    Except Exn Ending :=
  warnAndSkipFrom (skipRules settings) current message action
    (sortedByDesc String.length (skipRules settings).keys)

/-- The action that the rules ask for: the one of the longest path that fits, if any does. -/
inductive Ruled (rules : Dict String String) (current action : String) : String → Prop where
  | longest {key ruled : String} (entry : rules.get? key = some ruled)
      (fits : startsWith key current = true)
      (longest : ∀ other ∈ rules.keys, startsWith other current = true →
        other.length ≤ key.length) : Ruled rules current action ruled
  | default (nothing : ∀ key ∈ rules.keys, startsWith key current = false) :
      Ruled rules current action action

/-! ## The first path is the longest -/

theorem warnAndSkipFrom_eq (rules : Dict String String) (current message action : String)
    (keys : List String) :
    warnAndSkipFrom rules current message action keys =
      match keys.find? fun key => startsWith key current with
      | none => .ok (perform message action)
      | some key => (rules.getItem key).map (perform message) := by
  induction keys with
  | nil => rfl
  | cons key keys ih =>
      rw [warnAndSkipFrom, List.find?_cons]
      cases startsWith key current with
      | false => exact ih
      | true =>
          cases hget : rules.getItem key with
          | error e => simp [hget, Except.map]
          | ok ruled => simp [hget, Except.map, pure, Except.pure]

/-- What is ruled is performed, for the first path that fits is the longest. -/
theorem exists_ruled (settings : Option (Dict String String)) (current message action : String) :
    ∃ ruled, Ruled (skipRules settings) current action ruled ∧
      warnAndSkip settings current message action = .ok (perform message ruled) := by
  rw [warnAndSkip, warnAndSkipFrom_eq]
  cases hfind : (sortedByDesc String.length (skipRules settings).keys).find? fun key =>
      startsWith key current with
  | none =>
      refine ⟨action, Ruled.default fun key hkey => ?_, rfl⟩
      exact Bool.eq_false_iff.mpr (List.find?_eq_none.mp hfind key (mem_sortedByDesc.mpr hkey))
  | some key =>
      have hkey : key ∈ (skipRules settings).keys :=
        mem_sortedByDesc.mp (List.mem_of_find?_eq_some hfind)
      obtain ⟨ruled, hruled⟩ := Dict.mem_keys_iff.mp hkey
      have hstarts : startsWith key current = true :=
        List.find?_some (p := fun key => startsWith key current) hfind
      refine ⟨ruled, Ruled.longest hruled hstarts ?_, ?_⟩
      · intro other hother hfits
        rcases find?_first (pairwise_sortedByDesc _ _) hfind (mem_sortedByDesc.mpr hother)
          hfits with rfl | hle
        · exact le_refl _
        · exact hle
      · simp only [getItem_eq_ok_iff.mpr hruled, Except.map]

/-! ## There is one such action -/

theorem eq_of_startsWith {key other current : String} (h : startsWith key current = true)
    (h' : startsWith other current = true) (hlength : key.length = other.length) : key = other := by
  rw [startsWith, decide_eq_true_eq] at h h'
  rw [← String.length_toList, ← String.length_toList] at hlength
  have hpart := List.prefix_of_prefix_length_le h h' (le_of_eq hlength)
  exact String.toList_inj.mp (hpart.eq_of_length hlength)

theorem Ruled.unique {rules : Dict String String} {current action ruled ruled' : String}
    (h : Ruled rules current action ruled) (h' : Ruled rules current action ruled') :
    ruled = ruled' := by
  cases h with
  | longest entry fits longest =>
      have hkey := Dict.mem_keys_iff.mpr ⟨_, entry⟩
      cases h' with
      | longest entry' fits' longest' =>
          have hkey' := Dict.mem_keys_iff.mpr ⟨_, entry'⟩
          have heq := eq_of_startsWith fits fits'
            (le_antisymm (longest' _ hkey fits) (longest _ hkey' fits'))
          rw [heq, entry'] at entry
          exact (Option.some.inj entry).symm
      | default nothing => cases fits.symm.trans (nothing _ hkey)
  | default nothing =>
      cases h' with
      | longest entry fits longest =>
          cases fits.symm.trans (nothing _ (Dict.mem_keys_iff.mpr ⟨_, entry⟩))
      | default nothing' => rfl

theorem Ruled.of_same {rules rules' : Dict String String} {current action ruled : String}
    (hsame : rules.Same rules') (h : Ruled rules current action ruled) :
    Ruled rules' current action ruled := by
  cases h with
  | longest entry fits longest =>
      refine Ruled.longest ((hsame _).symm.trans entry) fits fun other hother => ?_
      exact longest other ((hsame.mem_keys_iff other).mpr hother)
  | default nothing =>
      exact Ruled.default fun key hkey => nothing key ((hsame.mem_keys_iff key).mpr hkey)

example : warnAndSkip (some (.ofList [("testsuite/tests", "quiet"),
    ("testsuite/tests/prometheus", "fail")])) "testsuite/tests/prometheus/test_metrics.py"
    "no prometheus" "warn" = .ok ⟨some "no prometheus", .failed "no prometheus"⟩ := by
  decide

end ThreescaleTests.Selection
