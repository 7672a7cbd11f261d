import Mathlib.Data.List.Induction
import Mathlib.Order.Basic

/-!
# Runs of a state machine

A run executes operations one after the other; an operation carries whatever its
environment decides. An invariant that every step preserves holds after every
run, and one that only certain steps preserve holds after the runs made of such
steps.
-/

namespace Library

section

variable {σ ω : Type*}

def run (step : ω → σ → σ) : List ω → σ → σ
  | [], s => s
  | o :: ops, s => run step ops (step o s)

/-- Every step of the run meets the condition in the state it starts from. -/
def EveryStep (step : ω → σ → σ) (ok : ω → σ → Prop) : List ω → σ → Prop
  | [], _ => True
  | o :: ops, s => ok o s ∧ EveryStep step ok ops (step o s)

variable {step : ω → σ → σ} {ok : ω → σ → Prop} {I : σ → Prop}

/-- Two conditions that are one in the states of an invariant, which they preserve. -/
theorem everyStep_iff {ok' : ω → σ → Prop} (hiff : ∀ o s, I s → (ok o s ↔ ok' o s))
    (hstep : ∀ o s, ok' o s → I s → I (step o s)) {ops : List ω} {s : σ} (hs : I s) :
    EveryStep step ok ops s ↔ EveryStep step ok' ops s := by
  induction ops generalizing s with
  | nil => exact Iff.rfl
  | cons o ops ih =>
      rw [EveryStep, EveryStep, hiff o s hs]
      exact and_congr_right fun hok => ih (hstep o s hok hs)

/-- What every step of the run preserves holds at its end. -/
theorem run_invariant_of_everyStep (hstep : ∀ o s, ok o s → I s → I (step o s)) {ops : List ω}
    {s : σ} (hops : EveryStep step ok ops s) (hs : I s) : I (run step ops s) := by
  induction ops generalizing s with
  | nil => exact hs
  | cons o ops ih => exact ih hops.2 (hstep o s hops.1 hs)

theorem run_invariant (hstep : ∀ o s, I s → I (step o s)) (ops : List ω) {s : σ} (hs : I s) :
    I (run step ops s) := by
  induction ops generalizing s with
  | nil => exact hs
  | cons o ops ih => exact ih (hstep o s hs)

theorem run_append (ops ops' : List ω) (s : σ) :
    run step (ops ++ ops') s = run step ops' (run step ops s) := by
  induction ops generalizing s with
  | nil => rfl
  | cons o ops ih => exact ih (step o s)

theorem run_concat (ops : List ω) (o : ω) (s : σ) :
    run step (ops ++ [o]) s = step o (run step ops s) := run_append ops [o] s

/-- What a step preserves may be told by the operations before it. -/
theorem run_history {H : List ω → σ → Prop} {s : σ} (hinit : H [] s)
    (hstep : ∀ ops o s, H ops s → H (ops ++ [o]) (step o s)) (ops : List ω) :
    H ops (run step ops s) := by
  induction ops using List.reverseRecOn with
  | nil => exact hinit
  | append_singleton ops o ih =>
      rw [run_concat]
      exact hstep ops o _ ih

end

end Library
