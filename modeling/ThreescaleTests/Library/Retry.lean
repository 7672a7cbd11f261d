import ThreescaleTests.Library.Prog

/-!
# Handlers and retries

A handler takes over where a program raised, in the state that the program left. A
retried program is run again, in the state that the failed run left, for as long as it
raises an exception that is caught and there are retries to come.
-/

namespace Library.Prog

variable {σ α : Type}

def raise (e : Exn) : Prog σ α := lift (.error e)

/-- `try: m; except Exception as e: h(e)` -/
def handle (m : Prog σ α) (h : Exn → Prog σ α) : Prog σ α :=
  ⟨fun s =>
    match m.run s with
    | (.ok a, s') => (.ok a, s')
    | (.error e, s') => (h e).run s'⟩

/-- Run a program, and up to `n` times more while it raises what is caught. The last of
these exceptions is raised if every run fails. -/
def retry (caught : Exn → Bool) (m : Prog σ α) : Nat → Prog σ α
  | 0 => m
  | n + 1 => handle m fun e => if caught e then retry caught m n else raise e

/-- What comes after a run that raised `e`, with `n` runs to come. -/
def retryAfter (caught : Exn → Bool) (m : Prog σ α) (e : Exn) : Nat → Prog σ α
  | 0 => raise e
  | n + 1 => retry caught m n

/-- Run programs that are numbered from `k` on, the next one while one raises what is caught and
there are `n` to come. -/
def retryEach (caught : Exn → Bool) (m : Nat → Prog σ α) : Nat → Nat → Prog σ α
  | k, 0 => m k
  | k, n + 1 => handle (m k) fun e => if caught e then retryEach caught m (k + 1) n else raise e

/-! ## Stepping through a program -/

@[simp] theorem raise_run (e : Exn) (s : σ) : (raise e : Prog σ α).run s = (.error e, s) := rfl

theorem handle_of_ok {m : Prog σ α} {h : Exn → Prog σ α} {s s' : σ} {a : α}
    (hrun : m.run s = (.ok a, s')) : (handle m h).run s = (.ok a, s') := by
  simp only [handle, hrun]

theorem handle_of_error {m : Prog σ α} {h : Exn → Prog σ α} {s s' : σ} {e : Exn}
    (hrun : m.run s = (.error e, s')) : (handle m h).run s = (h e).run s' := by
  simp only [handle, hrun]

section

variable {caught : Exn → Bool} {m : Prog σ α} {s s' : σ} {e : Exn}

@[simp] theorem retryAfter_zero : retryAfter caught m e 0 = raise e := rfl

@[simp] theorem retryAfter_succ (n : Nat) : retryAfter caught m e (n + 1) = retry caught m n := rfl

theorem retry_of_ok {a : α} (hrun : m.run s = (.ok a, s')) (n : Nat) :
    (retry caught m n).run s = (.ok a, s') := by
  cases n with
  | zero => exact hrun
  | succ n => exact handle_of_ok hrun

theorem retry_of_uncaught (hrun : m.run s = (.error e, s')) (he : caught e = false) (n : Nat) :
    (retry caught m n).run s = (.error e, s') := by
  cases n with
  | zero => exact hrun
  | succ n => rw [retry, handle_of_error hrun, he, if_neg Bool.false_ne_true, raise_run]

theorem retry_of_caught (hrun : m.run s = (.error e, s')) (he : caught e = true) (n : Nat) :
    (retry caught m n).run s = (retryAfter caught m e n).run s' := by
  cases n with
  | zero => exact hrun
  | succ n => rw [retry, handle_of_error hrun, he, if_pos rfl, retryAfter_succ]

theorem retryEach_of_ok {m : Nat → Prog σ α} {k : Nat} {a : α} (hrun : (m k).run s = (.ok a, s'))
    (n : Nat) : (retryEach caught m k n).run s = (.ok a, s') := by
  cases n with
  | zero => exact hrun
  | succ n => exact handle_of_ok hrun

theorem retryEach_of_uncaught {m : Nat → Prog σ α} {k : Nat} (hrun : (m k).run s = (.error e, s'))
    (he : caught e = false) (n : Nat) : (retryEach caught m k n).run s = (.error e, s') := by
  cases n with
  | zero => exact hrun
  | succ n => rw [retryEach, handle_of_error hrun, he, if_neg Bool.false_ne_true, raise_run]

theorem retryEach_of_caught {m : Nat → Prog σ α} {k : Nat} (hrun : (m k).run s = (.error e, s'))
    (he : caught e = true) (n : Nat) :
    (retryEach caught m k (n + 1)).run s = (retryEach caught m (k + 1) n).run s' := by
  rw [retryEach, handle_of_error hrun, he, if_pos rfl]

end

/-! ## What a program may do -/

section

variable {R : σ → σ → Prop} {caught : Exn → Bool} {m : Prog σ α}

theorem Within.handle (htrans : ∀ s t u, R s t → R t u → R s u) {h : Exn → Prog σ α}
    (hm : Within R m) (hh : ∀ e, Within R (h e)) : Within R (Prog.handle m h) := by
  intro s
  rcases hm.run_cases s with ⟨e, t, hrun, hs⟩ | ⟨a, t, hrun, hs⟩
  · rw [handle_of_error hrun]
    exact htrans s t _ hs (hh e t)
  · rw [handle_of_ok hrun]
    exact hs

theorem Within.retry (hrefl : ∀ s, R s s) (htrans : ∀ s t u, R s t → R t u → R s u)
    (hm : Within R m) (n : Nat) : Within R (Prog.retry caught m n) := by
  induction n with
  | zero => exact hm
  | succ n ih =>
      refine Within.handle htrans hm fun e => ?_
      split
      · exact ih
      · exact Within.lift hrefl _

theorem Within.retryEach (hrefl : ∀ s, R s s) (htrans : ∀ s t u, R s t → R t u → R s u)
    {m : Nat → Prog σ α} (hm : ∀ k, Within R (m k)) (k n : Nat) :
    Within R (Prog.retryEach caught m k n) := by
  induction n generalizing k with
  | zero => exact hm k
  | succ n ih =>
      refine Within.handle htrans (hm k) fun e => ?_
      split
      · exact ih (k + 1)
      · exact Within.lift hrefl _

theorem Within.retryAfter (hrefl : ∀ s, R s s) (htrans : ∀ s t u, R s t → R t u → R s u)
    (hm : Within R m) (e : Exn) (n : Nat) : Within R (Prog.retryAfter caught m e n) := by
  cases n with
  | zero => exact Within.lift hrefl _
  | succ n => exact Within.retry hrefl htrans hm n

end

/-! ## How a retried program runs -/

/-- What holds of the last run, and holds of a run with the retries that follow it if it
holds of these, holds of the retried program. -/
theorem retry_induction {P : Nat → σ → Except Exn α → σ → Prop} {caught : Exn → Bool}
    {m : Prog σ α} (last : ∀ n s r s', m.run s = (r, s') →
      (n = 0 ∨ ∀ e, r = .error e → caught e = false) → P n s r s')
    (again : ∀ n s e s' r t, m.run s = (.error e, s') → caught e = true → P n s' r t →
      P (n + 1) s r t) (n : Nat) (s : σ) :
    P n s ((retry caught m n).run s).1 ((retry caught m n).run s).2 := by
  induction n generalizing s with
  | zero => exact last 0 s _ _ rfl (.inl rfl)
  | succ n ih =>
      cases hrun : m.run s with
      | mk r s' =>
          cases r with
          | ok a =>
              rw [retry_of_ok hrun]
              exact last (n + 1) s _ _ hrun (.inr fun e he => nomatch he)
          | error e =>
              by_cases he : caught e = true
              · rw [retry_of_caught hrun he, retryAfter_succ]
                exact again n s e s' _ _ hrun he (ih s')
              · rw [Bool.not_eq_true] at he
                rw [retry_of_uncaught hrun he]
                refine last (n + 1) s _ _ hrun (.inr fun e' he' => ?_)
                cases he'
                exact he

end Library.Prog
