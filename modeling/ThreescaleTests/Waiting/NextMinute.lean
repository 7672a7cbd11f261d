import ThreescaleTests.Library.Clock

/-!
# Waiting for the next minute

The limits are counted by the minute, and requests are only sent within an interval
of seconds of it. `wait_until_next_minute` goes to the start of the next minute, which
is before that interval, and goes on to the interval only if it was called within it;
and then to the interval of the defaults.
-/

namespace ThreescaleTests.Waiting

open Library

def nowSecond : Prog Clock Int := Prog.gets fun clock => Clock.second clock.now

def waitInterval (minSec maxSec : Int) : Prog Clock Unit := do
  let seconds ← nowSecond
  if seconds < minSec ∨ seconds > maxSec then Clock.sleep ((60 - seconds + minSec) % 60 : Int)
  else pure ()

def waitUntilNextMinute (minSec maxSec : Int) : Prog Clock Unit := do
  let seconds ← nowSecond
  Clock.sleep (60 - seconds : Int)
  if minSec < seconds ∧ seconds < maxSec then waitInterval 15 45 else pure ()

/-! ## The start of the minute -/

/-- The start of the next minute, with the fraction of the second kept. -/
def nextMinute (start : ℚ) : ℚ := start + (60 - Clock.second start : Int)

theorem second_nextMinute (start : ℚ) : Clock.second (nextMinute start) = 0 := by
  rw [nextMinute, Clock.second_add_int]
  omega

theorem minute_nextMinute (start : ℚ) :
    Clock.minute (nextMinute start) = Clock.minute start + 1 := by
  rw [nextMinute, Clock.minute_add_int]
  omega

/-- At the start of a minute, `wait_interval` goes to the first second of the interval. -/
theorem waitInterval_run {minSec maxSec : Int} (hmin : 0 < minSec) (hlt : minSec < 60) {time : ℚ}
    (hstart : Clock.second time = 0) :
    (waitInterval minSec maxSec).run ⟨time⟩ = (.ok (), ⟨time + minSec⟩) := by
  have hnow : nowSecond.run ⟨time⟩ = (.ok 0, ⟨time⟩) := by
    rw [nowSecond, Prog.gets_run, hstart]
  have hsleep : (60 - 0 + minSec) % 60 = minSec := by omega
  rw [waitInterval, Prog.bind_of_ok hnow, if_pos (Or.inl hmin), hsleep]
  exact Clock.sleep_int_run (Int.le_of_lt hmin) ⟨time⟩

/-- The interval is waited for only from within it, and then from its default. -/
theorem waitUntilNextMinute_run (minSec maxSec : Int) (start : ℚ) :
    (waitUntilNextMinute minSec maxSec).run ⟨start⟩ =
      (.ok (), ⟨if minSec < Clock.second start ∧ Clock.second start < maxSec
        then nextMinute start + (15 : Int) else nextMinute start⟩) := by
  have hnow : nowSecond.run ⟨start⟩ = (.ok (Clock.second start), ⟨start⟩) := rfl
  have hlt := Clock.second_lt start
  have hsleep : (Clock.sleep (60 - Clock.second start : Int)).run ⟨start⟩ =
      (.ok (), ⟨nextMinute start⟩) := Clock.sleep_int_run (by omega) ⟨start⟩
  rw [waitUntilNextMinute, Prog.bind_of_ok hnow, Prog.bind_of_ok hsleep]
  by_cases hwithin : minSec < Clock.second start ∧ Clock.second start < maxSec
  · rw [if_pos hwithin, if_pos hwithin]
    exact waitInterval_run (by decide) (by decide) (second_nextMinute start)
  · rw [if_neg hwithin, if_neg hwithin]
    rfl

/-! ## The interval -/

/-- A later minute has begun, and requests are allowed. -/
def Lands (minSec maxSec : Int) (start finish : ℚ) : Prop :=
  Clock.minute start < Clock.minute finish ∧
    minSec ≤ Clock.second finish ∧ Clock.second finish ≤ maxSec

theorem lands_within_iff {minSec maxSec : Int} (start : ℚ) :
    Lands minSec maxSec start (nextMinute start + (15 : Int)) ↔ minSec ≤ 15 ∧ 15 ≤ maxSec := by
  rw [Lands, Clock.minute_add_int, Clock.second_add_int, second_nextMinute, minute_nextMinute]
  omega

theorem lands_outside_iff {minSec maxSec : Int} (hmin : 0 ≤ minSec) (hmax : minSec ≤ maxSec)
    (start : ℚ) : Lands minSec maxSec start (nextMinute start) ↔ minSec = 0 := by
  rw [Lands, second_nextMinute, minute_nextMinute]
  omega

/-- The wait lands exactly if it starts within an interval that has the default in it, or outside of
one that starts with the minute. -/
theorem lands_iff {minSec maxSec : Int} (hmin : 0 ≤ minSec) (hle : minSec ≤ maxSec) (start : ℚ) :
    (∃ clock, (waitUntilNextMinute minSec maxSec).run ⟨start⟩ = (.ok (), clock) ∧
      Lands minSec maxSec start clock.now) ↔
    if minSec < Clock.second start ∧ Clock.second start < maxSec then minSec ≤ 15 ∧ 15 ≤ maxSec
    else minSec = 0 := by
  rw [waitUntilNextMinute_run]
  simp only [Prod.mk.injEq, true_and, exists_eq_left']
  by_cases hwithin : minSec < Clock.second start ∧ Clock.second start < maxSec
  · rw [if_pos hwithin, if_pos hwithin, lands_within_iff]
  · rw [if_neg hwithin, if_neg hwithin, lands_outside_iff hmin hle]

/-! ## The defaults -/

theorem lands_iff_within :
    (∃ clock, (waitUntilNextMinute 15 45).run ⟨20⟩ = (.ok (), clock) ∧ Lands 15 45 20 clock.now) ↔
    if 15 < Clock.second 20 ∧ Clock.second 20 < 45 then (15 : Int) ≤ 15 ∧ (15 : Int) ≤ 45
    else (15 : Int) = 0 :=
  lands_iff (by decide) (by decide) 20

/-- From the fiftieth second on the wait ends with the next minute, where no requests are allowed;
within an interval of one's own it ends outside of it. -/
theorem not_lands :
    (¬ ∃ clock, (waitUntilNextMinute 15 45).run ⟨50⟩ = (.ok (), clock) ∧
      Lands 15 45 50 clock.now) ∧
    ¬ ∃ clock, (waitUntilNextMinute 20 40).run ⟨30⟩ = (.ok (), clock) ∧
      Lands 20 40 30 clock.now := by
  constructor
  · intro hwaits
    rcases hwaits with ⟨clock, hrun, hlands⟩
    rw [waitUntilNextMinute_run, if_neg (by decide)] at hrun
    cases hrun
    exact absurd ((lands_outside_iff (by decide) (by decide) 50).mp hlands) (by decide)
  · intro hwaits
    rcases hwaits with ⟨clock, hrun, hlands⟩
    rw [waitUntilNextMinute_run, if_pos (by decide)] at hrun
    cases hrun
    exact absurd ((lands_within_iff 30).mp hlands) (by decide)

end ThreescaleTests.Waiting
