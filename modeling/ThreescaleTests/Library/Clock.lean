import Mathlib.Algebra.Order.Floor.Ring
import Mathlib.Data.Rat.Floor
import ThreescaleTests.Library.Prog

/-!
# A clock

Programs that look at a clock and sleep. Time is in exact seconds since the start of
a minute, and a sleep takes what it was asked to take. Adding whole seconds moves the
second of the minute and keeps the fraction.
-/

namespace Library

structure Clock where
  now : ℚ

namespace Clock

def sleep (seconds : ℚ) : Prog Clock Unit :=
  ⟨fun clock =>
    if seconds < 0 then (.error (.valueError "sleep length must be non-negative"), clock)
    else (.ok (), ⟨clock.now + seconds⟩)⟩

def second (time : ℚ) : Int := ⌊time⌋ % 60

def minute (time : ℚ) : Int := ⌊time⌋ / 60

theorem sleep_run {seconds : ℚ} (h : 0 ≤ seconds) (clock : Clock) :
    (sleep seconds).run clock = (.ok (), ⟨clock.now + seconds⟩) := by
  rw [sleep]
  exact if_neg (not_lt.mpr h)

theorem sleep_int_run {seconds : Int} (h : 0 ≤ seconds) (clock : Clock) :
    (sleep seconds).run clock = (.ok (), ⟨clock.now + seconds⟩) :=
  sleep_run (Int.cast_nonneg h) clock

theorem second_lt (time : ℚ) : second time < 60 := Int.emod_lt_of_pos _ (by decide)

theorem second_add_int (time : ℚ) (seconds : Int) :
    second (time + seconds) = (second time + seconds) % 60 := by
  rw [second, second, Int.floor_add_intCast, Int.emod_add_emod]

theorem minute_add_int (time : ℚ) (seconds : Int) :
    minute (time + seconds) = minute time + (second time + seconds) / 60 := by
  rw [minute, minute, second, Int.floor_add_intCast]
  omega

end Clock

end Library
