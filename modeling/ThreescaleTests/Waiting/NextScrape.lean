import Mathlib.Algebra.Order.Floor.Ring
import Mathlib.Order.Bounds.Basic
import Mathlib.Tactic.Linarith
import ThreescaleTests.Library.Clock

/-!
# Waiting for the next scrape

The time of the next scrape is known from the last one and the interval between
scrapes. The wait takes the seconds of the time that is left, without its days: a time
that is over counts as almost a day, and a day does not count. An interval of a minute
or more cannot be read, and the last scrape is read to the second only, so that every
scrape appears to be up to a second earlier than it is.
-/

namespace ThreescaleTests.Waiting

open Library

/-! ## The targets of Prometheus -/

/-- An active target: the container among its labels, the moment `lastScrape` in seconds, and the
seconds that its discovered label `__scrape_interval__` stands for. -/
structure Target where
  container : Option String
  lastScrape : ℚ
  interval : Nat

def prometheusRefresh : Nat := 30

def secondOf (text : String) : Except Exn Nat :=
  let mismatch := Exn.valueError ("time data '" ++ text ++ "' does not match format '%Ss'")
  match text.toList with
  | [d, s] =>
      if d.isDigit ∧ s ∈ ['s', 'S'] then .ok (d.toNat - 48) else .error mismatch
  | [c, d, s] =>
      if c ∈ ['0', '1', '2', '3', '4', '5'] ∧ d.isDigit ∧ s ∈ ['s', 'S'] then
        .ok (10 * (c.toNat - 48) + (d.toNat - 48))
      else if c = '6' ∧ d ∈ ['0', '1'] ∧ s ∈ ['s', 'S'] then
        .error (.valueError "second must be in 0..59")
      else .error mismatch
  | _ => .error mismatch

variable (label : Nat → String)

/-- `_time_of_scrape`, where `label` is the text of an interval. -/
def timeOfScrape (targetContainer : String) : List Target → Except Exn (Option ℚ × Nat)
  | [] => .ok (none, prometheusRefresh)
  | target :: targets =>
      if target.container = some targetContainer then do
        let interval ← secondOf (label target.interval)
        -- the first 19 characters of the moment end with its whole seconds
        pure (some (⌊target.lastScrape⌋ : ℚ), interval)
      else timeOfScrape targetContainer targets

/-! ## The wait -/

/-- `(till - datetime.now(timezone.utc)).seconds`, and the sleep. -/
def sleepUntil (till : ℚ) : Prog Clock Unit := do
  let now ← Prog.gets Clock.now
  Clock.sleep (⌊till - now⌋ % 86400 : Int)

/-- `last_scrape + timedelta(seconds=scrape_interval * num + 2)` -/
def tillAfter (lastScrape after : ℚ) (interval : Nat) : Except Exn ℚ :=
  if interval = 0 then .error (.other "ZeroDivisionError")
  else .ok (lastScrape + (interval * ⌈(after - lastScrape) / interval⌉ + 2))

/-- `wait_on_next_scrape` until it polls, and whether it does. -/
def waitOnNextScrape (targets : List Target) (targetContainer : String) (after : ℚ) :
    Prog Clock Bool := do
  let (lastScrape, interval) ← Prog.lift (timeOfScrape label targetContainer targets)
  match lastScrape with
  | none => do
      sleepUntil (after + (interval + 2))
      pure true
  | some lastScrape =>
      if after < lastScrape then pure false
      else do
        let till ← Prog.lift (tillAfter lastScrape after interval)
        sleepUntil till
        pure true

/-! ## What is right -/

def targetOf (targets : List Target) (targetContainer : String) : Option Target :=
  targets.find? fun target => decide (target.container = some targetContainer)

/-- The next scrape, or the time when it should have been. -/
def Due (target : Option Target) (after due : ℚ) : Prop :=
  match target with
  | none => due = after + prometheusRefresh
  | some target =>
      IsLeast
        {time | (∃ n : Nat, time = target.lastScrape + n * target.interval) ∧ after ≤ time} due

/-- The seconds that dropping the fraction of the last scrape adds to the wait: an interval if the
scrape that is due appears to be before `after`, less one if the fraction reaches that of the
current time. -/
def moved (target : Option Target) (after due now : ℚ) : Int :=
  match target with
  | none => 0
  | some target =>
      let dropped := Int.fract target.lastScrape
      (if due - dropped < after then (target.interval : Int) else 0) -
        (if Int.fract now = 0 ∨ dropped < Int.fract now then 0 else 1)

/-- The sleep takes the time that is left, to the second. -/
def SleepsRight (targets : List Target) (targetContainer : String) (after now till : ℚ) : Prop :=
  ∃ polls clock, (waitOnNextScrape label targets targetContainer after).run ⟨now⟩ =
      (.ok polls, clock) ∧
    clock.now - now ≤ max 0 (till - now) ∧ max 0 (till - now) - 1 < clock.now - now

/-- Intervals as Prometheus writes them: below a minute in seconds, else with larger units. -/
structure WritesIntervals : Prop where
  seconds : ∀ n, n < 60 → label n = toString n ++ "s"
  larger : ∀ n, 60 ≤ n → ∃ unit ∈ (label n).toList, unit ∈ ['m', 'h', 'd', 'w', 'y']

variable {label}

/-! ## Reading the interval -/

theorem secondOf_seconds {n : Nat} (h : n < 60) : secondOf (toString n ++ "s") = .ok n := by
  have hall : ∀ n : Fin 60, secondOf (toString n.val ++ "s") = .ok n.val := by decide +kernel
  exact hall ⟨n, h⟩

/-- Only digits and the unit of seconds are read. -/
theorem secondOf_chars {text : String} {n : Nat} (h : secondOf text = .ok n) :
    ∀ c ∈ text.toList, c.isDigit = true ∨ c ∈ ['s', 'S'] := by
  have hdigit : ∀ c ∈ ['0', '1', '2', '3', '4', '5'], c.isDigit = true :=
    List.all_eq_true.mp rfl
  unfold secondOf at h
  simp only at h
  split at h
  case h_1 d s htext =>
    rw [htext]
    by_cases hread : d.isDigit = true ∧ s ∈ ['s', 'S']
    · have hd : d.isDigit = true ∨ d ∈ ['s', 'S'] := Or.inl hread.1
      have hs : s.isDigit = true ∨ s ∈ ['s', 'S'] := Or.inr hread.2
      exact List.forall_mem_cons.mpr ⟨hd, List.forall_mem_singleton.mpr hs⟩
    · rw [if_neg hread] at h
      cases h
  case h_2 c d s htext =>
    rw [htext]
    by_cases hread : c ∈ ['0', '1', '2', '3', '4', '5'] ∧ d.isDigit = true ∧ s ∈ ['s', 'S']
    · have hc : c.isDigit = true ∨ c ∈ ['s', 'S'] := Or.inl (hdigit c hread.1)
      have hd : d.isDigit = true ∨ d ∈ ['s', 'S'] := Or.inl hread.2.1
      have hs : s.isDigit = true ∨ s ∈ ['s', 'S'] := Or.inr hread.2.2
      exact List.forall_mem_cons.mpr
        ⟨hc, List.forall_mem_cons.mpr ⟨hd, List.forall_mem_singleton.mpr hs⟩⟩
    · rw [if_neg hread] at h
      split at h <;> cases h
  case h_3 => cases h

theorem secondOf_label_iff (h : WritesIntervals label) (n : Nat) :
    (∃ second, secondOf (label n) = .ok second) ↔ n < 60 := by
  constructor
  · intro hread
    rcases hread with ⟨second, hsecond⟩
    by_contra hlarge
    obtain ⟨unit, hunit, hlarger⟩ := h.larger n (Nat.not_lt.mp hlarge)
    have hsmall := secondOf_chars hsecond unit hunit
    simp only [List.mem_cons, List.not_mem_nil, or_false] at hlarger
    rcases hlarger with rfl | rfl | rfl | rfl | rfl <;> revert hsmall <;> decide
  · intro hsmall
    exact ⟨n, by rw [h.seconds n hsmall, secondOf_seconds hsmall]⟩

/-! ## The seconds of a time difference -/

/-- The seconds of a time that is `extra` seconds longer than the time left. -/
theorem seconds_right_iff (left : ℚ) {extra : Int} (hlow : -1 ≤ extra) (hhigh : extra < 86400) :
    ((((⌊left⌋ + extra) % 86400 : Int) : ℚ) ≤ max 0 left ∧
        max 0 left - 1 < (((⌊left⌋ + extra) % 86400 : Int) : ℚ)) ↔
      (0 ≤ left ∧ left < 86400 ∧ extra = 0) ∨ (left < 0 ∧ 86400 ∣ ⌊left⌋ + extra) := by
  have hfloor : ((((⌊left⌋ + extra) % 86400 : Int) : ℚ) ≤ max 0 left ∧
      max 0 left - 1 < (((⌊left⌋ + extra) % 86400 : Int) : ℚ)) ↔
        ⌊max 0 left⌋ = (⌊left⌋ + extra) % 86400 := by
    rw [Int.floor_eq_iff, sub_lt_iff_lt_add]
  have hnonneg : 0 ≤ left ↔ 0 ≤ ⌊left⌋ := Int.floor_nonneg.symm
  have hday : left < 86400 ↔ ⌊left⌋ < 86400 := by
    have hlt := Int.floor_lt (a := left) (z := 86400)
    exact_mod_cast hlt.symm
  rw [hfloor]
  rcases le_or_gt 0 left with hpos | hneg
  · rw [max_eq_right hpos]
    have hfloorPos := hnonneg.mp hpos
    simp only [hpos, not_lt.mpr hpos, hday, true_and, false_and, or_false]
    omega
  · rw [max_eq_left (le_of_lt hneg), Int.floor_zero]
    simp only [not_le.mpr hneg, hneg, false_and, true_and, false_or]
    omega

/-! ## The last scrape to the second -/

/-- Dropping the fraction of a moment takes a second off the whole seconds up to it, unless the
current time has the larger fraction or none. -/
theorem floor_cut_sub (moment now : ℚ) :
    ⌊(⌊moment⌋ : ℚ) - now⌋ =
      ⌊moment - now⌋ - if Int.fract now = 0 ∨ Int.fract moment < Int.fract now then 0 else 1 := by
  have hmoment : moment - now =
      ((⌊moment⌋ - ⌊now⌋ : Int) : ℚ) + (Int.fract moment - Int.fract now) := by
    rw [Int.fract, Int.fract]
    push_cast
    ring
  have hcut : (⌊moment⌋ : ℚ) - now = ((⌊moment⌋ - ⌊now⌋ : Int) : ℚ) + (-Int.fract now) := by
    rw [Int.fract]
    push_cast
    ring
  rw [hmoment, hcut, Int.floor_intCast_add, Int.floor_intCast_add]
  have hpos := Int.fract_nonneg now
  have hlt := Int.fract_lt_one now
  have hposMoment := Int.fract_nonneg moment
  have hltMoment := Int.fract_lt_one moment
  by_cases hwhole : Int.fract now = 0
  · have hzero : ⌊Int.fract moment - Int.fract now⌋ = 0 :=
      Int.floor_eq_zero_iff.mpr ⟨by linarith, by linarith⟩
    rw [if_pos (Or.inl hwhole), hzero, hwhole, neg_zero, Int.floor_zero, sub_zero]
  · have hbelow : ⌊-Int.fract now⌋ = -1 := by
      refine Int.floor_eq_iff.mpr ⟨by push_cast; linarith, ?_⟩
      have hne := lt_of_le_of_ne hpos (Ne.symm hwhole)
      push_cast
      linarith
    by_cases hsmaller : Int.fract moment < Int.fract now
    · have hdiff : ⌊Int.fract moment - Int.fract now⌋ = -1 :=
        Int.floor_eq_iff.mpr ⟨by push_cast; linarith, by push_cast; linarith⟩
      rw [if_pos (Or.inr hsmaller), hbelow, hdiff, sub_zero]
    · have hdiff : ⌊Int.fract moment - Int.fract now⌋ = 0 :=
        Int.floor_eq_zero_iff.mpr ⟨by linarith, by linarith⟩
      rw [if_neg (not_or.mpr ⟨hwhole, hsmaller⟩), hbelow, hdiff, add_sub_assoc, zero_sub]

/-- The scrape that appears to be due. -/
theorem cut_isLeast {lastScrape after due : ℚ} {interval : Nat} (hpos : 0 < interval)
    (hdue : IsLeast {time | (∃ n : Nat, time = lastScrape + n * interval) ∧ after ≤ time} due) :
    IsLeast {time | (∃ n : Nat, time = (⌊lastScrape⌋ : ℚ) + n * interval) ∧ after ≤ time}
      (due - Int.fract lastScrape +
        if due - Int.fract lastScrape < after then (interval : ℚ) else 0) := by
  have hfract := Int.floor_add_fract lastScrape
  have hdropped := Int.fract_nonneg lastScrape
  have hlt := Int.fract_lt_one lastScrape
  have hone : (1 : ℚ) ≤ interval := Nat.one_le_cast.mpr hpos
  obtain ⟨⟨⟨num, hnum⟩, hafter⟩, hleast⟩ := hdue
  by_cases hpassed : due - Int.fract lastScrape < after
  · rw [if_pos hpassed]
    constructor
    · refine ⟨⟨num + 1, ?_⟩, by linarith⟩
      push_cast
      linarith
    · rintro time ⟨⟨n, rfl⟩, hle⟩
      have hmore : (num : ℚ) * interval < n * interval := by linarith
      have hsucc : num + 1 ≤ n :=
        Nat.cast_lt.mp (lt_of_mul_lt_mul_right hmore (le_trans zero_le_one hone))
      have hmul : ((num : ℚ) + 1) * interval ≤ n * interval :=
        mul_le_mul_of_nonneg_right (by exact_mod_cast hsucc) (le_trans zero_le_one hone)
      linarith
  · rw [if_neg hpassed, add_zero]
    constructor
    · exact ⟨⟨num, by linarith⟩, not_lt.mp hpassed⟩
    · rintro time ⟨⟨n, rfl⟩, hle⟩
      have hdueLe := hleast ⟨⟨n, rfl⟩, by linarith⟩
      linarith

/-- The whole seconds up to the end of the wait, told by the scrape that is due. -/
theorem floor_moved (target : Target) (after due now : ℚ) (num : Nat)
    (hnum : due = target.lastScrape + num * target.interval) :
    ⌊due - Int.fract target.lastScrape +
        (if due - Int.fract target.lastScrape < after then (target.interval : ℚ) else 0) + 2 -
        now⌋ = ⌊due + 2 - now⌋ + moved (some target) after due now := by
  have hcut := floor_cut_sub target.lastScrape now
  have hdue : due + 2 - now =
      ((num * target.interval + 2 : Int) : ℚ) + (target.lastScrape - now) := by
    rw [hnum]
    push_cast
    ring
  have hend : due - Int.fract target.lastScrape +
        (if due - Int.fract target.lastScrape < after then (target.interval : ℚ) else 0) + 2 - now =
      ((num * target.interval + 2 +
        (if due - Int.fract target.lastScrape < after then (target.interval : Int) else 0) : Int) :
          ℚ) + ((⌊target.lastScrape⌋ : ℚ) - now) := by
    rw [hnum, Int.fract]
    split <;> push_cast <;> ring
  rw [hend, hdue, Int.floor_intCast_add, Int.floor_intCast_add, hcut, moved]
  ring

/-- The rounded number of intervals leads to the next scrape. -/
theorem tillAfter_eq {lastScrape after due : ℚ} {interval : Nat} (hpos : 0 < interval)
    (hlast : lastScrape ≤ after)
    (hdue : IsLeast {time | (∃ n : Nat, time = lastScrape + n * interval) ∧ after ≤ time} due) :
    tillAfter lastScrape after interval = .ok (due + 2) := by
  have hinterval : (0 : ℚ) < interval := Nat.cast_pos.mpr hpos
  have hnum : 0 ≤ ⌈(after - lastScrape) / interval⌉ :=
    Int.ceil_nonneg (div_nonneg (sub_nonneg.mpr hlast) (le_of_lt hinterval))
  have hleast : IsLeast {time | (∃ n : Nat, time = lastScrape + n * interval) ∧ after ≤ time}
      (lastScrape + interval * ⌈(after - lastScrape) / interval⌉) := by
    obtain ⟨num, hceil⟩ := Int.eq_ofNat_of_zero_le hnum
    constructor
    · refine ⟨⟨num, by rw [hceil, mul_comm]; rfl⟩, ?_⟩
      have hle := (div_le_iff₀ hinterval).mp (Int.le_ceil ((after - lastScrape) / interval))
      linarith
    · rintro time ⟨⟨n, rfl⟩, hafter⟩
      have hle : (after - lastScrape) / interval ≤ ((n : Int) : ℚ) := by
        rw [div_le_iff₀ hinterval]
        push_cast
        linarith
      have hceil : (⌈(after - lastScrape) / interval⌉ : ℚ) ≤ n := by
        exact_mod_cast Int.ceil_le.mpr hle
      have hmul := mul_le_mul_of_nonneg_left hceil (le_of_lt hinterval)
      linarith
  rw [tillAfter, if_neg (Nat.pos_iff_ne_zero.mp hpos), hdue.unique hleast, add_assoc]

/-! ## The wait for a target -/

section

variable {targetContainer : String} {targets : List Target}

theorem timeOfScrape_of_none (h : targetOf targets targetContainer = none) :
    timeOfScrape label targetContainer targets = .ok (none, prometheusRefresh) := by
  induction targets with
  | nil => rfl
  | cons target targets ih =>
      have hothers := List.find?_eq_none.mp h
      have hcontainer : target.container ≠ some targetContainer := by
        simpa using hothers target List.mem_cons_self
      rw [timeOfScrape, if_neg hcontainer]
      exact ih (List.find?_eq_none.mpr fun other hother =>
        hothers other (List.mem_cons_of_mem _ hother))

theorem timeOfScrape_of_some {target : Target}
    (h : targetOf targets targetContainer = some target) :
    timeOfScrape label targetContainer targets =
      (secondOf (label target.interval)).map fun interval =>
        (some (⌊target.lastScrape⌋ : ℚ), interval) := by
  induction targets with
  | nil => cases h
  | cons first targets ih =>
      rw [timeOfScrape]
      by_cases hcontainer : first.container = some targetContainer
      · rw [targetOf, List.find?_cons_of_pos (by simp [hcontainer])] at h
        cases h
        rw [if_pos hcontainer]
        cases secondOf (label target.interval) <;> rfl
      · rw [targetOf, List.find?_cons_of_neg (by simp [hcontainer])] at h
        rw [if_neg hcontainer]
        exact ih h

end

theorem sleepUntil_run (till now : ℚ) :
    (sleepUntil till).run ⟨now⟩ = (.ok (), ⟨now + (⌊till - now⌋ % 86400 : Int)⟩) := by
  rw [sleepUntil, Prog.gets_bind_run]
  exact Clock.sleep_int_run (Int.emod_nonneg _ (by decide)) ⟨now⟩

section

variable {targets : List Target} {targetContainer : String} {after due now : ℚ}

/-- Without a target the interval is the default one. -/
theorem waitOnNextScrape_of_none (htarget : targetOf targets targetContainer = none)
    (hdue : Due none after due) :
    (waitOnNextScrape label targets targetContainer after).run ⟨now⟩ =
      (.ok true, ⟨now + ((⌊due + 2 - now⌋ + moved none after due now) % 86400 : Int)⟩) := by
  have htill : after + ((prometheusRefresh : ℚ) + 2) = due + 2 := by
    rw [Due] at hdue
    rw [hdue, add_assoc]
  rw [waitOnNextScrape, Prog.lift_bind_of_ok (timeOfScrape_of_none htarget)]
  simp only [htill]
  rw [Prog.bind_of_ok (sleepUntil_run _ _), moved, add_zero]
  rfl

variable {target : Target} (htarget : targetOf targets targetContainer = some target)

include htarget

/-- The wait ends two seconds after the scrape appears to be due. -/
theorem waitOnNextScrape_of_some (hlabel : WritesIntervals label) (hread : target.interval < 60)
    (hpos : 0 < target.interval) (hlast : target.lastScrape ≤ after)
    (hdue : Due (some target) after due) :
    (waitOnNextScrape label targets targetContainer after).run ⟨now⟩ =
      (.ok true,
        ⟨now + ((⌊due + 2 - now⌋ + moved (some target) after due now) % 86400 : Int)⟩) := by
  have htime : timeOfScrape label targetContainer targets =
      .ok (some (⌊target.lastScrape⌋ : ℚ), target.interval) := by
    rw [timeOfScrape_of_some htarget, hlabel.seconds _ hread, secondOf_seconds hread]
    rfl
  have hcut : (⌊target.lastScrape⌋ : ℚ) ≤ after := le_trans (Int.floor_le _) hlast
  obtain ⟨num, hnum⟩ := hdue.1.1
  rw [waitOnNextScrape, Prog.lift_bind_of_ok htime]
  simp only
  rw [if_neg (not_lt.mpr hcut),
    Prog.lift_bind_of_ok (tillAfter_eq hpos hcut (cut_isLeast hpos hdue)),
    Prog.bind_of_ok (sleepUntil_run _ _), floor_moved target after due now num hnum]
  rfl

/-- An interval with larger units is not read. -/
theorem waitOnNextScrape_of_larger (hlabel : WritesIntervals label)
    (hlarge : 60 ≤ target.interval) : ∃ e,
    (waitOnNextScrape label targets targetContainer after).run ⟨now⟩ = (.error e, ⟨now⟩) := by
  cases hsecond : secondOf (label target.interval) with
  | ok second =>
      have hsmall := (secondOf_label_iff hlabel target.interval).mp ⟨second, hsecond⟩
      exact absurd hsmall (Nat.not_lt.mpr hlarge)
  | error e =>
      have htime : timeOfScrape label targetContainer targets = .error e := by
        rw [timeOfScrape_of_some htarget, hsecond]
        rfl
      exact ⟨e, by rw [waitOnNextScrape, Prog.lift_bind_of_error htime]⟩

end

section

variable {targets : List Target} {targetContainer : String} {after due now till : ℚ}

theorem waitOnNextScrape_run (hlabel : WritesIntervals label)
    (hread : ∀ target, targetOf targets targetContainer = some target → target.interval < 60)
    (hpos : ∀ target, targetOf targets targetContainer = some target → 0 < target.interval)
    (hlast : ∀ target, targetOf targets targetContainer = some target →
      target.lastScrape ≤ after)
    (hdue : Due (targetOf targets targetContainer) after due) :
    (waitOnNextScrape label targets targetContainer after).run ⟨now⟩ =
      (.ok true, ⟨now + ((⌊due + 2 - now⌋ +
        moved (targetOf targets targetContainer) after due now) % 86400 : Int)⟩) := by
  cases htarget : targetOf targets targetContainer with
  | none => exact waitOnNextScrape_of_none htarget (htarget ▸ hdue)
  | some target =>
      exact waitOnNextScrape_of_some htarget hlabel (hread target htarget) (hpos target htarget)
        (hlast target htarget) (htarget ▸ hdue)

/-- A wait that is right has read the interval. -/
theorem SleepsRight.interval_lt (hlabel : WritesIntervals label)
    (h : SleepsRight label targets targetContainer after now till) (target : Target)
    (htarget : targetOf targets targetContainer = some target) : target.interval < 60 := by
  by_contra hlarge
  have hfails : ∃ e, (waitOnNextScrape label targets targetContainer after).run ⟨now⟩ =
      (.error e, ⟨now⟩) := waitOnNextScrape_of_larger htarget hlabel (Nat.not_lt.mp hlarge)
  rcases hfails with ⟨e, hrun⟩
  rcases h with ⟨polls, clock, heq, -⟩
  cases hrun.symm.trans heq

end

/-- A scrape that is read to the second is less than a minute off. -/
theorem moved_bounds {target : Option Target}
    (hread : ∀ t, target = some t → t.interval < 60) (after due now : ℚ) :
    -1 ≤ moved target after due now ∧ moved target after due now < 86400 := by
  cases target with
  | none =>
      simp only [moved]
      omega
  | some target =>
      have hlt := hread target rfl
      simp only [moved]
      split <;> split <;> omega

/-- The wait is right exactly if the interval can be read and either less than a day is left and
the fraction of the last scrape moves nothing, or no time is left and the seconds come to
nothing. -/
theorem sleepsRight_iff (hlabel : WritesIntervals label) {targets : List Target}
    {targetContainer : String} {after due now : ℚ}
    (hpos : ∀ target, targetOf targets targetContainer = some target → 0 < target.interval)
    (hlast : ∀ target, targetOf targets targetContainer = some target →
      target.lastScrape ≤ after)
    (hdue : Due (targetOf targets targetContainer) after due) :
    SleepsRight label targets targetContainer after now (due + 2) ↔
      (∀ target, targetOf targets targetContainer = some target → target.interval < 60) ∧
        ((now ≤ due + 2 ∧ due + 2 - now < 86400 ∧
            moved (targetOf targets targetContainer) after due now = 0) ∨
          (due + 2 < now ∧
            86400 ∣ ⌊due + 2 - now⌋ + moved (targetOf targets targetContainer) after due now)) := by
  by_cases hread : ∀ target, targetOf targets targetContainer = some target → target.interval < 60
  · obtain ⟨hlow, hhigh⟩ := moved_bounds hread after due now
    have hright := seconds_right_iff (due + 2 - now) hlow hhigh
    rw [sub_nonneg, sub_neg] at hright
    rw [SleepsRight, waitOnNextScrape_run hlabel hread hpos hlast hdue, and_iff_right hread,
      ← hright]
    constructor
    · intro hright
      rcases hright with ⟨polls, clock, heq, hle, hlt⟩
      cases heq
      rw [add_sub_cancel_left] at hle hlt
      exact ⟨hle, hlt⟩
    · intro hright
      refine ⟨true, _, rfl, ?_, ?_⟩
      · rw [add_sub_cancel_left]
        exact hright.1
      · rw [add_sub_cancel_left]
        exact hright.2
  · exact iff_of_false (fun h => hread (h.interval_lt hlabel)) fun h => hread h.1

/-! ## Scrapes that are over, and scrapes between two seconds -/

/-- The texts of the intervals up to a minute. -/
def shortLabel (n : Nat) : String := if n < 60 then toString n ++ "s" else "1m"

theorem shortLabel_writes : WritesIntervals shortLabel where
  seconds := fun n h => if_pos h
  larger := by
    intro n h
    rw [shortLabel, if_neg (Nat.not_lt.mpr h)]
    exact ⟨'m', by decide, by decide⟩

/-- A listener that was scraped a part of a second after the start, and is scraped every so many
seconds. -/
def listener (lastScrape : ℚ) (interval : Nat) : Target :=
  ⟨some "backend-listener", lastScrape, interval⟩

theorem listener_due {lastScrape after : ℚ} (hlt : lastScrape < after)
    (hle : after ≤ lastScrape + 30) :
    Due (targetOf [listener lastScrape 30] "backend-listener") after (lastScrape + 30) := by
  have hdue : IsLeast {time : ℚ | (∃ n : Nat, time = lastScrape + n * (30 : Nat)) ∧ after ≤ time}
      (lastScrape + 30) := by
    constructor
    · exact ⟨⟨1, by norm_num⟩, hle⟩
    · rintro time ⟨⟨n, rfl⟩, hafter⟩
      have hpos : (1 : ℚ) ≤ n := by
        rcases Nat.eq_zero_or_pos n with rfl | hpos
        · rw [Nat.cast_zero, zero_mul, add_zero] at hafter
          exact absurd hlt (not_lt.mpr hafter)
        · exact_mod_cast hpos
      push_cast
      linarith
  exact hdue

theorem sleepsRight_iff_listener :
    SleepsRight shortLabel [listener (9 / 10) 30] "backend-listener" 10 12 (9 / 10 + 30 + 2) ↔
      (∀ target, targetOf [listener (9 / 10) 30] "backend-listener" = some target →
        target.interval < 60) ∧
        (((12 : ℚ) ≤ 9 / 10 + 30 + 2 ∧ (9 / 10 : ℚ) + 30 + 2 - 12 < 86400 ∧
            moved (targetOf [listener (9 / 10) 30] "backend-listener") 10 (9 / 10 + 30) 12 = 0) ∨
          ((9 / 10 : ℚ) + 30 + 2 < 12 ∧ 86400 ∣ ⌊(9 / 10 : ℚ) + 30 + 2 - 12⌋ +
            moved (targetOf [listener (9 / 10) 30] "backend-listener") 10 (9 / 10 + 30) 12)) := by
  refine sleepsRight_iff shortLabel_writes ?_ ?_ (listener_due (by norm_num) (by norm_num))
  · intro target h
    cases h
    decide
  · intro target h
    cases h
    exact (by norm_num : (9 / 10 : ℚ) ≤ 10)

/-- Eight seconds after the time the wait is almost a day, the wait for a scrape of which the
fraction is dropped is half a minute too long, and the interval of a minute is an error. -/
theorem not_sleepsRight :
    ¬ SleepsRight shortLabel [listener 0 30] "backend-listener" 10 40 (0 + 30 + 2) ∧
    ¬ SleepsRight shortLabel [listener (9 / 10) 30] "backend-listener" (61 / 2) (61 / 2)
      (9 / 10 + 30 + 2) ∧
    ¬ SleepsRight shortLabel [listener 0 60] "backend-listener" 10 12 (60 + 2) := by
  refine ⟨?_, ?_, ?_⟩
  · have hrun : (waitOnNextScrape shortLabel [listener 0 30] "backend-listener" 10).run ⟨40⟩ =
        (.ok true, ⟨40 + ((⌊(0 : ℚ) + 30 + 2 - 40⌋ +
          moved (some (listener 0 30)) 10 (0 + 30) 40) % 86400 : Int)⟩) :=
      waitOnNextScrape_of_some rfl shortLabel_writes (by decide) (by decide)
        (by norm_num [listener]) (listener_due (by norm_num) (by norm_num))
    have hseconds : (⌊(0 : ℚ) + 30 + 2 - 40⌋ +
        moved (some (listener 0 30)) 10 (0 + 30) 40) % 86400 = 86392 := by
      norm_num [moved, listener]
    intro hright
    rcases hright with ⟨polls, clock, heq, hle, -⟩
    rw [hrun, hseconds] at heq
    cases heq
    norm_num at hle
  · have hrun : (waitOnNextScrape shortLabel [listener (9 / 10) 30] "backend-listener"
        (61 / 2)).run ⟨61 / 2⟩ = (.ok true, ⟨61 / 2 + ((⌊(9 / 10 : ℚ) + 30 + 2 - 61 / 2⌋ +
          moved (some (listener (9 / 10) 30)) (61 / 2) (9 / 10 + 30) (61 / 2)) % 86400 : Int)⟩) :=
      waitOnNextScrape_of_some rfl shortLabel_writes (by decide) (by decide)
        (by norm_num [listener]) (listener_due (by norm_num) (by norm_num))
    have hseconds : (⌊(9 / 10 : ℚ) + 30 + 2 - 61 / 2⌋ +
        moved (some (listener (9 / 10) 30)) (61 / 2) (9 / 10 + 30) (61 / 2)) % 86400 = 31 := by
      norm_num [moved, listener, Int.fract]
    intro hright
    rcases hright with ⟨polls, clock, heq, hle, -⟩
    rw [hrun, hseconds] at heq
    cases heq
    norm_num at hle
  · intro hright
    have hlt : (listener 0 60).interval < 60 := hright.interval_lt shortLabel_writes _ rfl
    exact absurd hlt (Nat.lt_irrefl 60)

end ThreescaleTests.Waiting
