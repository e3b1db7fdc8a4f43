import Mathlib.Data.Int.Init
import Mathlib.Tactic.SplitIfs
import RadarFeed.Time.Civil

/-!
The days of the calendar, one after the other.

`Date.next` is the day after a date. Counted in this way from 1970-01-01, every date of the calendar
has one number (`Date.Numbered`), and it is the one that `Date.days` computes from year, month and
day (`numbered_iff`). A date has a greater number exactly if its year, or in one year its month, or
in one month its day is greater (`days_lt_days_iff`). The seconds that an instant can have are those
of the years that a date can have (`Instant.inCalendar_iff`).
-/

namespace RadarFeed.Date

variable {d e : Date} {n : Int} {y z : Int} {m k : Nat}

/-! ## Years and months -/

/-- The number of days of a year. -/
def yearLength (year : Int) : Nat :=
  if isLeap year then 366 else 365

theorem isLeap_iff : isLeap y = true ↔ y % 4 = 0 ∧ (y % 100 ≠ 0 ∨ y % 400 = 0) := by
  simp [isLeap, Int.fmod_eq_emod_of_nonneg]

theorem daysBeforeYear_eq (y : Int) : daysBeforeYear y =
    365 * (y - 1) + (y - 1) / 4 - (y - 1) / 100 + (y - 1) / 400 := by
  simp [daysBeforeYear, Int.fdiv_eq_ediv_of_nonneg]

theorem daysBeforeYear_succ (y : Int) :
    daysBeforeYear (y + 1) = daysBeforeYear y + yearLength y := by
  rw [daysBeforeYear_eq, daysBeforeYear_eq, yearLength]
  by_cases h : isLeap y = true
  · rw [if_pos h]
    rw [isLeap_iff] at h
    omega
  · rw [if_neg h]
    rw [isLeap_iff] at h
    omega

theorem daysBeforeYear_le (h : y ≤ z) : daysBeforeYear y ≤ daysBeforeYear z := by
  rw [daysBeforeYear_eq, daysBeforeYear_eq]
  omega

theorem daysBeforeMonth_succ (h : 1 ≤ m) :
    daysBeforeMonth y (m + 1) = daysBeforeMonth y m + daysInMonth y m := by
  cases m with
  | zero => omega
  | succ m => rfl

theorem daysBeforeMonth_le (h : m ≤ k) : daysBeforeMonth y m ≤ daysBeforeMonth y k := by
  induction k with
  | zero =>
    obtain rfl := Nat.le_zero.1 h
    exact Nat.le_refl _
  | succ k ih =>
    rcases Nat.lt_or_eq_of_le h with h | rfl
    · have hk := ih (Nat.le_of_lt_succ h)
      cases k with
      | zero => exact hk
      | succ k => exact Nat.le_add_right_of_le hk
    · exact Nat.le_refl _

theorem daysBeforeMonth_thirteen (y : Int) : daysBeforeMonth y 13 = yearLength y := by
  cases h : isLeap y <;> simp [daysBeforeMonth, daysInMonth, yearLength, h]

theorem isValid_iff : d.isValid = true ↔
    1 ≤ d.month ∧ d.month ≤ 12 ∧ 1 ≤ d.day ∧ d.day ≤ daysInMonth d.year d.month := by
  simp [isValid, and_assoc]

theorem daysInMonth_bounds (y : Int) (m : Nat) : 28 ≤ daysInMonth y m ∧ daysInMonth y m ≤ 31 := by
  unfold daysInMonth
  split
  · split <;> decide
  all_goals decide

/-! ## The order of dates -/

/-- The days of the year before a date. -/
def dayOfYear (d : Date) : Nat :=
  daysBeforeMonth d.year d.month + (d.day - 1)

theorem days_eq (d : Date) : d.days = daysBeforeYear d.year + dayOfYear d - epochDay := by
  rw [days, dayOfYear, Int.natCast_add, Int.add_assoc]

/-- The first days of the month after that of a date are not before it. -/
theorem dayOfYear_lt (h : d.isValid = true) :
    dayOfYear d < daysBeforeMonth d.year (d.month + 1) := by
  obtain ⟨hmonth, -, hday, hle⟩ := isValid_iff.1 h
  rw [dayOfYear, daysBeforeMonth_succ hmonth]
  omega

theorem dayOfYear_lt_yearLength (h : d.isValid = true) : dayOfYear d < yearLength d.year := by
  have hmonth : d.month + 1 ≤ 13 := Nat.succ_le_succ (isValid_iff.1 h).2.1
  calc dayOfYear d < daysBeforeMonth d.year (d.month + 1) := dayOfYear_lt h
    _ ≤ daysBeforeMonth d.year 13 := daysBeforeMonth_le hmonth
    _ = yearLength d.year := daysBeforeMonth_thirteen d.year

/-- A date comes before another one: its year does, or its month in one year, or its day in one
month. -/
def Before (d e : Date) : Prop :=
  d.year < e.year ∨ (d.year = e.year ∧ (d.month < e.month ∨ (d.month = e.month ∧ d.day < e.day)))

theorem before_trichotomy (d e : Date) : d.Before e ∨ d = e ∨ e.Before d := by
  have heq : d = e ↔ d.year = e.year ∧ d.month = e.month ∧ d.day = e.day := by
    cases d; cases e; simp
  rw [heq, Before, Before]
  omega

theorem days_lt_days (hd : d.isValid = true) (h : d.Before e) : d.days < e.days := by
  rw [days_eq, days_eq]
  rcases h with hyear | ⟨hyear, hmonth | ⟨hmonth, hday⟩⟩
  · have hlt := dayOfYear_lt_yearLength hd
    have hle : daysBeforeYear (d.year + 1) ≤ daysBeforeYear e.year := daysBeforeYear_le hyear
    rw [daysBeforeYear_succ] at hle
    omega
  · have hlt := dayOfYear_lt hd
    have hle : daysBeforeMonth d.year (d.month + 1) ≤ daysBeforeMonth d.year e.month :=
      daysBeforeMonth_le hmonth
    have hsame : dayOfYear e = daysBeforeMonth d.year e.month + (e.day - 1) := by
      rw [dayOfYear, hyear]
    rw [hyear] at hlt hle hsame ⊢
    omega
  · obtain ⟨-, -, hfirst, -⟩ := isValid_iff.1 hd
    simp only [dayOfYear, hyear, hmonth]
    omega

/-- Dates are in the order of their numbers. -/
theorem days_lt_days_iff (hd : d.isValid = true) (he : e.isValid = true) :
    d.days < e.days ↔ d.Before e := by
  refine ⟨fun h => ?_, days_lt_days hd⟩
  rcases before_trichotomy d e with hb | rfl | hb
  · exact hb
  · omega
  · have hlt := days_lt_days he hb
    omega

theorem eq_of_days_eq (hd : d.isValid = true) (he : e.isValid = true) (h : d.days = e.days) :
    d = e := by
  rcases before_trichotomy d e with hb | heq | hb
  · have hlt := days_lt_days hd hb
    omega
  · exact heq
  · have hlt := days_lt_days he hb
    omega

/-- A date lies in a year or after it if its number is not before the first of January. -/
theorem le_year_iff (hd : d.isValid = true) :
    y ≤ d.year ↔ daysBeforeYear y - epochDay ≤ d.days := by
  have hday := dayOfYear_lt_yearLength hd
  rw [days_eq]
  constructor
  · intro h
    have hle := daysBeforeYear_le h
    omega
  · intro h
    refine Int.not_lt.1 fun hlt => ?_
    have hle : daysBeforeYear (d.year + 1) ≤ daysBeforeYear y := daysBeforeYear_le hlt
    rw [daysBeforeYear_succ] at hle
    omega

/-! ## One day after the other -/

/-- The day after a date. -/
def next (d : Date) : Date :=
  if d.day < daysInMonth d.year d.month then ⟨d.year, d.month, d.day + 1⟩
  else if d.month < 12 then ⟨d.year, d.month + 1, 1⟩
  else ⟨d.year + 1, 1, 1⟩

theorem isValid_next (h : d.isValid = true) : d.next.isValid = true := by
  obtain ⟨hmonth, hmonth', hday, hday'⟩ := isValid_iff.1 h
  have hfirst : ∀ y m, 1 ≤ daysInMonth y m := fun y m =>
    Nat.le_trans (by decide) (daysInMonth_bounds y m).1
  unfold next
  split_ifs with hlast hyear
  · exact isValid_iff.2 ⟨hmonth, hmonth', Nat.le_add_left 1 _, hlast⟩
  · exact isValid_iff.2 ⟨Nat.le_add_left 1 _, hyear, Nat.le_refl 1, hfirst _ _⟩
  · exact isValid_iff.2 ⟨Nat.le_refl 1, Nat.le_add_left 1 11, Nat.le_refl 1, hfirst _ _⟩

/-- The next day has the next number. -/
theorem days_next (h : d.isValid = true) : d.next.days = d.days + 1 := by
  obtain ⟨hmonth, hmonth', hday, hday'⟩ := isValid_iff.1 h
  have hafter := daysBeforeMonth_succ (y := d.year) hmonth
  unfold next
  split_ifs with hlast hyear
  · simp only [days_eq, dayOfYear]
    omega
  · simp only [days_eq, dayOfYear, hafter]
    omega
  · -- the last day of December
    have hdecember : d.month = 12 := by omega
    have hlength : daysBeforeMonth d.year (d.month + 1) = yearLength d.year := by
      rw [hdecember]
      exact daysBeforeMonth_thirteen d.year
    have hsucc := daysBeforeYear_succ d.year
    have hjanuary : daysBeforeMonth (d.year + 1) 1 = 0 := rfl
    simp only [days_eq, dayOfYear, hjanuary]
    omega

/-- Every date is the day after one. -/
theorem exists_next_eq (h : d.isValid = true) : ∃ p : Date, p.isValid = true ∧ p.next = d := by
  obtain ⟨y, m, k⟩ := d
  obtain ⟨hmonth, hmonth', hday, hday'⟩ : 1 ≤ m ∧ m ≤ 12 ∧ 1 ≤ k ∧ k ≤ daysInMonth y m :=
    isValid_iff.1 h
  have hlast : ∀ y m, 1 ≤ daysInMonth y m := fun y m =>
    Nat.le_trans (by decide) (daysInMonth_bounds y m).1
  by_cases hfirst : k = 1
  · subst hfirst
    by_cases hjanuary : m = 1
    · subst hjanuary
      refine ⟨⟨y - 1, 12, 31⟩, isValid_iff.2 (by simp [daysInMonth]), ?_⟩
      simp [next, daysInMonth]
    · refine ⟨⟨y, m - 1, daysInMonth y (m - 1)⟩,
        isValid_iff.2 ⟨?_, ?_, hlast _ _, Nat.le_refl _⟩, ?_⟩
      · show 1 ≤ m - 1
        omega
      · show m - 1 ≤ 12
        omega
      · have hless : m - 1 < 12 := by omega
        simp [next, hless, Nat.sub_add_cancel hmonth]
  · refine ⟨⟨y, m, k - 1⟩, isValid_iff.2 ⟨hmonth, hmonth', ?_, ?_⟩, ?_⟩
    · show 1 ≤ k - 1
      omega
    · show k - 1 ≤ daysInMonth y m
      omega
    · have hless : k - 1 < daysInMonth y m := by omega
      simp [next, hless, Nat.sub_add_cancel hday]

/-- The dates of the calendar, numbered one after the other from 1970-01-01 on and back. -/
inductive Numbered : Int → Date → Prop
  | epoch : Numbered 0 ⟨1970, 1, 1⟩
  | next {n : Int} {d : Date} : Numbered n d → Numbered (n + 1) d.next
  | back {n : Int} {d : Date} : d.isValid = true → Numbered (n + 1) d.next → Numbered n d

theorem Numbered.days_eq (h : Numbered n d) : d.isValid = true ∧ d.days = n := by
  induction h with
  | epoch => decide
  | next _ ih => exact ⟨isValid_next ih.1, by rw [days_next ih.1, ih.2]⟩
  | back hd _ ih =>
    refine ⟨hd, ?_⟩
    have h := ih.2
    rw [days_next hd] at h
    omega

theorem exists_numbered (n : Int) : ∃ d, Numbered n d := by
  induction n using Int.induction_on with
  | zero => exact ⟨_, .epoch⟩
  | succ n ih =>
    obtain ⟨d, hd⟩ := ih
    exact ⟨d.next, hd.next⟩
  | pred n ih =>
    obtain ⟨d, hd⟩ := ih
    obtain ⟨p, hp, rfl⟩ := exists_next_eq hd.days_eq.1
    refine ⟨p, .back hp ?_⟩
    rwa [Int.sub_add_cancel]

/-- The number of a date is the one that is computed from its year, month and day. -/
theorem numbered_iff : Numbered n d ↔ d.isValid = true ∧ d.days = n := by
  refine ⟨Numbered.days_eq, ?_⟩
  rintro ⟨hd, rfl⟩
  obtain ⟨e, he⟩ := exists_numbered d.days
  obtain ⟨hvalid, hdays⟩ := he.days_eq
  obtain rfl := eq_of_days_eq hvalid hd hdays
  exact he

/-- The least and greatest second of an instant begin the first year and end the last. -/
theorem inRange_iff (hd : d.isValid = true) : d.inRange = true ↔
    Instant.minSeconds ≤ d.days * secondsPerDay ∧ d.days * secondsPerDay ≤ Instant.maxSeconds := by
  have hfirst : (daysBeforeYear (-262143) - epochDay) * secondsPerDay = Instant.minSeconds := by
    decide
  have hlast : (daysBeforeYear 262143 - epochDay) * secondsPerDay = Instant.maxSeconds + 1 := by
    decide
  have hleast := le_year_iff (y := -262143) hd
  have hmost := le_year_iff (y := 262143) hd
  simp only [inRange, Bool.and_eq_true, decide_eq_true_eq]
  rw [secondsPerDay] at *
  omega

end RadarFeed.Date

namespace RadarFeed.Instant

/-! ## Seconds of the calendar -/

/-- A count of seconds from 1970 lies on a date that an instant can have. -/
def InCalendar (seconds : Int) : Prop :=
  ∃ d : Date, Date.Numbered (seconds.fdiv secondsPerDay) d ∧ d.inRange = true

theorem inCalendar_iff {seconds : Int} :
    InCalendar seconds ↔ minSeconds ≤ seconds ∧ seconds ≤ maxSeconds := by
  have hday : seconds.fdiv secondsPerDay = seconds / secondsPerDay :=
    Int.fdiv_eq_ediv_of_nonneg _ (Int.natCast_nonneg _)
  -- a day is in range with all of its seconds
  have hbounds : minSeconds ≤ seconds / secondsPerDay * secondsPerDay ∧
      seconds / secondsPerDay * secondsPerDay ≤ maxSeconds ↔
      minSeconds ≤ seconds ∧ seconds ≤ maxSeconds := by
    rw [minSeconds, maxSeconds, secondsPerDay]
    omega
  rw [InCalendar, hday, ← hbounds]
  constructor
  · rintro ⟨d, hd, hrange⟩
    obtain ⟨hvalid, hdays⟩ := hd.days_eq
    rw [← hdays]
    exact (Date.inRange_iff hvalid).1 hrange
  · intro h
    obtain ⟨d, hd⟩ := Date.exists_numbered (seconds / secondsPerDay)
    obtain ⟨hvalid, hdays⟩ := hd.days_eq
    rw [← hdays] at h
    exact ⟨d, hd, (Date.inRange_iff hvalid).2 h⟩

end RadarFeed.Instant
