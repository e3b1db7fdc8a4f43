import RadarFeed.Proofs.Decode.Guarded
import RadarFeed.Proofs.Time.Calendar

/-!
The clock of radar messages, over all days of 32 bits and all milliseconds of 64.

Times of one day are in the order of their milliseconds (`IsRadarTime.lt_iff`), and where a time is
read all earlier ones of its day are (`exists_time_lt`). `time_exact` says what becomes of any day
and milliseconds: the arithmetic stays within its bits, only day 0 and seconds beyond the calendar
are refused, and all else is exact to the millisecond.
-/

namespace RadarFeed

/-- No radar day is before the calendar. -/
theorem inCalendar_radarSeconds_iff {day millis : Nat} :
    Instant.InCalendar (radarSeconds day millis) ↔
      radarSeconds day millis ≤ Instant.maxSeconds := by
  rw [Instant.inCalendar_iff]
  exact and_iff_right (minSeconds_le_radarSeconds day millis)

/-- Times of one day are in the order of their milliseconds, also beyond the day. -/
theorem IsRadarTime.lt_iff {day earlier later : Nat} {s t : Instant}
    (hs : IsRadarTime day earlier s) (ht : IsRadarTime day later t) : s < t ↔ earlier < later := by
  obtain rfl := isRadarTime_iff.1 hs
  obtain rfl := isRadarTime_iff.1 ht
  rw [Instant.lt_def]
  simp only [radarSeconds]
  omega

namespace Bytes

theorem time_eq_ok_iff_isRadarTime {day millis : Nat} {t : Instant} :
    time day millis = .ok t ↔
      day ≠ 0 ∧ Instant.InCalendar (radarSeconds day millis) ∧ IsRadarTime day millis t := by
  rw [time_eq_ok_iff, inCalendar_radarSeconds_iff, isRadarTime_iff]

/-- Where a time is read, an earlier one of its day is. -/
theorem exists_time_lt {day earlier later : Nat} {t : Instant} (hlt : earlier < later)
    (h : time day later = .ok t) : ∃ s, time day earlier = .ok s ∧ s < t := by
  obtain ⟨hday, hrange, ht⟩ := time_eq_ok_iff_isRadarTime.1 h
  have hle : radarSeconds day earlier ≤ radarSeconds day later := by
    simp only [radarSeconds]
    omega
  have hrange : Instant.InCalendar (radarSeconds day earlier) := by
    rw [inCalendar_radarSeconds_iff] at hrange ⊢
    exact Int.le_trans hle hrange
  have hs : IsRadarTime day earlier _ := isRadarTime_iff.2 rfl
  exact ⟨_, time_eq_ok_iff_isRadarTime.2 ⟨hday, hrange, hs⟩, (hs.lt_iff ht).2 hlt⟩

/-- **The clock of radar messages is exact.** Whatever the day and the milliseconds, the guarded
arithmetic ends as the plain one does: no number overflows or loses bits. Day 0 is refused and else
only a second beyond the calendar; every other time is the midnight of its day and the milliseconds,
also where these exceed a day. More milliseconds are a later time, and a time within its day gives
back both numbers. -/
theorem time_exact (day : UInt32) (millis : UInt64) :
    let seconds := radarSeconds day.toNat millis.toNat
    Guarded.time day.toNat millis.toNat = Guarded.ofExcept (time day.toNat millis.toNat) ∧
      (∀ e, time day.toNat millis.toNat = .error e ↔
        (day = 0 ∧ .invalidField .day "0" = e) ∨
          (day ≠ 0 ∧ ¬ Instant.InCalendar seconds ∧
            .invalidField .time (toString seconds) = e)) ∧
      (∀ t, time day.toNat millis.toNat = .ok t ↔
        day ≠ 0 ∧ Instant.InCalendar seconds ∧ IsRadarTime day.toNat millis.toNat t) ∧
      (∀ later : UInt64, millis < later → ∀ t', time day.toNat later.toNat = .ok t' →
        ∃ t, time day.toNat millis.toNat = .ok t ∧ t < t') ∧
      ∀ t, time day.toNat millis.toNat = .ok t → millis < 86400000 →
        t.radarDay = day.toNat ∧ t.radarMillis = millis.toNat := by
  intro seconds
  have hzero : day.toNat = 0 ↔ day = 0 := by
    rw [← UInt32.toNat_inj]
    rfl
  refine ⟨Guarded.time_eq day.toNat_lt millis.toNat_lt, fun e => ?_, fun t => ?_, ?_, ?_⟩
  · rw [time_eq_error_iff, inCalendar_radarSeconds_iff, Int.not_le, hzero, Ne, hzero]
  · rw [time_eq_ok_iff_isRadarTime, Ne, hzero]
  · intro later hlt t' ht'
    exact exists_time_lt (UInt64.lt_iff_toNat_lt.1 hlt) ht'
  · intro t ht hmillis
    obtain ⟨-, -, htime⟩ := time_eq_ok_iff_isRadarTime.1 ht
    exact htime.radarDay (UInt64.lt_iff_toNat_lt.1 hmillis)

/-- The last millisecond of the calendar, by its own day and by the one before; the millisecond
after it; and the one before it. -/
theorem time_exact_of_last_day :
    let t : Instant := ⟨8210266876799, 999000000⟩
    time 95026237 86399999 = .ok t ∧ t.radarDay = 95026237 ∧ t.radarMillis = 86399999 ∧
      time 95026236 172799999 = .ok t ∧
      time 95026237 86400000 = .error (.invalidField .time "8210266876800") ∧
      ∃ s, time 95026237 86399998 = .ok s ∧ s < t := by
  intro t
  obtain ⟨-, -, hlast, -, hback⟩ := time_exact 95026237 86399999
  obtain ⟨-, -, hbefore, -⟩ := time_exact 95026236 172799999
  obtain ⟨-, herror, -⟩ := time_exact 95026237 86400000
  obtain ⟨-, -, -, hlater, -⟩ := time_exact 95026237 86399998
  have hcalendar : Instant.InCalendar 8210266876799 := Instant.inCalendar_iff.2 (by decide)
  have hbeyond : ¬ Instant.InCalendar 8210266876800 := by
    rw [Instant.inCalendar_iff]
    decide
  have ht := (hlast t).2 ⟨by decide, hcalendar, isRadarTime_iff.2 (by decide)⟩
  have ht' := (hbefore t).2 ⟨by decide, hcalendar, isRadarTime_iff.2 (by decide)⟩
  obtain ⟨hday, hmillis⟩ := hback t ht (by decide)
  refine ⟨ht, hday, hmillis, ht', ?_, hlater 86399999 (by decide) t ht⟩
  exact (herror _).2 (.inr ⟨by decide, hbeyond, rfl⟩)

end Bytes

end RadarFeed
