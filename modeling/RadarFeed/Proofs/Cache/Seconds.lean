import RadarFeed.Proofs.Cache.Answers

/-!
One record for each second.

A record is held at its truncated time, so a cache has two records of one second exactly where two
files of that second have been stored of which one does not round (`crowded_run_iff`). Of the times
of radar messages those round that have whole seconds, or whose count of milliseconds, as one of
nanoseconds, is in range (`rounds_of_radarTime`).
-/

namespace RadarFeed

/-- A time of a radar message rounds if it has whole seconds or lies before 2262-04-11. -/
theorem Instant.rounds_of_radarTime {day millis : Nat} {t : Instant}
    (h : radarTime day millis = .ok t) :
    t.Rounds ↔ millis % 1000 = 0 ∨ ((day : Int) - 1) * 86400000 + millis ≤ 9223372036854 := by
  obtain ⟨hday, -, rfl⟩ := radarTime_eq_ok_iff.1 h
  have hwhole : IsWhole ⟨radarSeconds day millis, millis % 1000 * 1000000⟩ ↔
      millis % 1000 = 0 := by
    simp only [IsWhole, nanosPerSecond]
    omega
  have hstamp : hasStamp ⟨radarSeconds day millis, millis % 1000 * 1000000⟩ = true ↔
      ((day : Int) - 1) * 86400000 + millis ≤ 9223372036854 := by
    rw [hasStamp_iff, stamp]
    simp only [radarSeconds, nanosPerSecond]
    omega
  rw [Rounds, hwhole, hstamp, or_comm]

namespace Cache

variable {rs : List Record} {r s : Record}

/-- A cache holds two records that were observed within one second. -/
def Crowded (c : Cache) : Prop :=
  ∃ d ∈ c.records.entries, ∃ e ∈ c.records.entries,
    d.1 ≠ e.1 ∧ d.2.file.time.SameSecond e.2.file.time

/-- Records of two files of one second, of which one does not round. -/
structure Clash (r s : Record) : Prop where
  sameSecond : r.file.time.SameSecond s.file.time
  ne : r.file.time ≠ s.file.time
  unrounded : ¬ (r.file.time.Rounds ∧ s.file.time.Rounds)

theorem time_of_inserted {ops : List Operation} (h : r ∈ inserted ops) :
    r.time = r.file.time.truncate := by
  obtain ⟨op, -, hop⟩ := List.mem_filterMap.1 h
  cases op with
  | insert serial file =>
    rw [← Option.some.inj hop]
    rfl
  | _ => cases hop

theorem clash_iff (hr : r.time = r.file.time.truncate) (hs : s.time = s.file.time.truncate)
    (h : r.file.time.SameSecond s.file.time) : Clash r s ↔ r.time ≠ s.time := by
  rw [hr, hs, Ne, h.truncate_eq_iff, not_or]
  constructor
  · intro hc
    exact ⟨hc.ne, hc.unrounded⟩
  · rintro ⟨hne, hn⟩
    exact ⟨h, hne, hn⟩

/-- What is held at the time of a record was observed within the second of that record. -/
theorem exists_held (htime : ∀ x ∈ rs, x.time = x.file.time.truncate) (h : r ∈ rs) :
    ∃ x, (r.time, x) ∈ (empty.insertAll rs).records.entries ∧
      x.file.time.SameSecond r.file.time := by
  have hmem : r.time ∈ (empty.insertAll rs).times := mem_times_insertAll.2 ⟨r, h, rfl⟩
  obtain ⟨⟨t, x⟩, he, rfl⟩ := List.mem_map.1 hmem
  obtain ⟨hx, hfirst⟩ := mem_insertAll.1 he
  have htr : x.file.time.truncate = r.file.time.truncate := by
    rw [← htime x hfirst.mem, ← htime r h]
    exact hx
  refine ⟨x, he, ?_⟩
  have hsx := Instant.truncate_sameSecond x.file.time
  have hsr := Instant.truncate_sameSecond r.file.time
  rw [htr] at hsx
  exact ⟨hsx.1.symm.trans hsr.1, hsx.2.symm.trans hsr.2⟩

theorem crowded_insertAll_iff (htime : ∀ x ∈ rs, x.time = x.file.time.truncate) :
    (empty.insertAll rs).Crowded ↔ ∃ r ∈ rs, ∃ s ∈ rs, Clash r s := by
  constructor
  · rintro ⟨⟨t, r⟩, hr, ⟨u, s⟩, hs, hne, hsame⟩
    obtain ⟨rfl, hfr⟩ := mem_insertAll.1 hr
    obtain ⟨rfl, hfs⟩ := mem_insertAll.1 hs
    have hc : Clash r s := (clash_iff (htime r hfr.mem) (htime s hfs.mem) hsame).2 hne
    exact ⟨r, hfr.mem, s, hfs.mem, hc⟩
  · rintro ⟨r, hr, s, hs, hc⟩
    have hne := (clash_iff (htime r hr) (htime s hs) hc.sameSecond).1 hc
    obtain ⟨x, hx, hxr⟩ := exists_held htime hr
    obtain ⟨y, hy, hys⟩ := exists_held htime hs
    have hsame := hc.sameSecond
    exact ⟨_, hx, _, hy, hne, hxr.1.trans (hsame.1.trans hys.1.symm),
      hxr.2.trans (hsame.2.trans hys.2.symm)⟩

theorem crowded_run_iff (ops : List Operation) :
    (run ops).Crowded ↔ ∃ r ∈ inserted ops, ∃ s ∈ inserted ops, Clash r s := by
  rw [run_eq_insertAll]
  exact crowded_insertAll_iff fun x hx => time_of_inserted hx

open Instant in
/-- **Keys are whole seconds where times round.** Truncation is idempotent, and gives the last
beginning of a second not after a time exactly if the time rounds. It keeps the order, but for a
time that does not round and a later one of its second that does; from 1970 on there are none such.
After any operations a cache holds two records of one second exactly if two files that clash have
been stored. A time of a radar message rounds if it has whole seconds or its count of nanoseconds is
in range. -/
theorem one_record_each_second_iff (t : Instant) (ops : List Operation) :
    (IsGreatest {w | w.IsWhole ∧ w ≤ t} t.truncate ↔ t.Rounds) ∧
    t.truncate.truncate = t.truncate ∧
    (∀ k : Instant, k ≤ t →
      (k.truncate ≤ t.truncate ↔ ¬ (k.SameSecond t ∧ ¬ k.Rounds ∧ t.Rounds))) ∧
    (∀ k : Instant, epoch ≤ k → k ≤ t → k.truncate ≤ t.truncate) ∧
    ((run ops).Crowded ↔ ∃ r ∈ inserted ops, ∃ s ∈ inserted ops, Clash r s) ∧
    ∀ day millis, radarTime day millis = .ok t →
      (t.Rounds ↔ millis % 1000 = 0 ∨ ((day : Int) - 1) * 86400000 + millis ≤ 9223372036854) :=
  ⟨isGreatest_truncate_iff, truncate_truncate t, fun _ => truncate_le_truncate_iff,
    fun _ => truncate_le_truncate, crowded_run_iff ops, fun _ _ => rounds_of_radarTime⟩

/-- A product of a time. -/
def fileOf (t : Instant) : RadarFile :=
  .level3 { (default : Level3Product) with time := t }

open Instant in
/-- Two times of 2024 and one of 2262. -/
theorem one_record_each_second_of_three :
    truncate ⟨1714564800, 500000000⟩ ≤ truncate ⟨1714564800, 900000000⟩ ∧
      ¬ (SameSecond ⟨1714564800, 500000000⟩ ⟨1714564800, 900000000⟩ ∧
        ¬ Rounds ⟨1714564800, 500000000⟩ ∧ Rounds ⟨1714564800, 900000000⟩) ∧
      radarTime 106752 85637500 = .ok ⟨9223372037, 500000000⟩ ∧
      ¬ Rounds ⟨9223372037, 500000000⟩ := by
  obtain ⟨-, -, hiff, hle, -⟩ := one_record_each_second_iff ⟨1714564800, 900000000⟩ []
  obtain ⟨-, -, -, -, -, hrounds⟩ := one_record_each_second_iff ⟨9223372037, 500000000⟩ []
  have hlow : epoch ≤ ⟨1714564800, 500000000⟩ := by decide
  have hkt : (⟨1714564800, 500000000⟩ : Instant) ≤ ⟨1714564800, 900000000⟩ := by decide
  have htrunc := hle _ hlow hkt
  have hok : radarTime 106752 85637500 = .ok ⟨9223372037, 500000000⟩ := by rfl
  refine ⟨htrunc, (hiff _ hkt).1 htrunc, hok, ?_⟩
  rw [hrounds _ _ hok]
  decide

open Instant in
/-- Two volumes of one second of 2262: neither is truncated, and the cache holds both. -/
theorem crowded_beyond_nanosecond_counts :
    radarTime 106752 85637500 = .ok ⟨9223372037, 500000000⟩ ∧
      radarTime 106752 85637900 = .ok ⟨9223372037, 900000000⟩ ∧
      ¬ IsGreatest {w | w.IsWhole ∧ w ≤ ⟨9223372037, 500000000⟩}
        (truncate ⟨9223372037, 500000000⟩) ∧
      (run [.insert 0 (fileOf ⟨9223372037, 500000000⟩),
        .insert 1 (fileOf ⟨9223372037, 900000000⟩)]).Crowded := by
  refine ⟨by rfl, by rfl, ?_, ?_⟩
  · rintro ⟨⟨hw, -⟩, -⟩
    revert hw
    show ¬ 500000000 % nanosPerSecond = 0
    decide
  · exact ⟨_, .head _, _, .tail _ (.head _), by decide, rfl, rfl⟩

end Cache

end RadarFeed
