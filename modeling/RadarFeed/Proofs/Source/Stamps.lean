import RadarFeed.Proofs.Text.Ascii
import RadarFeed.Proofs.Text.Digits
import RadarFeed.Proofs.Text.Pieces
import RadarFeed.Proofs.Text.Utf8
import RadarFeed.Proofs.Time.Calendar

/-!
Stamps of full width, and the names that carry them.

`Numbers` are the numbers of a stamp, with as many digits for each as a stamp has. They are read as
they were written (`read_joined_eq_some_iff`), whatever stands before the stamp of a volume and
after it, and between underscores in the name of a product. What comes out is the second that the
calendar has for them, or nothing (`keyTime_of_numbers`).
-/

namespace RadarFeed.Stamp

open Text

/-! ## Numbers -/

section

variable {k low high n m : Nat} {rest : List Char}

theorem padded_eq_cons (hk : 0 < k) (h : n < 10 ^ k) :
    ∃ c s, (padded k n).toList = c :: s ∧ Ascii.isDigit c = true := by
  have hlen := length_padded hk h
  cases hs : (padded k n).toList with
  | nil =>
    rw [hs, List.length_nil] at hlen
    omega
  | cons c s => exact ⟨c, s, rfl, isDigit_of_mem_padded (by rw [hs]; exact List.mem_cons_self)⟩

theorem isBlank_of_isDigit {c : Char} (h : Ascii.isDigit c = true) : isBlank c = false := by
  rw [isDigit_iff] at h
  simp [isBlank, blankRanges]
  omega

/-- Digits are not blank. -/
theorem dropWhile_padded (hk : 0 < k) (h : n < 10 ^ k) :
    ((padded k n).toList ++ rest).dropWhile isBlank = (padded k n).toList ++ rest := by
  obtain ⟨c, s, hs, hc⟩ := padded_eq_cons hk h
  rw [hs, List.cons_append, List.dropWhile_cons_of_neg (by simp [isBlank_of_isDigit hc])]

theorem number_padded (hk : 0 < k) (h : n < 10 ^ k) :
    number (some k) ((padded k n).toList ++ rest) = some (n, rest) := by
  have hlen := length_padded hk h
  have htaken : (((padded k n).toList ++ rest).takeWhile Ascii.isDigit).take k =
      (padded k n).toList := by
    rw [List.takeWhile_append_of_pos fun c => isDigit_of_mem_padded, List.take_left' hlen]
  have hne : (padded k n).toList.isEmpty = false := by
    rw [List.isEmpty_eq_false_iff_exists_mem]
    obtain ⟨c, s, hs, -⟩ := padded_eq_cons hk h
    exact ⟨c, by rw [hs]; exact List.mem_cons_self⟩
  simp only [number, htaken, hne, value_padded, Bool.false_eq_true, if_false]
  rw [List.drop_left]

/-- A field is read if its number is within bounds, and then what follows it. -/
theorem bind_field_padded {β : Type} {f : Nat × List Char → Option β} {b : β} (h : n < 100) :
    (field low high ((padded 2 n).toList ++ rest)).bind f = some b ↔
      (low ≤ n ∧ n ≤ high) ∧ f (n, rest) = some b := by
  have hfield : field low high ((padded 2 n).toList ++ rest) =
      if low ≤ n ∧ n ≤ high then some (n, rest) else none := by
    rw [field, dropWhile_padded (by decide) h, number_padded (by decide) h]
    rfl
  rw [hfield]
  by_cases hbounds : low ≤ n ∧ n ≤ high
  · rw [if_pos hbounds, Option.bind_some, and_iff_right hbounds]
  · simp [hbounds]

theorem year_padded (h : n < 10000) :
    year ((padded 4 n).toList ++ rest) = some ((n : Int), rest) := by
  have hnumber : number (some 4) (_ ++ rest) = _ := number_padded (by decide) h
  obtain ⟨c, s, hs, hc⟩ := padded_eq_cons (by decide : 0 < 4) h
  have hminus : c ≠ '-' := by rintro rfl; revert hc; decide
  have hplus : c ≠ '+' := by rintro rfl; revert hc; decide
  rw [year, dropWhile_padded (by decide) h]
  rw [hs, List.cons_append] at hnumber ⊢
  split
  · rename_i heq
    exact (hminus (List.cons.inj heq).1).elim
  · rename_i heq
    exact (hplus (List.cons.inj heq).1).elim
  · rw [hnumber]
    rfl

end

/-- The numbers of a stamp. -/
structure Numbers where
  date : Date
  hour : Nat
  minute : Nat
  second : Nat
  year_nonneg : 0 ≤ date.year
  year_lt : date.year < 10000
  month_lt : date.month < 100
  day_lt : date.day < 100
  hour_lt : hour < 100
  minute_lt : minute < 100
  second_lt : second < 100

namespace Numbers

variable {t : Instant} {w : Numbers}

/-- The stamp in the name of a volume. -/
def compact (w : Numbers) : String :=
  Stamp.compact w.date w.hour w.minute w.second

/-- The stamp in the name of a product. -/
def separated (w : Numbers) : String :=
  Stamp.separated w.date w.hour w.minute w.second

/-- There is such a date and such a time of day. -/
def IsPossible (w : Numbers) : Prop :=
  w.date.isValid = true ∧ w.hour < 24 ∧ w.minute < 60 ∧ w.second < 60

/-- There is no such date or no such time of day, not even within a leap second. -/
def IsImpossible (w : Numbers) : Prop :=
  w.date.isValid = false ∨ 24 ≤ w.hour ∨ 60 ≤ w.minute ∨ 60 < w.second

/-- The whole seconds of the day before a second of the clock. -/
def clock (hour minute second : Nat) : Nat :=
  3600 * hour + 60 * minute + second

/-- `t` is the second on the day and at the time of day that the numbers say. -/
def IsAt (w : Numbers) (t : Instant) : Prop :=
  w.hour < 24 ∧ w.minute < 60 ∧ w.second < 60 ∧ ∃ n, Date.Numbered n w.date ∧
    t = ⟨86400 * n + clock w.hour w.minute w.second, 0⟩

/-- `t` is the leap second that the numbers say, at the end of its minute. -/
def IsLeapSecond (w : Numbers) (t : Instant) : Prop :=
  w.hour < 24 ∧ w.minute < 60 ∧ w.second = 60 ∧ ∃ n, Date.Numbered n w.date ∧
    t = ⟨86400 * n + clock w.hour w.minute 59, nanosPerSecond⟩

theorem IsPossible.exists_isAt (h : w.IsPossible) : ∃ t, w.IsAt t := by
  obtain ⟨hdate, hhour, hminute, hsecond⟩ := h
  exact ⟨_, hhour, hminute, hsecond, _, Date.numbered_iff.2 ⟨hdate, rfl⟩, rfl⟩

/-! ## Reading -/

theorem ofDate_eq (d : Date) (hour minute second nanos : Nat) :
    Instant.ofDate d hour minute second nanos =
      ⟨86400 * d.days + clock hour minute second, nanos⟩ := by
  simp only [Instant.ofDate, secondsPerDay, clock, Instant.mk.injEq, and_true]
  omega

theorem moment_eq_some_iff (hhour : w.hour < 24) (hminute : w.minute < 60)
    (hsecond : w.second ≤ 60) :
    moment w.date w.hour w.minute w.second = some t ↔ w.IsAt t ∨ w.IsLeapSecond t := by
  have hnonneg := w.year_nonneg
  have hlt := w.year_lt
  have hrange : w.date.inRange = true := by
    simp only [Date.inRange, Bool.and_eq_true, decide_eq_true_eq]
    omega
  have hday : ∀ P : Int → Prop, (∃ n, Date.Numbered n w.date ∧ P n) ↔
      w.date.isValid = true ∧ P w.date.days := by
    intro P
    simp only [Date.numbered_iff, and_assoc, exists_and_left, exists_eq_left']
  rw [IsAt, IsLeapSecond, hday, hday, moment]
  by_cases hvalid : w.date.isValid = true
  · by_cases hleap : w.second = 60
    · simp [hvalid, hrange, hleap, hhour, hminute, ofDate_eq, eq_comm]
    · have hless : w.second < 60 := by omega
      simp [hvalid, hrange, hleap, hhour, hminute, hless, ofDate_eq, eq_comm]
  · simp [hvalid]

theorem bounds (h : w.IsAt t ∨ w.IsLeapSecond t) :
    w.hour < 24 ∧ w.minute < 60 ∧ w.second ≤ 60 ∧ w.date.isValid = true := by
  rcases h with ⟨hhour, hminute, hsecond, n, hday, -⟩ | ⟨hhour, hminute, hsecond, n, hday, -⟩
  · exact ⟨hhour, hminute, Nat.le_of_lt hsecond, hday.days_eq.1⟩
  · exact ⟨hhour, hminute, Nat.le_of_eq hsecond, hday.days_eq.1⟩

/-- The digits of all numbers, with an underscore between date and time of day and a separator
between any other two. -/
def joined (sep : List Char) (w : Numbers) : List Char :=
  (padded 4 w.date.year.toNat).toList ++ (sep ++ ((padded 2 w.date.month).toList ++ (sep ++
    ((padded 2 w.date.day).toList ++ ('_' :: ((padded 2 w.hour).toList ++ (sep ++
      ((padded 2 w.minute).toList ++ (sep ++ ((padded 2 w.second).toList ++ []))))))))))

theorem toList_compact (w : Numbers) : w.compact.toList = w.joined [] := by
  simp [compact, Stamp.compact, joined]

theorem toList_separated (w : Numbers) : w.separated.toList = w.joined ['_'] := by
  simp [separated, Stamp.separated, joined]

theorem toNat_year_lt (w : Numbers) : w.date.year.toNat < 10000 := by
  have h := w.year_lt
  omega

/-- A stamp is read, with any separator, as the instant that its numbers say. -/
theorem read_joined_eq_some_iff {separator : List Char → Option (List Char)} {sep : List Char}
    (hsep : ∀ s, separator (sep ++ s) = some s) :
    read separator (w.joined sep) = some t ↔ w.IsAt t ∨ w.IsLeapSecond t := by
  have hliteral : ∀ s, literal '_' ('_' :: s) = some s := fun s => by simp [literal]
  simp only [read, joined, Option.bind_eq_bind, year_padded w.toNat_year_lt, Option.bind_some,
    hsep, hliteral, bind_field_padded w.month_lt, bind_field_padded w.day_lt,
    bind_field_padded w.hour_lt, bind_field_padded w.minute_lt, bind_field_padded w.second_lt,
    List.isEmpty_nil, if_true]
  have hdate : (⟨(w.date.year.toNat : Int), w.date.month, w.date.day⟩ : Date) = w.date := by
    rw [Int.toNat_of_nonneg w.year_nonneg]
  rw [hdate]
  constructor
  · rintro ⟨-, -, ⟨-, hhour⟩, ⟨-, hminute⟩, ⟨-, hsecond⟩, h⟩
    exact (moment_eq_some_iff (by omega) (by omega) hsecond).1 h
  · intro h
    obtain ⟨hhour, hminute, hsecond, hvalid⟩ := bounds h
    obtain ⟨hmonth, hmonth', hday, hday'⟩ := Date.isValid_iff.1 hvalid
    have hlast := (Date.daysInMonth_bounds w.date.year w.date.month).2
    exact ⟨⟨hmonth, hmonth'⟩, ⟨hday, Nat.le_trans hday' hlast⟩, ⟨Nat.zero_le _, by omega⟩,
      ⟨Nat.zero_le _, by omega⟩, ⟨Nat.zero_le _, hsecond⟩,
      (moment_eq_some_iff hhour hminute hsecond).2 h⟩

theorem readCompact_eq_some_iff :
    readCompact w.compact.toList = some t ↔ w.IsAt t ∨ w.IsLeapSecond t := by
  rw [readCompact, toList_compact, read_joined_eq_some_iff fun s => by rw [List.nil_append]]

theorem readSeparated_eq_some_iff :
    readSeparated w.separated.toList = some t ↔ w.IsAt t ∨ w.IsLeapSecond t := by
  rw [readSeparated, toList_separated, read_joined_eq_some_iff fun s => by simp [literal]]

/-! ## Names -/

theorem size_padded {k n : Nat} (hk : 0 < k) (h : n < 10 ^ k) :
    Utf8.size (padded k n).toList = k := by
  have hletters : ∀ c ∈ (padded k n).toList, Ascii.isAlphanumeric c = true := by
    intro c hc
    simp [Ascii.isAlphanumeric, isDigit_of_mem_padded hc]
  rw [Utf8.size_eq_length hletters, length_padded hk h]

theorem size_compact (w : Numbers) : Utf8.size w.compact.toList = 15 := by
  have htwo : ∀ {n}, n < 100 → Utf8.size (padded 2 n).toList = 2 := fun h =>
    size_padded (by decide) h
  rw [toList_compact, joined]
  simp only [Utf8.size_append, Utf8.size_cons, size_padded (k := 4) (by decide) w.toNat_year_lt,
    htwo w.month_lt, htwo w.day_lt, htwo w.hour_lt, htwo w.minute_lt, htwo w.second_lt]
  rfl

/-- Whatever stands before the stamp of a volume and behind it, the stamp is what is read. -/
theorem level2KeyTime_compact {site suffix : String} (hsite : Utf8.size site.toList = 4)
    (w : Numbers) : level2KeyTime (site ++ w.compact ++ suffix) = readCompact w.compact.toList := by
  have hslice : Utf8.slice 4 19 (site ++ w.compact ++ suffix).toList = some w.compact.toList :=
    Utf8.slice_eq_some_iff.2
      ⟨site.toList, suffix.toList, by simp, hsite, size_compact w⟩
  simp only [level2KeyTime, hslice, Option.bind_eq_bind, Option.bind_some]

/-- The numbers of a stamp, each as its digits. -/
def parts (w : Numbers) : List (List Char) :=
  [(padded 4 w.date.year.toNat).toList, (padded 2 w.date.month).toList,
    (padded 2 w.date.day).toList, (padded 2 w.hour).toList, (padded 2 w.minute).toList,
    (padded 2 w.second).toList]

theorem intercalate_parts (w : Numbers) : ['_'].intercalate w.parts = w.separated.toList := by
  simp [parts, separated, Stamp.separated]

theorem splitAt_parts (w : Numbers) : w.parts.flatMap (splitAt '_') = w.parts := by
  have hdigits : ∀ k n, splitAt '_' (padded k n).toList = [(padded k n).toList] := by
    intro k n
    refine splitAt_of_not_mem fun h => ?_
    have hdigit := isDigit_of_mem_padded h
    revert hdigit
    decide
  simp [parts, hdigits]

/-- Between underscores, the stamp in the name of a product is what is read. -/
theorem level3KeyTime_separated {office product : String} (hoffice : '_' ∉ office.toList)
    (hproduct : '_' ∉ product.toList) (w : Numbers) (more : List String) :
    level3KeyTime ("_".intercalate (office :: product :: w.separated :: more)) =
      readSeparated w.separated.toList := by
  have hsplit : splitAt '_' ("_".intercalate (office :: product :: w.separated :: more)).toList =
      office.toList :: product.toList ::
        (w.parts ++ more.flatMap fun s => splitAt '_' s.toList) := by
    have hstamp : splitAt '_' w.separated.toList = w.parts := by
      have hne : w.parts ≠ [] := List.cons_ne_nil _ _
      rw [← intercalate_parts, splitAt_intercalate hne, splitAt_parts]
    have hunderscore : "_".toList = ['_'] := rfl
    rw [String.toList_intercalate, hunderscore, splitAt_intercalate (by simp)]
    simp [splitAt_of_not_mem hoffice, splitAt_of_not_mem hproduct, hstamp, List.flatMap_map]
  have hlength : ¬ (office.toList :: product.toList ::
      (w.parts ++ more.flatMap fun s => splitAt '_' s.toList)).length < 8 := by
    simp [parts]
  have htake : (w.parts ++ more.flatMap fun s => splitAt '_' s.toList).take 6 = w.parts :=
    List.take_left' rfl
  simp only [level3KeyTime, hsplit, if_neg hlength, List.drop_succ_cons, List.drop_zero, htake,
    intercalate_parts]

/-! ## The order of stamps -/

theorem append_lt_append_left_iff (sep s t : List Char) : sep ++ s < sep ++ t ↔ s < t := by
  induction sep with
  | nil => exact Iff.rfl
  | cons c sep ih => simp [ih]

/-- Texts of stamps are in the order of dates and then of times of day. -/
theorem joined_lt_joined_iff {sep : List Char} {v w : Numbers} (hv : v.minute < 60 ∧ v.second < 60)
    (hw : w.minute < 60 ∧ w.second < 60) : v.joined sep < w.joined sep ↔ v.date.Before w.date ∨
      (v.date = w.date ∧ clock v.hour v.minute v.second < clock w.hour w.minute w.second) := by
  have hyear : v.date.year.toNat < w.date.year.toNat ↔ v.date.year < w.date.year := by
    have h := v.year_nonneg
    omega
  have hyear' : v.date.year.toNat = w.date.year.toNat ↔ v.date.year = w.date.year := by
    have h := v.year_nonneg
    have h' := w.year_nonneg
    omega
  have hdate : v.date = w.date ↔ v.date.year = w.date.year ∧ v.date.month = w.date.month ∧
      v.date.day = w.date.day := by
    cases v.date
    cases w.date
    simp
  have htwo : ∀ {m n : Nat} {s t : List Char}, m < 100 → n < 100 →
      ((padded 2 m).toList ++ s < (padded 2 n).toList ++ t ↔ m < n ∨ (m = n ∧ s < t)) :=
    fun hm hn => padded_append_lt_iff (by decide) hm hn
  simp only [joined, append_lt_append_left_iff, List.cons_lt_cons_self,
    padded_append_lt_iff (k := 4) (by decide) v.toNat_year_lt w.toNat_year_lt, hyear, hyear',
    htwo v.month_lt w.month_lt, htwo v.day_lt w.day_lt, htwo v.hour_lt w.hour_lt,
    htwo v.minute_lt w.minute_lt, htwo v.second_lt w.second_lt, List.not_lt_nil, and_false,
    or_false]
  rw [hdate, Date.Before, clock, clock]
  omega

theorem IsAt.lt_iff {u : Instant} {v w : Numbers} (hv : v.IsAt t) (hw : w.IsAt u) :
    t < u ↔ v.date.Before w.date ∨
      (v.date = w.date ∧ clock v.hour v.minute v.second < clock w.hour w.minute w.second) := by
  obtain ⟨hhour, hminute, hsecond, m, hm, rfl⟩ := hv
  obtain ⟨hhour', hminute', hsecond', n, hn, rfl⟩ := hw
  obtain ⟨hvalid, rfl⟩ := hm.days_eq
  obtain ⟨hvalid', rfl⟩ := hn.days_eq
  have heq : v.date = w.date ↔ v.date.days = w.date.days :=
    ⟨congrArg _, Date.eq_of_days_eq hvalid hvalid'⟩
  rw [← Date.days_lt_days_iff hvalid hvalid', heq, Instant.lt_def]
  simp only [clock]
  omega

end Numbers

/-- **Names carry their time.** The time in the name of a volume or product is the second that the
calendar has for the numbers of its stamp, whatever stands around the stamp, and no time where there
is no such date or time of day; the sixtieth second of a minute is the leap second. The texts of
stamps are in the order of their times. -/
theorem keyTime_of_numbers (w : Numbers) (site suffix office product : String) (more : List String)
    (hsite : Utf8.size site.toList = 4) (hoffice : '_' ∉ office.toList)
    (hproduct : '_' ∉ product.toList) :
    let volume := level2KeyTime (site ++ w.compact ++ suffix)
    let object := level3KeyTime ("_".intercalate (office :: product :: w.separated :: more))
    (w.IsPossible → ∃ t, w.IsAt t ∧ volume = some t ∧ object = some t) ∧
      (w.IsImpossible → volume = none ∧ object = none) ∧
      (∀ t, w.IsLeapSecond t → volume = some t ∧ object = some t) ∧
      ∀ (v : Numbers) (t u : Instant), v.IsAt t → w.IsAt u →
        (v.compact < w.compact ↔ t < u) ∧ (v.separated < w.separated ↔ t < u) := by
  intro volume object
  have hvolume : ∀ t, volume = some t ↔ w.IsAt t ∨ w.IsLeapSecond t := fun t => by
    rw [← Numbers.readCompact_eq_some_iff, ← Numbers.level2KeyTime_compact hsite]
  have hobject : ∀ t, object = some t ↔ w.IsAt t ∨ w.IsLeapSecond t := fun t => by
    rw [← Numbers.readSeparated_eq_some_iff, ← Numbers.level3KeyTime_separated hoffice hproduct]
  refine ⟨fun h => ?_, fun h => ?_, fun t h => ⟨(hvolume t).2 (.inr h), (hobject t).2 (.inr h)⟩, ?_⟩
  · obtain ⟨t, ht⟩ := h.exists_isAt
    exact ⟨t, ht, (hvolume t).2 (.inl ht), (hobject t).2 (.inl ht)⟩
  · have hnot : ∀ t, ¬ (w.IsAt t ∨ w.IsLeapSecond t) := by
      intro t ht
      obtain ⟨hhour, hminute, hsecond, hvalid⟩ := Numbers.bounds ht
      rcases h with h | h | h | h
      · rw [h] at hvalid
        cases hvalid
      all_goals omega
    exact ⟨Option.eq_none_iff_forall_ne_some.2 fun t ht => hnot t ((hvolume t).1 ht),
      Option.eq_none_iff_forall_ne_some.2 fun t ht => hnot t ((hobject t).1 ht)⟩
  · intro v t u hv hw
    have hjoined : ∀ sep, v.joined sep < w.joined sep ↔ t < u := fun sep => by
      rw [Numbers.joined_lt_joined_iff ⟨hv.2.1, hv.2.2.1⟩ ⟨hw.2.1, hw.2.2.1⟩, hv.lt_iff hw]
    have htext : ∀ s s' : String, s < s' ↔ s.toList < s'.toList := fun s s' => Iff.rfl
    rw [htext, htext, Numbers.toList_compact, Numbers.toList_compact, Numbers.toList_separated,
      Numbers.toList_separated]
    exact ⟨hjoined [], hjoined ['_']⟩

/-- The last second of a leap day, between letters of two bytes; and the same day a year before. -/
theorem keyTime_of_leapDay :
    let w : Numbers := ⟨⟨2024, 2, 29⟩, 23, 59, 59, by decide, by decide, by decide, by decide,
      by decide, by decide, by decide⟩
    let before : Numbers := ⟨⟨2023, 2, 29⟩, 23, 59, 59, by decide, by decide, by decide, by decide,
      by decide, by decide, by decide⟩
    w.compact = "20240229_235959" ∧ w.separated = "2024_02_29_23_59_59" ∧
      level2KeyTime ("éé" ++ w.compact ++ "_V06é") = some ⟨1709251199, 0⟩ ∧
      level3KeyTime ("_".intercalate ["LSX", "N0B", w.separated, "é_"]) = some ⟨1709251199, 0⟩ ∧
      level2KeyTime ("éé" ++ before.compact ++ "_V06é") = none ∧
      level3KeyTime ("_".intercalate ["LSX", "N0B", before.separated, "é_"]) = none := by
  intro w before
  have hsite : Utf8.size "éé".toList = 4 := by decide
  have hoffice : '_' ∉ "LSX".toList := by decide
  have hproduct : '_' ∉ "N0B".toList := by decide
  obtain ⟨hpossible, -⟩ :=
    keyTime_of_numbers w "éé" "_V06é" "LSX" "N0B" ["é_"] hsite hoffice hproduct
  obtain ⟨-, himpossible, -⟩ :=
    keyTime_of_numbers before "éé" "_V06é" "LSX" "N0B" ["é_"] hsite hoffice hproduct
  obtain ⟨t, ⟨-, -, -, n, hday, rfl⟩, hvolume, hobject⟩ :=
    hpossible ⟨by decide, by decide, by decide, by decide⟩
  obtain ⟨-, rfl⟩ := hday.days_eq
  have hsecond : (⟨86400 * w.date.days + Numbers.clock w.hour w.minute w.second, 0⟩ : Instant) =
      ⟨1709251199, 0⟩ := by decide
  rw [hsecond] at hvolume hobject
  exact ⟨by decide, by decide, hvolume, hobject, himpossible (.inl (by decide))⟩

end RadarFeed.Stamp
