import Mathlib.Algebra.Group.Nat.Defs
import RadarFeed.Decode.Bytes
import RadarFeed.Proofs.Text.Ascii
import RadarFeed.Proofs.Text.Pieces
import RadarFeed.Proofs.Text.Utf8

/-!
What the fields of binary files stand for.

`bigEndian` writes numbers, and `word16`, `word32` and `int16` read what it has written. A text
field holds the encoding of a text of which the fill at its ends does not count (`text_eq_ok_iff`),
and a day with its milliseconds is a time unless the day is 0 or the last year is over
(`radarTime_eq_ok_iff`). A decoder that reads one field after the other succeeds where each of its
steps does (`bind_eq_ok_iff`, `guard_eq_ok_iff`).
-/

namespace RadarFeed

/-! ## Steps of a decoder -/

section

variable {ε α β : Type} {e : ε} {a b : α}

theorem bind_eq_ok_iff {x : Except ε β} {f : β → Except ε α} :
    x >>= f = .ok a ↔ ∃ y, x = .ok y ∧ f y = .ok a := by
  cases x <;> simp [bind, Except.bind]

theorem pure_eq_ok_iff : (pure a : Except ε α) = .ok b ↔ a = b := by
  simp [pure, Except.pure]

theorem throw_eq_ok_iff : (throw e : Except ε α) = .ok a ↔ False := by
  simp [throw, throwThe, MonadExceptOf.throw]

theorem map_eq_ok_iff {f : β → α} {x : Except ε β} :
    x.map f = .ok a ↔ ∃ y, x = .ok y ∧ f y = a := by
  cases x <;> simp [Except.map]

/-- A check that throws when `c` holds. -/
theorem guard_eq_ok_iff {c : Prop} [Decidable c] {f : β → Except ε α} {x : Except ε α} :
    (if c then throw e >>= f else x) = .ok a ↔ ¬ c ∧ x = .ok a := by
  by_cases h : c
  · simp [h, bind_eq_ok_iff, throw_eq_ok_iff]
  · simp [h]

theorem bind_eq_error_iff {x : Except ε β} {f : β → Except ε α} :
    x >>= f = .error e ↔ x = .error e ∨ ∃ y, x = .ok y ∧ f y = .error e := by
  cases x <;> simp [bind, Except.bind]

theorem pure_eq_error_iff : (pure a : Except ε α) = .error e ↔ False := by
  simp [pure, Except.pure]

theorem throw_eq_error_iff {e' : ε} : (throw e' : Except ε α) = .error e ↔ e' = e := by
  simp [throw, throwThe, MonadExceptOf.throw]

/-- A check that throws when `c` holds, before steps that may fail too. -/
theorem guard_eq_error_iff {c : Prop} [Decidable c] {e' : ε} {f : β → Except ε α}
    {x : Except ε α} : (if c then throw e' >>= f else x) = .error e ↔
      (c ∧ e' = e) ∨ (¬ c ∧ x = .error e) := by
  by_cases h : c
  · simp [h, bind_eq_error_iff, throw_eq_error_iff, throw_eq_ok_iff]
  · simp [h]

end

/-! ## Numbers -/

namespace Bytes

/-- The `k` bytes of a number, the most significant one first. -/
def bigEndian : Nat → Nat → List UInt8
  | 0, _ => []
  | k + 1, n => UInt8.ofNat (n / 256 ^ k) :: bigEndian k n

@[simp] theorem length_bigEndian (k n : Nat) : (bigEndian k n).length = k := by
  induction k with
  | zero => rfl
  | succ k ih => rw [bigEndian, List.length_cons, ih]

theorem bigEndian_add_mul (k n j : Nat) : bigEndian k (n + j * 256 ^ k) = bigEndian k n := by
  induction k generalizing j with
  | zero => rfl
  | succ k ih =>
    have hj : j * 256 ^ (k + 1) = j * 256 * 256 ^ k := by
      rw [Nat.pow_succ, Nat.mul_assoc, Nat.mul_comm 256]
    have hdiv : (n + j * 256 * 256 ^ k) / 256 ^ k = n / 256 ^ k + j * 256 :=
      Nat.add_mul_div_right _ _ (Nat.pow_pos (by decide))
    have hbyte : UInt8.ofNat (n / 256 ^ k + j * 256) = UInt8.ofNat (n / 256 ^ k) := by
      rw [← UInt8.toNat_inj, UInt8.toNat_ofNat', UInt8.toNat_ofNat']
      exact Nat.add_mul_mod_self_right _ _ _
    rw [bigEndian, hj, hdiv, hbyte, ih]
    rfl

/-- Any `k` bytes are those of a number. -/
theorem exists_bigEndian {k : Nat} {s : List UInt8} (h : k ≤ s.length) :
    ∃ n, n < 256 ^ k ∧ s = bigEndian k n ++ s.drop k := by
  induction k generalizing s with
  | zero => exact ⟨0, by simp, rfl⟩
  | succ k ih =>
    cases s with
    | nil => simp at h
    | cons b s =>
      obtain ⟨n, hn, hs⟩ := ih (Nat.le_of_succ_le_succ h)
      have hb : b.toNat < 256 := b.toNat_lt
      have hdiv : (n + b.toNat * 256 ^ k) / 256 ^ k = b.toNat := by
        rw [Nat.add_mul_div_right _ _ (Nat.pow_pos (by decide)), Nat.div_eq_of_lt hn, Nat.zero_add]
      refine ⟨n + b.toNat * 256 ^ k, ?_, ?_⟩
      · calc n + b.toNat * 256 ^ k < 256 ^ k + b.toNat * 256 ^ k := Nat.add_lt_add_right hn _
          _ = (b.toNat + 1) * 256 ^ k := by rw [Nat.add_mul, Nat.one_mul, Nat.add_comm]
          _ ≤ 256 * 256 ^ k := Nat.mul_le_mul_right _ hb
          _ = 256 ^ (k + 1) := by rw [Nat.pow_succ, Nat.mul_comm]
      · rw [bigEndian, bigEndian_add_mul, hdiv, UInt8.ofNat_toNat]
        exact congrArg (b :: ·) hs

/-- The two bytes of a number. -/
def ofUInt16 (n : UInt16) : List UInt8 :=
  bigEndian 2 n.toNat

/-- The two bytes of a number with a sign. -/
def ofInt16 (x : Int16) : List UInt8 :=
  ofUInt16 x.toUInt16

/-- The four bytes of a number. -/
def ofUInt32 (n : UInt32) : List UInt8 :=
  bigEndian 4 n.toNat

@[simp] theorem length_ofUInt16 (n : UInt16) : (ofUInt16 n).length = 2 :=
  length_bigEndian 2 n.toNat

@[simp] theorem length_ofInt16 (x : Int16) : (ofInt16 x).length = 2 :=
  length_ofUInt16 x.toUInt16

@[simp] theorem length_ofUInt32 (n : UInt32) : (ofUInt32 n).length = 4 :=
  length_bigEndian 4 n.toNat

variable {front s : List UInt8} {i : Nat}

theorem exists_ofUInt16 (h : 2 ≤ s.length) : ∃ n, s = ofUInt16 n ++ s.drop 2 := by
  obtain ⟨n, hn, hs⟩ := exists_bigEndian h
  refine ⟨UInt16.ofNat n, ?_⟩
  rwa [ofUInt16, UInt16.toNat_ofNat_of_lt' hn]

theorem exists_ofInt16 (h : 2 ≤ s.length) : ∃ x, s = ofInt16 x ++ s.drop 2 := by
  obtain ⟨n, hs⟩ := exists_ofUInt16 h
  exact ⟨n.toInt16, hs⟩

theorem exists_ofUInt32 (h : 4 ≤ s.length) : ∃ n, s = ofUInt32 n ++ s.drop 4 := by
  obtain ⟨n, hn, hs⟩ := exists_bigEndian h
  refine ⟨UInt32.ofNat n, ?_⟩
  rwa [ofUInt32, UInt32.toNat_ofNat_of_lt' hn]

theorem byteAt_append (h : front.length ≤ i) :
    byteAt (front ++ s) i = byteAt s (i - front.length) := by
  rw [byteAt, byteAt, List.getElem?_append_right h]

theorem word16_append (h : front.length ≤ i) :
    word16 (front ++ s) i = word16 s (i - front.length) := by
  rw [word16, word16, byteAt_append h, byteAt_append (Nat.le_add_right_of_le h),
    Nat.sub_add_comm h]

theorem word32_append (h : front.length ≤ i) :
    word32 (front ++ s) i = word32 s (i - front.length) := by
  rw [word32, word32, word16_append h, word16_append (Nat.le_add_right_of_le h),
    Nat.sub_add_comm h]

theorem word16_ofUInt16 (n : UInt16) (s : List UInt8) : word16 (ofUInt16 n ++ s) 0 = n.toNat := by
  have hn : n.toNat < 65536 := n.toNat_lt
  simp [word16, byteAt, ofUInt16, bigEndian]
  omega

theorem word32_ofUInt32 (n : UInt32) (s : List UInt8) : word32 (ofUInt32 n ++ s) 0 = n.toNat := by
  have hn : n.toNat < 4294967296 := n.toNat_lt
  simp [word32, word16, byteAt, ofUInt32, bigEndian]
  omega

theorem int16_append (h : front.length ≤ i) :
    int16 (front ++ s) i = int16 s (i - front.length) := by
  rw [int16, int16, word16_append h]

theorem int16_ofInt16 (x : Int16) (s : List UInt8) : int16 (ofInt16 x ++ s) 0 = x.toInt := by
  have hx : x.toInt = if 2 * x.toUInt16.toNat < 2 ^ 16 then (x.toUInt16.toNat : Int)
      else (x.toUInt16.toNat : Int) - (2 ^ 16 : Nat) := BitVec.toInt_eq_toNat_cond x.toBitVec
  rw [hx, int16, ofInt16, word16_ofUInt16]
  split <;> split <;> omega

/-! ## Text -/

/-- The bytes are those of a text, of which `t` is what is left without fill at its ends. -/
def IsText (data : List UInt8) (t : List Char) : Prop :=
  ∃ s, Utf8.encode s = data ∧ Text.IsTrimmed isFill s t

theorem text_eq_ok_iff {field : FileField} {data : List UInt8} {t : String} :
    text field data = .ok t ↔ IsText data t.toList := by
  unfold text IsText
  simp only [← Utf8.decode_eq_some_iff, ← Text.trim_eq_iff]
  cases Utf8.decode data with
  | none => simp
  | some s =>
    simp only [Except.ok.injEq, Option.some.injEq, exists_eq_left']
    rw [← String.toList_inj, String.toList_ofList]

/-- Text that is no encoding cannot be read, and nothing else can fail. -/
theorem text_eq_error_iff {field : FileField} {data : List UInt8} {e : DecodeError} :
    text field data = .error e ↔ ¬ Utf8.IsValid data ∧ .invalidText field = e := by
  unfold text Utf8.IsValid
  simp only [← Utf8.decode_eq_some_iff]
  cases Utf8.decode data <;> simp

theorem isSiteId_ofList_iff {s : List Char} : isSiteId (String.ofList s) = true ↔
    s.length = 4 ∧ ∀ c ∈ s, Ascii.isAlphanumeric c = true := by
  rw [isSiteId, String.toList_ofList, Bool.and_eq_true, decide_eq_true_eq, List.all_eq_true]
  refine and_congr_left fun h => ?_
  rw [Utf8.size_eq_length h]

theorem exists_isText_iff {data : List UInt8} : (∃ t, IsText data t) ↔ Utf8.IsValid data := by
  constructor
  · rintro ⟨t, s, hs, -⟩
    exact ⟨s, hs⟩
  · rintro ⟨s, hs⟩
    exact ⟨Text.trim isFill s, s, hs, Text.trim_eq_iff.1 rfl⟩

end Bytes

/-! ## Times -/

/-- The seconds from 1970 to some milliseconds after the midnight of a day. -/
def radarSeconds (day millis : Nat) : Int :=
  ((day : Int) - 1) * 86400 + (millis / 1000 : Nat)

theorem minSeconds_le_radarSeconds (day millis : Nat) :
    Instant.minSeconds ≤ radarSeconds day millis := by
  simp only [radarSeconds, Instant.minSeconds]
  omega

theorem radarNanos_lt (millis : Nat) : millis % 1000 * 1000000 < nanosPerSecond := by
  rw [nanosPerSecond]
  omega

theorem radarTime_eq_ok_iff {day millis : Nat} {t : Instant} :
    radarTime day millis = .ok t ↔ day ≠ 0 ∧ radarSeconds day millis ≤ Instant.maxSeconds ∧
      t = ⟨radarSeconds day millis, millis % 1000 * 1000000⟩ := by
  unfold radarTime
  by_cases hday : day = 0
  · simp [hday]
  · have hsec : ((day : Int) - 1) * (secondsPerDay : Nat) + (millis / 1000 : Nat) =
        radarSeconds day millis := rfl
    simp only [if_neg hday, hsec, Instant.ofSeconds?_of_lt (radarNanos_lt millis)]
    by_cases hmax : radarSeconds day millis ≤ Instant.maxSeconds
    · rw [if_pos ⟨minSeconds_le_radarSeconds day millis, hmax⟩]
      simp only [Except.ok.injEq, ne_eq, hday, not_false_eq_true, hmax, true_and]
      exact eq_comm
    · rw [if_neg fun h => hmax h.2]
      simp [hmax]

/-- Day 0 is refused, and else only a second beyond the last year. -/
theorem radarTime_eq_error_iff {day millis : Nat} {e : RadarDayError} :
    radarTime day millis = .error e ↔ (day = 0 ∧ .dayZero = e) ∨
      (day ≠ 0 ∧ Instant.maxSeconds < radarSeconds day millis ∧
        .outOfRange (radarSeconds day millis) = e) := by
  by_cases hday : day = 0
  · simp [radarTime, hday]
  by_cases hmax : radarSeconds day millis ≤ Instant.maxSeconds
  · rw [radarTime_eq_ok_iff.2 ⟨hday, hmax, rfl⟩]
    simp [hday, Int.not_lt.2 hmax]
  · have hrange : ¬ (Instant.minSeconds ≤ radarSeconds day millis ∧
        radarSeconds day millis ≤ Instant.maxSeconds) := fun h => hmax h.2
    have hsec : ((day : Int) - 1) * (secondsPerDay : Nat) + (millis / 1000 : Nat) =
        radarSeconds day millis := rfl
    simp only [radarTime, if_neg hday, hsec, Instant.ofSeconds?_of_lt (radarNanos_lt millis),
      if_neg hrange]
    simp [hday, Int.lt_of_not_ge hmax]

/-- `t` lies so many milliseconds after the midnight of a day, where day 1 is 1970-01-01. -/
structure IsRadarTime (day millis : Nat) (t : Instant) : Prop where
  stamp : t.stamp = (((day : Int) - 1) * 86400000 + millis) * 1000000
  nanos : t.nanos < nanosPerSecond

theorem isRadarTime_iff {day millis : Nat} {t : Instant} : IsRadarTime day millis t ↔
    t = ⟨radarSeconds day millis, millis % 1000 * 1000000⟩ := by
  constructor
  · rintro ⟨hstamp, hnanos⟩
    rw [Instant.ext_iff']
    simp only [Instant.stamp, nanosPerSecond, radarSeconds] at *
    omega
  · rintro rfl
    constructor <;> simp only [Instant.stamp, nanosPerSecond, radarSeconds] <;> omega

/-- A time gives back its day and the milliseconds of this day. -/
theorem IsRadarTime.radarDay {day millis : Nat} {t : Instant} (h : IsRadarTime day millis t)
    (hmillis : millis < 86400000) : t.radarDay = day ∧ t.radarMillis = millis := by
  obtain rfl := isRadarTime_iff.1 h
  simp only [Instant.radarDay, Instant.radarMillis, Instant.secondOfDay, secondsPerDay,
    radarSeconds, Int.fdiv_eq_ediv_of_nonneg _ (Int.natCast_nonneg _),
    Int.fmod_eq_emod_of_nonneg _ (Int.natCast_nonneg _)]
  omega

namespace Bytes

theorem time_eq_ok_iff {day millis : Nat} {t : Instant} :
    time day millis = .ok t ↔ day ≠ 0 ∧ radarSeconds day millis ≤ Instant.maxSeconds ∧
      t = ⟨radarSeconds day millis, millis % 1000 * 1000000⟩ := by
  rw [← radarTime_eq_ok_iff, time]
  cases radarTime day millis <;> simp [Except.mapError]

theorem time_eq_error_iff {day millis : Nat} {e : DecodeError} : time day millis = .error e ↔
    (day = 0 ∧ .invalidField .day "0" = e) ∨
      (day ≠ 0 ∧ Instant.maxSeconds < radarSeconds day millis ∧
        .invalidField .time (toString (radarSeconds day millis)) = e) := by
  have hmap : time day millis = .error e ↔
      ∃ cause, radarTime day millis = .error cause ∧ DecodeError.ofRadarDay cause = e := by
    unfold time
    cases radarTime day millis <;> simp [Except.mapError]
  simp only [hmap, radarTime_eq_error_iff, or_and_right, exists_or, and_assoc, exists_and_left,
    exists_eq_left', DecodeError.ofRadarDay]

end Bytes

end RadarFeed
