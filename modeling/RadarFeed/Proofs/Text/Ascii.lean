import RadarFeed.Proofs.Text.Utf8
import RadarFeed.Text.Ascii

/-!
Letters and digits: each is one byte of UTF-8, and stays a letter or digit as a capital. A text has
as many bytes in capitals (`Utf8.size_upper`), and keeps all that is not a letter (`mem_upper_iff`).
Letters can be compared without their case byte by byte (`Utf8.map_upperByte_eq_iff`).
-/

namespace RadarFeed

variable {c : Char} {s : List Char} {n : Nat}

namespace Ascii

/-- The code points of letters and digits. -/
theorem isAlphanumeric_iff : isAlphanumeric c = true ↔
    (48 ≤ c.toNat ∧ c.toNat ≤ 57) ∨ (97 ≤ c.toNat ∧ c.toNat ≤ 122) ∨
      (65 ≤ c.toNat ∧ c.toNat ≤ 90) := by
  have hle : ∀ d e : Char, d ≤ e ↔ d.toNat ≤ e.toNat := fun d e => UInt32.le_iff_toNat_le
  simp only [isAlphanumeric, isDigit, Bool.or_eq_true, Bool.and_eq_true, decide_eq_true_eq, hle,
    or_assoc]
  rfl

theorem toNat_toUpper (c : Char) :
    c.toUpper.toNat = if 97 ≤ c.toNat ∧ c.toNat ≤ 122 then c.toNat - 32 else c.toNat := by
  have small : 'a'.val ≤ c.val ∧ c.val ≤ 'z'.val ↔ 97 ≤ c.toNat ∧ c.toNat ≤ 122 := by
    simp only [UInt32.le_iff_toNat_le]
    rfl
  unfold Char.toUpper
  by_cases h : 'a'.val ≤ c.val ∧ c.val ≤ 'z'.val
  · rw [dif_pos h, if_pos (small.1 h)]
    have hval : (c.val + ('A'.val - 'a'.val)).toNat = c.toNat - 32 := by
      have hc : c.val.toNat = c.toNat := rfl
      have hbounds := small.1 h
      simp only [UInt32.toNat_add, UInt32.toNat_sub, hc]
      simp
      omega
    exact hval
  · rw [dif_neg h, if_neg (mt small.2 h)]

theorem isAlphanumeric_toUpper (c : Char) : isAlphanumeric c.toUpper = isAlphanumeric c := by
  rw [Bool.eq_iff_iff, isAlphanumeric_iff, isAlphanumeric_iff, toNat_toUpper]
  split <;> omega

/-- The characters of one byte are those of ASCII. -/
theorem utf8Size_eq_one_iff : c.utf8Size = 1 ↔ c.toNat < 128 := by
  rw [Char.utf8Size_eq_one_iff, UInt32.le_iff_toNat_le, Nat.lt_succ_iff]
  rfl

theorem utf8Size_of_isAlphanumeric (h : isAlphanumeric c = true) : c.utf8Size = 1 := by
  rw [isAlphanumeric_iff] at h
  rw [utf8Size_eq_one_iff]
  omega

theorem utf8Size_toUpper (c : Char) : c.toUpper.utf8Size = c.utf8Size := by
  by_cases h : isAlphanumeric c = true
  · rw [utf8Size_of_isAlphanumeric h]
    exact utf8Size_of_isAlphanumeric (by rw [isAlphanumeric_toUpper]; exact h)
  · have hc : c.toUpper = c := by
      rw [isAlphanumeric_iff] at h
      rw [← Char.toNat_inj, toNat_toUpper, if_neg (by omega)]
    rw [hc]

/-- Characters before the letters are not made into others, nor others into them. -/
theorem toUpper_eq_iff {d : Char} (h : d.toNat < 65) : c.toUpper = d ↔ c = d := by
  rw [← Char.toNat_inj, ← Char.toNat_inj, toNat_toUpper]
  split <;> omega

theorem mem_upper_iff {s : String} (h : c.toNat < 65) : c ∈ (upper s).toList ↔ c ∈ s.toList := by
  simp [toList_upper, toUpper_eq_iff h]

theorem upper_eq_iff {s t : String} (h : ∀ c ∈ t.toList, c.toNat < 65) : upper s = t ↔ s = t := by
  have chars : ∀ u v : List Char, (∀ c ∈ v, c.toNat < 65) → (u.map Char.toUpper = v ↔ u = v) := by
    intro u
    induction u with
    | nil => simp
    | cons c u ih =>
      intro v hv
      cases v with
      | nil => simp
      | cons d v =>
        simp only [List.mem_cons, forall_eq_or_imp] at hv
        rw [List.map_cons, List.cons.injEq, List.cons.injEq, toUpper_eq_iff hv.1, ih v hv.2]
  rw [← String.toList_inj, ← String.toList_inj, toList_upper]
  exact chars _ _ h

end Ascii

namespace Utf8

theorem size_eq_length (h : ∀ c ∈ s, Ascii.isAlphanumeric c = true) : size s = s.length := by
  induction s with
  | nil => rfl
  | cons c s ih =>
    have hc : c.utf8Size = 1 := Ascii.utf8Size_of_isAlphanumeric (h c List.mem_cons_self)
    have hs : size s = s.length := ih fun d hd => h d (List.mem_cons_of_mem c hd)
    show c.utf8Size + size s = s.length + 1
    rw [hc, hs, Nat.add_comm]

/-- A cut between letters and digits is a cut between characters. -/
theorem splitBytes_eq (h : ∀ c ∈ s, Ascii.isAlphanumeric c = true) (hn : n ≤ s.length) :
    splitBytes n s = some (s.take n, s.drop n) := by
  induction s generalizing n with
  | nil =>
    obtain rfl : n = 0 := Nat.le_zero.1 hn
    rfl
  | cons c s ih =>
    cases n with
    | zero => rfl
    | succ n =>
      have hc : c.utf8Size = 1 := Ascii.utf8Size_of_isAlphanumeric (h c List.mem_cons_self)
      have hs := ih (fun d hd => h d (List.mem_cons_of_mem c hd)) (Nat.le_of_succ_le_succ hn)
      rw [splitBytes, hc, if_pos (Nat.le_add_left 1 n), Nat.add_sub_cancel, hs]
      rfl

/-- Capitals have as many bytes as the letters that they replace. -/
theorem size_upper (s : String) : size (Ascii.upper s).toList = size s.toList := by
  rw [Ascii.toList_upper]
  induction s.toList with
  | nil => rfl
  | cons c s ih =>
    show c.toUpper.utf8Size + size _ = c.utf8Size + size s
    rw [Ascii.utf8Size_toUpper, ih]

/-! ## Bytes -/

/-- A byte with the letters `a` to `z` written as capitals. -/
def upperByte (b : UInt8) : UInt8 :=
  if 0x61 ≤ b && b ≤ 0x7A then b - 0x20 else b

theorem toNat_upperByte (b : UInt8) : (upperByte b).toNat =
    if 97 ≤ b.toNat ∧ b.toNat ≤ 122 then b.toNat - 32 else b.toNat := by
  have hle : (0x61 ≤ b && b ≤ 0x7A) = true ↔ 97 ≤ b.toNat ∧ b.toNat ≤ 122 := by
    simp [UInt8.le_iff_toNat_le]
  unfold upperByte
  by_cases h : (0x61 ≤ b && b ≤ 0x7A) = true
  · rw [if_pos h, if_pos (hle.1 h)]
    have hb := hle.1 h
    simp [UInt8.toNat_sub]
    omega
  · rw [if_neg h, if_neg (mt hle.2 h)]

theorem upperByte_of_ge {b : UInt8} (h : 128 ≤ b.toNat) : upperByte b = b := by
  rw [← UInt8.toNat_inj, toNat_upperByte, if_neg (by omega)]

theorem upperByte_upperByte (b : UInt8) : upperByte (upperByte b) = upperByte b := by
  have h : ¬ (97 ≤ (upperByte b).toNat ∧ (upperByte b).toNat ≤ 122) := by
    rw [toNat_upperByte]
    split <;> omega
  rw [← UInt8.toNat_inj, toNat_upperByte (upperByte b), if_neg h]

/-- All bytes of a character beyond ASCII are beyond ASCII. -/
theorem le_of_mem_encodeChar (h : 128 ≤ c.toNat) {b : UInt8}
    (hb : b ∈ String.utf8EncodeChar c) : 128 ≤ b.toNat := by
  obtain ⟨x, hx⟩ | ⟨x, y, hx⟩ | ⟨x, y, z, hx⟩ | ⟨x, y, z, w, hx⟩ := encodeChar_cases c
  · have := encodeChar_eq_one_iff.1 hx
    omega
  · have := encodeChar_eq_two_iff.1 hx
    rw [hx] at hb
    simp only [List.mem_cons, List.not_mem_nil, or_false] at hb
    obtain rfl | rfl := hb <;> omega
  · have := encodeChar_eq_three_iff.1 hx
    rw [hx] at hb
    simp only [List.mem_cons, List.not_mem_nil, or_false] at hb
    obtain rfl | rfl | rfl := hb <;> omega
  · have := encodeChar_eq_four_iff.1 hx
    rw [hx] at hb
    simp only [List.mem_cons, List.not_mem_nil, or_false] at hb
    obtain rfl | rfl | rfl | rfl := hb <;> omega

theorem encodeChar_toUpper (c : Char) :
    String.utf8EncodeChar c.toUpper = (String.utf8EncodeChar c).map upperByte := by
  have hupper := Ascii.toNat_toUpper c
  rcases Nat.lt_or_ge c.toNat 128 with h | h
  · have ha := encodeChar_of_lt h
    have hac := encodeChar_eq_one_iff.1 ha
    rw [ha, List.map_singleton, encodeChar_eq_one_iff, toNat_upperByte, hac.2]
    refine ⟨?_, hupper.symm⟩
    rw [hupper]
    split <;> omega
  · have hc : c.toUpper = c := by
      rw [← Char.toNat_inj, hupper, if_neg (by omega)]
    have hb : ∀ b ∈ String.utf8EncodeChar c, upperByte b = b := fun b hb =>
      upperByte_of_ge (le_of_mem_encodeChar h hb)
    rw [hc, List.map_congr_left hb, List.map_id']

/-- The bytes of a text in capitals. -/
theorem bytes_upper (s : String) : bytes (Ascii.upper s) = (bytes s).map upperByte := by
  rw [bytes, bytes, Ascii.toList_upper]
  induction s.toList with
  | nil => rfl
  | cons c s ih => rw [List.map_cons, encode_cons, encode_cons, List.map_append, ih,
      encodeChar_toUpper]

/-- Equality up to the case of letters, byte by byte. -/
theorem map_upperByte_eq_iff {s t : String} :
    (bytes s).map upperByte = (bytes t).map upperByte ↔ Ascii.upper s = Ascii.upper t := by
  rw [← bytes_upper, ← bytes_upper]
  exact bytes_inj

end Utf8

end RadarFeed
