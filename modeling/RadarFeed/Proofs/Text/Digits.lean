import Mathlib.Algebra.Group.Nat.Defs
import RadarFeed.Text.Digits
import RadarFeed.Time.Stamp

/-!
Numbers with a fixed number of digits.

A number that fits is written with exactly as many digits as asked for (`length_padded`), reads as
itself (`value_padded`), and stands in the order of texts where it stands in the order of numbers
(`padded_append_lt_iff`).
-/

namespace RadarFeed.Text

variable {k m n : Nat} {s t rest rest' : List Char}

theorem isDigit_iff (c : Char) : Ascii.isDigit c = true ↔ 48 ≤ c.toNat ∧ c.toNat ≤ 57 := by
  rw [Ascii.isDigit, Bool.and_eq_true, decide_eq_true_eq, decide_eq_true_eq]
  rfl

theorem toList_padded (k n : Nat) :
    (padded k n).toList = List.replicate (k - (digits n).length) '0' ++ digits n := by
  rw [padded, String.toList_ofList, padLeft]

theorem length_padded (hk : 0 < k) (h : n < 10 ^ k) : (padded k n).toList.length = k := by
  have hdigits : (digits n).length ≤ k := (Nat.length_toDigits_le_iff (by decide) hk).2 h
  rw [toList_padded, List.length_append, List.length_replicate, Nat.sub_add_cancel hdigits]

theorem isDigit_of_mem_padded {c : Char} (h : c ∈ (padded k n).toList) :
    Ascii.isDigit c = true := by
  rw [toList_padded, List.mem_append, List.mem_replicate] at h
  rcases h with ⟨-, rfl⟩ | h
  · decide
  · have hdigit : c.isDigit = true := Nat.isDigit_of_mem_toDigits (by decide) (by decide) h
    rw [Char.isDigit_iff_toNat] at hdigit
    exact (isDigit_iff c).2 hdigit

theorem value_eq_ofDigitChars (s : List Char) : Stamp.value s = Nat.ofDigitChars 10 s 0 := by
  rw [Nat.ofDigitChars_eq_foldl]
  rfl

/-- A number reads as itself. -/
theorem value_padded (k n : Nat) : Stamp.value (padded k n).toList = n := by
  rw [toList_padded, value_eq_ofDigitChars, Nat.ofDigitChars_append,
    Nat.ofDigitChars_replicate_zero, Nat.mul_zero, digits, Nat.ofDigitChars_ten_toDigits]

/-! ## The order of texts -/

/-- Texts whose fronts have one length are in the order of the fronts, and then of what follows. -/
theorem append_lt_append_iff (h : s.length = t.length) :
    s ++ rest < t ++ rest' ↔ s < t ∨ (s = t ∧ rest < rest') := by
  induction s generalizing t with
  | nil =>
    obtain rfl : t = [] := List.length_eq_zero_iff.1 h.symm
    simp
  | cons c s ih =>
    cases t with
    | nil => cases h
    | cons d t =>
      simp only [List.cons_append, List.cons_lt_cons_iff, ih (Nat.succ.inj h), List.cons.injEq,
        and_or_left, and_assoc, or_assoc]

theorem value_cons (c : Char) (s : List Char) :
    Stamp.value (c :: s) = 10 ^ s.length * (c.toNat - 48) + Stamp.value s := by
  rw [value_eq_ofDigitChars, value_eq_ofDigitChars, Nat.ofDigitChars_cons,
    Nat.ofDigitChars_eq_ofDigitChars_zero, Nat.mul_zero, Nat.zero_add]
  rfl

theorem value_lt (h : ∀ c ∈ s, Ascii.isDigit c = true) : Stamp.value s < 10 ^ s.length := by
  induction s with
  | nil => decide
  | cons c s ih =>
    have hc := (isDigit_iff c).1 (h c List.mem_cons_self)
    have hs := ih fun d hd => h d (List.mem_cons_of_mem c hd)
    calc Stamp.value (c :: s)
        = 10 ^ s.length * (c.toNat - 48) + Stamp.value s := value_cons c s
      _ < 10 ^ s.length * (c.toNat - 48) + 10 ^ s.length := Nat.add_lt_add_left hs _
      _ = 10 ^ s.length * (c.toNat - 48 + 1) := (Nat.mul_succ _ _).symm
      _ ≤ 10 ^ s.length * 10 := Nat.mul_le_mul_left _ (by omega)
      _ = 10 ^ (c :: s).length := (Nat.pow_succ ..).symm

/-- A greater digit outweighs all that follow. -/
theorem mul_add_lt {unit a b x y : Nat} (h : a < b) (hx : x < unit) :
    unit * a + x < unit * b + y :=
  calc unit * a + x < unit * a + unit := Nat.add_lt_add_left hx _
    _ = unit * (a + 1) := (Nat.mul_succ _ _).symm
    _ ≤ unit * b := Nat.mul_le_mul_left _ h
    _ ≤ unit * b + y := Nat.le_add_right _ _

/-- Digits are in the order of the numbers that they stand for. -/
theorem lt_iff_value_lt (hs : ∀ c ∈ s, Ascii.isDigit c = true)
    (ht : ∀ c ∈ t, Ascii.isDigit c = true) (h : s.length = t.length) :
    s < t ↔ Stamp.value s < Stamp.value t := by
  induction s generalizing t with
  | nil =>
    obtain rfl : t = [] := List.length_eq_zero_iff.1 h.symm
    simp
  | cons c s ih =>
    cases t with
    | nil => cases h
    | cons d t =>
      have hlen : s.length = t.length := Nat.succ.inj h
      have hc := (isDigit_iff c).1 (hs c List.mem_cons_self)
      have hd := (isDigit_iff d).1 (ht d List.mem_cons_self)
      have hs' : ∀ c ∈ s, Ascii.isDigit c = true := fun c hc => hs c (List.mem_cons_of_mem _ hc)
      have ht' : ∀ c ∈ t, Ascii.isDigit c = true := fun c hc => ht c (List.mem_cons_of_mem _ hc)
      have hvs := value_lt hs'
      have hvt := value_lt ht'
      have hlt : c < d ↔ c.toNat < d.toNat := Iff.rfl
      rw [hlen] at hvs
      rw [List.cons_lt_cons_iff, ih hs' ht' hlen, value_cons, value_cons, hlen, hlt,
        ← Char.toNat_inj]
      -- the first digits decide, unless they are the same
      rcases Nat.lt_trichotomy c.toNat d.toNat with h | h | h
      · exact iff_of_true (.inl h) (mul_add_lt (by omega) hvs)
      · simp [h]
      · have hgt := mul_add_lt (y := Stamp.value s) (by omega : d.toNat - 48 < c.toNat - 48) hvt
        exact iff_of_false (by omega) (by omega)

/-- Numbers of as many digits are in the order of texts, and then what follows them. -/
theorem padded_append_lt_iff (hk : 0 < k) (hm : m < 10 ^ k) (hn : n < 10 ^ k) :
    (padded k m).toList ++ rest < (padded k n).toList ++ rest' ↔
      m < n ∨ (m = n ∧ rest < rest') := by
  have hlen : (padded k m).toList.length = (padded k n).toList.length := by
    rw [length_padded hk hm, length_padded hk hn]
  have heq : (padded k m).toList = (padded k n).toList ↔ m = n := by
    constructor
    · intro h
      rw [← value_padded k m, h, value_padded]
    · rintro rfl
      rfl
  rw [append_lt_append_iff hlen, lt_iff_value_lt (fun c => isDigit_of_mem_padded)
    (fun c => isDigit_of_mem_padded) hlen, value_padded, value_padded, heq]

end RadarFeed.Text
