import Mathlib.Algebra.Group.Nat.Defs
import RadarFeed.Json.Field
import RadarFeed.Proofs.Json.Value
import RadarFeed.Proofs.Text.Digits

/-!
Integers in JSON.

An integer that is not negative is written with its decimal digits (`digitsOf_spec`), and digits are
read as the integer that they stand for, as far as 64 bits hold it (`word?_of_digits`).
-/

namespace RadarFeed.Json

open Decimal (absorb maxWord digitsValue)

/-- The values of the decimal digits of a number. -/
def digitsOf (n : Nat) : List Nat :=
  (Text.digits n).map fun c => c.toNat - 0x30

theorem ofNat_eq (n : Nat) : Value.ofNat n = .number ⟨false, digitsOf n, none, none⟩ := rfl

variable {n : Nat}

theorem digitsOf_of_lt (h : n < 10) : digitsOf n = [n] := by
  rw [digitsOf, Text.digits, Nat.toDigits_of_lt_base h, List.map_singleton]
  rw [Nat.toNat_digitChar_of_lt_ten h, Nat.add_sub_cancel_left]

theorem digitsOf_of_ge (h : 10 ≤ n) : digitsOf n = digitsOf (n / 10) ++ [n % 10] := by
  have hlast := digitsOf_of_lt (Nat.mod_lt n (by decide : 0 < 10))
  have hsplit : Text.digits n = Text.digits (n / 10) ++ Text.digits (n % 10) := by
    rw [Text.digits, Text.digits, Text.digits, Nat.toDigits_of_base_le (by decide) h,
      Nat.toDigits_of_lt_base (Nat.mod_lt n (by decide))]
  rw [← hlast, digitsOf, hsplit, List.map_append]
  rfl

/-- Every number has digits; there is a zero in front of no others. -/
theorem digitsOf_spec (n : Nat) : IsRun (digitsOf n) ∧
    ((digitsOf n).head? = some 0 → digitsOf n = [0]) ∧ digitsValue (digitsOf n) = n := by
  induction n using Nat.strongRecOn with
  | ind n ih =>
    rcases Nat.lt_or_ge n 10 with h | h
    · rw [digitsOf_of_lt h]
      refine ⟨⟨List.cons_ne_nil _ _, by simpa using h⟩, fun hzero => ?_, ?_⟩
      · rw [Option.some.inj hzero]
      · simp [digitsValue]
    · obtain ⟨hrun, hzero, hvalue⟩ := ih (n / 10) (by omega)
      rw [digitsOf_of_ge h]
      refine ⟨⟨by simp, fun d hd => ?_⟩, fun hhead => ?_, ?_⟩
      · rcases List.mem_append.1 hd with hd | hd
        · exact hrun.lt d hd
        · rw [List.mem_singleton.1 hd]
          exact Nat.mod_lt n (by decide)
      · rw [List.head?_append_of_ne_nil _ hrun.ne_nil] at hhead
        rw [hzero hhead] at hvalue
        simp [digitsValue] at hvalue
        omega
      · unfold digitsValue at hvalue ⊢
        rw [List.foldl_append, hvalue]
        show n / 10 * 10 + n % 10 = n
        omega

theorem le_foldl (s : List Nat) (k : Nat) : k ≤ s.foldl (fun n d => n * 10 + d) k := by
  induction s generalizing k with
  | nil => exact Nat.le_refl k
  | cons d s ih => exact Nat.le_trans (by omega) (ih (k * 10 + d))

/-- Digits are taken as far as 64 bits hold what they stand for. -/
theorem absorb_eq {s : List Nat} {k : Nat}
    (h : s.foldl (fun n d => n * 10 + d) k ≤ maxWord) :
    absorb k s = (s.foldl (fun n d => n * 10 + d) k, []) := by
  induction s generalizing k with
  | nil => rfl
  | cons d s ih =>
    have hle : k * 10 + d ≤ maxWord := Nat.le_trans (le_foldl s _) h
    rw [absorb, if_pos hle]
    exact ih h

/-- **Digits that 64 bits hold are read as the integer that they stand for.** -/
theorem word?_of_digits {s : List Nat} (hs : digitsValue s = n) (h : n < 2 ^ 64) :
    Value.word? (.number ⟨false, s, none, none⟩) = some n := by
  have hle : digitsValue s ≤ maxWord := by
    rw [hs, maxWord]
    omega
  have habsorb : absorb 0 s = (n, []) := hs ▸ absorb_eq hle
  rw [Value.word?, Decimal.Literal.number]
  simp only [habsorb]
  rfl

theorem proper_ofNat (n : Nat) : (Value.ofNat n).Proper := by
  obtain ⟨hrun, hzero, -⟩ := digitsOf_spec n
  rw [ofNat_eq, Value.Proper]
  have hnumber : IsNumber ⟨false, digitsOf n, none, none⟩ _ := .mk hrun hzero .absent .absent
  simpa [Value.literalBytes] using hnumber

end RadarFeed.Json
