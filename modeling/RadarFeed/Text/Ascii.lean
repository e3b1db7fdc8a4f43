/-!
Letter case of ASCII text.

Site ids, product codes and group names are compared without regard to the case of the letters
`a` to `z`; every other character only equals itself. `upper` is the normal form of such a
comparison: `sameLetters s t` holds exactly when `upper s = upper t`.
-/

namespace RadarFeed.Ascii

/-- `s` with the letters `a` to `z` written as capitals. -/
def upper (s : String) : String :=
  String.ofList (s.toList.map Char.toUpper)

/-- Equality up to the case of ASCII letters. -/
def sameLetters (s t : String) : Bool :=
  upper s == upper t

/-- An ASCII digit. -/
def isDigit (c : Char) : Bool :=
  '0' ≤ c && c ≤ '9'

/-- An ASCII letter or digit. -/
def isAlphanumeric (c : Char) : Bool :=
  isDigit c || ('a' ≤ c && c ≤ 'z') || ('A' ≤ c && c ≤ 'Z')

theorem sameLetters_iff {s t : String} : sameLetters s t = true ↔ upper s = upper t := by
  simp [sameLetters]

theorem sameLetters_refl (s : String) : sameLetters s s = true := by
  simp [sameLetters]

theorem sameLetters_comm (s t : String) : sameLetters s t = sameLetters t s := by
  simp only [sameLetters, Bool.beq_comm]

theorem toList_upper (s : String) : (upper s).toList = s.toList.map Char.toUpper := by
  simp [upper]

theorem toUpper_toUpper (c : Char) : c.toUpper.toUpper = c.toUpper := by
  by_cases h : 'a'.val ≤ c.val ∧ c.val ≤ 'z'.val
  · have hc : c.toUpper.val = c.val + ('A'.val - 'a'.val) := by
      unfold Char.toUpper; rw [dif_pos h]
    have hn : ¬ ('a'.val ≤ c.toUpper.val ∧ c.toUpper.val ≤ 'z'.val) := by
      rw [hc]
      simp only [UInt32.le_iff_toNat_le, UInt32.toNat_add, UInt32.toNat_sub] at h ⊢
      simp at h ⊢
      omega
    rw [Char.toUpper.eq_def c.toUpper, dif_neg hn]
  · have hc : c.toUpper = c := by unfold Char.toUpper; rw [dif_neg h]
    rw [hc, hc]

theorem upper_upper (s : String) : upper (upper s) = upper s := by
  refine String.toList_injective ?_
  simp only [toList_upper, List.map_map]
  exact List.map_congr_left fun c _ => toUpper_toUpper c

end RadarFeed.Ascii
