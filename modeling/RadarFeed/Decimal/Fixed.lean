import RadarFeed.Decimal.Binary
import RadarFeed.Text.Digits

/-!
Decimal text with a fixed number of places.

The exact binary value is rounded to the nearest multiple of the last place, a half to the even
neighbour. A result without digits other than zero has no sign.
-/

namespace RadarFeed.Decimal

/-- The integer nearest to `num / den`, of two equally near the even one. -/
def roundDiv (num den : Nat) : Nat :=
  let q := num / den
  let r := num % den
  if 2 * r < den then q
  else if den < 2 * r then q + 1
  else if q % 2 = 0 then q else q + 1

/-- The nearest multiple of `10 ^ -places` to `mantissa * 2 ^ exponent`, in such units. -/
def scaled (places mantissa : Nat) : Int → Nat
  | .ofNat e => mantissa * Nat.pow 2 e * Nat.pow 10 places
  | .negSucc e => roundDiv (mantissa * Nat.pow 10 places) (Nat.pow 2 (e + 1))

/-- A count of units of `10 ^ -places` as decimal text. -/
def placed (places units : Nat) : List Char :=
  let whole := Text.digits (units / Nat.pow 10 places)
  if places = 0 then whole
  else whole ++ '.' :: Text.padLeft places '0' (Text.digits (units % Nat.pow 10 places))

/-- A value as decimal text with `places` places. -/
def Binary.fixed (places : Nat) : Binary → String
  | .nan => "NaN"
  | .infinite negative => if negative then "-inf" else "inf"
  | .finite negative mantissa exponent =>
    let units := scaled places mantissa exponent
    let text := placed places units
    String.ofList (if negative && units ≠ 0 then '-' :: text else text)

/-- `x` as decimal text with `places` places. -/
def fixed (places : Nat) (x : Float) : String :=
  (Binary.ofFloat x).fixed places

example : roundDiv 5 2 = 2 ∧ roundDiv 7 2 = 4 ∧ roundDiv 8 3 = 3 := by decide

end RadarFeed.Decimal
