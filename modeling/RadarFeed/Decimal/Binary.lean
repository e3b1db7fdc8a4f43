/-!
The exact value of a floating point number.

A finite number is a sign and `mantissa * 2 ^ exponent`, read from the bits of the format; nothing
here computes with rounding.
-/

namespace RadarFeed.Decimal

/-- The value of a floating point number of double precision. -/
inductive Binary where
  /-- Not a number. -/
  | nan
  /-- An infinity. -/
  | infinite (negative : Bool)
  /-- A number `mantissa * 2 ^ exponent`. -/
  | finite (negative : Bool) (mantissa : Nat) (exponent : Int)
deriving DecidableEq, Repr

/-- The weight of the bit above the fraction: there are 52 bits below it. -/
def hiddenBit : Nat := 4503599627370496

/-- The number of values of the 11 bits of the exponent. -/
def exponents : Nat := 2048

/-- The value that 64 bits stand for: a sign, 11 bits of exponent and 52 of the mantissa. -/
def Binary.ofBits (bits : UInt64) : Binary :=
  let n := bits.toNat
  let negative := hiddenBit * exponents ≤ n
  let exponent : Nat := n / hiddenBit % exponents
  let fraction : Nat := n % hiddenBit
  if exponent = 2047 then
    if fraction = 0 then .infinite negative else .nan
  else if exponent = 0 then .finite negative fraction (-1074)
  else .finite negative (hiddenBit + fraction) ((exponent : Int) - 1075)

/-- The value of `x`. -/
def Binary.ofFloat (x : Float) : Binary :=
  .ofBits x.toBits

end RadarFeed.Decimal
