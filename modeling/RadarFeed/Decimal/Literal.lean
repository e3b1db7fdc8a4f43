/-!
Numbers as they are written in data files, and what they stand for.

A literal has a sign, digits, perhaps a fraction and perhaps an exponent. Without the last two it is
an integer, as far as 64 bits hold it. Anything else is a floating point number: its leading digits,
as many as 64 bits hold, scaled by one power of ten, which in general is two roundings. A result
beyond the largest number is no value.
-/

namespace RadarFeed.Decimal

/-- A number as it is written; digits are given by their values. -/
structure Literal where
  negative : Bool
  /-- The digits before the point. -/
  whole : List Nat
  /-- The digits behind the point. -/
  fraction : Option (List Nat)
  /-- Whether the exponent is negative, and its digits. -/
  exponent : Option (Bool × List Nat)
deriving DecidableEq, Repr

/-- What a literal stands for. -/
inductive Number where
  /-- An integer that is not negative. -/
  | natural (n : Nat)
  /-- The negative of a positive integer. -/
  | negative (n : Nat)
  /-- A floating point number. -/
  | real (x : Float)
  /-- A number beyond the largest. -/
  | tooLarge

/-- The largest number of 64 bits. -/
def maxWord : Nat := 18446744073709551615

/-- Appends digits to a number as long as 64 bits hold it; the digits left over are the second
part of the result. -/
def absorb (n : Nat) : List Nat → Nat × List Nat
  | [] => (n, [])
  | d :: s => if n * 10 + d ≤ maxWord then absorb (n * 10 + d) s else (n, d :: s)

def digitsValue (s : List Nat) : Nat :=
  s.foldl (fun n d => n * 10 + d) 0

/-- The largest power of ten that is a floating point number. -/
def maxPower : Nat := 308

/-- `10 ^ n`, for an `n` up to `maxPower`. -/
def tenTo (n : Nat) : Float :=
  Float.ofScientific 1 false n

/-- Divides by `10 ^ n`, by the largest power as often as it takes. -/
def divideByPower (x : Float) (n : Nat) : Float :=
  if x == 0.0 then x
  else if _h : maxPower < n then divideByPower (x / tenTo maxPower) (n - maxPower)
  else x / tenTo n
termination_by n
decreasing_by simp [maxPower] at _h ⊢; omega

/-- `n * 10 ^ exponent`, unless that is beyond the largest number. -/
def scale (n : Nat) (exponent : Int) : Option Float :=
  let x := n.toUInt64.toFloat
  match exponent with
  | .ofNat e =>
    if e ≤ maxPower then
      let y := x * tenTo e
      if y.isInf then none else some y
    else if n = 0 then some x else none
  | .negSucc e => some (divideByPower x (e + 1))

/-- The exponent beyond which any number but zero is too large or too small: `2 ^ 31 - 1`. -/
def maxExponent : Nat := 2147483647

namespace Literal

/-- The signed value of the exponent, or nothing if it is beyond all numbers. -/
def exponentValue (l : Literal) : Option Int :=
  match l.exponent with
  | none => some 0
  | some (negative, digits) =>
    let n := digitsValue digits
    if maxExponent < n then none else some (if negative then -n else n)

/-- The floating point number that a literal stands for. -/
def real (l : Literal) : Number :=
  let (whole, dropped) := absorb 0 l.whole
  let fraction := l.fraction.getD []
  let (n, left) := absorb whole fraction
  let point : Int := dropped.length - (fraction.length - left.length : Nat)
  let magnitude : Option Float :=
    match l.exponentValue with
    | some e => scale n (point + e)
    | none =>
      match l.exponent with
      | some (false, _) => if n = 0 then some 0.0 else none
      | _ => some 0.0
  match magnitude with
  | some x => .real (if l.negative then -x else x)
  | none => .tooLarge

/-- What a literal stands for. The negative of zero and integers beyond 64 bits are floating point
numbers. -/
def number (l : Literal) : Number :=
  match l.fraction, l.exponent, absorb 0 l.whole with
  | none, none, (n, []) =>
    if !l.negative then .natural n
    else if 1 ≤ n ∧ n ≤ 9223372036854775808 then .negative n
    else l.real
  | _, _, _ => l.real

end Literal

/-- A number as a floating point number. -/
def Number.toFloat : Number → Option Float
  | natural n => some n.toUInt64.toFloat
  | negative n => some (-n.toUInt64.toFloat)
  | real x => some x
  | tooLarge => none

end RadarFeed.Decimal
