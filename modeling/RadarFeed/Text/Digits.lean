/-!
Numbers as digits: decimal with a least width, and bytes in base sixteen.
-/

namespace RadarFeed.Text

/-- `s` with as many `c` in front as it needs to have `width` characters. -/
def padLeft (width : Nat) (c : Char) (s : List Char) : List Char :=
  List.replicate (width - s.length) c ++ s

/-- The decimal digits of `n`. -/
def digits (n : Nat) : List Char :=
  Nat.toDigits 10 n

/-- `n` in decimal, with zeros in front up to `width` digits. -/
def padded (width n : Nat) : String :=
  String.ofList (padLeft width '0' (digits n))

/-- A digit of base sixteen. -/
def nibble (upperCase : Bool) (n : Nat) : Char :=
  if n < 10 then Char.ofNat (0x30 + n)
  else if upperCase then Char.ofNat (0x41 + (n - 10)) else Char.ofNat (0x61 + (n - 10))

/-- A byte as two digits of base sixteen. -/
def hexByte (upperCase : Bool) (b : UInt8) : List Char :=
  [nibble upperCase (b.toNat / 16), nibble upperCase (b.toNat % 16)]

/-- Bytes as lower case digits of base sixteen. -/
def hex (bytes : List UInt8) : String :=
  String.ofList (bytes.flatMap (hexByte false))

/-- The value of a digit of base sixteen. -/
def nibbleValue (c : Char) : Option Nat :=
  if '0' ≤ c && c ≤ '9' then some (c.toNat - 0x30)
  else if 'a' ≤ c && c ≤ 'f' then some (c.toNat - 0x61 + 10)
  else if 'A' ≤ c && c ≤ 'F' then some (c.toNat - 0x41 + 10)
  else none

/-- The bytes that pairs of digits of base sixteen stand for. -/
def unhex : List Char → Option (List UInt8)
  | [] => some []
  | [_] => none
  | a :: b :: s => do
    let x ← nibbleValue a
    let y ← nibbleValue b
    return UInt8.ofNat (x * 16 + y) :: (← unhex s)

end RadarFeed.Text
