/-!
UTF-8.

`decode` reads bytes as characters and refuses everything that is not the shortest form of a code
point outside the surrogates; `encode` writes characters. `splitBytes` cuts text after a number of
bytes, where a cut inside a character does not exist.
-/

namespace RadarFeed.Utf8

/-- The payload of a continuation byte. -/
def continuation (b : UInt8) : Option Nat :=
  if 0x80 ≤ b && b < 0xC0 then some (b.toNat - 0x80) else none

/-- The character of a code point, if there is one. -/
def charOf (n : Nat) : Option Char :=
  if h : n.isValidChar then some (Char.ofNatAux n h) else none

/-- The character that a two byte form stands for. -/
def two (a b : UInt8) : Option Char := do
  let x ← continuation b
  if 0xC2 ≤ a && a < 0xE0 then charOf ((a.toNat - 0xC0) * 64 + x) else none

/-- The character that a three byte form stands for. -/
def three (a b c : UInt8) : Option Char := do
  let x ← continuation b
  let y ← continuation c
  let n := (a.toNat - 0xE0) * 4096 + x * 64 + y
  if 0xE0 ≤ a && a < 0xF0 && 0x800 ≤ n then charOf n else none

/-- The character that a four byte form stands for. -/
def four (a b c d : UInt8) : Option Char := do
  let x ← continuation b
  let y ← continuation c
  let z ← continuation d
  let n := (a.toNat - 0xF0) * 262144 + x * 4096 + y * 64 + z
  if 0xF0 ≤ a && 0x10000 ≤ n then charOf n else none

/-- The characters that `bytes` encode, or nothing if some byte does not fit. -/
def decode : List UInt8 → Option (List Char)
  | [] => some []
  | a :: s =>
    if a < 0x80 then do
      let c ← charOf a.toNat
      return c :: (← decode s)
    else
      match s with
      | b :: s =>
        if a < 0xE0 then do
          let c ← two a b
          return c :: (← decode s)
        else
          match s with
          | c :: s =>
            if a < 0xF0 then do
              let c ← three a b c
              return c :: (← decode s)
            else
              match s with
              | d :: s => do
                let c ← four a b c d
                return c :: (← decode s)
              | [] => none
          | [] => none
      | [] => none

/-- The bytes of `s`. -/
def encode (s : List Char) : List UInt8 :=
  s.flatMap String.utf8EncodeChar

/-- The bytes of `s`. -/
def bytes (s : String) : List UInt8 :=
  encode s.toList

/-- The text that `bytes` encode. -/
def text? (bytes : List UInt8) : Option String :=
  (decode bytes).map String.ofList

/-- The number of bytes of `s`. -/
def size (s : List Char) : Nat :=
  s.foldr (fun c n => c.utf8Size + n) 0

/-- `s` cut after its first `n` bytes; there is no such cut inside a character or past the end. -/
def splitBytes : Nat → List Char → Option (List Char × List Char)
  | 0, s => some ([], s)
  | _ + 1, [] => none
  | n + 1, c :: s =>
    if c.utf8Size ≤ n + 1 then
      (splitBytes (n + 1 - c.utf8Size) s).map fun (front, back) => (c :: front, back)
    else none

/-- The bytes of `s` from `start` up to `stop`, where both are ends of characters. -/
def slice (start stop : Nat) (s : List Char) : Option (List Char) := do
  let (_, back) ← splitBytes start s
  let (front, _) ← splitBytes (stop - start) back
  return front

end RadarFeed.Utf8
