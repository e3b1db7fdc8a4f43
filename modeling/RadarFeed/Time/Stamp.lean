import RadarFeed.Time.Civil
import RadarFeed.Text.Ascii
import RadarFeed.Text.Blank
import RadarFeed.Text.Utf8

/-!
Time stamps in the names of objects.

A name of a Level 2 volume carries its time after the four bytes of the site, as
`KLSX20240501_121003_V06`; a name of a Level 3 product has it in its third to eighth part between
underscores, as `LSX_N0B_2024_05_01_12_10_03`. A reader of a stamp is generous: blanks may precede
a number, a number may have fewer digits, and a signed year any number of them. Second 60 is the
leap second. `compact` and `separated` write the stamps of the two kinds.
-/

namespace RadarFeed.Stamp

/-- The value of decimal digits. -/
def value (s : List Char) : Nat :=
  s.foldl (fun n c => 10 * n + (c.toNat - 0x30)) 0

/-- The first number of `s` and what follows it: at least one digit and, if there is a limit, at
most so many. -/
def number (limit : Option Nat) (s : List Char) : Option (Nat × List Char) :=
  let run := s.takeWhile Ascii.isDigit
  let taken := match limit with
    | some n => run.take n
    | none => run
  if taken.isEmpty then none else some (value taken, s.drop taken.length)

/-- A number after blanks that lies within bounds. -/
def field (low high : Nat) (s : List Char) : Option (Nat × List Char) := do
  let (n, s) ← number (some 2) (s.dropWhile Text.isBlank)
  if low ≤ n ∧ n ≤ high then some (n, s) else none

/-- A year after blanks: up to four digits, or a sign and any number of digits. -/
def year (s : List Char) : Option (Int × List Char) :=
  match s.dropWhile Text.isBlank with
  | '-' :: s => (number none s).map fun (n, s) => (-(n : Int), s)
  | '+' :: s => (number none s).map fun (n, s) => ((n : Int), s)
  | s => (number (some 4) s).map fun (n, s) => ((n : Int), s)

/-- What follows `c` at the start of `s`. -/
def literal (c : Char) : List Char → Option (List Char)
  | [] => none
  | d :: s => if d = c then some s else none

/-- The instant of a date and a time of day, if the date exists. -/
def moment (date : Date) (hour minute second : Nat) : Option Instant :=
  if date.isValid && date.inRange then
    if second = 60 then some (Instant.ofDate date hour minute 59 nanosPerSecond)
    else some (Instant.ofDate date hour minute second 0)
  else none

/-- Reads a stamp whose date and time of day are joined by an underscore and whose other numbers
by `separator`, if there is one. -/
def read (separator : List Char → Option (List Char)) (s : List Char) : Option Instant := do
  let (y, s) ← year s
  let s ← separator s
  let (month, s) ← field 1 12 s
  let s ← separator s
  let (day, s) ← field 1 31 s
  let s ← literal '_' s
  let (hour, s) ← field 0 23 s
  let s ← separator s
  let (minute, s) ← field 0 59 s
  let s ← separator s
  let (second, s) ← field 0 60 s
  if s.isEmpty then moment ⟨y, month, day⟩ hour minute second else none

/-- Reads a stamp such as `20240501_121003`. -/
def readCompact (s : List Char) : Option Instant :=
  read some s

/-- Reads a stamp such as `2024_05_01_12_10_03`. -/
def readSeparated (s : List Char) : Option Instant :=
  read (literal '_') s

/-- The time in the name of a Level 2 volume. -/
def level2KeyTime (key : String) : Option Instant := do
  readCompact (← Utf8.slice 4 19 key.toList)

/-- The time in the name of a Level 3 product. -/
def level3KeyTime (key : String) : Option Instant :=
  let parts := Text.splitAt '_' key.toList
  if parts.length < 8 then none
  else readSeparated (['_'].intercalate ((parts.drop 2).take 6))

/-- A date and time of day as `20240501_121003`. -/
def compact (d : Date) (hour minute second : Nat) : String :=
  Text.padded 4 d.year.toNat ++ Text.padded 2 d.month ++ Text.padded 2 d.day ++ "_" ++
    Text.padded 2 hour ++ Text.padded 2 minute ++ Text.padded 2 second

/-- A date and time of day as `2024_05_01_12_10_03`. -/
def separated (d : Date) (hour minute second : Nat) : String :=
  "_".intercalate [Text.padded 4 d.year.toNat, Text.padded 2 d.month, Text.padded 2 d.day,
    Text.padded 2 hour, Text.padded 2 minute, Text.padded 2 second]

end RadarFeed.Stamp
