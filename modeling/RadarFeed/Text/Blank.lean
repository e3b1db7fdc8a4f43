/-!
White space, as the Unicode property `White_Space` has it, and the cutting of text at it.

The table holds ten ranges of twenty-five characters. `trim` removes what a test accepts at both
ends, `words` are the pieces between white space.
-/

namespace RadarFeed.Text

/-- The ranges of code points with the property `White_Space`, ends included. -/
def blankRanges : List (Nat × Nat) :=
  [(0x09, 0x0D), (0x20, 0x20), (0x85, 0x85), (0xA0, 0xA0), (0x1680, 0x1680), (0x2000, 0x200A),
    (0x2028, 0x2029), (0x202F, 0x202F), (0x205F, 0x205F), (0x3000, 0x3000)]

/-- A character is blank when it has the property `White_Space`. -/
def isBlank (c : Char) : Bool :=
  blankRanges.any fun r => r.1 ≤ c.toNat && c.toNat ≤ r.2

/-- The characters of `s` without those at its two ends that `p` accepts. -/
def trim (p : Char → Bool) (s : List Char) : List Char :=
  ((s.dropWhile p).reverse.dropWhile p).reverse

/-- The non-empty pieces of `s` between blanks; `word` is the piece begun so far, backwards. -/
def wordsAfter (word : List Char) : List Char → List (List Char)
  | [] => if word.isEmpty then [] else [word.reverse]
  | c :: s =>
    if isBlank c then
      if word.isEmpty then wordsAfter [] s else word.reverse :: wordsAfter [] s
    else wordsAfter (c :: word) s

/-- The non-empty pieces of `s` between blanks. -/
def words (s : List Char) : List (List Char) :=
  wordsAfter [] s

/-- The pieces of `s` between the separators, of which there is one more than separators. -/
def splitAt (separator : Char) : List Char → List (List Char)
  | [] => [[]]
  | c :: s =>
    match splitAt separator s with
    | [] => [[]]
    | piece :: rest =>
      if c = separator then [] :: piece :: rest else (c :: piece) :: rest

theorem splitAt_ne_nil (separator : Char) (s : List Char) : splitAt separator s ≠ [] := by
  cases s with
  | nil => simp [splitAt]
  | cons c s => simp only [splitAt]; split <;> simp; split <;> simp

end RadarFeed.Text
