import Mathlib.Data.List.Chain
import RadarFeed.Json.Value

/-!
The tokens of JSON text.

`Token.IsText` says how each token is written, after the grammar of JSON, and `Spelled` that text
consists of some tokens with blanks between them. Text is cut into the tokens that it spells
(`scan_of_spelled`): where a word or a number ends is seen from the byte behind it, so that no two
of them may follow each other (`Token.Apart`).
-/

namespace RadarFeed.Json

open Decimal (Literal)

/-! ## The grammar -/

/-- A digit of base sixteen and its value. -/
def IsHex (b : UInt8) (n : Nat) : Prop :=
  (n < 10 ∧ b.toNat = 0x30 + n) ∨
    (10 ≤ n ∧ n < 16 ∧ (b.toNat = 0x41 + (n - 10) ∨ b.toNat = 0x61 + (n - 10)))

/-- Four digits of base sixteen and the number that they stand for. -/
inductive IsUnit : List UInt8 → Nat → Prop where
  | mk {a b c d : UInt8} {w x y z : Nat} : IsHex a w → IsHex b x → IsHex c y → IsHex d z →
      IsUnit [a, b, c, d] (w * 4096 + x * 256 + y * 16 + z)

/-- The letters that make an escape behind a backslash, with their characters. -/
def shortEscapes : List (UInt8 × Char) :=
  [(0x22, '"'), (0x5C, '\\'), (0x2F, '/'), (0x62, '\x08'), (0x66, '\x0c'), (0x6E, '\n'),
    (0x72, '\r'), (0x74, '\t')]

/-- What may stand between quotes. -/
inductive IsRaw : List UInt8 → Prop where
  | nil : IsRaw []
  | plain {b : UInt8} {raw : List UInt8} : 0x20 ≤ b.toNat → b ≠ 0x22 → b ≠ 0x5C → IsRaw raw →
      IsRaw (b :: raw)
  | short {b : UInt8} {c : Char} {raw : List UInt8} : (b, c) ∈ shortEscapes → IsRaw raw →
      IsRaw (0x5C :: b :: raw)
  | code {unit raw : List UInt8} {n : Nat} : IsUnit unit n → IsRaw raw →
      IsRaw (0x5C :: 0x75 :: (unit ++ raw))

/-- Digits, one at least. -/
structure IsRun (run : List Nat) : Prop where
  ne_nil : run ≠ []
  lt : ∀ d ∈ run, d < 10

inductive IsFraction : Option (List Nat) → List UInt8 → Prop where
  | absent : IsFraction none []
  | digits {run : List Nat} : IsRun run → IsFraction (some run) (0x2E :: Value.digitBytes run)

inductive IsExponent : Option (Bool × List Nat) → List UInt8 → Prop where
  | absent : IsExponent none []
  | plain {e : UInt8} {run : List Nat} : e ∈ [0x65, 0x45] → IsRun run →
      IsExponent (some (false, run)) (e :: Value.digitBytes run)
  | plus {e : UInt8} {run : List Nat} : e ∈ [0x65, 0x45] → IsRun run →
      IsExponent (some (false, run)) (e :: 0x2B :: Value.digitBytes run)
  | minus {e : UInt8} {run : List Nat} : e ∈ [0x65, 0x45] → IsRun run →
      IsExponent (some (true, run)) (e :: 0x2D :: Value.digitBytes run)

/-- How a number is written. A zero at the front is the only whole digit. -/
inductive IsNumber : Literal → List UInt8 → Prop where
  | mk {negative : Bool} {whole : List Nat} {fraction : Option (List Nat)}
      {exponent : Option (Bool × List Nat)} {f e : List UInt8} :
      IsRun whole → (whole.head? = some 0 → whole = [0]) → IsFraction fraction f →
      IsExponent exponent e →
      IsNumber ⟨negative, whole, fraction, exponent⟩
        ((if negative then [0x2D] else []) ++ (Value.digitBytes whole ++ (f ++ e)))

/-- How a token is written. -/
inductive Token.IsText : Token → List UInt8 → Prop where
  | openObject : Token.openObject.IsText [0x7B]
  | closeObject : Token.closeObject.IsText [0x7D]
  | openArray : Token.openArray.IsText [0x5B]
  | closeArray : Token.closeArray.IsText [0x5D]
  | comma : Token.comma.IsText [0x2C]
  | colon : Token.colon.IsText [0x3A]
  | null : Token.null.IsText "null".toUTF8.toList
  | true : (Token.bool true).IsText "true".toUTF8.toList
  | false : (Token.bool false).IsText "false".toUTF8.toList
  | number {l : Literal} {s : List UInt8} : IsNumber l s → (Token.number l).IsText s
  | text {raw : List UInt8} : IsRaw raw → (Token.text raw).IsText (0x22 :: (raw ++ [0x22]))

/-- The blanks: the space, the tabulator and the ends of lines. -/
def blanks : List UInt8 :=
  [0x20, 0x09, 0x0A, 0x0D]

/-- Text that consists of some tokens, with blanks before, between and behind them. -/
inductive Spelled : List Token → List UInt8 → Prop where
  | nil : Spelled [] []
  | blank {ts : List Token} {b : UInt8} {s : List UInt8} : b ∈ blanks → Spelled ts s →
      Spelled ts (b :: s)
  | token {t : Token} {ts : List Token} {w s : List UInt8} : t.IsText w → Spelled ts s →
      Spelled (t :: ts) (w ++ s)

/-- Words and numbers have no end of their own. -/
def Token.isWord : Token → Bool
  | .null => true
  | .bool _ => true
  | .number _ => true
  | _ => false

/-- Of two neighbours one shows where the other ends. -/
def Token.Apart (t u : Token) : Prop :=
  t.isWord = false ∨ u.isWord = false

/-! ## Text -/

variable {found : List Token} {raw rest s w : List UInt8} {b : UInt8} {n : Nat} {l : Literal}

theorem isHexDigit_of_isHex (h : IsHex b n) : isHexDigit b = true := by
  simp only [isHexDigit, Bool.or_eq_true, Bool.and_eq_true, decide_eq_true_eq,
    UInt8.le_iff_toNat_le]
  simp
  unfold IsHex at h
  omega

theorem isShortEscape_of_mem {c : Char} (h : (b, c) ∈ shortEscapes) : isShortEscape b = true := by
  simp only [shortEscapes, List.mem_cons, Prod.mk.injEq, List.not_mem_nil, or_false] at h
  rcases h with h | h | h | h | h | h | h | h <;> rw [h.1] <;> rfl

theorem scanFrom_cons {state next : Scan} {found' : List Token}
    (h : scanByte state found b = some (next, found')) (s : List UInt8) :
    scanFrom state found (b :: s) = scanFrom next found' s := by
  rw [scanFrom, h]

/-- The scanner passes over what stands between quotes. -/
theorem scanFrom_raw (h : IsRaw raw) (read : List UInt8) (found : List Token)
    (rest : List UInt8) :
    scanFrom (.text read) found (raw ++ rest) =
      scanFrom (.text (raw.reverse ++ read)) found rest := by
  induction h generalizing read with
  | nil => rfl
  | @plain b raw hb hquote hslash _ ih =>
    have hbyte : scanByte (.text read) found b = some (.text (b :: read), found) := by
      have hlow : ¬ b < 0x20 := by
        rw [UInt8.lt_iff_toNat_lt]
        simpa using hb
      simp only [scanByte, if_neg hquote, if_neg hslash, if_neg hlow]
    rw [List.cons_append, scanFrom_cons hbyte, ih]
    simp
  | @short b c raw hc _ ih =>
    have hslash : scanByte (.text read) found 0x5C = some (.escape (0x5C :: read), found) := rfl
    have hletter : scanByte (.escape (0x5C :: read)) found b =
        some (.text (b :: 0x5C :: read), found) := by
      simp only [scanByte, isShortEscape_of_mem hc, if_true]
    rw [List.cons_append, List.cons_append, scanFrom_cons hslash, scanFrom_cons hletter, ih]
    simp
  | @code unit raw n hunit _ ih =>
    obtain ⟨ha, hb, hc, hd⟩ := hunit
    have hslash : scanByte (.text read) found 0x5C = some (.escape (0x5C :: read), found) := rfl
    have hu : scanByte (.escape (0x5C :: read)) found 0x75 =
        some (.codePoint 3 (0x75 :: 0x5C :: read), found) := rfl
    have hdigit : ∀ {b : UInt8} {n : Nat}, IsHex b n → ∀ left read,
        scanByte (.codePoint (left + 1) read) found b =
          some (.codePoint left (b :: read), found) := by
      intro b n h left read
      simp only [scanByte, isHexDigit_of_isHex h, if_true]
    have hlast : ∀ {b : UInt8} {n : Nat}, IsHex b n → ∀ read,
        scanByte (.codePoint 0 read) found b = some (.text (b :: read), found) := by
      intro b n h read
      simp only [scanByte, isHexDigit_of_isHex h, if_true]
    simp only [List.cons_append, List.nil_append]
    rw [scanFrom_cons hslash, scanFrom_cons hu, scanFrom_cons (hdigit ha 2 _),
      scanFrom_cons (hdigit hb 1 _), scanFrom_cons (hdigit hc 0 _), scanFrom_cons (hlast hd _), ih]
    simp

/-! ## Words and numbers -/

theorem toNat_ofNat_digit {d : Nat} (h : d < 10) : (UInt8.ofNat (0x30 + d)).toNat = 0x30 + d := by
  rw [UInt8.toNat_ofNat']
  omega

theorem digit?_of_lt {d : Nat} (h : d < 10) : digit? (UInt8.ofNat (0x30 + d)) = some d := by
  have hb := toNat_ofNat_digit h
  have hdigit : (0x30 ≤ UInt8.ofNat (0x30 + d) && UInt8.ofNat (0x30 + d) ≤ 0x39) = true := by
    simp only [Bool.and_eq_true, decide_eq_true_eq, UInt8.le_iff_toNat_le, hb]
    simp
    omega
  rw [digit?, if_pos hdigit, hb, Nat.add_sub_cancel_left]

theorem digitRun_digitBytes {run : List Nat} (hrun : ∀ d ∈ run, d < 10)
    (hrest : ∀ b ∈ rest.head?, digit? b = none) :
    digitRun (Value.digitBytes run ++ rest) = (run, rest) := by
  induction run with
  | nil =>
    cases rest with
    | nil => rfl
    | cons b rest =>
      show digitRun (b :: rest) = ([], b :: rest)
      rw [digitRun, hrest b rfl]
  | cons d run ih =>
    obtain ⟨hd, hrun⟩ := List.forall_mem_cons.1 hrun
    show digitRun (UInt8.ofNat (0x30 + d) :: (Value.digitBytes run ++ rest)) = (d :: run, rest)
    rw [digitRun, digit?_of_lt hd, ih hrun]

theorem digitRun_eq {run : List Nat} (h : IsRun run) :
    digitRun (Value.digitBytes run) = (run, []) := by
  have hend : ∀ b ∈ ([] : List UInt8).head?, digit? b = none := by simp
  have hdigits := digitRun_digitBytes h.lt hend
  rwa [List.append_nil] at hdigits

/-- The first digit of a run is a byte of its own. -/
theorem IsRun.digitBytes {run : List Nat} (h : IsRun run) : ∃ d tail, run = d :: tail ∧ d < 10 ∧
    Value.digitBytes run = UInt8.ofNat (0x30 + d) :: Value.digitBytes tail := by
  cases run with
  | nil => exact absurd rfl h.ne_nil
  | cons d tail => exact ⟨d, tail, rfl, h.lt d List.mem_cons_self, rfl⟩

/-- No other byte begins a run. -/
theorem IsRun.digitBytes_append_ne {run : List Nat} (h : IsRun run) (hb : digit? b = none) :
    Value.digitBytes run ++ rest ≠ b :: s := by
  obtain ⟨d, tail, -, hd, hbytes⟩ := h.digitBytes
  rw [hbytes, List.cons_append]
  intro heq
  rw [← (List.cons.inj heq).1, digit?_of_lt hd] at hb
  cases hb

theorem exponent?_eq {negative : Bool} {run : List Nat} {e : UInt8}
    (h : IsExponent (some (negative, run)) (e :: s)) : exponent? s = some (negative, run) := by
  unfold exponent?
  split
  rename_i x sign rest hs
  have hsplit : IsRun run ∧ sign = negative ∧ rest = Value.digitBytes run := by
    cases h with
    | plain _ hrun =>
      rw [← List.append_nil (Value.digitBytes run)] at hs
      split at hs
      · rename_i heq
        exact absurd heq (hrun.digitBytes_append_ne rfl)
      · rename_i heq
        exact absurd heq (hrun.digitBytes_append_ne rfl)
      · obtain ⟨rfl, rfl⟩ := Prod.mk.inj hs
        exact ⟨hrun, rfl, List.append_nil _⟩
    | plus _ hrun | minus _ hrun =>
      obtain ⟨rfl, rfl⟩ := Prod.mk.inj hs
      exact ⟨hrun, rfl, rfl⟩
  obtain ⟨hrun, rfl, rfl⟩ := hsplit
  obtain ⟨d, tail, rfl, -, -⟩ := hrun.digitBytes
  rw [digitRun_eq hrun]

/-- An exponent is missing, or is read behind its letter. -/
theorem IsExponent.cases {exponent : Option (Bool × List Nat)} (h : IsExponent exponent s) :
    (exponent = none ∧ s = []) ∨ ∃ x t p, exponent = some p ∧ s = x :: t ∧
      (x = 0x65 ∨ x = 0x45) ∧ exponent? t = some p := by
  cases h with
  | absent => exact .inl ⟨rfl, rfl⟩
  | plain he hrun =>
    exact .inr ⟨_, _, _, rfl, rfl, by simpa using he, exponent?_eq (.plain he hrun)⟩
  | plus he hrun =>
    exact .inr ⟨_, _, _, rfl, rfl, by simpa using he, exponent?_eq (.plus he hrun)⟩
  | minus he hrun =>
    exact .inr ⟨_, _, _, rfl, rfl, by simpa using he, exponent?_eq (.minus he hrun)⟩

theorem IsExponent.digit?_head {exponent : Option (Bool × List Nat)} (h : IsExponent exponent s) :
    ∀ b ∈ s.head?, digit? b = none := by
  intro b hb
  obtain ⟨-, rfl⟩ | ⟨x, t, p, -, rfl, hx, -⟩ := h.cases
  · cases hb
  · obtain rfl := Option.some.inj hb
    rcases hx with rfl | rfl <;> rfl

theorem tail?_eq {whole : List Nat} {fraction : Option (List Nat)}
    {exponent : Option (Bool × List Nat)} {f e : List UInt8} (negative : Bool)
    (hf : IsFraction fraction f) (he : IsExponent exponent e) :
    tail? negative whole (f ++ e) = some ⟨negative, whole, fraction, exponent⟩ := by
  cases hf with
  | absent =>
    obtain ⟨rfl, rfl⟩ | ⟨x, t, p, rfl, rfl, hx, hp⟩ := he.cases
    · rfl
    · rw [List.nil_append, tail?, if_pos hx, hp, Option.map_some]
  | @digits run hrun =>
    have hdigits := digitRun_digitBytes hrun.lt he.digit?_head
    obtain ⟨d, tail, rfl, -, -⟩ := hrun.digitBytes
    rw [List.cons_append, tail?, if_neg (by decide), if_pos rfl, hdigits]
    obtain ⟨rfl, rfl⟩ | ⟨x, t, p, rfl, rfl, hx, hp⟩ := he.cases
    · rfl
    · dsimp only
      rw [if_pos hx, hp, Option.map_some]

/-- The part behind the whole digits does not begin with a digit. -/
theorem digit?_head_tail {fraction : Option (List Nat)} {exponent : Option (Bool × List Nat)}
    {f e : List UInt8} (hf : IsFraction fraction f) (he : IsExponent exponent e) :
    ∀ b ∈ (f ++ e).head?, digit? b = none := by
  cases hf with
  | absent => exact he.digit?_head
  | digits hrun =>
    intro b hb
    obtain rfl := Option.some.inj hb
    rfl

theorem literal?_eq (h : IsNumber l s) : literal? s = some l := by
  obtain @⟨negative, whole, fraction, exponent, f, e, hwhole, hzero, hf, he⟩ := h
  have hdigits := digitRun_digitBytes hwhole.lt (digit?_head_tail hf he)
  unfold literal?
  split
  rename_i x sign rest hs
  have hsplit : sign = negative ∧ rest = Value.digitBytes whole ++ (f ++ e) := by
    cases negative with
    | true =>
      obtain ⟨rfl, rfl⟩ := Prod.mk.inj hs
      exact ⟨rfl, rfl⟩
    | false =>
      split at hs
      · rename_i heq
        exact absurd heq (hwhole.digitBytes_append_ne rfl)
      · obtain ⟨rfl, rfl⟩ := Prod.mk.inj hs
        exact ⟨rfl, rfl⟩
  obtain ⟨rfl, rfl⟩ := hsplit
  rw [hdigits]
  split
  · rename_i heq
    cases heq
    exact absurd rfl hwhole.ne_nil
  · rename_i heq
    cases heq
    cases hzero rfl
  · rename_i heq
    cases heq
    exact tail?_eq sign hf he

theorem null_bytes : "null".toUTF8.toList = [0x6E, 0x75, 0x6C, 0x6C] := by
  decide +kernel

theorem true_bytes : "true".toUTF8.toList = [0x74, 0x72, 0x75, 0x65] := by
  decide +kernel

theorem false_bytes : "false".toUTF8.toList = [0x66, 0x61, 0x6C, 0x73, 0x65] := by
  decide +kernel

/-- A number begins with its sign or a digit. -/
theorem IsNumber.head (h : IsNumber l s) :
    ∃ b t, s = b :: t ∧ (b = 0x2D ∨ 0x30 ≤ b.toNat ∧ b.toNat ≤ 0x39) := by
  obtain @⟨negative, whole, fraction, exponent, f, e, hwhole, -, -, -⟩ := h
  obtain ⟨d, tail, rfl, hd, hbytes⟩ := hwhole.digitBytes
  have hb := toNat_ofNat_digit hd
  cases negative with
  | true => exact ⟨_, _, rfl, .inl rfl⟩
  | false => exact ⟨_, _, by rw [hbytes]; rfl, .inr ⟨by omega, by omega⟩⟩

theorem word?_eq {t : Token} (ht : t.isWord = true) (h : t.IsText w) : word? w = some t := by
  cases h with
  | null => rw [word?, if_pos rfl]
  | true => rw [word?, if_neg (by rw [true_bytes, null_bytes]; decide), if_pos rfl]
  | false =>
    rw [word?, if_neg (by rw [false_bytes, null_bytes]; decide),
      if_neg (by rw [false_bytes, true_bytes]; decide), if_pos rfl]
  | number hl =>
    obtain ⟨b, t, rfl, hb⟩ := hl.head
    have hne : ∀ {c : UInt8} {u : List UInt8}, 0x61 ≤ c.toNat → b :: t ≠ c :: u := by
      intro c u hc heq
      obtain rfl := (List.cons.inj heq).1
      rcases hb with rfl | hb
      · simp at hc
      · omega
    rw [word?, null_bytes, true_bytes, false_bytes, if_neg (hne (by decide)),
      if_neg (hne (by decide)), if_neg (hne (by decide)), literal?_eq hl, Option.map_some]
  | _ => cases ht

theorem isWordByte_of_mem_digitBytes {run : List Nat} (h : IsRun run)
    (hb : b ∈ Value.digitBytes run) : isWordByte b = true := by
  obtain ⟨d, hd, rfl⟩ := List.mem_map.1 hb
  have hlt := h.lt d hd
  have hdigit : (0x30 ≤ UInt8.ofNat (0x30 + d) && UInt8.ofNat (0x30 + d) ≤ 0x39) = true := by
    simp only [Bool.and_eq_true, decide_eq_true_eq, UInt8.le_iff_toNat_le, toNat_ofNat_digit hlt]
    simp
    omega
  simp only [isWordByte, hdigit, Bool.true_or]

theorem isWordByte_of_mem_number (h : IsNumber l s) (hb : b ∈ s) : isWordByte b = true := by
  obtain @⟨negative, whole, fraction, exponent, f, e, hwhole, -, hf, he⟩ := h
  simp only [List.mem_append] at hb
  rcases hb with hb | hb | hb | hb
  · cases negative with
    | true =>
      obtain rfl := List.mem_singleton.1 hb
      rfl
    | false => cases hb
  · exact isWordByte_of_mem_digitBytes hwhole hb
  · cases hf with
    | absent => cases hb
    | digits hrun =>
      rcases List.mem_cons.1 hb with rfl | hb
      · rfl
      · exact isWordByte_of_mem_digitBytes hrun hb
  · have hletter : ∀ {x : UInt8}, x ∈ [0x65, 0x45] → isWordByte x = true := by
      simp [isWordByte]
    cases he with
    | absent => cases hb
    | plain hx hrun =>
      rcases List.mem_cons.1 hb with rfl | hb
      · exact hletter hx
      · exact isWordByte_of_mem_digitBytes hrun hb
    | plus hx hrun | minus hx hrun =>
      rcases List.mem_cons.1 hb with rfl | hb
      · exact hletter hx
      · rcases List.mem_cons.1 hb with rfl | hb
        · rfl
        · exact isWordByte_of_mem_digitBytes hrun hb

theorem isWordByte_of_isText {t : Token} (ht : t.isWord = true) (h : t.IsText w) :
    (∃ b u, w = b :: u) ∧ ∀ b ∈ w, isWordByte b = true := by
  cases h with
  | null =>
    rw [null_bytes]
    exact ⟨⟨_, _, rfl⟩, by simp [isWordByte]⟩
  | true =>
    rw [true_bytes]
    exact ⟨⟨_, _, rfl⟩, by simp [isWordByte]⟩
  | false =>
    rw [false_bytes]
    exact ⟨⟨_, _, rfl⟩, by simp [isWordByte]⟩
  | number hl =>
    obtain ⟨b, u, hs, -⟩ := hl.head
    exact ⟨⟨b, u, hs⟩, fun b hb => isWordByte_of_mem_number hl hb⟩
  | _ => cases ht

/-! ## Scanning -/

theorem isSpace_of_mem (h : b ∈ blanks) : isSpace b = true := by
  simp only [blanks, List.mem_cons, List.not_mem_nil, or_false] at h
  rcases h with rfl | rfl | rfl | rfl <;> rfl

/-- Behind a word stands none of the bytes that words consist of. -/
theorem Spelled.head {ts : List Token} (h : Spelled ts s)
    (hts : ∀ t ∈ ts.head?, t.isWord = false) : ∀ b ∈ s.head?, isWordByte b = false := by
  intro b hb
  cases h with
  | nil => cases hb
  | blank hblank _ =>
    obtain rfl := Option.some.inj hb
    simp only [blanks, List.mem_cons, List.not_mem_nil, or_false] at hblank
    rcases hblank with rfl | rfl | rfl | rfl <;> rfl
  | token ht _ =>
    have hword := hts _ rfl
    cases ht with
    | null | true | false | number => cases hword
    | openObject | closeObject | openArray | closeArray | comma | colon | text =>
      obtain rfl := Option.some.inj hb
      rfl

/-- A word is read when the byte behind it comes, or the end. -/
theorem scanFrom_word {read : List UInt8} {t : Token} (hword : word? read.reverse = some t)
    (hs : ∀ b ∈ s.head?, isWordByte b = false) (found : List Token) :
    scanFrom (.word read) found s = scanFrom .between (t :: found) s := by
  cases s with
  | nil => simp [scanFrom, hword]
  | cons b s =>
    have hb : ¬ isWordByte b = true := by
      rw [hs b rfl]
      exact Bool.false_ne_true
    have hbyte : scanByte (.word read) found b = scanByte .between (t :: found) b := by
      simp only [scanByte, if_neg hb, hword]
      rfl
    rw [scanFrom, scanFrom, hbyte]

theorem scanFrom_wordBytes (hw : ∀ b ∈ w, isWordByte b = true) (read : List UInt8)
    (found : List Token) (s : List UInt8) :
    scanFrom (.word read) found (w ++ s) = scanFrom (.word (w.reverse ++ read)) found s := by
  induction w generalizing read with
  | nil => rfl
  | cons b w ih =>
    obtain ⟨hb, hw⟩ := List.forall_mem_cons.1 hw
    have hbyte : scanByte (.word read) found b = some (.word (b :: read), found) := by
      simp only [scanByte, if_pos hb]
    rw [List.cons_append, scanFrom_cons hbyte, ih hw]
    simp

/-- A word between tokens. -/
theorem scanFrom_wordToken {t : Token} (ht : t.isWord = true) (h : t.IsText w)
    (hs : ∀ b ∈ s.head?, isWordByte b = false) (found : List Token) :
    scanFrom .between found (w ++ s) = scanFrom .between (t :: found) s := by
  obtain ⟨⟨b, u, rfl⟩, hbytes⟩ := isWordByte_of_isText ht h
  obtain ⟨hb, hu⟩ := List.forall_mem_cons.1 hbytes
  have hspace : ¬ isSpace b = true := by
    intro hspace
    simp only [isSpace, Bool.or_eq_true, decide_eq_true_eq] at hspace
    rcases hspace with ((rfl | rfl) | rfl) | rfl <;> cases hb
  have hquote : b ≠ 0x22 := by
    rintro rfl
    cases hb
  have hbyte : scanByte .between found b = some (.word [b], found) := by
    simp only [scanByte, scanByte.start, if_neg hspace, if_neg hquote, if_pos hb]
  rw [List.cons_append, scanFrom_cons hbyte, scanFrom_wordBytes hu]
  refine scanFrom_word ?_ hs found
  rw [List.reverse_append, List.reverse_reverse]
  exact word?_eq ht h

/-- **Text is cut into the tokens that it spells.** -/
theorem scanFrom_spelled {ts : List Token} (h : Spelled ts s) (hts : ts.IsChain Token.Apart)
    (found : List Token) : scanFrom .between found s = some (found.reverse ++ ts) := by
  induction h generalizing found with
  | nil => simp [scanFrom]
  | @blank ts b s hb _ ih =>
    have hbyte : scanByte .between found b = some (.between, found) := by
      simp only [scanByte, scanByte.start, if_pos (isSpace_of_mem hb)]
    rw [scanFrom_cons hbyte, ih hts]
  | @token t ts w s ht hspelled ih =>
    have hrest : scanFrom .between found (w ++ s) = scanFrom .between (t :: found) s := by
      by_cases hword : t.isWord = true
      · refine scanFrom_wordToken hword ht (hspelled.head fun u hu => ?_) found
        have hapart : t.Apart u := (List.isChain_cons.1 hts).1 u hu
        exact hapart.resolve_left (by simp [hword])
      · cases ht with
        | null | true | false | number => exact absurd rfl hword
        | openObject | closeObject | openArray | closeArray | comma | colon => rfl
        | @text raw hraw =>
          have hquote : scanByte .between found 0x22 = some (.text [], found) := rfl
          have hend : scanByte (.text (raw.reverse ++ [])) found 0x22 =
              some (.between, .text raw :: found) := by
            simp [scanByte]
          rw [List.cons_append, List.append_assoc, scanFrom_cons hquote, scanFrom_raw hraw,
            List.singleton_append, scanFrom_cons hend]
    rw [hrest, ih (List.isChain_cons.1 hts).2]
    simp

theorem scan_of_spelled {ts : List Token} (h : Spelled ts s) (hts : ts.IsChain Token.Apart) :
    Token.scan s = some ts :=
  scanFrom_spelled h hts []

end RadarFeed.Json
