import RadarFeed.Level3.Heading
import RadarFeed.Proofs.Decode.Fields
import RadarFeed.Proofs.Text.Ascii

/-!
The lines in front of the message of a Level 3 product, as relations on bytes.

`IsLine` says what the first line of some bytes is, `Drops` what is left without a first line of a
certain kind, `IsHeading` and `IsIdentifier` what is written in the two lines of text. What the
readers accept is what these relations hold of: `nextLine_eq_some_iff`, `skipFraming_eq_iff`,
`readHeading_eq_ok_iff`, `readIdentifier_eq_ok_iff`.
-/

namespace RadarFeed.Level3

variable {data line rest body : List UInt8}

/-! ## Lines -/

/-- `line` is the first line of `data` and `rest` what follows its end: no line end comes before. -/
structure IsLine (data line rest : List UInt8) : Prop where
  split : data = line ++ lineEnd ++ rest
  first : ∀ before after, data = before ++ lineEnd ++ after → line.length ≤ before.length

theorem isLine_nil_iff (h : lineEnd <+: data) : IsLine data line rest ↔
    line = [] ∧ data = lineEnd ++ rest := by
  obtain ⟨after, hafter⟩ := h
  constructor
  · rintro ⟨hsplit, hfirst⟩
    have hnil : line = [] :=
      List.length_eq_zero_iff.1 (Nat.le_zero.1 (hfirst [] after hafter.symm))
    subst hnil
    exact ⟨rfl, hsplit⟩
  · rintro ⟨rfl, hsplit⟩
    exact ⟨hsplit, fun before after _ => Nat.zero_le _⟩

/-- A first byte that does not begin a line end belongs to the line. -/
theorem isLine_cons_iff {b : UInt8} (h : ¬ lineEnd <+: b :: data) :
    IsLine (b :: data) line rest ↔ ∃ l, line = b :: l ∧ IsLine data l rest := by
  have hne : ∀ before after, b :: data = before ++ lineEnd ++ after →
      ∃ l, before = b :: l ∧ data = l ++ lineEnd ++ after := by
    intro before after heq
    cases before with
    | nil => exact absurd ⟨after, heq.symm⟩ h
    | cons c l =>
      obtain ⟨rfl, hdata⟩ := List.cons.inj heq
      exact ⟨l, rfl, hdata⟩
  constructor
  · rintro ⟨hsplit, hfirst⟩
    obtain ⟨l, rfl, hdata⟩ := hne line rest hsplit
    refine ⟨l, rfl, hdata, fun before after heq => ?_⟩
    exact Nat.le_of_succ_le_succ (hfirst (b :: before) after (congrArg (b :: ·) heq))
  · rintro ⟨l, rfl, hsplit, hfirst⟩
    refine ⟨congrArg (b :: ·) hsplit, fun before after heq => ?_⟩
    obtain ⟨k, rfl, hdata⟩ := hne before after heq
    exact Nat.succ_le_succ (hfirst k after hdata)

theorem nextLine_eq_some_iff : nextLine data = some (line, rest) ↔ IsLine data line rest := by
  induction data generalizing line rest with
  | nil =>
    constructor
    · intro h
      cases h
    · rintro ⟨h, -⟩
      simp [lineEnd] at h
  | cons b s ih =>
    rw [nextLine]
    by_cases hend : lineEnd <+: b :: s
    · rw [if_pos (List.isPrefixOf_iff_prefix.2 hend), isLine_nil_iff hend]
      obtain ⟨after, hafter⟩ := hend
      have hs : s.drop 2 = after := congrArg (List.drop 3) hafter.symm
      rw [hs, ← hafter, List.append_cancel_left_eq, Option.some.injEq, Prod.mk.injEq]
      exact and_congr_left' eq_comm
    · rw [if_neg (mt List.isPrefixOf_iff_prefix.1 hend), isLine_cons_iff hend,
        Option.map_eq_some_iff]
      constructor
      · rintro ⟨⟨l, r⟩, h, heq⟩
        obtain ⟨rfl, rfl⟩ := Prod.mk.inj heq
        exact ⟨l, rfl, ih.1 h⟩
      · rintro ⟨l, rfl, h⟩
        exact ⟨(l, rest), ih.2 h, rfl⟩

theorem nextLine_eq_none_iff : nextLine data = none ↔ ∀ line rest, ¬ IsLine data line rest := by
  simp only [← nextLine_eq_some_iff, Option.eq_none_iff_forall_ne_some, ne_eq, Prod.forall]

/-- There is one first line. -/
theorem IsLine.unique {line' rest' : List UInt8} (h : IsLine data line rest)
    (h' : IsLine data line' rest') : line = line' ∧ rest = rest' := by
  rw [← nextLine_eq_some_iff] at h h'
  exact Prod.mk.inj (Option.some.inj (h.symm.trans h'))

/-! ## Framing -/

/-- `rest` is `data` without its first line if `p` holds of that line, and else all of `data`. -/
inductive Drops (p : List UInt8 → Prop) (data : List UInt8) : List UInt8 → Prop where
  | line {l r : List UInt8} : IsLine data l r → p l → Drops p data r
  | none : (∀ l r, IsLine data l r → ¬ p l) → Drops p data data

/-- What a test `q` on the first line, equivalent to `p`, leaves. -/
theorem ite_eq_iff_drops {p : List UInt8 → Prop} {r : List UInt8} {q : Prop} [Decidable q]
    (h : IsLine data line r) (hq : q ↔ p line) :
    (if q then r else data) = rest ↔ Drops p data rest := by
  constructor
  · rintro rfl
    split_ifs with hyes
    · exact .line h (hq.1 hyes)
    · refine .none fun l r' hl => ?_
      obtain ⟨rfl, -⟩ := h.unique hl
      exact mt hq.2 hyes
  · rintro (⟨hl, hp⟩ | hp)
    · obtain ⟨rfl, rfl⟩ := h.unique hl
      exact if_pos (hq.2 hp)
    · exact if_neg (mt hq.1 (hp line r h))

theorem eq_iff_drops {p : List UInt8 → Prop} (h : ∀ l r, ¬ IsLine data l r) :
    data = rest ↔ Drops p data rest := by
  constructor
  · rintro rfl
    exact .none fun l r hl => absurd hl (h l r)
  · rintro (⟨hl, -⟩ | -)
    · exact absurd hl (h _ _)
    · rfl

/-- A line that begins a transmission. -/
def IsStart (line : List UInt8) : Prop :=
  line.head? = some startOfHeading

/-- A line of digits, blanks at its ends aside. -/
def IsNumber (line : List UInt8) : Prop :=
  ∃ digits, Text.IsTrimmed isAsciiBlank line digits ∧ digits ≠ [] ∧
    ∀ b ∈ digits, 0x30 ≤ b ∧ b ≤ 0x39

/-- `body` is `data` without the start line and the line with a number, where they are there. -/
def IsUnframed (data body : List UInt8) : Prop :=
  ∃ rest, Drops IsStart data rest ∧ Drops IsNumber rest body

theorem isSequenceNumber_iff : isSequenceNumber line = true ↔ IsNumber line := by
  unfold IsNumber isSequenceNumber
  simp only [← Text.trimmed_eq_iff, exists_eq_left']
  show (!(trimmed line).isEmpty && _) = true ↔ trimmed line ≠ [] ∧ ∀ b ∈ trimmed line, _
  simp

theorem skipNumber_eq_iff : skipNumber data = rest ↔ Drops IsNumber data rest := by
  unfold skipNumber
  cases h : nextLine data with
  | none => exact eq_iff_drops (nextLine_eq_none_iff.1 h)
  | some found => exact ite_eq_iff_drops (nextLine_eq_some_iff.1 h) isSequenceNumber_iff

/-- The first line begins with the first byte, unless it is empty. -/
theorem IsLine.isStart_iff (h : IsLine data line rest) :
    IsStart line ↔ data.head? = some startOfHeading := by
  rw [h.split, IsStart, List.append_assoc, List.head?_append]
  cases line with
  | nil => simp [lineEnd, startOfHeading]
  | cons b l => rfl

theorem skipStart_eq_iff : skipStart data = rest ↔ Drops IsStart data rest := by
  unfold skipStart
  cases h : nextLine data with
  | none =>
    rw [ite_self]
    exact eq_iff_drops (nextLine_eq_none_iff.1 h)
  | some found =>
    have hl : IsLine data found.1 found.2 := nextLine_eq_some_iff.1 h
    exact ite_eq_iff_drops hl hl.isStart_iff.symm

theorem skipFraming_eq_iff : skipFraming data = body ↔ IsUnframed data body := by
  simp only [IsUnframed, ← skipNumber_eq_iff, ← skipStart_eq_iff, exists_eq_left', skipFraming]

/-! ## Heading and identifier -/

/-- A heading has at least three words, of which the first takes six bytes and the second, the
office, is four letters or digits. -/
structure IsOffice (heading office : List Char) : Prop where
  words : ∃ first third more,
    Text.IsWords heading (first :: office :: third :: more) ∧ Utf8.size first = 6
  length : office.length = 4
  letters : ∀ c ∈ office, Ascii.isAlphanumeric c = true

/-- What the heading line says: its text is a heading with an office. -/
structure IsHeading (line : List UInt8) (heading office : List Char) : Prop where
  text : Bytes.IsText line heading
  office : IsOffice heading office

/-- What the line of the identifier says: its text is four to six letters or digits. -/
structure IsIdentifier (line : List UInt8) (id : List Char) : Prop where
  text : Bytes.IsText line id
  least : 4 ≤ id.length
  most : id.length ≤ 6
  letters : ∀ c ∈ id, Ascii.isAlphanumeric c = true

theorem office?_eq_some_iff {heading office : String} : office? heading = some office ↔
    ∃ name, IsOffice heading.toList name ∧ Ascii.upper (String.ofList name) = office := by
  unfold office?
  constructor
  · intro h
    split at h
    · next first name third more hwords =>
      split_ifs at h with hname
      rw [Bool.and_eq_true, decide_eq_true_eq, Bytes.isSiteId_ofList_iff] at hname
      obtain ⟨hfirst, hlength, hletters⟩ := hname
      exact ⟨name, ⟨⟨first, third, more, Text.words_eq_iff.1 hwords, hfirst⟩, hlength, hletters⟩,
        Option.some.inj h⟩
    · cases h
  · rintro ⟨name, ⟨⟨first, third, more, hwords, hfirst⟩, hlength, hletters⟩, rfl⟩
    have hname : Bytes.isSiteId (String.ofList name) = true :=
      Bytes.isSiteId_ofList_iff.2 ⟨hlength, hletters⟩
    simp [Text.words_eq_iff.2 hwords, hfirst, hname]

theorem readHeading_eq_ok_iff {heading office : String} :
    readHeading line = .ok (heading, office) ↔
      ∃ name, IsHeading line heading.toList name ∧ Ascii.upper (String.ofList name) = office := by
  have hsplit : readHeading line = .ok (heading, office) ↔
      Bytes.text .heading line = .ok heading ∧ office? heading = some office := by
    unfold readHeading
    rw [bind_eq_ok_iff]
    constructor
    · rintro ⟨t, ht, h⟩
      split at h
      · next o ho =>
        obtain ⟨rfl, rfl⟩ := Prod.mk.inj (pure_eq_ok_iff.1 h)
        exact ⟨ht, ho⟩
      · exact (throw_eq_ok_iff.1 h).elim
    · rintro ⟨ht, ho⟩
      refine ⟨heading, ht, ?_⟩
      rw [ho]
      rfl
  rw [hsplit, Bytes.text_eq_ok_iff, office?_eq_some_iff]
  constructor
  · rintro ⟨htext, name, hname, rfl⟩
    exact ⟨name, ⟨htext, hname⟩, rfl⟩
  · rintro ⟨name, ⟨htext, hname⟩, rfl⟩
    exact ⟨htext, name, hname, rfl⟩

theorem isIdentifier_iff {s : String} : isIdentifier s = true ↔
    4 ≤ s.toList.length ∧ s.toList.length ≤ 6 ∧ ∀ c ∈ s.toList, Ascii.isAlphanumeric c = true := by
  rw [isIdentifier, Bool.and_eq_true, Bool.and_eq_true, decide_eq_true_eq, decide_eq_true_eq,
    List.all_eq_true, and_assoc]
  constructor
  · rintro ⟨hleast, hmost, h⟩
    rw [Utf8.size_eq_length h] at hleast hmost
    exact ⟨hleast, hmost, h⟩
  · rintro ⟨hleast, hmost, h⟩
    rw [Utf8.size_eq_length h]
    exact ⟨hleast, hmost, h⟩

theorem upper_ofList (s : List Char) :
    Ascii.upper (String.ofList s) = String.ofList (s.map Char.toUpper) := by
  rw [Ascii.upper, String.toList_ofList]

theorem readIdentifier_eq_ok_iff {code suffix : String} :
    readIdentifier line = .ok (code, suffix) ↔
      ∃ id, IsIdentifier line id ∧ Ascii.upper (String.ofList (id.take 3)) = code ∧
        Ascii.upper (String.ofList (id.drop 3)) = suffix := by
  unfold readIdentifier
  simp only [bind_eq_ok_iff, guard_eq_ok_iff, pure_eq_ok_iff, Bytes.text_eq_ok_iff, Prod.mk.injEq,
    Bool.not_eq_true', Bool.not_eq_false, isIdentifier_iff, upper_ofList, Ascii.toList_upper,
    List.map_take, List.map_drop, List.length_map, List.forall_mem_map,
    Ascii.isAlphanumeric_toUpper]
  constructor
  · rintro ⟨t, htext, ⟨hleast, hmost, h⟩, hcode, hsuffix⟩
    exact ⟨t.toList, ⟨htext, hleast, hmost, h⟩, hcode, hsuffix⟩
  · rintro ⟨id, ⟨htext, hleast, hmost, h⟩, hcode, hsuffix⟩
    refine ⟨String.ofList id, ?_⟩
    rw [String.toList_ofList]
    exact ⟨htext, ⟨hleast, hmost, h⟩, hcode, hsuffix⟩

end RadarFeed.Level3
