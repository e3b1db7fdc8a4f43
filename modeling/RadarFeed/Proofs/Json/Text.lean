import RadarFeed.Json.Text
import RadarFeed.Proofs.Json.Token
import RadarFeed.Proofs.Text.Ascii

/-!
Texts as they are written between quotes.

`Spells` says which bytes stand for a text: a character stands for itself unless it is a quote, a
backslash or below the space, and each may be escaped by a letter, by a numeric escape or, beyond
sixteen bits, by two of them. Such bytes may stand between quotes (`Spells.isRaw`) and are read as
the text (`textOf?_of_spells`); the bytes that a text is written as are such (`spells_rawOf`).
-/

namespace RadarFeed.Json

/-- The bytes stand for the characters. -/
inductive Spells : List UInt8 → List Char → Prop where
  | nil : Spells [] []
  | plain {c : Char} {raw : List UInt8} {s : List Char} : c ≠ '"' → c ≠ '\\' → 0x20 ≤ c.toNat →
      Spells raw s → Spells (String.utf8EncodeChar c ++ raw) (c :: s)
  | short {b : UInt8} {c : Char} {raw : List UInt8} {s : List Char} : (b, c) ∈ shortEscapes →
      Spells raw s → Spells (0x5C :: b :: raw) (c :: s)
  | code {c : Char} {unit raw : List UInt8} {s : List Char} : IsUnit unit c.toNat → Spells raw s →
      Spells (0x5C :: 0x75 :: (unit ++ raw)) (c :: s)
  /-- The two halves of a surrogate pair. -/
  | pair {c : Char} {leading trailing raw : List UInt8} {m n : Nat} {s : List Char} :
      IsUnit leading m → IsUnit trailing n → 0xD800 ≤ m → m < 0xDC00 → 0xDC00 ≤ n → n < 0xE000 →
      c.toNat = 0x10000 + (m - 0xD800) * 0x400 + (n - 0xDC00) → Spells raw s →
      Spells (0x5C :: 0x75 :: (leading ++ 0x5C :: 0x75 :: (trailing ++ raw))) (c :: s)

variable {c : Char} {b : UInt8} {front raw : List UInt8} {s : List Char} {m n : Nat}

/-! ## What may stand between quotes -/

/-- A byte that stands for itself. -/
structure IsPlain (b : UInt8) : Prop where
  le : 0x20 ≤ b.toNat
  quote : b ≠ 0x22
  backslash : b ≠ 0x5C

theorem isPlain_of_mem (hquote : c ≠ '"') (hslash : c ≠ '\\') (hc : 0x20 ≤ c.toNat)
    (hb : b ∈ String.utf8EncodeChar c) : IsPlain b := by
  have hnat : b.toNat = c.toNat ∨ 128 ≤ b.toNat := by
    rcases Nat.lt_or_ge c.toNat 128 with h | h
    · have hone := Utf8.encodeChar_of_lt h
      rw [hone, List.mem_singleton] at hb
      exact .inl (hb ▸ (Utf8.encodeChar_eq_one_iff.1 hone).2)
    · exact .inr (Utf8.le_of_mem_encodeChar h hb)
  have hne : ∀ d : Char, c ≠ d → d.toNat < 128 → b ≠ .ofNat d.toNat := by
    rintro d hd hlt rfl
    rw [UInt8.toNat_ofNat', Nat.mod_eq_of_lt (by omega)] at hnat
    exact hnat.elim (fun h => hd (Char.toNat_inj.1 h.symm)) (by omega)
  exact ⟨by omega, hne '"' hquote (by decide), hne '\\' hslash (by decide)⟩

theorem isRaw_append (hfront : ∀ b ∈ front, IsPlain b) (h : IsRaw raw) : IsRaw (front ++ raw) := by
  induction front with
  | nil => exact h
  | cons b front ih =>
    obtain ⟨hb, hfront⟩ := List.forall_mem_cons.1 hfront
    exact .plain hb.le hb.quote hb.backslash (ih hfront)

theorem Spells.isRaw (h : Spells raw s) : IsRaw raw := by
  induction h with
  | nil => exact .nil
  | plain hquote hslash hc _ ih =>
    exact isRaw_append (fun b hb => isPlain_of_mem hquote hslash hc hb) ih
  | short hb _ ih => exact .short hb ih
  | code hunit _ ih => exact .code hunit ih
  | pair hm hn _ _ _ _ _ _ ih => exact .code hm (.code hn ih)

/-! ## Escapes -/

theorem hexValue_eq (h : IsHex b n) : hexValue b = n := by
  unfold IsHex at h
  unfold hexValue
  simp only [UInt8.le_iff_toNat_le]
  simp
  split
  · omega
  · split <;> omega

theorem exists_unit16 {unit : List UInt8} (h : IsUnit unit n) :
    ∃ a b d e, unit = [a, b, d, e] ∧ unit16 a b d e = n := by
  obtain ⟨ha, hb, hd, he⟩ := h
  refine ⟨_, _, _, _, rfl, ?_⟩
  rw [unit16, hexValue_eq ha, hexValue_eq hb, hexValue_eq hd, hexValue_eq he]

theorem shortEscape?_of_mem (h : (b, c) ∈ shortEscapes) :
    b ≠ 0x75 ∧ ∃ x, shortEscape? b = some x ∧ String.utf8EncodeChar c = [x] := by
  simp only [shortEscapes, List.mem_cons, Prod.mk.injEq, List.not_mem_nil, or_false] at h
  rcases h with h | h | h | h | h | h | h | h <;> rw [h.1, h.2] <;>
    exact ⟨by decide, _, rfl, rfl⟩

theorem codePointBytes_toNat (c : Char) :
    codePointBytes c.toNat = some (String.utf8EncodeChar c) := by
  rw [codePointBytes, Utf8.charOf_eq_some_iff.2 rfl, Option.map_some]

theorem unescape_cons (hb : b ≠ 0x5C) (raw : List UInt8) :
    unescape (b :: raw) = (unescape raw).map (b :: ·) := by
  rw [unescape.eq_5 b raw (fun _ _ _ _ _ h _ => hb h) fun _ _ h _ => hb h]
  cases unescape raw <;> rfl

theorem unescape_append (hfront : ∀ b ∈ front, b ≠ 0x5C) (raw : List UInt8) :
    unescape (front ++ raw) = (unescape raw).map (front ++ ·) := by
  induction front with
  | nil => simp
  | cons b front ih =>
    obtain ⟨hb, hfront⟩ := List.forall_mem_cons.1 hfront
    rw [List.cons_append, unescape_cons hb, ih hfront, Option.map_map]
    rfl

theorem unescape_short (hb : b ≠ 0x75) (raw : List UInt8) :
    unescape (0x5C :: b :: raw) =
      (shortEscape? b).bind fun x => (unescape raw).map (x :: ·) := by
  rw [unescape.eq_4 b raw fun _ _ _ _ _ h _ => hb h]
  cases shortEscape? b <;> cases unescape raw <;> rfl

theorem unescape_code {unit : List UInt8} (hunit : IsUnit unit c.toNat) (raw : List UInt8) :
    unescape (0x5C :: 0x75 :: (unit ++ raw)) =
      (unescape raw).map (String.utf8EncodeChar c ++ ·) := by
  obtain ⟨a, b, d, e, rfl, hvalue⟩ := exists_unit16 hunit
  -- a character is no half of a pair
  have hvalid : c.toNat < 0xD800 ∨ 0xDFFF < c.toNat ∧ c.toNat < 0x110000 := c.valid
  have htrailing : ¬ isTrailing c.toNat = true := by
    simp [isTrailing]
    omega
  have hleading : ¬ isLeading c.toNat = true := by
    simp [isLeading]
    omega
  rw [unescape.eq_def]
  simp only [List.cons_append, List.nil_append, hvalue, if_neg htrailing, if_neg hleading,
    codePointBytes_toNat]
  cases unescape raw <;> rfl

theorem unescape_pair {leading trailing : List UInt8} (hm : IsUnit leading m)
    (hn : IsUnit trailing n) (hm₁ : 0xD800 ≤ m) (hm₂ : m < 0xDC00) (hn₁ : 0xDC00 ≤ n)
    (hn₂ : n < 0xE000) (hc : c.toNat = 0x10000 + (m - 0xD800) * 0x400 + (n - 0xDC00))
    (raw : List UInt8) :
    unescape (0x5C :: 0x75 :: (leading ++ 0x5C :: 0x75 :: (trailing ++ raw))) =
      (unescape raw).map (String.utf8EncodeChar c ++ ·) := by
  obtain ⟨a, b, d, e, rfl, hleading⟩ := exists_unit16 hm
  obtain ⟨a', b', d', e', rfl, htrailing⟩ := exists_unit16 hn
  have hnot : ¬ isTrailing m = true := by
    simp [isTrailing]
    omega
  have hfirst : isLeading m = true := by
    simp [isLeading]
    omega
  have hsecond : isTrailing n = true := by
    simp [isTrailing]
    omega
  have hpair : pair m n = c.toNat := hc.symm
  rw [unescape.eq_def]
  simp only [List.cons_append, List.nil_append, hleading, htrailing, if_neg hnot, if_pos hfirst,
    if_pos hsecond, hpair, codePointBytes_toNat]
  cases unescape raw <;> rfl

theorem unescape_of_spells (h : Spells raw s) : unescape raw = some (Utf8.encode s) := by
  induction h with
  | nil => rfl
  | plain hquote hslash hc _ ih =>
    have hfront := fun b hb => (isPlain_of_mem hquote hslash hc (b := b) hb).backslash
    rw [unescape_append hfront, ih, Option.map_some, Utf8.encode_cons]
  | short hb _ ih =>
    obtain ⟨hne, x, hx, hc⟩ := shortEscape?_of_mem hb
    rw [unescape_short hne, hx, ih, Option.bind_some, Option.map_some, Utf8.encode_cons, hc]
    rfl
  | code hunit _ ih => rw [unescape_code hunit, ih, Option.map_some, Utf8.encode_cons]
  | pair hm hn hm₁ hm₂ hn₁ hn₂ hc _ ih =>
    rw [unescape_pair hm hn hm₁ hm₂ hn₁ hn₂ hc, ih, Option.map_some, Utf8.encode_cons]

/-- **Bytes that stand for a text are read as the text.** -/
theorem textOf?_of_spells {text : String} (h : Spells raw text.toList) :
    textOf? raw = some text := by
  show (unescape raw).bind Utf8.text? = some text
  rw [unescape_of_spells h, Option.bind_some, Utf8.text?, Utf8.decode_eq_some_iff.2 rfl,
    Option.map_some, String.ofList_toList]

/-! ## Writing -/

theorem toNat_nibble : ∀ n : Fin 16, (Text.nibble false n).toNat =
    if n.val < 10 then 0x30 + n.val else 0x61 + (n.val - 10) := by
  decide

/-- A digit of base sixteen as it is written. -/
theorem isHex_nibble (hn : n < 16) :
    ∃ b, String.utf8EncodeChar (Text.nibble false n) = [b] ∧ IsHex b n := by
  have hnat := toNat_nibble ⟨n, hn⟩
  dsimp only at hnat
  have hlt : (Text.nibble false n).toNat < 128 := by
    rw [hnat]
    split <;> omega
  have hone := Utf8.encodeChar_of_lt hlt
  have hb := (Utf8.encodeChar_eq_one_iff.1 hone).2
  refine ⟨_, hone, ?_⟩
  unfold IsHex
  rw [hb, hnat]
  split <;> omega

theorem spells_escapeChar (c : Char) (h : Spells raw s) :
    Spells (Utf8.encode (escapeChar c) ++ raw) (c :: s) := by
  have hshort : ∀ {b : UInt8} {d : Char}, String.utf8EncodeChar d = [b] →
      (b, c) ∈ shortEscapes → Spells (Utf8.encode ['\\', d] ++ raw) (c :: s) := by
    intro b d hd hb
    have hbytes : Utf8.encode ['\\', d] ++ raw = 0x5C :: b :: raw := by
      rw [Utf8.encode_cons, Utf8.encode_cons, hd]
      rfl
    rw [hbytes]
    exact .short hb h
  unfold escapeChar
  split
  · exact hshort rfl (by decide)
  · exact hshort rfl (by decide)
  · exact hshort rfl (by decide)
  · exact hshort rfl (by decide)
  · exact hshort rfl (by decide)
  · exact hshort rfl (by decide)
  · exact hshort rfl (by decide)
  · rename_i hquote hslash _ _ _ _ _
    split
    · rename_i hlow
      obtain ⟨x, hx, hx'⟩ := isHex_nibble (n := c.toNat / 16) (by omega)
      obtain ⟨y, hy, hy'⟩ := isHex_nibble (n := c.toNat % 16) (by omega)
      have hunit : IsUnit [0x30, 0x30, x, y] c.toNat := by
        have hzero : IsHex 0x30 0 := .inl ⟨by decide, rfl⟩
        have hvalue := IsUnit.mk hzero hzero hx' hy'
        have hsum : 0 * 4096 + 0 * 256 + c.toNat / 16 * 16 + c.toNat % 16 = c.toNat := by omega
        rwa [hsum] at hvalue
      have hbytes : Utf8.encode ['\\', 'u', '0', '0', Text.nibble false (c.toNat / 16),
          Text.nibble false (c.toNat % 16)] ++ raw =
          0x5C :: 0x75 :: ([0x30, 0x30, x, y] ++ raw) := by
        simp only [Utf8.encode_cons, Utf8.encode_nil, hx, hy]
        rfl
      rw [hbytes]
      exact .code hunit h
    · rename_i hlow
      rw [Utf8.encode_cons, Utf8.encode_nil, List.append_nil]
      exact .plain hquote hslash (Nat.le_of_not_lt hlow) h

/-- What a text is written as stands for it. -/
theorem spells_rawOf (text : String) : Spells (rawOf text) text.toList := by
  unfold rawOf
  induction text.toList with
  | nil => exact .nil
  | cons c s ih =>
    rw [List.flatMap_cons, Utf8.encode_append]
    exact spells_escapeChar c ih

end RadarFeed.Json
