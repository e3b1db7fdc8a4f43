import Mathlib.Tactic.SplitIfs
import RadarFeed.Text.Utf8

/-!
Decoding and encoding of UTF-8 are inverse to each other.

The four forms of a character are characterised by its encoding (`one_eq_some_iff`,
`two_eq_some_iff`, `three_eq_some_iff`, `four_eq_some_iff`); `decode_eq_some_iff` says that what
decodes to a text is exactly its encoding. A cut after some bytes is one after the characters that
have so many (`splitBytes_eq_some_iff`, `slice_eq_some_iff`).
-/

namespace RadarFeed.Utf8

variable {a b d e : UInt8} {c : Char} {n : Nat}

/-! ## The bytes of a character -/

theorem toNat_lt (c : Char) : c.toNat < 0x110000 := by
  have h : c.toNat < 0xD800 ∨ 0xDFFF < c.toNat ∧ c.toNat < 0x110000 := c.valid
  omega

theorem ofNat_eq_iff : UInt8.ofNat n = a ↔ a.toNat = n % 256 := by
  rw [← UInt8.toNat_inj, UInt8.toNat_ofNat']
  exact eq_comm

theorem encodeChar_eq (c : Char) : String.utf8EncodeChar c =
    if c.toNat ≤ 127 then [.ofNat c.toNat]
    else if c.toNat ≤ 2047 then [.ofNat (c.toNat / 64 % 32 + 192), .ofNat (c.toNat % 64 + 128)]
    else if c.toNat ≤ 65535 then
      [.ofNat (c.toNat / 4096 % 16 + 224), .ofNat (c.toNat / 64 % 64 + 128),
        .ofNat (c.toNat % 64 + 128)]
    else
      [.ofNat (c.toNat / 262144 % 8 + 240), .ofNat (c.toNat / 4096 % 64 + 128),
        .ofNat (c.toNat / 64 % 64 + 128), .ofNat (c.toNat % 64 + 128)] :=
  rfl

/-- A character of ASCII is one byte. -/
theorem encodeChar_of_lt (h : c.toNat < 128) : String.utf8EncodeChar c = [.ofNat c.toNat] :=
  if_pos (Nat.le_of_lt_succ h)

theorem encodeChar_eq_one_iff :
    String.utf8EncodeChar c = [a] ↔ c.toNat ≤ 127 ∧ a.toNat = c.toNat := by
  rw [encodeChar_eq]
  split_ifs <;>
    simp only [List.cons.injEq, ofNat_eq_iff, and_true, and_false, reduceCtorEq, false_iff] <;>
    omega

theorem encodeChar_eq_two_iff : String.utf8EncodeChar c = [a, b] ↔
    (127 < c.toNat ∧ c.toNat ≤ 2047) ∧ a.toNat = c.toNat / 64 + 192 ∧
      b.toNat = c.toNat % 64 + 128 := by
  rw [encodeChar_eq]
  split_ifs <;>
    simp only [List.cons.injEq, ofNat_eq_iff, and_true, and_false, reduceCtorEq, false_iff] <;>
    omega

theorem encodeChar_eq_three_iff : String.utf8EncodeChar c = [a, b, d] ↔
    (2047 < c.toNat ∧ c.toNat ≤ 65535) ∧ a.toNat = c.toNat / 4096 + 224 ∧
      b.toNat = c.toNat / 64 % 64 + 128 ∧ d.toNat = c.toNat % 64 + 128 := by
  rw [encodeChar_eq]
  split_ifs <;>
    simp only [List.cons.injEq, ofNat_eq_iff, and_true, and_false, reduceCtorEq, false_iff] <;>
    omega

theorem encodeChar_eq_four_iff : String.utf8EncodeChar c = [a, b, d, e] ↔
    65535 < c.toNat ∧ a.toNat = c.toNat / 262144 + 240 ∧ b.toNat = c.toNat / 4096 % 64 + 128 ∧
      d.toNat = c.toNat / 64 % 64 + 128 ∧ e.toNat = c.toNat % 64 + 128 := by
  have := toNat_lt c
  rw [encodeChar_eq]
  split_ifs <;>
    simp only [List.cons.injEq, ofNat_eq_iff, and_true, and_false, reduceCtorEq, false_iff] <;>
    omega

/-! ## The character of some bytes -/

theorem charOf_eq_some_iff : charOf n = some c ↔ c.toNat = n := by
  unfold charOf
  by_cases h : n.isValidChar
  · rw [dif_pos h, Option.some.injEq]
    constructor
    · rintro rfl
      rfl
    · rintro rfl
      exact Char.ext (UInt32.toNat_inj.1 rfl)
  · rw [dif_neg h]
    constructor
    · intro hnone
      cases hnone
    · rintro rfl
      exact absurd c.valid h

theorem continuation_eq_some_iff {x : Nat} :
    continuation b = some x ↔ x < 64 ∧ b.toNat = x + 128 := by
  simp [continuation, UInt8.le_iff_toNat_le, UInt8.lt_iff_toNat_lt]
  omega

theorem one_eq_some_iff (h : a < 0x80) :
    charOf a.toNat = some c ↔ String.utf8EncodeChar c = [a] := by
  rw [charOf_eq_some_iff, encodeChar_eq_one_iff]
  rw [UInt8.lt_iff_toNat_lt] at h
  simp at h
  omega

theorem two_eq_some_iff : two a b = some c ↔ String.utf8EncodeChar c = [a, b] := by
  simp only [two, Option.bind_eq_bind, Option.bind_eq_some_iff, continuation_eq_some_iff,
    Option.ite_none_right_eq_some, charOf_eq_some_iff, encodeChar_eq_two_iff, Bool.and_eq_true,
    decide_eq_true_eq, UInt8.le_iff_toNat_le, UInt8.lt_iff_toNat_lt]
  constructor
  · rintro ⟨x, ⟨hx, hb⟩, ha, hc⟩
    simp at ha
    omega
  · rintro ⟨hc, ha, hb⟩
    refine ⟨c.toNat % 64, ⟨by omega, hb⟩, ?_, by omega⟩
    simp
    omega

theorem three_eq_some_iff : three a b d = some c ↔ String.utf8EncodeChar c = [a, b, d] := by
  simp only [three, Option.bind_eq_bind, Option.bind_eq_some_iff, continuation_eq_some_iff,
    Option.ite_none_right_eq_some, charOf_eq_some_iff, encodeChar_eq_three_iff, Bool.and_eq_true,
    decide_eq_true_eq, UInt8.le_iff_toNat_le, UInt8.lt_iff_toNat_lt]
  constructor
  · rintro ⟨x, ⟨hx, hb⟩, y, ⟨hy, hd⟩, ha, hc⟩
    simp at ha
    omega
  · rintro ⟨hc, ha, hb, hd⟩
    refine ⟨c.toNat / 64 % 64, ⟨by omega, hb⟩, c.toNat % 64, ⟨by omega, hd⟩, ?_, by omega⟩
    simp
    omega

theorem four_eq_some_iff :
    four a b d e = some c ↔ String.utf8EncodeChar c = [a, b, d, e] := by
  simp only [four, Option.bind_eq_bind, Option.bind_eq_some_iff, continuation_eq_some_iff,
    Option.ite_none_right_eq_some, charOf_eq_some_iff, encodeChar_eq_four_iff, Bool.and_eq_true,
    decide_eq_true_eq, UInt8.le_iff_toNat_le]
  constructor
  · rintro ⟨x, ⟨hx, hb⟩, y, ⟨hy, hd⟩, z, ⟨hz, he⟩, ha, hc⟩
    have := toNat_lt c
    simp at ha
    omega
  · rintro ⟨hc, ha, hb, hd, he⟩
    have := toNat_lt c
    refine ⟨c.toNat / 4096 % 64, ⟨by omega, hb⟩, c.toNat / 64 % 64, ⟨by omega, hd⟩, c.toNat % 64,
      ⟨by omega, he⟩, ?_, by omega⟩
    simp
    omega

/-! ## Texts -/

@[simp] theorem encode_nil : encode [] = [] := rfl

@[simp] theorem encode_cons (c : Char) (s : List Char) :
    encode (c :: s) = String.utf8EncodeChar c ++ encode s :=
  List.flatMap_cons

theorem encode_append (s t : List Char) : encode (s ++ t) = encode s ++ encode t :=
  List.flatMap_append

/-- A character has one to four bytes. -/
theorem encodeChar_cases (c : Char) :
    (∃ a, String.utf8EncodeChar c = [a]) ∨ (∃ a b, String.utf8EncodeChar c = [a, b]) ∨
      (∃ a b d, String.utf8EncodeChar c = [a, b, d]) ∨
        ∃ a b d e, String.utf8EncodeChar c = [a, b, d, e] := by
  rw [encodeChar_eq]
  split_ifs
  · exact .inl ⟨_, rfl⟩
  · exact .inr (.inl ⟨_, _, rfl⟩)
  · exact .inr (.inr (.inl ⟨_, _, _, rfl⟩))
  · exact .inr (.inr (.inr ⟨_, _, _, _, rfl⟩))

theorem decode_encodeChar_append (c : Char) (rest : List UInt8) :
    decode (String.utf8EncodeChar c ++ rest) = (decode rest).map (c :: ·) := by
  obtain ⟨a, h⟩ | ⟨a, b, h⟩ | ⟨a, b, d, h⟩ | ⟨a, b, d, e, h⟩ := encodeChar_cases c
  · obtain ⟨hc, ha⟩ := encodeChar_eq_one_iff.1 h
    have h₁ : a < 0x80 := by rw [UInt8.lt_iff_toNat_lt]; simp; omega
    rw [h, List.cons_append, List.nil_append, decode.eq_def]
    simp only [if_pos h₁, (one_eq_some_iff h₁).2 h]
    cases decode rest <;> rfl
  · obtain ⟨hc, ha, -⟩ := encodeChar_eq_two_iff.1 h
    have h₁ : ¬ a < 0x80 := by rw [UInt8.lt_iff_toNat_lt]; simp; omega
    have h₂ : a < 0xE0 := by rw [UInt8.lt_iff_toNat_lt]; simp; omega
    rw [h, List.cons_append, decode.eq_def]
    simp only [List.cons_append, List.nil_append, if_neg h₁, if_pos h₂,
      two_eq_some_iff.2 h]
    cases decode rest <;> rfl
  · obtain ⟨hc, ha, -⟩ := encodeChar_eq_three_iff.1 h
    have h₁ : ¬ a < 0x80 := by rw [UInt8.lt_iff_toNat_lt]; simp; omega
    have h₂ : ¬ a < 0xE0 := by rw [UInt8.lt_iff_toNat_lt]; simp; omega
    have h₃ : a < 0xF0 := by rw [UInt8.lt_iff_toNat_lt]; simp; omega
    rw [h, List.cons_append, decode.eq_def]
    simp only [List.cons_append, List.nil_append, if_neg h₁, if_neg h₂, if_pos h₃,
      three_eq_some_iff.2 h]
    cases decode rest <;> rfl
  · obtain ⟨hc, ha, -⟩ := encodeChar_eq_four_iff.1 h
    have h₁ : ¬ a < 0x80 := by rw [UInt8.lt_iff_toNat_lt]; simp; omega
    have h₂ : ¬ a < 0xE0 := by rw [UInt8.lt_iff_toNat_lt]; simp; omega
    have h₃ : ¬ a < 0xF0 := by rw [UInt8.lt_iff_toNat_lt]; simp; omega
    rw [h, List.cons_append, decode.eq_def]
    simp only [List.cons_append, List.nil_append, if_neg h₁, if_neg h₂, if_neg h₃,
      four_eq_some_iff.2 h]
    cases decode rest <;> rfl

/-- A text that is read as a character and a text is encoded as they are. -/
theorem encode_of_bind {x : Option Char} {y : Option (List Char)} {front rest : List UInt8}
    {s : List Char} (hx : ∀ c, x = some c → String.utf8EncodeChar c = front)
    (hy : ∀ {r}, y = some r → encode r = rest)
    (h : (do let c ← x; return c :: (← y)) = some s) : encode s = front ++ rest := by
  simp only [Option.bind_eq_bind, Option.bind_eq_some_iff] at h
  obtain ⟨c, hc, r, hr, hs⟩ := h
  rw [← Option.some.inj hs, encode_cons, hx c hc, hy hr]

theorem encode_of_decode {bytes : List UInt8} {s : List Char} (h : decode bytes = some s) :
    encode s = bytes := by
  fun_induction decode bytes generalizing s with
  | case1 => rw [← Option.some.inj h, encode_nil]
  | case2 a rest h₁ ih => exact encode_of_bind (fun c => (one_eq_some_iff h₁).1) ih h
  | case3 a h₁ b rest h₂ ih => exact encode_of_bind (fun c => two_eq_some_iff.1) ih h
  | case4 a h₁ b h₂ d rest h₃ ih => exact encode_of_bind (fun c => three_eq_some_iff.1) ih h
  | case5 a h₁ b h₂ d h₃ e rest ih => exact encode_of_bind (fun c => four_eq_some_iff.1) ih h
  | case6 | case7 | case8 => cases h

/-- What decodes to a text is its encoding. -/
theorem decode_eq_some_iff {bytes : List UInt8} {s : List Char} :
    decode bytes = some s ↔ encode s = bytes := by
  constructor
  · exact encode_of_decode
  · rintro rfl
    induction s with
    | nil => rw [encode_nil, decode]
    | cons c s ih => rw [encode_cons, decode_encodeChar_append, ih, Option.map_some]

theorem encode_inj {s t : List Char} : encode s = encode t ↔ s = t := by
  refine ⟨fun h => ?_, congrArg encode⟩
  rw [← decode_eq_some_iff, decode_eq_some_iff.2 rfl] at h
  exact (Option.some.inj h).symm

theorem bytes_inj {s t : String} : bytes s = bytes t ↔ s = t :=
  encode_inj.trans String.toList_inj

/-- The bytes are those of a text. -/
def IsValid (bytes : List UInt8) : Prop :=
  ∃ s, encode s = bytes

/-! ## Cuts -/

theorem size_cons (c : Char) (s : List Char) : size (c :: s) = c.utf8Size + size s := rfl

theorem size_append (s t : List Char) : size (s ++ t) = size s + size t := by
  induction s with
  | nil => simp [size]
  | cons c s ih => rw [List.cons_append, size_cons, size_cons, ih, Nat.add_assoc]

theorem length_encode (s : List Char) : (encode s).length = size s := by
  induction s with
  | nil => rfl
  | cons c s ih => rw [encode_cons, List.length_append, String.length_utf8EncodeChar, ih, size_cons]

theorem size_eq_zero_iff {s : List Char} : size s = 0 ↔ s = [] := by
  cases s with
  | nil => simp [size]
  | cons c s =>
    have hc : 0 < c.utf8Size := c.utf8Size_pos
    rw [size_cons]
    simp
    omega

/-- A text is cut after as many bytes as its front has. -/
theorem splitBytes_eq_some_iff {s front back : List Char} :
    splitBytes n s = some (front, back) ↔ s = front ++ back ∧ size front = n := by
  induction s generalizing n front back with
  | nil =>
    have hnil : [] = front ++ back ↔ front = [] ∧ back = [] := by
      rw [eq_comm, List.append_eq_nil_iff]
    cases n with
    | zero =>
      rw [hnil, size_eq_zero_iff]
      simp only [splitBytes, Option.some.injEq, Prod.mk.injEq]
      constructor
      · rintro ⟨rfl, rfl⟩
        simp
      · rintro ⟨⟨rfl, rfl⟩, -⟩
        simp
    | succ n =>
      simp only [splitBytes, hnil, reduceCtorEq, false_iff]
      rintro ⟨⟨rfl, rfl⟩, h⟩
      simp [size] at h
  | cons c s ih =>
    cases front with
    | nil =>
      cases n with
      | zero =>
        simp only [splitBytes, Option.some.injEq, Prod.mk.injEq, true_and, List.nil_append, size,
          List.foldr_nil, and_true]
      | succ n =>
        rw [splitBytes]
        split <;> simp [size]
    | cons d front =>
      have hd : 0 < d.utf8Size := d.utf8Size_pos
      cases n with
      | zero =>
        simp only [splitBytes, Option.some.injEq, Prod.mk.injEq, size_cons]
        simp
        omega
      | succ n =>
        rw [splitBytes, List.cons_append, List.cons.injEq, size_cons]
        by_cases hc : c.utf8Size ≤ n + 1
        · rw [if_pos hc]
          simp only [Option.map_eq_some_iff, Prod.exists, ih, Prod.mk.injEq, List.cons.injEq]
          constructor
          · rintro ⟨f, b, ⟨rfl, hsize⟩, ⟨rfl, rfl⟩, rfl⟩
            exact ⟨⟨rfl, rfl⟩, by omega⟩
          · rintro ⟨⟨rfl, rfl⟩, hsize⟩
            exact ⟨front, back, ⟨rfl, by omega⟩, ⟨rfl, rfl⟩, rfl⟩
        · rw [if_neg hc]
          simp only [reduceCtorEq, false_iff]
          rintro ⟨⟨rfl, -⟩, hsize⟩
          omega

/-- Bytes from one place to another, with what stands before and behind them. -/
theorem slice_eq_some_iff {start stop : Nat} {s t : List Char} :
    slice start stop s = some t ↔
      ∃ front back, s = front ++ (t ++ back) ∧ size front = start ∧ size t = stop - start := by
  simp only [slice, Option.bind_eq_bind, Option.bind_eq_some_iff, Prod.exists,
    splitBytes_eq_some_iff]
  constructor
  · rintro ⟨front, rest, ⟨rfl, hf⟩, u, back, ⟨rfl, ht⟩, h⟩
    obtain rfl := Option.some.inj h
    exact ⟨front, back, rfl, hf, ht⟩
  · rintro ⟨front, back, rfl, hf, ht⟩
    exact ⟨front, t ++ back, ⟨rfl, hf⟩, t, back, ⟨rfl, ht⟩, rfl⟩

end RadarFeed.Utf8
