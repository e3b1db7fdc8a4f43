import RadarFeed.Proofs.Json.Token

/-!
JSON texts and their values.

`Value.IsText` says that a text is one of a value: it spells the tokens of the value, whatever
blanks stand between them. Such a text is read as the value (`read_of_isText`), and among the texts
of a value is the one that it is rendered as (`isText_render`).
-/

namespace RadarFeed.Json

open Decimal (Literal)

namespace Value

/-! ## Tokens -/

mutual

/-- The tokens of a value, in front of `rest`. -/
def tokensOnto (rest : List Token) : Value → List Token
  | .null => .null :: rest
  | .bool b => .bool b :: rest
  | .number l => .number l :: rest
  | .text raw => .text raw :: rest
  | .array [] => .openArray :: .closeArray :: rest
  | .array (v :: vs) => .openArray :: tokensOnto (itemTokens (.closeArray :: rest) vs) v
  | .object [] => .openObject :: .closeObject :: rest
  | .object ((name, v) :: fs) =>
    .openObject :: .text name :: .colon :: tokensOnto (fieldTokens (.closeObject :: rest) fs) v

/-- The tokens of the later items of an array, in front of `rest`. -/
def itemTokens (rest : List Token) : List Value → List Token
  | [] => rest
  | v :: vs => .comma :: tokensOnto (itemTokens rest vs) v

/-- The tokens of the later fields of an object, in front of `rest`. -/
def fieldTokens (rest : List Token) : List (List UInt8 × Value) → List Token
  | [] => rest
  | (name, v) :: fs => .comma :: .text name :: .colon :: tokensOnto (fieldTokens rest fs) v

end

/-- The text is one of the value. -/
def IsText (v : Value) (s : List UInt8) : Prop :=
  Spelled (v.tokensOnto []) s

/-! ## Reading -/

/-- No value begins with the end of an array. -/
theorem begin_tokensOnto (stack : List Frame) (rest : List Token) (v : Value) :
    Reading.run (.firstItem stack) (v.tokensOnto rest) =
      Reading.run (.value (.array [] :: stack)) (v.tokensOnto rest) := by
  cases v with
  | null | bool | number | text => rfl
  | array vs => cases vs <;> rfl
  | object fs => cases fs <;> rfl

mutual

/-- The tokens of a value are read as the value, -/
theorem run_tokensOnto (stack : List Frame) (rest : List Token) : ∀ v : Value,
    Reading.run (.value stack) (v.tokensOnto rest) = Reading.run (.after v stack) rest
  | .null | .bool _ | .number _ | .text _ | .array [] | .object [] => rfl
  | .array (v :: vs) => by
    show Reading.run (.firstItem stack) (v.tokensOnto (itemTokens (.closeArray :: rest) vs)) = _
    rw [begin_tokensOnto, run_tokensOnto _ _ v, run_itemTokens [] v stack rest vs]
    rfl
  | .object ((name, v) :: fs) => by
    show Reading.run (.value (.field [] name :: stack))
      (v.tokensOnto (fieldTokens (.closeObject :: rest) fs)) = _
    rw [run_tokensOnto _ _ v, run_fieldTokens [] name v stack rest fs]
    rfl

/-- those of later items as the items that follow, -/
theorem run_itemTokens (done : List Value) (v : Value) (stack : List Frame) (rest : List Token) :
    ∀ vs : List Value,
      Reading.run (.after v (.array done :: stack)) (itemTokens (.closeArray :: rest) vs) =
        Reading.run (.after (.array (done.reverse ++ v :: vs)) stack) rest
  | [] => by
    show Reading.run (.after (.array (v :: done).reverse) stack) rest = _
    rw [List.reverse_cons]
  | w :: vs => by
    show Reading.run (.value (.array (v :: done) :: stack))
      (w.tokensOnto (itemTokens (.closeArray :: rest) vs)) = _
    rw [run_tokensOnto _ _ w, run_itemTokens (v :: done) w stack rest vs]
    simp

/-- and those of later fields as the fields. -/
theorem run_fieldTokens (done : List (List UInt8 × Value)) (name : List UInt8) (v : Value)
    (stack : List Frame) (rest : List Token) : ∀ fs : List (List UInt8 × Value),
      Reading.run (.after v (.field done name :: stack)) (fieldTokens (.closeObject :: rest) fs) =
        Reading.run (.after (.object (done.reverse ++ (name, v) :: fs)) stack) rest
  | [] => by
    show Reading.run (.after (.object ((name, v) :: done).reverse) stack) rest = _
    rw [List.reverse_cons]
  | (other, w) :: fs => by
    show Reading.run (.value (.field ((name, v) :: done) other :: stack))
      (w.tokensOnto (fieldTokens (.closeObject :: rest) fs)) = _
    rw [run_tokensOnto _ _ w, run_fieldTokens ((name, v) :: done) other w stack rest fs]
    simp

end

theorem ofTokens_tokensOnto (v : Value) : ofTokens (v.tokensOnto []) = some v := by
  rw [ofTokens, run_tokensOnto]
  rfl

/-! ## Words -/

/-- Tokens that may follow any token. -/
structure Follows (ts : List Token) : Prop where
  chain : ts.IsChain Token.Apart
  head : ∀ t ∈ ts.head?, t.isWord = false

theorem follows_nil : Follows [] :=
  ⟨.nil, fun t ht => by cases ht⟩

theorem Follows.isChain_cons {ts : List Token} (h : Follows ts) (t : Token) :
    (t :: ts).IsChain Token.Apart :=
  List.isChain_cons.2 ⟨fun u hu => .inr (h.head u hu), h.chain⟩

theorem follows_cons {t : Token} {ts : List Token} (ht : t.isWord = false)
    (h : ts.IsChain Token.Apart) : Follows (t :: ts) := by
  refine ⟨List.isChain_cons.2 ⟨fun u _ => .inl ht, h⟩, fun u hu => ?_⟩
  rw [← Option.some.inj hu]
  exact ht

mutual

/-- Where words are apart in what follows a value, they are so from the beginning of the value, -/
theorem isChain_tokensOnto {rest : List Token} (h : Follows rest) : ∀ v : Value,
    (v.tokensOnto rest).IsChain Token.Apart
  | .null | .bool _ | .number _ | .text _ => h.isChain_cons _
  | .array [] | .object [] => (follows_cons rfl h.chain).isChain_cons _
  | .array (v :: vs) =>
    (follows_cons rfl (isChain_tokensOnto (follows_itemTokens (follows_cons rfl h.chain) vs)
      v)).chain
  | .object ((_, v) :: fs) =>
    have hv := isChain_tokensOnto (follows_fieldTokens (follows_cons rfl h.chain) fs) v
    (follows_cons rfl (follows_cons rfl (follows_cons rfl hv).chain).chain).chain

/-- from the beginning of later items, -/
theorem follows_itemTokens {rest : List Token} (h : Follows rest) : ∀ vs : List Value,
    Follows (itemTokens rest vs)
  | [] => h
  | v :: vs => follows_cons rfl (isChain_tokensOnto (follows_itemTokens h vs) v)

/-- and from that of later fields. -/
theorem follows_fieldTokens {rest : List Token} (h : Follows rest) :
    ∀ fs : List (List UInt8 × Value), Follows (fieldTokens rest fs)
  | [] => h
  | (_, v) :: fs =>
    have hv := isChain_tokensOnto (follows_fieldTokens h fs) v
    follows_cons rfl (follows_cons rfl (follows_cons rfl hv).chain).chain

end

/-- **A text of a value is read as the value.** -/
theorem read_of_isText {v : Value} {s : List UInt8} (h : v.IsText s) : read s = some v := by
  have hscan := scan_of_spelled h (isChain_tokensOnto follows_nil v)
  show (do ofTokens (← Token.scan s)) = some v
  rw [hscan]
  exact ofTokens_tokensOnto v

/-! ## Rendering -/

mutual

/-- Texts and numbers can be written, the texts between quotes. -/
def Proper : Value → Prop
  | .null => True
  | .bool _ => True
  | .number l => IsNumber l (literalBytes l)
  | .text raw => IsRaw raw
  | .array vs => ProperItems vs
  | .object fs => ProperFields fs

def ProperItems : List Value → Prop
  | [] => True
  | v :: vs => v.Proper ∧ ProperItems vs

def ProperFields : List (List UInt8 × Value) → Prop
  | [] => True
  | (name, v) :: fs => IsRaw name ∧ v.Proper ∧ ProperFields fs

end

theorem spelled_text {raw rest : List UInt8} {ts : List Token} (hraw : IsRaw raw)
    (h : Spelled ts rest) : Spelled (.text raw :: ts) (0x22 :: raw ++ 0x22 :: rest) := by
  have htoken := Spelled.token (.text hraw) h
  rwa [List.cons_append, List.append_assoc] at htoken

mutual

/-- What a value is rendered as spells its tokens, -/
theorem spelled_renderOnto {ts : List Token} {rest : List UInt8} (h : Spelled ts rest) :
    ∀ v : Value, v.Proper → Spelled (v.tokensOnto ts) (renderOnto rest v)
  | .null, _ => .token .null h
  | .bool true, _ => .token .true h
  | .bool false, _ => .token .false h
  | .number _, hl => .token (.number hl) h
  | .text _, hraw => spelled_text hraw h
  | .array [], _ => .token .openArray (.token .closeArray h)
  | .array (v :: vs), hvs =>
    have hrest := spelled_renderItems (.token .closeArray h) vs hvs.2
    .token .openArray (spelled_renderOnto hrest v hvs.1)
  | .object [], _ => .token .openObject (.token .closeObject h)
  | .object ((name, v) :: fs), hfs => by
    have hrest := spelled_renderFields (.token .closeObject h) fs hfs.2.2
    have hv := spelled_renderOnto hrest v hfs.2.1
    show Spelled _ ([0x7B] ++ (0x22 :: name ++ 0x22 :: ([0x3A] ++ renderOnto _ v)))
    exact .token .openObject (spelled_text hfs.1 (.token .colon hv))

/-- so do later items, -/
theorem spelled_renderItems {ts : List Token} {rest : List UInt8} (h : Spelled ts rest) :
    ∀ vs : List Value, ProperItems vs → Spelled (itemTokens ts vs) (renderItems rest vs)
  | [], _ => h
  | v :: vs, hvs => .token .comma (spelled_renderOnto (spelled_renderItems h vs hvs.2) v hvs.1)

/-- and later fields. -/
theorem spelled_renderFields {ts : List Token} {rest : List UInt8} (h : Spelled ts rest) :
    ∀ fs : List (List UInt8 × Value), ProperFields fs →
      Spelled (fieldTokens ts fs) (renderFields rest fs)
  | [], _ => h
  | (name, v) :: fs, hfs => by
    have hv := spelled_renderOnto (spelled_renderFields h fs hfs.2.2) v hfs.2.1
    show Spelled _ ([0x2C] ++ (0x22 :: name ++ 0x22 :: ([0x3A] ++ renderOnto _ v)))
    exact .token .comma (spelled_text hfs.1 (.token .colon hv))

end

/-- What a value is rendered as is one of its texts. -/
theorem isText_render {v : Value} (h : v.Proper) : v.IsText v.render :=
  spelled_renderOnto .nil v h

end Value

end RadarFeed.Json
