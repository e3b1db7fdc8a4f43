import Mathlib.Algebra.Group.Nat.Defs
import Mathlib.Data.List.Forall2
import RadarFeed.Proofs.Json.Number
import RadarFeed.Proofs.Json.Text
import RadarFeed.Settings

/-!
Settings and the texts that they are read from.

`Given` is what a field of an object tells about settings: the value of one of theirs, or nothing if
they have none of its name. From a text of an object that gives no field of theirs twice, what is
read is the default with the given fields in place of its own, however the names and the texts in it
are spelled, and in whatever order and among whatever others the fields come. What settings are
written as is such a text that gives all fields (`read_written`).
-/

namespace RadarFeed.Settings

open Decimal (digitsValue)
open Json (Value Spells)

/-- What a field tells about settings. -/
inductive Given where
  | retryIntervalSecs (n : Nat)
  | defaultLevel3Product (text : String)
  | eventCapacity (n : Nat)
  /-- A field that settings do not have. -/
  | unknown (name : String)

namespace Given

def name : Given → String
  | .retryIntervalSecs _ => "retryIntervalSecs"
  | .defaultLevel3Product _ => "defaultLevel3Product"
  | .eventCapacity _ => "eventCapacity"
  | .unknown name => name

/-- The value tells that: it is of the type of the field and in its range, or the field is
unknown. -/
inductive Holds : Given → Value → Prop where
  | retryIntervalSecs {n : Nat} {digits : List Nat} : digitsValue digits = n → n < 2 ^ 64 →
      Holds (.retryIntervalSecs n) (.number ⟨false, digits, none, none⟩)
  | defaultLevel3Product {text : String} {raw : List UInt8} : Spells raw text.toList →
      Holds (.defaultLevel3Product text) (.text raw)
  | eventCapacity {n : Nat} {digits : List Nat} : digitsValue digits = n → n < 2 ^ 64 →
      Holds (.eventCapacity n) (.number ⟨false, digits, none, none⟩)
  | unknown {name : String} {v : Value} : name ∉ fieldNames → Holds (.unknown name) v

/-- The field tells that, under any spelling of its name. -/
structure IsWritten (g : Given) (field : List UInt8 × Value) : Prop where
  name : Spells field.1 g.name.toList
  value : g.Holds field.2

end Given

/-- Settings with what a field tells in place of their own. -/
def override (s : Settings) : Given → Settings
  | .retryIntervalSecs n => { s with retryIntervalSecs := n }
  | .defaultLevel3Product text => { s with defaultLevel3Product := text }
  | .eventCapacity n => { s with eventCapacity := n }
  | .unknown _ => s

/-! ## Fields by their names -/

variable {given : List Given} {fields : List (List UInt8 × Value)} {named : List (String × Value)}

/-- The named fields tell what is given, one after the other. -/
def Tell (given : List Given) (named : List (String × Value)) : Prop :=
  List.Forall₂ (fun g f => f.1 = g.name ∧ g.Holds f.2) given named

theorem fields?_eq (h : List.Forall₂ Given.IsWritten given fields) :
    ∃ named, (Value.object fields).fields? = some named ∧ Tell given named := by
  induction h with
  | nil => exact ⟨[], rfl, .nil⟩
  | @cons g field given fields hfield _ ih =>
    obtain ⟨named, hnamed, htell⟩ := ih
    refine ⟨(g.name, field.2) :: named, ?_, .cons ⟨rfl, hfield.value⟩ htell⟩
    obtain ⟨raw, v⟩ := field
    rw [Value.fields?] at hnamed ⊢
    rw [List.mapM_cons, hnamed]
    dsimp only
    rw [Json.textOf?_of_spells hfield.name]
    rfl

theorem valuesOf_of_tell (h : Tell given named) (name : String) :
    List.Forall₂ Given.Holds (given.filter (·.name = name)) (Value.valuesOf named name) := by
  induction h with
  | nil => exact .nil
  | @cons g f given named hf _ ih =>
    unfold Value.valuesOf at ih ⊢
    by_cases hname : g.name = name
    · have hvalue : (if f.1 = name then some f.2 else none) = some f.2 :=
        if_pos (hf.1.trans hname)
      rw [List.filter_cons_of_pos (by simpa using hname), List.filterMap_cons, hvalue]
      exact .cons hf.2 ih
    · have hvalue : (if f.1 = name then some f.2 else none) = none :=
        if_neg (hf.1.symm ▸ hname)
      rw [List.filter_cons_of_neg (by simpa using hname), List.filterMap_cons, hvalue]
      exact ih

/-- A field that is not given twice is missing, or one value is found for it. -/
theorem single_of_tell {name : String} (h : Tell given named)
    (hcount : given.countP (·.name = name) ≤ 1) :
    (given.filter (·.name = name) = [] ∧ Value.single named name = some none) ∨
      ∃ g v, given.filter (·.name = name) = [g] ∧ g.Holds v ∧
        Value.single named name = some (some v) := by
  have hvalues := valuesOf_of_tell h name
  rw [List.countP_eq_length_filter] at hcount
  rw [Value.single]
  generalize given.filter (·.name = name) = found at hvalues hcount ⊢
  generalize Value.valuesOf named name = values at hvalues ⊢
  cases hvalues with
  | nil => exact .inl ⟨rfl, rfl⟩
  | @cons g v gs vs hv hrest =>
    cases hrest with
    | nil => exact .inr ⟨g, v, rfl, hv, rfl⟩
    | cons => simp at hcount

/-! ## One field -/

/-- A field of settings by its name: `read` takes from a value what the field is overridden with,
and no other field overrides it. -/
structure IsField {α : Type} (name : String) (read : Value → Option α) (value : Settings → α) :
    Prop where
  same : ∀ (s : Settings) {g : Given} {v : Value}, g.name = name → g.Holds v →
    read v = some (value (s.override g))
  other : ∀ (s : Settings) {g : Given}, g.name ≠ name → value (s.override g) = value s

theorem isField_retryIntervalSecs :
    IsField "retryIntervalSecs" Value.word? Settings.retryIntervalSecs where
  same s g v hname hv := by
    cases hv with
    | retryIntervalSecs hn hlt => exact Json.word?_of_digits hn hlt
    | unknown hunknown =>
      obtain rfl := hname
      exact absurd (by simp [fieldNames]) hunknown
    | defaultLevel3Product | eventCapacity => simp [Given.name] at hname
  other s g hname := by
    cases g with
    | retryIntervalSecs => exact absurd rfl hname
    | _ => rfl

theorem isField_defaultLevel3Product :
    IsField "defaultLevel3Product" Value.text? Settings.defaultLevel3Product where
  same s g v hname hv := by
    cases hv with
    | defaultLevel3Product htext => exact Json.textOf?_of_spells htext
    | unknown hunknown =>
      obtain rfl := hname
      exact absurd (by simp [fieldNames]) hunknown
    | retryIntervalSecs | eventCapacity => simp [Given.name] at hname
  other s g hname := by
    cases g with
    | defaultLevel3Product => exact absurd rfl hname
    | _ => rfl

theorem isField_eventCapacity : IsField "eventCapacity" Value.word? Settings.eventCapacity where
  same s g v hname hv := by
    cases hv with
    | eventCapacity hn hlt => exact Json.word?_of_digits hn hlt
    | unknown hunknown =>
      obtain rfl := hname
      exact absurd (by simp [fieldNames]) hunknown
    | retryIntervalSecs | defaultLevel3Product => simp [Given.name] at hname
  other s g hname := by
    cases g with
    | eventCapacity => exact absurd rfl hname
    | _ => rfl

section Field

variable {α : Type} {name : String} {value : Settings → α} {read : Value → Option α}

theorem IsField.foldl_of_ne (hfield : IsField name read value) (hgiven : ∀ g ∈ given, g.name ≠ name)
    (s : Settings) : value (given.foldl override s) = value s := by
  induction given generalizing s with
  | nil => rfl
  | cons g given ih =>
    obtain ⟨hg, hgiven⟩ := List.forall_mem_cons.1 hgiven
    rw [List.foldl_cons, ih hgiven, hfield.other s hg]

/-- What is read for a field is what overrides it, or what it was. -/
theorem IsField.withDefault (hfield : IsField name read value) (h : Tell given named)
    (hcount : given.countP (·.name = name) ≤ 1) (s : Settings) :
    ∃ found, Value.single named name = some found ∧
      Value.withDefault (value s) read found = some (value (given.foldl override s)) := by
  obtain ⟨hnone, hfound⟩ | ⟨g, v, hone, hv, hfound⟩ := single_of_tell h hcount
  · refine ⟨none, hfound, ?_⟩
    have hgiven : ∀ g ∈ given, g.name ≠ name := by simpa using hnone
    rw [hfield.foldl_of_ne hgiven]
    rfl
  · refine ⟨some v, hfound, ?_⟩
    obtain ⟨before, after, rfl, -, hg, hafter⟩ := List.filter_eq_cons_iff.1 hone
    have hother : ∀ g ∈ after, g.name ≠ name := by simpa using hafter
    rw [List.foldl_append, List.foldl_cons, hfield.foldl_of_ne hother]
    exact hfield.same _ (by simpa using hg) hv

end Field

/-! ## All fields -/

theorem ofJson_of_tell (hfields : (Value.object fields).fields? = some named)
    (h : Tell given named) (hcount : ∀ name ∈ fieldNames, given.countP (·.name = name) ≤ 1) :
    ofJson (.object fields) = some (given.foldl override default) := by
  obtain ⟨retry, hretry, hretry'⟩ := isField_retryIntervalSecs.withDefault h
    (hcount "retryIntervalSecs" (by simp [fieldNames])) default
  obtain ⟨product, hproduct, hproduct'⟩ := isField_defaultLevel3Product.withDefault h
    (hcount "defaultLevel3Product" (by simp [fieldNames])) default
  obtain ⟨capacity, hcapacity, hcapacity'⟩ := isField_eventCapacity.withDefault h
    (hcount "eventCapacity" (by simp [fieldNames])) default
  have hrecord : (Value.object fields).record? fieldNames = some [retry, product, capacity] := by
    show (do fieldNames.mapM (Value.single (← (Value.object fields).fields?))) = _
    rw [hfields]
    simp [fieldNames, hretry, hproduct, hcapacity]
  rw [ofJson, hrecord]
  dsimp only [Option.bind_eq_bind, Option.bind_some]
  rw [hretry', hproduct', hcapacity']
  rfl

/-- What is read from a text that gives no field twice. -/
theorem read_of_isWritten {text : List UInt8} (hgiven : List.Forall₂ Given.IsWritten given fields)
    (hcount : ∀ name ∈ fieldNames, given.countP (·.name = name) ≤ 1)
    (htext : (Value.object fields).IsText text) :
    read text = some (given.foldl override default) := by
  obtain ⟨named, hfields, htell⟩ := fields?_eq hgiven
  rw [read, Value.read_of_isText htext]
  exact ofJson_of_tell hfields htell hcount

/-! ## Writing -/

theorem proper_toJson (s : Settings) : s.toJson.Proper := by
  have hname : ∀ name, Json.IsRaw (Json.rawOf name) := fun name => (Json.spells_rawOf name).isRaw
  exact ⟨hname _, Json.proper_ofNat _, hname _, hname _, hname _, Json.proper_ofNat _, trivial⟩

/-- What settings are written as gives all of their fields. -/
def asGiven (s : Settings) : List Given :=
  [.retryIntervalSecs s.retryIntervalSecs, .defaultLevel3Product s.defaultLevel3Product,
    .eventCapacity s.eventCapacity]

theorem isWritten_asGiven {s : Settings} (hretry : s.retryIntervalSecs < 2 ^ 64)
    (hcapacity : s.eventCapacity < 2 ^ 64) : ∃ fields, s.toJson = .object fields ∧
    List.Forall₂ Given.IsWritten s.asGiven fields := by
  have hspells := Json.spells_rawOf
  have hvalue := fun n => (Json.digitsOf_spec n).2.2
  exact ⟨_, rfl, .cons ⟨hspells _, .retryIntervalSecs (hvalue _) hretry⟩
    (.cons ⟨hspells _, .defaultLevel3Product (hspells _)⟩
      (.cons ⟨hspells _, .eventCapacity (hvalue _) hcapacity⟩ .nil))⟩

/-- **Settings are read as they were written, and from any object that gives no field of theirs
twice as the default with the given fields in place of its own.** -/
theorem read_written :
    (∀ s : Settings, s.retryIntervalSecs < 2 ^ 64 → s.eventCapacity < 2 ^ 64 →
      read s.write = some s) ∧
    ∀ (given : List Given) (fields : List (List UInt8 × Value)) (text : List UInt8),
      List.Forall₂ Given.IsWritten given fields →
      (∀ name ∈ fieldNames, given.countP (·.name = name) ≤ 1) →
      (Value.object fields).IsText text → read text = some (given.foldl override default) := by
  refine ⟨fun s hretry hcapacity => ?_, fun given fields text => read_of_isWritten⟩
  obtain ⟨fields, hfields, hgiven⟩ := isWritten_asGiven hretry hcapacity
  have htext := Value.isText_render s.proper_toJson
  have hcount : ∀ name ∈ fieldNames, s.asGiven.countP (·.name = name) ≤ 1 := by
    simp [fieldNames, asGiven, Given.name]
  rw [write]
  rw [hfields] at htext ⊢
  exact read_of_isWritten hgiven hcount htext

/-- A text with a quote, a backslash and the end of a line; an object with a field that settings do
not have and with an escaped letter. -/
theorem read_written_of_fields :
    read (write ⟨0, "N\"\\é\n", 18446744073709551615⟩) =
      some ⟨0, "N\"\\é\n", 18446744073709551615⟩ ∧
    read (0x20 :: (Value.object [(Json.rawOf "mode", .array [.null]),
      (Json.rawOf "defaultLevel3Product",
        .text [0x5C, 0x75, 0x30, 0x30, 0x34, 0x65, 0x30, 0x51])]).render) =
      some ⟨15, "N0Q", 64⟩ := by
  refine ⟨read_written.1 _ (by decide) (by decide), ?_⟩
  have hraw : Spells [0x5C, 0x75, 0x30, 0x30, 0x34, 0x65, 0x30, 0x51] ['N', '0', 'Q'] := by
    have hunit : Json.IsUnit [0x30, 0x30, 0x34, 0x65] 'N'.toNat :=
      .mk (w := 0) (x := 0) (y := 4) (z := 14) (.inl ⟨by decide, rfl⟩) (.inl ⟨by decide, rfl⟩)
        (.inl ⟨by decide, rfl⟩) (.inr ⟨by decide, by decide, .inr rfl⟩)
    exact .code hunit (Json.spells_rawOf "0Q")
  have hname := Json.spells_rawOf
  exact read_written.2 [.unknown "mode", .defaultLevel3Product "N0Q"] _ _
    (.cons ⟨hname _, .unknown (by simp [fieldNames])⟩
      (.cons ⟨hname _, .defaultLevel3Product hraw⟩ .nil)) (by simp [fieldNames, Given.name])
    (.blank (by decide) (Value.isText_render
      ⟨(hname _).isRaw, ⟨trivial, trivial⟩, (hname _).isRaw, hraw.isRaw, trivial⟩))

end RadarFeed.Settings
