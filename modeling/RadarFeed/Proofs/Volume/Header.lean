import Mathlib.Data.List.Basic
import RadarFeed.Proofs.Decode.Fields
import RadarFeed.Volume.Header

/-!
The header of a volume file, over all bytes.

Six things are checked of a file, one after the other (`Check`). A file that passes all of them has
the header that its first 24 bytes show (`read_eq_ok_iff`), and any other file is refused with the
error of the first check that it fails (`read_eq_error_iff`). `Written` is a header before it is
read: `read_bytes` says that reading gives it back. `read_checked` is all of this.
-/

namespace RadarFeed

/-! ## Letters and digits as bytes -/

/-- The byte of a letter or digit. -/
def IsLetterOrDigit (b : UInt8) : Prop :=
  (48 ≤ b.toNat ∧ b.toNat ≤ 57) ∨ (65 ≤ b.toNat ∧ b.toNat ≤ 90) ∨ (97 ≤ b.toNat ∧ b.toNat ≤ 122)

/-- Bytes as characters, one for each. -/
def charsOf (data : List UInt8) : List Char :=
  data.map fun b => Char.ofNat b.toNat

variable {data : List UInt8} {t : List Char}

theorem toNat_ofNat_byte (b : UInt8) : (Char.ofNat b.toNat).toNat = b.toNat := by
  have h : b.toNat.isValidChar := .inl (Nat.lt_trans b.toNat_lt (by decide))
  rw [Char.ofNat, dif_pos h]
  rfl

theorem isAlphanumeric_ofNat_iff (b : UInt8) :
    Ascii.isAlphanumeric (Char.ofNat b.toNat) = true ↔ IsLetterOrDigit b := by
  rw [Ascii.isAlphanumeric_iff, toNat_ofNat_byte, IsLetterOrDigit]
  omega

theorem isFill_of_isAlphanumeric {c : Char} (h : Ascii.isAlphanumeric c = true) :
    Bytes.isFill c = false := by
  rw [Ascii.isAlphanumeric_iff] at h
  have hzero : c ≠ '\x00' := by
    rintro rfl
    revert h
    decide
  simp [Bytes.isFill, hzero, Text.isBlank, Text.blankRanges]
  omega

/-- Letters and digits are encoded one by one. -/
theorem Utf8.encode_of_alphanumeric (h : ∀ c ∈ t, Ascii.isAlphanumeric c = true) :
    Utf8.encode t = t.map fun c => UInt8.ofNat c.toNat := by
  induction t with
  | nil => rfl
  | cons c t ih =>
    have hc := Ascii.isAlphanumeric_iff.1 (h c List.mem_cons_self)
    rw [Utf8.encode_cons, Utf8.encodeChar_eq, if_pos (by omega), List.map_cons,
      ih fun d hd => h d (List.mem_cons_of_mem c hd)]
    rfl

theorem isTrimmed_of_alphanumeric (h : ∀ c ∈ t, Ascii.isAlphanumeric c = true) :
    Text.IsTrimmed Bytes.isFill t t where
  cut := ⟨[], [], by simp, by simp, by simp⟩
  head c hc := isFill_of_isAlphanumeric (h c (List.mem_of_mem_head? hc))
  last c hc := isFill_of_isAlphanumeric (h c (List.mem_of_mem_getLast? hc))

/-- Four letters or digits are left of four bytes only if they are what the bytes are. -/
theorem isText_site_iff (hlen : data.length = 4) :
    (Bytes.IsText data t ∧ Bytes.isSiteId (String.ofList t) = true) ↔
      (∀ b ∈ data, IsLetterOrDigit b) ∧ charsOf data = t := by
  rw [Bytes.isSiteId_ofList_iff]
  constructor
  · rintro ⟨⟨s, rfl, ⟨⟨front, back, rfl, -, -⟩, -, -⟩⟩, ht, hletters⟩
    have hsize : Utf8.size t = 4 := by rw [Utf8.size_eq_length hletters, ht]
    have hcut : Utf8.size front = 0 ∧ Utf8.size back = 0 := by
      rw [Utf8.length_encode, Utf8.size_append, Utf8.size_append, hsize] at hlen
      omega
    obtain rfl := Utf8.size_eq_zero_iff.1 hcut.1
    obtain rfl := Utf8.size_eq_zero_iff.1 hcut.2
    have hback : ∀ c ∈ t, Char.ofNat (UInt8.ofNat c.toNat).toNat = c := by
      intro c hc
      have hsmall := Ascii.isAlphanumeric_iff.1 (hletters c hc)
      rw [UInt8.toNat_ofNat', Nat.mod_eq_of_lt (by omega), Char.ofNat_toNat]
    rw [List.nil_append, List.append_nil, Utf8.encode_of_alphanumeric hletters]
    constructor
    · intro b hb
      obtain ⟨c, hc, rfl⟩ := List.mem_map.1 hb
      rw [← isAlphanumeric_ofNat_iff, hback c hc]
      exact hletters c hc
    · rw [charsOf, List.map_map]
      exact (List.map_congr_left hback).trans (List.map_id t)
  · rintro ⟨hletters, rfl⟩
    have halpha : ∀ c ∈ charsOf data, Ascii.isAlphanumeric c = true := by
      intro c hc
      obtain ⟨b, hb, rfl⟩ := List.mem_map.1 hc
      exact (isAlphanumeric_ofNat_iff b).2 (hletters b hb)
    have hencode : Utf8.encode (charsOf data) = data := by
      rw [Utf8.encode_of_alphanumeric halpha, charsOf, List.map_map]
      refine List.map_id'' (fun b => ?_) data
      show UInt8.ofNat (Char.ofNat b.toNat).toNat = b
      rw [toNat_ofNat_byte, UInt8.ofNat_toNat]
    exact ⟨⟨charsOf data, hencode, isTrimmed_of_alphanumeric halpha⟩,
      by rw [charsOf, List.length_map, hlen], halpha⟩

namespace VolumeHeader

open Bytes

/-! ## Checks -/

/-- What is checked of the first bytes of a file. -/
inductive Check where
  | length
  | signature
  | version
  | extension
  | time
  | siteId
deriving DecidableEq, Repr

namespace Check

/-- All checks, in the order in which they are made. -/
def all : List Check := [length, signature, version, extension, time, siteId]

/-- Some data pass a check. -/
def Passes (data : List UInt8) : Check → Prop
  | length => size ≤ data.length
  | signature => VolumeHeader.signature <+: data ∧ data[8]? = some 0x2E
  | version => Utf8.IsValid (slice data 6 8)
  | extension => Utf8.IsValid (slice data 9 12)
  | time => word32 data 12 ≠ 0 ∧
      radarSeconds (word32 data 12) (word32 data 16) ≤ Instant.maxSeconds
  | siteId => ∀ b ∈ slice data 20 24, IsLetterOrDigit b

/-- Some data fail a check with the error `e`. -/
def Fails (data : List UInt8) (e : DecodeError) : Check → Prop
  | length => data.length < size ∧ .tooShort size data.length = e
  | signature => ¬ signature.Passes data ∧ .unknownSignature (data.take 9) = e
  | version => ¬ version.Passes data ∧ .invalidText .version = e
  | extension => ¬ extension.Passes data ∧ .invalidText .extension = e
  | time =>
    let day := word32 data 12
    let seconds := radarSeconds day (word32 data 16)
    (day = 0 ∧ .invalidField .day "0" = e) ∨
      (day ≠ 0 ∧ Instant.maxSeconds < seconds ∧ .invalidField .time (toString seconds) = e)
  | siteId => (¬ Utf8.IsValid (slice data 20 24) ∧ .invalidText .siteId = e) ∨
      (¬ siteId.Passes data ∧ ∃ t : String, IsText (slice data 20 24) t.toList ∧
        .invalidField .siteId t = e)

end Check

/-- Some data fail one of the checks with `e` and pass those before it. -/
inductive Refused (data : List UInt8) (e : DecodeError) : List Check → Prop
  | here {c later} : c.Fails data e → Refused data e (c :: later)
  | later {c later} : c.Passes data → Refused data e later → Refused data e (c :: later)

/-- `h` is what the fields in the first bytes of a file say. -/
structure Shows (data : List UInt8) (h : VolumeHeader) : Prop where
  version : IsText (slice data 6 8) h.version.toList
  extension : IsText (slice data 9 12) h.extension.toList
  start : IsRadarTime (word32 data 12) (word32 data 16) h.start
  radarId : h.radarId = Ascii.upper (String.ofList (charsOf (slice data 20 24)))

variable {e : DecodeError} {h : VolumeHeader} {later : List Check}

theorem refused_nil : ¬ Refused data e [] := by
  intro h
  cases h

theorem refused_cons {c : Check} : Refused data e (c :: later) ↔
    c.Fails data e ∨ (c.Passes data ∧ Refused data e later) := by
  constructor
  · rintro (h | ⟨hpass, h⟩)
    · exact .inl h
    · exact .inr ⟨hpass, h⟩
  · rintro (h | ⟨hpass, h⟩)
    · exact .here h
    · exact .later hpass h

theorem length_slice {start stop : Nat} (hlen : stop ≤ data.length) :
    (slice data start stop).length = stop - start := by
  rw [slice, List.length_take, List.length_drop]
  omega

theorem signature_check : (!signature.isPrefixOf data || decide (byteAt data 8 ≠ point)) = true ↔
    ¬ Check.signature.Passes data := by
  have hpoint : byteAt data 8 = point ↔ data[8]? = some 0x2E := by
    rw [byteAt, point]
    cases data[8]? with
    | none => simp
    | some b =>
      rw [Option.getD_some, Option.some.injEq, ← UInt8.toNat_inj]
      rfl
  rw [Check.Passes, ← hpoint, ← List.isPrefixOf_iff_prefix]
  cases signature.isPrefixOf data <;> simp

theorem site_check {t : String} (hlen : Check.length.Passes data)
    (ht : text .siteId (slice data 20 24) = .ok t) : isSiteId t = true ↔
      Check.siteId.Passes data ∧ String.ofList (charsOf (slice data 20 24)) = t := by
  have hfour : (slice data 20 24).length = 4 := length_slice hlen
  have hsite := isText_site_iff (t := t.toList) hfour
  rw [String.ofList_toList, and_iff_right (text_eq_ok_iff.1 ht)] at hsite
  rw [hsite, Check.Passes, ← String.toList_inj, String.toList_ofList]

theorem exists_text_iff {field : FileField} :
    (∃ t, text field data = .ok t) ↔ Utf8.IsValid data := by
  simp only [text_eq_ok_iff, ← exists_isText_iff]
  constructor
  · rintro ⟨t, ht⟩
    exact ⟨t.toList, ht⟩
  · rintro ⟨t, ht⟩
    exact ⟨String.ofList t, by rwa [String.toList_ofList]⟩

theorem exists_time_iff {day millis : Nat} : (∃ t, Bytes.time day millis = .ok t) ↔
    day ≠ 0 ∧ radarSeconds day millis ≤ Instant.maxSeconds := by
  simp only [time_eq_ok_iff]
  constructor
  · rintro ⟨t, hday, hmax, -⟩
    exact ⟨hday, hmax⟩
  · rintro ⟨hday, hmax⟩
    exact ⟨_, hday, hmax, rfl⟩

/-- The last check, as it is made: of a text without fill. -/
theorem fails_siteId_iff (hlen : Check.length.Passes data) : Check.siteId.Fails data e ↔
    (¬ Utf8.IsValid (slice data 20 24) ∧ .invalidText .siteId = e) ∨
      ∃ t, text .siteId (slice data 20 24) = .ok t ∧ (!isSiteId t) = true ∧
        .invalidField .siteId t = e := by
  have hnot : ∀ b : Bool, (!b) = true ↔ ¬ b = true := by decide
  refine or_congr Iff.rfl ?_
  constructor
  · rintro ⟨hfail, t, ht, rfl⟩
    refine ⟨t, text_eq_ok_iff.2 ht, ?_, rfl⟩
    rw [hnot, site_check hlen (text_eq_ok_iff.2 ht)]
    exact fun h => hfail h.1
  · rintro ⟨t, ht, hsite, rfl⟩
    rw [hnot, site_check hlen ht] at hsite
    refine ⟨fun hpass => hsite ⟨hpass, ?_⟩, t, text_eq_ok_iff.1 ht, rfl⟩
    -- letters and digits are left as they are
    obtain ⟨hbytes, -⟩ := (isText_site_iff (length_slice hlen)).2 ⟨hpass, rfl⟩
    have hsame : text .siteId _ = .ok _ := text_eq_ok_iff.2 (by rwa [String.toList_ofList])
    rw [ht] at hsame
    exact (Except.ok.inj hsame).symm

/-! ## Reading -/

theorem forall_passes_iff : (∀ c : Check, c.Passes data) ↔ Check.length.Passes data ∧
    Check.signature.Passes data ∧ Check.version.Passes data ∧ Check.extension.Passes data ∧
      Check.time.Passes data ∧ Check.siteId.Passes data := by
  constructor
  · intro h
    exact ⟨h _, h _, h _, h _, h _, h _⟩
  · rintro ⟨hlen, hsignature, hversion, hextension, htime, hsite⟩ c
    cases c <;> assumption

/-- A header is read from exactly the files that pass all checks, and it is what they show. -/
theorem read_eq_ok_iff : read data = .ok h ↔ (∀ c : Check, c.Passes data) ∧ Shows data h := by
  have hlen : ¬ data.length < size ↔ Check.length.Passes data := Nat.not_lt
  have hnot : ∀ b : Bool, ¬ (!b) = true ↔ b = true := by decide
  simp only [read, guard_eq_ok_iff, bind_eq_ok_iff, pure_eq_ok_iff, signature_check,
    Classical.not_not, forall_passes_iff, hlen, hnot]
  constructor
  · rintro ⟨hlen, hsignature, version, hversion, extension, hextension, start, hstart, site, hsite,
      hletters, rfl⟩
    obtain ⟨hday, hmax, ht⟩ := time_eq_ok_iff.1 hstart
    obtain ⟨hbytes, hchars⟩ := (site_check hlen hsite).1 hletters
    exact ⟨⟨hlen, hsignature, exists_text_iff.1 ⟨_, hversion⟩, exists_text_iff.1 ⟨_, hextension⟩,
      ⟨hday, hmax⟩, hbytes⟩, text_eq_ok_iff.1 hversion, text_eq_ok_iff.1 hextension,
      isRadarTime_iff.2 ht, congrArg Ascii.upper hchars.symm⟩
  · obtain ⟨radarId, version, extension, start⟩ := h
    rintro ⟨⟨hlen, hsignature, -, -, ⟨hday, hmax⟩, hbytes⟩, hversion, hextension, hstart, rfl⟩
    have hstart := time_eq_ok_iff.2 ⟨hday, hmax, isRadarTime_iff.1 hstart⟩
    obtain ⟨htext, -⟩ := (isText_site_iff (length_slice hlen)).2 ⟨hbytes, rfl⟩
    have hsite : text .siteId _ = .ok _ := text_eq_ok_iff.2 (by rwa [String.toList_ofList])
    exact ⟨hlen, hsignature, version, text_eq_ok_iff.2 hversion, extension,
      text_eq_ok_iff.2 hextension, start, hstart, _, hsite, (site_check hlen hsite).2 ⟨hbytes, rfl⟩,
      rfl⟩

/-- A file is refused for the first check that it fails. -/
theorem read_eq_error_iff : read data = .error e ↔ Refused data e Check.all := by
  have hlen : ¬ data.length < size ↔ Check.length.Passes data := Nat.not_lt
  simp only [read, guard_eq_error_iff, bind_eq_error_iff, pure_eq_error_iff, signature_check,
    Classical.not_not, text_eq_error_iff, time_eq_error_iff, exists_and_right, exists_text_iff,
    exists_time_iff, hlen]
  rw [Check.all, refused_cons]
  refine or_congr Iff.rfl (and_congr_right fun hlen => ?_)
  simp only [refused_cons, refused_nil, fails_siteId_iff hlen, and_false, or_false]
  exact Iff.rfl

/-- Files that pass all checks show a header. -/
theorem exists_shows (hpass : ∀ c : Check, c.Passes data) : ∃ h, Shows data h := by
  obtain ⟨-, -, hversion, hextension, -, -⟩ := forall_passes_iff.1 hpass
  obtain ⟨version, hversion⟩ := exists_isText_iff.2 hversion
  obtain ⟨extension, hextension⟩ := exists_isText_iff.2 hextension
  exact ⟨⟨_, String.ofList version, String.ofList extension, _⟩,
    ⟨by rwa [String.toList_ofList], by rwa [String.toList_ofList], isRadarTime_iff.2 rfl, rfl⟩⟩

/-! ## Bytes behind the header -/

variable {rest : List UInt8} {start stop : Nat}

theorem slice_append_left (hstart : start ≤ stop) (hstop : stop ≤ data.length) :
    slice (data ++ rest) start stop = slice data start stop := by
  rw [slice, slice, List.drop_append_of_le_length (Nat.le_trans hstart hstop),
    List.take_append_of_le_length (by rw [List.length_drop]; omega)]

theorem byteAt_append_left {i : Nat} (h : i < data.length) :
    byteAt (data ++ rest) i = byteAt data i := by
  rw [byteAt, byteAt, List.getElem?_append_left h]

theorem word32_append_left {i : Nat} (h : i + 4 ≤ data.length) :
    word32 (data ++ rest) i = word32 data i := by
  have hbyte : ∀ j, j < 4 → byteAt (data ++ rest) (i + j) = byteAt data (i + j) := fun j hj =>
    byteAt_append_left (by omega)
  simp only [word32, word16, Nat.add_assoc, Nat.reduceAdd]
  rw [hbyte 1 (by decide), hbyte 2 (by decide), hbyte 3 (by decide),
    byteAt_append_left (by omega : i < data.length)]

/-- What follows the header does not count. -/
theorem read_append (hlen : size ≤ data.length) (rest : List UInt8) :
    read (data ++ rest) = read data := by
  have hsize : 24 ≤ data.length := hlen
  have hlong : ¬ data.length < size := Nat.not_lt.2 hlen
  have hlong' : ¬ (data ++ rest).length < size := by rw [List.length_append]; omega
  have hprefix : signature.isPrefixOf (data ++ rest) = signature.isPrefixOf data := by
    have hshort : signature.length ≤ data.length := Nat.le_trans (by decide) hlen
    rw [Bool.eq_iff_iff, List.isPrefixOf_iff_prefix, List.isPrefixOf_iff_prefix,
      List.prefix_iff_eq_take, List.prefix_iff_eq_take, List.take_append_of_le_length hshort]
  have hstart : (data ++ rest).take 9 = data.take 9 :=
    List.take_append_of_le_length (by omega)
  have hpoint : byteAt (data ++ rest) 8 = _ := byteAt_append_left (by omega)
  have hday : word32 (data ++ rest) 12 = _ := word32_append_left (by omega)
  have hmillis : word32 (data ++ rest) 16 = _ := word32_append_left (by omega)
  have hversion : slice (data ++ rest) 6 8 = _ := slice_append_left (by decide) (by omega)
  have hextension : slice (data ++ rest) 9 12 = _ := slice_append_left (by decide) (by omega)
  have hsite : slice (data ++ rest) 20 24 = _ := slice_append_left (by decide) hsize
  simp only [read, if_neg hlong, if_neg hlong', hprefix, hstart, hpoint, hday, hmillis, hversion,
    hextension, hsite]

/-! ## Writing -/

/-- No fill at the ends of a text. -/
structure IsBare (s : String) : Prop where
  head : ∀ c ∈ s.toList.head?, isFill c = false
  last : ∀ c ∈ s.toList.getLast?, isFill c = false

theorem isBare_of_alphanumeric {s : String} (h : ∀ c ∈ s.toList, Ascii.isAlphanumeric c = true) :
    IsBare s :=
  ⟨(isTrimmed_of_alphanumeric h).head, (isTrimmed_of_alphanumeric h).last⟩

/-- What a header is written from. -/
structure Written where
  version : String
  extension : String
  day : UInt32
  millis : UInt32
  site : String
  version_size : Utf8.size version.toList = 2
  version_bare : IsBare version
  extension_size : Utf8.size extension.toList = 3
  extension_bare : IsBare extension
  day_ne_zero : day.toNat ≠ 0
  time_le : radarSeconds day.toNat millis.toNat ≤ Instant.maxSeconds
  site_length : site.toList.length = 4
  site_letters : ∀ c ∈ site.toList, Ascii.isAlphanumeric c = true

/-- The bytes of a header. -/
def Written.bytes (w : Written) : List UInt8 :=
  fieldBytes (Utf8.bytes w.version) (Utf8.bytes w.extension) w.day.toNat w.millis.toNat
    (Utf8.bytes w.site)

theorem IsBare.isText {s : String} (h : IsBare s) : IsText (Utf8.bytes s) s.toList :=
  ⟨s.toList, rfl, ⟨[], [], by simp, by simp, by simp⟩, h.head, h.last⟩

theorem word32Bytes_eq (n : UInt32) : word32Bytes n.toNat = ofUInt32 n := by
  simp [word32Bytes, ofUInt32, bigEndian]

/-- Where the fields of a header stand. -/
structure LaidOut (data version extension site : List UInt8) (day millis : UInt32) : Prop where
  long : size ≤ data.length
  signed : signature <+: data
  point : data[8]? = some 0x2E
  version : slice data 6 8 = version
  extension : slice data 9 12 = extension
  day : word32 data 12 = day.toNat
  millis : word32 data 16 = millis.toNat
  site : slice data 20 24 = site

theorem laidOut_fieldBytes {version extension site : List UInt8} (hversion : version.length = 2)
    (hextension : extension.length = 3) (hsite : site.length = 4) (day millis : UInt32)
    (rest : List UInt8) :
    LaidOut (fieldBytes version extension day.toNat millis.toNat site ++ rest)
      version extension site day millis := by
  obtain ⟨v₁, v₂, rfl⟩ := List.length_eq_two.1 hversion
  obtain ⟨e₁, e₂, e₃, rfl⟩ := List.length_eq_three.1 hextension
  have hdata : fieldBytes [v₁, v₂] [e₁, e₂, e₃] day.toNat millis.toNat site ++ rest =
      signature ++ [v₁, v₂, UInt8.ofNat point, e₁, e₂, e₃] ++
        (ofUInt32 day ++ (ofUInt32 millis ++ (site ++ rest))) := by
    simp [fieldBytes, word32Bytes_eq]
  rw [hdata]
  constructor
  · simp [size, signature, hsite]
    omega
  · exact ⟨_, (List.append_assoc _ _ _).symm⟩
  · rfl
  · rfl
  · rfl
  · exact (word32_append (Nat.le_refl 12)).trans (word32_ofUInt32 day _)
  · rw [← List.append_assoc]
    exact (word32_append (Nat.le_refl 16)).trans (word32_ofUInt32 millis _)
  · exact List.take_left' hsite

theorem Written.laidOut (w : Written) (rest : List UInt8) :
    LaidOut (w.bytes ++ rest) (Utf8.bytes w.version) (Utf8.bytes w.extension) (Utf8.bytes w.site)
      w.day w.millis := by
  have hlength : ∀ s : String, (Utf8.bytes s).length = Utf8.size s.toList := fun s =>
    Utf8.length_encode s.toList
  refine laidOut_fieldBytes ?_ ?_ ?_ w.day w.millis rest
  · rw [hlength, w.version_size]
  · rw [hlength, w.extension_size]
  · rw [hlength, Utf8.size_eq_length w.site_letters, w.site_length]

/-- The site is in the letters and digits of its bytes. -/
theorem Written.site_bytes (w : Written) :
    (∀ b ∈ Utf8.bytes w.site, IsLetterOrDigit b) ∧ charsOf (Utf8.bytes w.site) = w.site.toList := by
  have hlen : (Utf8.bytes w.site).length = 4 := by
    rw [Utf8.bytes, Utf8.length_encode, Utf8.size_eq_length w.site_letters, w.site_length]
  refine (isText_site_iff hlen).1 ⟨⟨_, rfl, isTrimmed_of_alphanumeric w.site_letters⟩, ?_⟩
  rw [isSiteId_ofList_iff]
  exact ⟨w.site_length, w.site_letters⟩

/-- A header is read as it was written, with the site in capitals. -/
theorem read_bytes (w : Written) (rest : List UInt8) : read (w.bytes ++ rest) =
    .ok ⟨Ascii.upper w.site, w.version, w.extension,
      ⟨radarSeconds w.day.toNat w.millis.toNat, w.millis.toNat % 1000 * 1000000⟩⟩ := by
  have hdata := w.laidOut rest
  obtain ⟨hletters, hchars⟩ := w.site_bytes
  rw [read_eq_ok_iff, forall_passes_iff]
  refine ⟨⟨hdata.long, ⟨hdata.signed, hdata.point⟩, ?_, ?_, ?_, ?_⟩, ?_, ?_, ?_, ?_⟩
  · exact ⟨_, hdata.version.symm⟩
  · exact ⟨_, hdata.extension.symm⟩
  · rw [Check.Passes, hdata.day, hdata.millis]
    exact ⟨w.day_ne_zero, w.time_le⟩
  · rw [Check.Passes, hdata.site]
    exact hletters
  · rw [hdata.version]
    exact w.version_bare.isText
  · rw [hdata.extension]
    exact w.extension_bare.isText
  · rw [hdata.day, hdata.millis, isRadarTime_iff]
  · rw [hdata.site, hchars, String.ofList_toList]

/-- **The header of a volume.** Over all bytes: a header is read exactly where all checks are
passed, and shows the fields; the error is that of the first check that is failed; what follows the
header does not count; and what was written is read back. -/
theorem read_checked (data : List UInt8) :
    ((∃ h, read data = .ok h) ↔ ∀ c : Check, c.Passes data) ∧
      (∀ h, read data = .ok h → Shows data h) ∧
      (∀ e, read data = .error e ↔ Refused data e Check.all) ∧
      (size ≤ data.length → ∀ rest, read (data ++ rest) = read data) ∧
      ∀ w : Written, ∃ start, IsRadarTime w.day.toNat w.millis.toNat start ∧
        (w.millis.toNat < 86400000 →
          start.radarDay = w.day.toNat ∧ start.radarMillis = w.millis.toNat) ∧
        ∀ rest, read (w.bytes ++ rest) =
          .ok ⟨Ascii.upper w.site, w.version, w.extension, start⟩ := by
  refine ⟨⟨?_, ?_⟩, ?_, fun e => read_eq_error_iff, read_append, ?_⟩
  · rintro ⟨h, hread⟩
    exact (read_eq_ok_iff.1 hread).1
  · intro hpass
    obtain ⟨h, hshows⟩ := exists_shows hpass
    exact ⟨h, read_eq_ok_iff.2 ⟨hpass, hshows⟩⟩
  · intro h hread
    exact (read_eq_ok_iff.1 hread).2
  · intro w
    have hstart : IsRadarTime w.day.toNat w.millis.toNat _ := isRadarTime_iff.2 rfl
    exact ⟨_, hstart, hstart.radarDay, read_bytes w⟩

/-- The header `AR2V0006.001` of the site `klsx` on 2024-05-01 at one o'clock, in front of a byte of
records; and the same with fill in the place of three letters. -/
theorem read_checked_of_klsx :
    let w : Written := ⟨"06", "001", 19845, 3600000, "klsx",
      by decide, isBare_of_alphanumeric (by simp [Ascii.isAlphanumeric, Ascii.isDigit]),
      by decide, isBare_of_alphanumeric (by simp [Ascii.isAlphanumeric, Ascii.isDigit]),
      by decide, by decide, by decide, by simp [Ascii.isAlphanumeric]⟩
    let broken := fieldBytes [0x30, 0x36] [0x30, 0x30, 0x31] 19845 3600000 [0x4B, 0, 0, 0]
    read (w.bytes ++ [0xFF]) = .ok ⟨"KLSX", "06", "001", ⟨1714525200, 0⟩⟩ ∧
      read broken = .error (.invalidField .siteId "K") := by
  intro w broken
  obtain ⟨start, hstart, -, hread⟩ := (read_checked []).2.2.2.2 w
  obtain ⟨-, -, herror, -⟩ := read_checked broken
  refine ⟨?_, (herror _).2 ?_⟩
  · rw [hread, isRadarTime_iff.1 hstart]
    decide
  · -- all checks before the last are passed
    refine .later ?_ <| .later ?_ <| .later ?_ <| .later ?_ <| .later ?_ <|
      .here (.inr ⟨?_, "K", ?_, rfl⟩)
    · show 24 ≤ 24
      decide
    · exact ⟨⟨_, rfl⟩, rfl⟩
    · exact ⟨['0', '6'], by decide⟩
    · exact ⟨['0', '0', '1'], by decide⟩
    · exact ⟨by decide, by decide⟩
    · intro hletters
      have hzero := hletters 0 (by decide)
      revert hzero
      simp [IsLetterOrDigit]
    · have hletter : Text.IsTrimmed isFill ['K'] ['K'] :=
        isTrimmed_of_alphanumeric (by simp [Ascii.isAlphanumeric])
      exact ⟨['K', '\x00', '\x00', '\x00'], by decide,
        ⟨[], ['\x00', '\x00', '\x00'], by simp, by simp, by simp [isFill]⟩,
        hletter.head, hletter.last⟩

end VolumeHeader

end RadarFeed
