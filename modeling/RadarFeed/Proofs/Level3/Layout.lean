import Mathlib.Tactic.ByContra
import RadarFeed.Level3.Product
import RadarFeed.Proofs.Level3.Lines

/-!
The layout of a file with a Level 3 product.

A `MessageHeader` is what the 18 bytes in front of the payload stand for. A `Layout` of some data
is a way to read them as a file: the lines of text, the header and the payload, each with what makes
it valid. Data are decoded exactly if they have a layout, and what comes out is the product of the
layout (`decode_eq_ok_iff`).
-/

namespace RadarFeed

open Bytes

/-- The time of a day and the seconds after its midnight. -/
def dayTime (day : UInt16) (seconds : UInt32) : Instant :=
  ⟨((day.toNat : Int) - 1) * 86400 + seconds.toNat, 0⟩

/-- The days and seconds of messages never reach the last year. -/
theorem time_eq_ok_iff_dayTime {day : UInt16} {seconds : UInt32} {t : Instant} :
    Bytes.time day.toNat (seconds.toNat * 1000) = .ok t ↔ day ≠ 0 ∧ t = dayTime day seconds := by
  have hday : day.toNat < 65536 := day.toNat_lt
  have hseconds : seconds.toNat < 4294967296 := seconds.toNat_lt
  have hsec : radarSeconds day.toNat (seconds.toNat * 1000) =
      ((day.toNat : Int) - 1) * 86400 + seconds.toNat := by
    simp [radarSeconds]
  have hmax : ((day.toNat : Int) - 1) * 86400 + seconds.toNat ≤ Instant.maxSeconds := by
    simp only [Instant.maxSeconds]
    omega
  have hzero : day.toNat ≠ 0 ↔ day ≠ 0 := by
    rw [ne_eq, ne_eq, ← UInt16.toNat_inj]
    rfl
  simp only [Bytes.time_eq_ok_iff, hsec, hmax, hzero, true_and, dayTime,
    Nat.mul_mod_left, Nat.zero_mul]

namespace Level3

/-! ## The header -/

/-- The header of a message. -/
structure MessageHeader where
  code : Int16
  day : UInt16
  /-- The seconds after midnight. -/
  seconds : UInt32
  length : UInt32
  source : Int16
  destination : Int16
  blocks : UInt16

namespace MessageHeader

/-- The bytes of a header. -/
def bytes (h : MessageHeader) : List UInt8 :=
  ofInt16 h.code ++ ofUInt16 h.day ++ ofUInt32 h.seconds ++ ofUInt32 h.length ++
    ofInt16 h.source ++ ofInt16 h.destination ++ ofUInt16 h.blocks

/-- The time of the message. -/
def time (h : MessageHeader) : Instant :=
  dayTime h.day h.seconds

/-- The message that a header and a payload make. -/
def message (h : MessageHeader) (payload : List UInt8) : Level3Message where
  code := h.code.toInt
  time := h.time
  length := h.length.toNat
  source := h.source.toInt
  destination := h.destination.toInt
  blocks := h.blocks.toNat
  data := h.bytes ++ payload

end MessageHeader

variable {data payload : List UInt8} {h : MessageHeader}

theorem length_bytes (h : MessageHeader) : h.bytes.length = Level3Message.headerSize := by
  simp [MessageHeader.bytes, Level3Message.headerSize]

/-- Any 18 bytes are a header. -/
theorem exists_header (h : Level3Message.headerSize ≤ data.length) :
    ∃ (header : MessageHeader) (payload : List UInt8), data = header.bytes ++ payload := by
  have hlen : 18 ≤ data.length := h
  obtain ⟨code, hcode⟩ := exists_ofInt16 (s := data) (by omega)
  obtain ⟨day, hday⟩ := exists_ofUInt16 (s := data.drop 2) (by simp; omega)
  obtain ⟨seconds, hseconds⟩ := exists_ofUInt32 (s := data.drop 4) (by simp; omega)
  obtain ⟨length, hlength⟩ := exists_ofUInt32 (s := data.drop 8) (by simp; omega)
  obtain ⟨source, hsource⟩ := exists_ofInt16 (s := data.drop 12) (by simp; omega)
  obtain ⟨destination, hdestination⟩ := exists_ofInt16 (s := data.drop 14) (by simp; omega)
  obtain ⟨blocks, hblocks⟩ := exists_ofUInt16 (s := data.drop 16) (by simp; omega)
  simp only [List.drop_drop, Nat.reduceAdd] at hday hseconds hlength hsource hdestination hblocks
  refine ⟨⟨code, day, seconds, length, source, destination, blocks⟩, data.drop 18, ?_⟩
  simp only [MessageHeader.bytes, List.append_assoc]
  rw [← hblocks, ← hdestination, ← hsource, ← hlength, ← hseconds, ← hday, ← hcode]

/-- A header is read as it was written, and refused only for its day. -/
theorem read_bytes_eq_ok_iff {m : Level3Message} :
    Level3Message.read (h.bytes ++ payload) = .ok m ↔ h.day ≠ 0 ∧ h.message payload = m := by
  have hlen : ¬ (h.bytes ++ payload).length < Level3Message.headerSize := by
    rw [List.length_append, length_bytes]
    omega
  have hday : word16 (h.bytes ++ payload) 2 = h.day.toNat := by
    simp [MessageHeader.bytes, word16_append, word16_ofUInt16]
  have hseconds : word32 (h.bytes ++ payload) 4 = h.seconds.toNat := by
    simp [MessageHeader.bytes, word32_append, word32_ofUInt32]
  have hcode : int16 (h.bytes ++ payload) 0 = h.code.toInt := by
    simp [MessageHeader.bytes, int16_ofInt16]
  have hlength : word32 (h.bytes ++ payload) 8 = h.length.toNat := by
    simp [MessageHeader.bytes, word32_append, word32_ofUInt32]
  have hsource : int16 (h.bytes ++ payload) 12 = h.source.toInt := by
    simp [MessageHeader.bytes, int16_append, int16_ofInt16]
  have hdestination : int16 (h.bytes ++ payload) 14 = h.destination.toInt := by
    simp [MessageHeader.bytes, int16_append, int16_ofInt16]
  have hblocks : word16 (h.bytes ++ payload) 16 = h.blocks.toNat := by
    simp [MessageHeader.bytes, word16_append, word16_ofUInt16]
  simp only [Level3Message.read, guard_eq_ok_iff, bind_eq_ok_iff, pure_eq_ok_iff, hlen, hday,
    hseconds, hcode, hlength, hsource, hdestination, hblocks, time_eq_ok_iff_dayTime,
    not_false_eq_true, true_and]
  constructor
  · rintro ⟨t, ⟨hne, rfl⟩, rfl⟩
    exact ⟨hne, rfl⟩
  · rintro ⟨hne, rfl⟩
    exact ⟨h.time, ⟨hne, rfl⟩, rfl⟩

theorem read_eq_ok_iff {m : Level3Message} : Level3Message.read data = .ok m ↔
    ∃ (h : MessageHeader) (payload : List UInt8),
      data = h.bytes ++ payload ∧ h.day ≠ 0 ∧ h.message payload = m := by
  constructor
  · intro hread
    have hlen : Level3Message.headerSize ≤ data.length := by
      rw [Level3Message.read, guard_eq_ok_iff] at hread
      exact Nat.le_of_not_lt hread.1
    obtain ⟨h, payload, rfl⟩ := exists_header hlen
    exact ⟨h, payload, rfl, read_bytes_eq_ok_iff.1 hread⟩
  · rintro ⟨h, payload, rfl, hread⟩
    exact read_bytes_eq_ok_iff.2 hread

/-! ## The time of the volume scan -/

/-- The payload begins with a description block that has this day and these seconds. -/
def Describes (payload : List UInt8) (day : UInt16) (seconds : UInt32) : Prop :=
  ∃ between more, between.length = 20 ∧
    payload = ofInt16 (-1) ++ between ++ ofUInt16 day ++ ofUInt32 seconds ++ more

/-- The time of the volume scan: the time of the description block, if there is one with a valid
day, and else the time of the message. -/
inductive IsVolumeTime (h : MessageHeader) (payload : List UInt8) : Instant → Prop where
  | block {day : UInt16} {seconds : UInt32} : Describes payload day seconds → day ≠ 0 →
      IsVolumeTime h payload (dayTime day seconds)
  | message : (∀ day seconds, Describes payload day seconds → day = 0) →
      IsVolumeTime h payload h.time

variable {day : UInt16} {seconds : UInt32} {t : Instant}

theorem Describes.words (hd : Describes payload day seconds) :
    (Level3Message.volumeTimeEnd ≤ payload.length ∧ int16 payload 0 = Level3Message.divider) ∧
      word16 payload Level3Message.volumeDay = day.toNat ∧
      word32 payload (Level3Message.volumeDay + 2) = seconds.toNat := by
  obtain ⟨between, more, hlen, rfl⟩ := hd
  refine ⟨⟨?_, ?_⟩, ?_, ?_⟩
  · simp [Level3Message.volumeTimeEnd, hlen]
    omega
  · simp only [List.append_assoc, int16_ofInt16]
    rfl
  · simp [Level3Message.volumeDay, word16_append, hlen, word16_ofUInt16]
  · simp [Level3Message.volumeDay, word32_append, hlen, word32_ofUInt32]

theorem exists_describes (hlen : Level3Message.volumeTimeEnd ≤ payload.length)
    (hdivider : int16 payload 0 = Level3Message.divider) :
    ∃ day seconds, Describes payload day seconds := by
  have hlen' : 28 ≤ payload.length := hlen
  obtain ⟨first, hfirst⟩ := exists_ofInt16 (s := payload) (by omega)
  obtain ⟨day, hday⟩ := exists_ofUInt16 (s := payload.drop 22) (by simp; omega)
  obtain ⟨seconds, hseconds⟩ := exists_ofUInt32 (s := payload.drop 24) (by simp; omega)
  simp only [List.drop_drop, Nat.reduceAdd] at hday hseconds
  have hbetween : payload.drop 2 = (payload.drop 2).take 20 ++ payload.drop 22 := by
    have h := List.take_append_drop 20 (payload.drop 2)
    rw [List.drop_drop] at h
    exact h.symm
  have hminus : first = -1 := by
    rw [hfirst, int16_ofInt16] at hdivider
    exact Int16.toInt_inj.1 hdivider
  refine ⟨day, seconds, (payload.drop 2).take 20, payload.drop 28, by simp; omega, ?_⟩
  simp only [List.append_assoc]
  rw [← hseconds, ← hday, ← hbetween, ← hminus, ← hfirst]

theorem blockTime_eq_some_iff : Level3Message.blockTime payload = some t ↔
    ∃ day seconds, Describes payload day seconds ∧ day ≠ 0 ∧ t = dayTime day seconds := by
  -- of a block that is there the time is that of its day, unless that is 0
  have of_block : ∀ {day seconds}, Describes payload day seconds →
      (Level3Message.blockTime payload = some t ↔ day ≠ 0 ∧ t = dayTime day seconds) := by
    intro day seconds hd
    obtain ⟨hblock, hday, hseconds⟩ := hd.words
    rw [Level3Message.blockTime, if_pos hblock, hday, hseconds, ← time_eq_ok_iff_dayTime]
    cases Bytes.time day.toNat (seconds.toNat * 1000) <;> simp [Except.toOption]
  constructor
  · intro hsome
    have hblock : Level3Message.volumeTimeEnd ≤ payload.length ∧
        int16 payload 0 = Level3Message.divider := by
      by_contra hno
      rw [Level3Message.blockTime, if_neg hno] at hsome
      cases hsome
    obtain ⟨day, seconds, hd⟩ := exists_describes hblock.1 hblock.2
    exact ⟨day, seconds, hd, (of_block hd).1 hsome⟩
  · rintro ⟨day, seconds, hd, htime⟩
    exact (of_block hd).2 htime

theorem volumeTime_message : (h.message payload).volumeTime =
    (Level3Message.blockTime payload).getD h.time := by
  have hdrop : (h.message payload).data.drop Level3Message.headerSize = payload := by
    rw [← length_bytes h]
    exact List.drop_left
  rw [Level3Message.volumeTime, hdrop]
  rfl

theorem volumeTime_eq_iff : (h.message payload).volumeTime = t ↔ IsVolumeTime h payload t := by
  rw [volumeTime_message]
  constructor
  · rintro rfl
    cases hblock : Level3Message.blockTime payload with
    | none =>
      refine .message fun day seconds hd => ?_
      by_contra hday
      have hsome := blockTime_eq_some_iff.2 ⟨day, seconds, hd, hday, rfl⟩
      rw [hblock] at hsome
      cases hsome
    | some t =>
      obtain ⟨day, seconds, hd, hday, rfl⟩ := blockTime_eq_some_iff.1 hblock
      exact .block hd hday
  · rintro (⟨hd, hday⟩ | hno)
    · rw [blockTime_eq_some_iff.2 ⟨_, _, hd, hday, rfl⟩]
      rfl
    · cases hblock : Level3Message.blockTime payload with
      | none => rfl
      | some t =>
        obtain ⟨day, seconds, hd, hday, -⟩ := blockTime_eq_some_iff.1 hblock
        exact absurd (hno day seconds hd) hday

/-! ## The file -/

/-- A way to read data as the file of a product. -/
structure Layout (data : List UInt8) where
  body : List UInt8
  headingLine : List UInt8
  afterHeading : List UInt8
  heading : String
  /-- The office as the heading writes it. -/
  office : List Char
  identifierLine : List UInt8
  identifier : List Char
  header : MessageHeader
  payload : List UInt8
  time : Instant
  unframed : IsUnframed data body
  heading_line : IsLine body headingLine afterHeading
  is_heading : IsHeading headingLine heading.toList office
  identifier_line : IsLine afterHeading identifierLine (header.bytes ++ payload)
  is_identifier : IsIdentifier identifierLine identifier
  dated : header.day ≠ 0
  volume_time : IsVolumeTime header payload time

namespace Layout

/-- What the lines of text of a file say. -/
def origin (l : Layout data) : Origin where
  heading := l.heading
  office := Ascii.upper (String.ofList l.office)
  productCode := Ascii.upper (String.ofList (l.identifier.take 3))
  suffix := Ascii.upper (String.ofList (l.identifier.drop 3))

/-- The product that a file holds. -/
def product (sites : SiteTable) (l : Layout data) : Level3Product where
  radarId := l.origin.radarId sites
  productCode := l.origin.productCode
  heading := l.origin.heading
  time := l.time
  message := l.header.message l.payload

end Layout

theorem Origin.read_eq_ok_iff {o : Origin} {rest : List UInt8} :
    Origin.read data = .ok (o, rest) ↔ ∃ body line after line' name id,
      IsUnframed data body ∧ IsLine body line after ∧ IsHeading line o.heading.toList name ∧
        IsLine after line' rest ∧ IsIdentifier line' id ∧
        Ascii.upper (String.ofList name) = o.office ∧
        Ascii.upper (String.ofList (id.take 3)) = o.productCode ∧
        Ascii.upper (String.ofList (id.drop 3)) = o.suffix := by
  constructor
  · intro h
    unfold Origin.read at h
    split at h
    · cases h
    · next line after hline =>
      obtain ⟨⟨heading, office⟩, hheading, h⟩ := bind_eq_ok_iff.1 h
      dsimp only at h
      split at h
      · cases h
      · next line' rest' hline' =>
        obtain ⟨⟨code, suffix⟩, hidentifier, h⟩ := bind_eq_ok_iff.1 h
        obtain ⟨rfl, rfl⟩ := Prod.mk.inj (pure_eq_ok_iff.1 h)
        obtain ⟨name, hname, hoffice⟩ := readHeading_eq_ok_iff.1 hheading
        obtain ⟨id, hid, hcode, hsuffix⟩ := readIdentifier_eq_ok_iff.1 hidentifier
        exact ⟨skipFraming data, line, after, line', name, id, skipFraming_eq_iff.1 rfl,
          nextLine_eq_some_iff.1 hline, hname, nextLine_eq_some_iff.1 hline', hid, hoffice, hcode,
          hsuffix⟩
  · obtain ⟨heading, office, code, suffix⟩ := o
    rintro ⟨body, line, after, line', name, id, hbody, hline, hname, hline', hid, hoffice, hcode,
      hsuffix⟩
    rw [← skipFraming_eq_iff] at hbody
    rw [← nextLine_eq_some_iff] at hline hline'
    have hheading : readHeading line = .ok (heading, office) :=
      readHeading_eq_ok_iff.2 ⟨name, hname, hoffice⟩
    have hidentifier : readIdentifier line' = .ok (code, suffix) :=
      readIdentifier_eq_ok_iff.2 ⟨id, hid, hcode, hsuffix⟩
    simp only [Origin.read, hbody, hline, hheading, hline', hidentifier, bind, Except.bind]
    rfl

/-- What is decoded has been laid out as a file. -/
theorem exists_layout {sites : SiteTable} {p : Level3Product}
    (h : Level3Product.decode sites data = .ok p) : ∃ l : Layout data, l.product sites = p := by
  obtain ⟨⟨o, rest⟩, horigin, h⟩ := bind_eq_ok_iff.1 h
  obtain ⟨m, hm, h⟩ := bind_eq_ok_iff.1 h
  obtain rfl := pure_eq_ok_iff.1 h
  obtain ⟨body, line, after, line', name, id, hbody, hline, hname, hline', hid, hoffice, hcode,
    hsuffix⟩ := Origin.read_eq_ok_iff.1 horigin
  obtain ⟨header, payload, rfl, hday, rfl⟩ := read_eq_ok_iff.1 hm
  let l : Layout data :=
    ⟨body, line, after, o.heading, name, line', id, header, payload, _, hbody, hline, hname, hline',
      hid, hday, volumeTime_eq_iff.1 rfl⟩
  have ho : l.origin = o := by
    simp only [l, Layout.origin, hoffice, hcode, hsuffix]
  refine ⟨l, ?_⟩
  simp only [Layout.product, ho]
  rfl

/-- The lines of text are read as the file lays them out. -/
theorem Layout.read_origin (l : Layout data) :
    Origin.read data = .ok (l.origin, l.header.bytes ++ l.payload) :=
  Origin.read_eq_ok_iff.2 ⟨l.body, l.headingLine, l.afterHeading, l.identifierLine, l.office,
    l.identifier, l.unframed, l.heading_line, l.is_heading, l.identifier_line, l.is_identifier,
    rfl, rfl, rfl⟩

/-- What is laid out as a file is decoded. -/
theorem Layout.decode (sites : SiteTable) (l : Layout data) :
    Level3Product.decode sites data = .ok (l.product sites) := by
  have hmessage : Level3Message.read (l.header.bytes ++ l.payload) =
      .ok (l.header.message l.payload) :=
    read_bytes_eq_ok_iff.2 ⟨l.dated, rfl⟩
  refine bind_eq_ok_iff.2 ⟨_, l.read_origin, bind_eq_ok_iff.2 ⟨_, hmessage, pure_eq_ok_iff.2 ?_⟩⟩
  rw [volumeTime_eq_iff.2 l.volume_time]
  rfl

/-- **Decoding inverts the layout.** Data are decoded exactly if they are laid out as a file, and to
the product of that file. -/
theorem decode_eq_ok_iff (sites : SiteTable) (data : List UInt8) (p : Level3Product) :
    Level3Product.decode sites data = .ok p ↔ ∃ l : Layout data, l.product sites = p := by
  constructor
  · exact exists_layout
  · rintro ⟨l, rfl⟩
    exact l.decode sites

end Level3

end RadarFeed
