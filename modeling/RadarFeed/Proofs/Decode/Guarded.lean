import RadarFeed.Decode.File
import RadarFeed.Proofs.Level3.Lines

/-!
Guarded decoders never break off.

An access in range is the plain access (`slice_eq`, `word16_eq`, `splitBytes_eq`), and the numbers
of files stay in 64 bits (`time_eq`). Under the checks that stand before an access it is in range,
so that each guarded reader is the reader without guards: `header_eq`, `nextLine_eq`, `origin_eq`,
`message_eq`. `radarDecoder_decode` says it of whole files.
-/

namespace RadarFeed

namespace Guarded

variable {α β : Type} {data line : List UInt8}

/-! ## Computations without accesses -/

/-- The computation that ends with a given result. -/
def ofExcept (x : Except DecodeError α) : Guarded α :=
  ExceptT.mk (some x)

theorem lift_except (x : Except DecodeError α) : (liftM x : Guarded α) = ofExcept x :=
  rfl

theorem lift_some (a : α) : (liftM (some a) : Guarded α) = pure a :=
  rfl

theorem ofExcept_pure (a : α) : ofExcept (pure a) = pure a :=
  rfl

theorem ofExcept_throw (e : DecodeError) : (ofExcept (throw e) : Guarded α) = throw e :=
  rfl

theorem ofExcept_bind (x : Except DecodeError α) (f : α → Except DecodeError β) :
    ofExcept (x >>= f) = ofExcept x >>= fun a => ofExcept (f a) := by
  cases x <;> rfl

theorem ofExcept_ite {c : Prop} [Decidable c] (x y : Except DecodeError α) :
    ofExcept (if c then x else y) = if c then ofExcept x else ofExcept y :=
  apply_ite ofExcept c x y

/-! ## Accesses in range -/

theorem slice_eq {start stop : Nat} (h : start ≤ stop) (hstop : stop ≤ data.length) :
    slice data start stop = some (Bytes.slice data start stop) :=
  if_pos ⟨h, hstop⟩

theorem after_eq {start : Nat} (h : start ≤ data.length) :
    after data start = some (data.drop start) :=
  if_pos h

theorem byte_eq {i : Nat} (h : i < data.length) : byte data i = some data[i] :=
  List.getElem?_eq_getElem h

theorem word16_eq {i : Nat} (h : i + 2 ≤ data.length) :
    word16 data i = some (Bytes.word16 data i) := by
  have hlow : i + 1 < data.length := h
  have hhigh : i < data.length := Nat.lt_of_succ_lt hlow
  simp [word16, byte_eq hlow, byte_eq hhigh, Bytes.word16, Bytes.byteAt, hlow, hhigh]

theorem int16_eq {i : Nat} (h : i + 2 ≤ data.length) :
    int16 data i = some (Bytes.int16 data i) := by
  simp [int16, word16_eq h, Bytes.int16]

theorem word32_eq {i : Nat} (h : i + 4 ≤ data.length) :
    word32 data i = some (Bytes.word32 data i) := by
  have hlow : i + 2 + 2 ≤ data.length := h
  simp [word32, word16_eq (Nat.le_of_add_right_le hlow), word16_eq hlow, Bytes.word32]

/-! ## Numbers in range -/

theorem byteAt_lt (data : List UInt8) (i : Nat) : Bytes.byteAt data i < 256 :=
  UInt8.toNat_lt _

theorem word16_lt (data : List UInt8) (i : Nat) : Bytes.word16 data i < 65536 := by
  have hhigh := byteAt_lt data i
  have hlow := byteAt_lt data (i + 1)
  rw [Bytes.word16]
  omega

theorem word32_lt (data : List UInt8) (i : Nat) : Bytes.word32 data i < 4294967296 := by
  have hhigh := word16_lt data i
  have hlow := word16_lt data (i + 2)
  rw [Bytes.word32]
  omega

theorem word64_eq {n : Nat} (h : n < 18446744073709551616) : word64 n = some n :=
  if_pos h

theorem int64_eq {x : Int} (h : -9223372036854775808 ≤ x) (hx : x ≤ 9223372036854775807) :
    int64 x = some x :=
  if_pos ⟨h, hx⟩

theorem signed64_eq {n : Nat} (h : n < 9223372036854775808) : signed64 n = n :=
  Int.bmod_eq_of_le (by omega) (by omega)

theorem low32_eq {n : Nat} (h : n < 4294967296) : low32 n = n :=
  Nat.mod_eq_of_lt h

/-- The arithmetic of times stays in 64 bits for days of 32 bits and milliseconds of 64, and no
number loses its value with its sign or upper bits. -/
theorem time_eq {day millis : Nat} (hday : day < 4294967296)
    (hmillis : millis < 18446744073709551616) :
    time day millis = ofExcept (Bytes.time day millis) := by
  have hsigned : signed64 day = day := signed64_eq (by omega)
  have hsigned' : signed64 (millis / 1000) = (millis / 1000 : Nat) := signed64_eq (by omega)
  have hlow : low32 (millis % 1000 * 1000000) = millis % 1000 * 1000000 := low32_eq (by omega)
  have hdays : int64 ((day : Int) - 1) = some ((day : Int) - 1) := int64_eq (by omega) (by omega)
  have hmidnight : int64 (((day : Int) - 1) * secondsPerDay) =
      some (((day : Int) - 1) * secondsPerDay) := by
    rw [secondsPerDay]
    exact int64_eq (by omega) (by omega)
  have hseconds : int64 (((day : Int) - 1) * secondsPerDay + (millis / 1000 : Nat)) =
      some (((day : Int) - 1) * secondsPerDay + (millis / 1000 : Nat)) := by
    rw [secondsPerDay]
    exact int64_eq (by omega) (by omega)
  have hnanos : word64 (millis % 1000 * 1000000) = some (millis % 1000 * 1000000) :=
    word64_eq (by omega)
  unfold time Bytes.time radarTime
  by_cases hzero : day = 0
  · simp only [if_pos hzero]
    rfl
  · simp only [if_neg hzero, hsigned, hdays, hmidnight, hsigned', hseconds, hnanos, hlow, lift_some,
      pure_bind]
    cases Instant.ofSeconds? _ _ <;> rfl

/-! ## Volumes -/

theorem isSigned_eq (h : 8 < data.length) : isSigned data =
    some !(!VolumeHeader.signature.isPrefixOf data ||
      decide (Bytes.byteAt data 8 ≠ VolumeHeader.point)) := by
  have hbyte : (data[8]).toNat = Bytes.byteAt data 8 := by simp [Bytes.byteAt, h]
  rw [isSigned, byte_eq h]
  cases VolumeHeader.signature.isPrefixOf data <;> simp [hbyte]

theorem header_eq (data : List UInt8) : header data = ofExcept (VolumeHeader.read data) := by
  unfold header VolumeHeader.read
  by_cases hlen : data.length < VolumeHeader.size
  · simp only [if_pos hlen]
    rfl
  · have hsize : 24 ≤ data.length := Nat.le_of_not_lt hlen
    have hsigned := @isSigned_eq data (by omega)
    have hstart : slice data 0 9 = some (data.take 9) := slice_eq (by omega) (by omega)
    have hversion : slice data 6 8 = _ := slice_eq (by omega) (by omega)
    have hextension : slice data 9 12 = _ := slice_eq (by omega) (by omega)
    have hday : word32 data 12 = _ := word32_eq (by omega)
    have hmillis : word32 data 16 = _ := word32_eq (by omega)
    have hsite : slice data 20 24 = _ := slice_eq (by omega) (by omega)
    have htime := time_eq (word32_lt data 12)
      (Nat.lt_trans (word32_lt data 16) (by decide : 4294967296 < 18446744073709551616))
    simp only [if_neg hlen, hsigned, hstart, hversion, hextension, hday, hmillis, hsite, htime,
      Bool.not_not, lift_some, lift_except, pure_bind, ofExcept_bind, ofExcept_ite, ofExcept_throw,
      ofExcept_pure]

theorem volume_eq (reader : RecordReader) (data : List UInt8) :
    volume reader data = ofExcept (Volume.decode reader data) := by
  rw [volume, header_eq, Volume.decode, ofExcept_bind]
  rfl

/-! ## Lines -/

/-- A line end lies within the data. -/
theorem lineEndAt_le {i : Nat} (h : lineEndAt data = some i) :
    i + Level3.lineEnd.length ≤ data.length := by
  induction data generalizing i with
  | nil => cases h
  | cons b s ih =>
    rw [lineEndAt] at h
    split at h
    · next hend =>
      obtain rfl := Option.some.inj h
      rw [Nat.zero_add]
      exact (List.isPrefixOf_iff_prefix.1 hend).length_le
    · obtain ⟨j, hj, rfl⟩ := Option.map_eq_some_iff.1 h
      have hle := ih hj
      rw [List.length_cons]
      omega

theorem nextLine_eq_map (data : List UInt8) : Level3.nextLine data =
    (lineEndAt data).map fun i => (data.take i, data.drop (i + Level3.lineEnd.length)) := by
  induction data with
  | nil => rfl
  | cons b s ih =>
    rw [Level3.nextLine, lineEndAt]
    split
    · rfl
    · rw [ih, Option.map_map, Option.map_map]
      rfl

theorem nextLine_eq (data : List UInt8) : nextLine data = some (Level3.nextLine data) := by
  rw [nextLine, nextLine_eq_map]
  cases h : lineEndAt data with
  | none => rfl
  | some i =>
    have hle := lineEndAt_le h
    have hline : slice data 0 i = some (data.take i) := slice_eq (by omega) (by omega)
    simp only [hline, after_eq hle]
    rfl

theorem skipStart_eq (data : List UInt8) : skipStart data = some (Level3.skipStart data) := by
  rw [skipStart, Level3.skipStart, nextLine_eq]
  split
  · cases Level3.nextLine data <;> rfl
  · rfl

theorem skipNumber_eq (data : List UInt8) : skipNumber data = some (Level3.skipNumber data) := by
  rw [skipNumber, Level3.skipNumber, nextLine_eq]
  cases Level3.nextLine data <;> rfl

theorem heading_eq (line : List UInt8) : heading line = ofExcept (Level3.readHeading line) := by
  rw [heading, Level3.readHeading, ofExcept_bind]
  refine bind_congr fun t => ?_
  rw [Level3.office?]
  match Text.words t.toList with
  | [] | [_] | [_, _] => rfl
  | first :: name :: third :: more =>
    have hlen : ¬ (first :: name :: third :: more).length < 3 := by simp
    have hfirst : word (first :: name :: third :: more) 0 = some first := rfl
    have hname : word (first :: name :: third :: more) 1 = some name := rfl
    simp only [if_neg hlen, hfirst, hname, lift_some, pure_bind]
    cases decide (Utf8.size first = 6) && Bytes.isSiteId (String.ofList name) <;> rfl

theorem identifier_eq (line : List UInt8) :
    identifier line = ofExcept (Level3.readIdentifier line) := by
  rw [identifier, Level3.readIdentifier, ofExcept_bind]
  refine bind_congr fun t => ?_
  by_cases hid : Level3.isIdentifier (Ascii.upper t) = true
  · obtain ⟨hleast, -, hletters⟩ := Level3.isIdentifier_iff.1 hid
    have hcut := Utf8.splitBytes_eq hletters (Nat.le_of_succ_le hleast)
    simp only [hid, hcut]
    rfl
  · simp only [hid]
    rfl

theorem origin_eq (data : List UInt8) : origin data = ofExcept (Level3.Origin.read data) := by
  have hbody : skipNumber (Level3.skipStart data) = some (Level3.skipFraming data) :=
    skipNumber_eq (Level3.skipStart data)
  have hstart : slice data 0 (min data.length 9) = some (data.take 9) := by
    rw [slice_eq (Nat.zero_le _) (Nat.min_le_left _ _), Nat.min_comm]
    exact congrArg some (List.take_eq_take_min).symm
  unfold origin Level3.Origin.read
  simp only [skipStart_eq, hbody, nextLine_eq, heading_eq, identifier_eq, hstart, lift_some,
    pure_bind]
  cases Level3.nextLine (Level3.skipFraming data) with
  | none => rfl
  | some found =>
    simp only [ofExcept_bind]
    refine bind_congr fun _ => ?_
    cases Level3.nextLine found.2 with
    | none => rfl
    | some found => simp only [ofExcept_bind, ofExcept_pure]

/-! ## Messages -/

theorem millis_lt (data : List UInt8) (i : Nat) :
    Bytes.word32 data i * 1000 < 18446744073709551616 := by
  have h := word32_lt data i
  omega

theorem tryCatch_ofExcept (x : Except DecodeError α) (a : α) :
    tryCatch (ofExcept x) (fun _ => pure a) = pure (x.toOption.getD a) := by
  cases x <;> rfl

theorem volumeTime_eq (block : List UInt8) (t : Instant) :
    volumeTime block t = pure ((Level3Message.blockTime block).getD t) := by
  rw [volumeTime, Level3Message.blockTime]
  by_cases hlen : Level3Message.volumeTimeEnd ≤ block.length
  · have hend : 28 ≤ block.length := hlen
    have hdivider : int16 block 0 = _ := int16_eq (by omega)
    have hday : word16 block Level3Message.volumeDay = _ :=
      word16_eq (by simp only [Level3Message.volumeDay]; omega)
    have hseconds : word32 block (Level3Message.volumeDay + 2) = _ :=
      word32_eq (by simp only [Level3Message.volumeDay]; omega)
    have htime := time_eq
      (Nat.lt_trans (word16_lt block Level3Message.volumeDay) (by decide : 65536 < 4294967296))
      (millis_lt block (Level3Message.volumeDay + 2))
    simp only [hlen, hdivider, hday, hseconds, htime, word64_eq (millis_lt block _), lift_some,
      pure_bind, tryCatch_ofExcept]
    by_cases hblock : Bytes.int16 block 0 = Level3Message.divider <;> simp [hblock]
  · simp only [hlen]
    rfl

theorem message_eq (data : List UInt8) : message data =
    ofExcept ((Level3Message.read data).map fun m => (m, m.volumeTime)) := by
  unfold message Level3Message.read
  by_cases hlen : data.length < Level3Message.headerSize
  · simp only [if_pos hlen]
    rfl
  · have hsize : 18 ≤ data.length := Nat.le_of_not_lt hlen
    have hcode : int16 data 0 = _ := int16_eq (by omega)
    have hday : word16 data 2 = _ := word16_eq (by omega)
    have hseconds : word32 data 4 = _ := word32_eq (by omega)
    have hlength : word32 data 8 = _ := word32_eq (by omega)
    have hsource : int16 data 12 = _ := int16_eq (by omega)
    have hdestination : int16 data 14 = _ := int16_eq (by omega)
    have hblocks : word16 data 16 = _ := word16_eq (by omega)
    have hpayload : after data Level3Message.headerSize = _ := after_eq hsize
    have htime := time_eq (Nat.lt_trans (word16_lt data 2) (by decide : 65536 < 4294967296))
      (millis_lt data 4)
    simp only [if_neg hlen, hcode, hday, hseconds, hlength, hsource, hdestination, hblocks,
      hpayload, htime, word64_eq (millis_lt data 4), volumeTime_eq, lift_some, pure_bind]
    cases Bytes.time (Bytes.word16 data 2) (Bytes.word32 data 4 * 1000) <;> rfl

theorem product_eq (sites : SiteTable) (data : List UInt8) :
    product sites data = ofExcept (Level3Product.decode sites data) := by
  rw [product, origin_eq, Level3Product.decode, ofExcept_bind]
  refine bind_congr fun found => ?_
  simp only [message_eq]
  cases Level3Message.read found.2 <;> rfl

end Guarded

/-! ## Files -/

theorem RadarFile.guarded_eq (reader : RecordReader) (sites : SiteTable) (data : List UInt8) :
    RadarFile.guarded reader sites data =
      Guarded.ofExcept (RadarFile.decode reader sites data) := by
  unfold RadarFile.guarded RadarFile.decode
  split
  · rw [Guarded.volume_eq]
    cases Volume.decode reader data <;> rfl
  · rw [Guarded.product_eq]
    cases Level3Product.decode sites data <;> rfl

/-- **Decoding never breaks off.** Whatever the data and the table of sites, the guarded decoder
ends with the file or the error of the decoder without guards: no access is out of range, and no
number exceeds 64 bits. -/
theorem radarDecoder_decode (reader : RecordReader) (sites : SiteTable) (data : List UInt8) :
    (radarDecoder reader sites).decode data = .ofExcept (RadarFile.decode reader sites data) ∧
      (radarDecoder reader sites).decode data ≠ .broken := by
  have hdecode : (radarDecoder reader sites).decode data =
      .ofExcept (RadarFile.decode reader sites data) := by
    show DecodeOutcome.ofGuarded (RadarFile.guarded reader sites data) = _
    rw [RadarFile.guarded_eq]
    rfl
  refine ⟨hdecode, ?_⟩
  rw [hdecode]
  cases RadarFile.decode reader sites data with
  | error e =>
    intro h
    cases h
  | ok file =>
    intro h
    cases h

end RadarFeed
