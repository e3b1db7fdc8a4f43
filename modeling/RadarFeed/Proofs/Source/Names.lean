import RadarFeed.Proofs.Text.Utf8
import RadarFeed.Source.Directory

/-!
The names of objects.

A name is that of an object of a source if it belongs to the site or product and has a time in it:
`IsObject` says so without the cuts that `keyTime` makes (`keyTime_eq_some_iff`). Such a time is a
whole second, which may be a leap second (`IsObject.nanos_le`).
-/

namespace RadarFeed

namespace DirectorySource

variable {s : DirectorySource} {key : String} {t : Instant}

/-- The names of the objects of a source, with their times. -/
inductive IsObject (s : DirectorySource) (key : String) (t : Instant) : Prop where
  /-- The site in four bytes, in any case of letters, and a stamp in fifteen. -/
  | volume {site stamp rest : List Char} (kind : s.product = none)
      (parts : key.toList = site ++ (stamp ++ rest)) (site_size : Utf8.size site = 4)
      (stamp_size : Utf8.size stamp = 15)
      (ofSite : Ascii.sameLetters (String.ofList site) s.radarId = true)
      (time : Stamp.readCompact stamp = some t)
  /-- The product in the second part, in any case of letters, and a stamp in the six after it. -/
  | product {product : String} {office part : List Char} {stamp rest : List (List Char)}
      (kind : s.product = some product)
      (parts : Text.splitAt '_' key.toList = office :: part :: (stamp ++ rest))
      (stamp_length : stamp.length = 6)
      (ofProduct : Ascii.sameLetters (String.ofList part) product = true)
      (time : Stamp.readSeparated (['_'].intercalate stamp) = some t)

theorem isOfSite_iff {radarId : String} : isOfSite radarId key = true ↔
    ∃ site back, key.toList = site ++ back ∧ Utf8.size site = 4 ∧
      Ascii.sameLetters (String.ofList site) radarId = true := by
  have hcut : ∀ site, Utf8.slice 0 4 key.toList = some site ↔
      ∃ back, key.toList = site ++ back ∧ Utf8.size site = 4 := by
    intro site
    simp only [Utf8.slice_eq_some_iff, Utf8.size_eq_zero_iff]
    constructor
    · rintro ⟨-, back, hkey, rfl, hsize⟩
      exact ⟨back, hkey, hsize⟩
    · rintro ⟨back, hkey, hsize⟩
      exact ⟨[], back, hkey, rfl, hsize⟩
  have hsite : isOfSite radarId key = true ↔
      ∃ site, Utf8.slice 0 4 key.toList = some site ∧
        Ascii.sameLetters (String.ofList site) radarId = true := by
    unfold isOfSite
    cases Utf8.slice 0 4 key.toList <;> simp
  rw [hsite]
  simp only [hcut]
  constructor
  · rintro ⟨site, ⟨back, hkey, hsize⟩, hsame⟩
    exact ⟨site, back, hkey, hsize, hsame⟩
  · rintro ⟨site, back, hkey, hsize, hsame⟩
    exact ⟨site, ⟨back, hkey, hsize⟩, hsame⟩

theorem level2KeyTime_eq_some_iff : Stamp.level2KeyTime key = some t ↔
    ∃ front stamp rest, key.toList = front ++ (stamp ++ rest) ∧ Utf8.size front = 4 ∧
      Utf8.size stamp = 15 ∧ Stamp.readCompact stamp = some t := by
  simp only [Stamp.level2KeyTime, Option.bind_eq_bind, Option.bind_eq_some_iff,
    Utf8.slice_eq_some_iff]
  constructor
  · rintro ⟨stamp, ⟨front, rest, hkey, hfront, hstamp⟩, h⟩
    exact ⟨front, stamp, rest, hkey, hfront, hstamp, h⟩
  · rintro ⟨front, stamp, rest, hkey, hfront, hstamp, h⟩
    exact ⟨stamp, ⟨front, rest, hkey, hfront, hstamp⟩, h⟩

theorem level3KeyTime_eq_some_iff {office part : List Char} {parts : List (List Char)}
    (hparts : Text.splitAt '_' key.toList = office :: part :: parts) :
    Stamp.level3KeyTime key = some t ↔ ∃ stamp rest, parts = stamp ++ rest ∧ stamp.length = 6 ∧
      Stamp.readSeparated (['_'].intercalate stamp) = some t := by
  simp only [Stamp.level3KeyTime, hparts, List.length_cons]
  split
  · rename_i h
    simp only [reduceCtorEq, false_iff]
    rintro ⟨stamp, rest, rfl, hlength, -⟩
    rw [List.length_append] at h
    omega
  · rename_i h
    constructor
    · intro ht
      exact ⟨parts.take 6, parts.drop 6, (List.take_append_drop 6 parts).symm,
        by rw [List.length_take]; omega, ht⟩
    · rintro ⟨stamp, rest, rfl, hlength, ht⟩
      show Stamp.readSeparated (['_'].intercalate ((stamp ++ rest).take 6)) = some t
      rwa [List.take_left' hlength]

theorem isOfProduct_iff {product : String} : isOfProduct product key = true ↔
    ∃ office part rest, Text.splitAt '_' key.toList = office :: part :: rest ∧
      Ascii.sameLetters (String.ofList part) product = true := by
  unfold isOfProduct
  split
  · rename_i office part rest h
    rw [h]
    constructor
    · intro hsame
      exact ⟨office, part, rest, rfl, hsame⟩
    · rintro ⟨office', part', rest', he, hsame⟩
      cases he
      exact hsame
  · rename_i hne
    simp only [Bool.false_eq_true, false_iff]
    rintro ⟨office, part, rest, h, -⟩
    exact hne office part rest h

/-- The time of a key is that of the object that it names. -/
theorem keyTime_eq_some_iff : s.keyTime key = some t ↔ s.IsObject key t := by
  unfold keyTime
  split
  · rename_i hkind
    rw [Option.ite_none_right_eq_some, isOfSite_iff, level2KeyTime_eq_some_iff]
    constructor
    · rintro ⟨⟨site, back, hkey, hsize, hsame⟩, front, stamp, rest, hkey', hfront, hstamp, ht⟩
      -- both cuts are made after four bytes
      have hcut := Utf8.splitBytes_eq_some_iff.2 ⟨hkey, hsize⟩
      rw [Utf8.splitBytes_eq_some_iff.2 ⟨hkey', hfront⟩] at hcut
      simp only [Option.some.injEq, Prod.mk.injEq] at hcut
      obtain ⟨rfl, -⟩ := hcut
      exact .volume hkind hkey' hfront hstamp hsame ht
    · intro h
      cases h with
      | @volume site stamp rest _ hkey hsize hstamp hsame ht =>
        exact ⟨⟨site, _, hkey, hsize, hsame⟩, site, stamp, rest, hkey, hsize, hstamp, ht⟩
      | product hk =>
        rw [hkind] at hk
        cases hk
  · rename_i product hkind
    rw [Option.ite_none_right_eq_some, isOfProduct_iff]
    constructor
    · rintro ⟨⟨office, part, parts, hparts, hsame⟩, ht⟩
      obtain ⟨stamp, rest, rfl, hlength, ht⟩ := (level3KeyTime_eq_some_iff hparts).1 ht
      exact .product hkind hparts hlength hsame ht
    · intro h
      cases h with
      | volume hk =>
        rw [hkind] at hk
        cases hk
      | @product p office part stamp rest hk hparts hlength hsame ht =>
        rw [hkind] at hk
        obtain rfl := Option.some.inj hk
        exact ⟨⟨office, part, _, hparts, hsame⟩,
          (level3KeyTime_eq_some_iff hparts).2 ⟨stamp, rest, rfl, hlength, ht⟩⟩

/-! ## Times -/

/-- A stamp has whole seconds; the sixtieth second of a minute is a leap second. -/
theorem nanos_le_of_read {separator : List Char → Option (List Char)} {stamp : List Char}
    (h : Stamp.read separator stamp = some t) : t.nanos ≤ nanosPerSecond := by
  simp only [Stamp.read, Option.bind_eq_bind, Option.bind_eq_some_iff] at h
  obtain ⟨year, -, -, -, month, -, -, -, day, -, -, -, hour, -, -, -, minute, -, -, -, second, -,
    h⟩ := h
  rw [Option.ite_none_right_eq_some] at h
  obtain ⟨-, h⟩ := h
  unfold Stamp.moment at h
  split at h
  · split at h
    · obtain rfl := Option.some.inj h
      exact Nat.le_refl _
    · obtain rfl := Option.some.inj h
      exact Nat.zero_le _
  · cases h

theorem IsObject.nanos_le (h : s.IsObject key t) : t.nanos ≤ nanosPerSecond := by
  cases h with
  | volume _ _ _ _ _ ht => exact nanos_le_of_read ht
  | product _ _ _ _ ht => exact nanos_le_of_read ht

end DirectorySource

end RadarFeed
