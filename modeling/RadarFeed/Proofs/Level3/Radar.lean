import RadarFeed.Proofs.Feed.Registry
import RadarFeed.Proofs.Level3.Layout
import RadarFeed.Proofs.Site.Suffix

/-!
The radar of a Level 3 product.

`IsRadar` says which radar the lines of text name, without regard to the order in which the table
holds its sites: with a suffix of three letters that of the site that leads those with the suffix, or
else the suffix behind the first letter of the office, and with another suffix the office. A product
gets that radar and no other (`radar_of_product`), and so do the records that are made of it.
-/

namespace RadarFeed

/-- The id of a radar as records carry it: four ASCII characters, no letter of them in lower case. -/
structure IsRadarId (id : String) : Prop where
  length : id.toList.length = 4
  ascii : ∀ c ∈ id.toList, c.toNat < 128
  capitals : ∀ c ∈ id.toList, c.toUpper = c

theorem IsRadarId.upper {id : String} (h : IsRadarId id) : Ascii.upper id = id := by
  rw [← String.toList_inj, Ascii.toList_upper, List.map_congr_left h.capitals, List.map_id']

theorem IsTriple.upper_of_letters {letters : List Char} (hlength : letters.length = 3)
    (h : ∀ c ∈ letters, Ascii.isAlphanumeric c = true) :
    IsTriple (Ascii.upper (String.ofList letters)) := by
  rw [Level3.upper_ofList]
  refine ⟨?_, ?_, ?_⟩
  · rw [String.toList_ofList, List.length_map, hlength]
  · simpa only [String.toList_ofList, List.forall_mem_map, Ascii.isAlphanumeric_toUpper] using h
  · rw [String.toList_ofList, List.forall_mem_map]
    intro c _
    exact Ascii.toUpper_toUpper c

namespace Level3

open SiteTable

/-! ## What the lines of text can say -/

/-- An office of four letters or digits, a code of three, and letters or digits in a suffix of three
too, all of them in capitals. -/
structure IsOrigin (o : Origin) : Prop where
  office_length : o.office.toList.length = 4
  office_letters : ∀ c ∈ o.office.toList, Ascii.isAlphanumeric c = true ∧ c.toUpper = c
  code : IsTriple o.productCode
  suffix : o.suffix.length = 3 → IsTriple o.suffix

theorem Layout.isOrigin {data : List UInt8} (l : Layout data) : IsOrigin l.origin where
  office_length := by
    rw [Layout.origin, Ascii.toList_upper, String.toList_ofList, List.length_map]
    exact l.is_heading.office.length
  office_letters := by
    intro c hc
    rw [Layout.origin, Ascii.toList_upper, String.toList_ofList, List.mem_map] at hc
    obtain ⟨c, hc, rfl⟩ := hc
    refine ⟨?_, Ascii.toUpper_toUpper c⟩
    rw [Ascii.isAlphanumeric_toUpper]
    exact l.is_heading.office.letters c hc
  code := by
    have hleast := l.is_identifier.least
    refine IsTriple.upper_of_letters ?_ ?_
    · rw [List.length_take]
      omega
    · intro c hc
      exact l.is_identifier.letters c (List.mem_of_mem_take hc)
  suffix := by
    intro hlength
    rw [Layout.origin, ← String.length_toList, Ascii.toList_upper, String.toList_ofList,
      List.length_map] at hlength
    refine IsTriple.upper_of_letters hlength ?_
    intro c hc
    exact l.is_identifier.letters c (List.mem_of_mem_drop hc)

theorem Layout.radarId_product {data : List UInt8} (l : Layout data) (t : SiteTable) :
    (l.product t).radarId = l.origin.radarId t := by
  rw [Layout.product]

variable {sites : List Site} {t u : SiteTable} {o : Origin} {s : Site} {x : String}
  {data rest : List UInt8}

/-- A file has one origin. -/
theorem Layout.origin_eq (l : Layout data) (h : Origin.read data = .ok (o, rest)) :
    l.origin = o := by
  rw [l.read_origin] at h
  exact congrArg Prod.fst (Except.ok.inj h)

/-- Of what has been read the table only decides on the radar. -/
theorem decode_of_read {m : Level3Message} (horigin : Origin.read data = .ok (o, rest))
    (hmessage : Level3Message.read rest = .ok m) (t : SiteTable) :
    Level3Product.decode t data =
      .ok ⟨o.radarId t, o.productCode, o.heading, m.volumeTime, m⟩ := by
  simp only [Level3Product.decode, horigin, hmessage, bind, Except.bind]
  rfl

theorem IsOrigin.exists_letter (h : IsOrigin o) : ∃ c rest, o.office.toList = c :: rest := by
  have hfour := h.office_length
  cases hoffice : o.office.toList with
  | nil =>
    rw [hoffice] at hfour
    cases hfour
  | cons c rest => exact ⟨c, rest, rfl⟩

theorem letter_append {c : Char} {rest : List Char} (h : o.office.toList = c :: rest) :
    String.ofList (o.office.toList.take 1) ++ o.suffix = String.ofList (c :: o.suffix.toList) := by
  rw [h]
  simp

/-! ## The radar that they name -/

/-- The site has the suffix, and is a terminal radar exactly if the product is that of one, unless
this holds of no site with the suffix. -/
def Competes (sites : List Site) (o : Origin) (s : Site) : Prop :=
  s.HasSuffix o.suffix ∧ (s.isTerminal = o.isTerminal ∨
    ∀ s' ∈ sites, s'.HasSuffix o.suffix → s'.isTerminal ≠ o.isTerminal)

/-- The site to which the product belongs. -/
def Leads (sites : List Site) (o : Origin) : Site → Prop :=
  IsFirst sites (Competes sites o)

/-- The radar of a product, as the lines of text and the sites have it. -/
inductive IsRadar (sites : List Site) (o : Origin) : String → Prop where
  | site {s : Site} : o.suffix.length = 3 → Leads sites o s → IsRadar sites o (Ascii.upper s.id)
  | letter {c : Char} {rest : List Char} : o.suffix.length = 3 →
      (∀ s ∈ sites, ¬ s.HasSuffix o.suffix) → o.office.toList = c :: rest →
      IsRadar sites o (String.ofList (c :: o.suffix.toList))
  | office : o.suffix.length ≠ 3 → IsRadar sites o o.office

theorem siteAmong_eq_some_iff (hd : t.Distinct) (hx : IsTriple o.suffix) :
    o.siteAmong (t.withSuffix o.suffix) = some s ↔ Leads t.sites o s := by
  unfold Origin.siteAmong Leads
  cases hfind : (t.withSuffix o.suffix).find? fun s => s.isTerminal = o.isTerminal with
  | some r =>
    -- a site of the right kind is there, so that no other one competes
    have hr := (find?_withSuffix_iff hd hx).1 hfind
    rw [Option.some_or, ← hfind, find?_withSuffix_iff hd hx]
    apply isFirst_congr
    intro s' _
    apply and_congr_right
    intro _
    rw [decide_eq_true_eq]
    constructor
    · intro h
      exact .inl h
    · rintro (h | hno)
      · exact h
      · exact absurd (of_decide_eq_true hr.holds.2) (hno r hr.mem hr.holds.1)
  | none =>
    -- there is none, so that all with the suffix compete
    have hno := (find?_withSuffix_eq_none_iff hx).1 hfind
    have hhead : ∀ l : List Site, l.head? = l.find? fun _ => true := by
      intro l
      cases l <;> rfl
    rw [Option.none_or, hhead, find?_withSuffix_iff hd hx]
    apply isFirst_congr
    intro s' _
    apply and_congr_right
    intro _
    constructor
    · intro _
      right
      intro s' hs' hsuffix
      exact of_decide_eq_false (hno s' hs' hsuffix)
    · intro _
      rfl

theorem siteAmong_eq_none_iff (hx : IsTriple o.suffix) :
    o.siteAmong (t.withSuffix o.suffix) = none ↔ ∀ s ∈ t.sites, ¬ s.HasSuffix o.suffix := by
  have hempty : t.withSuffix o.suffix = [] ↔ ∀ s ∈ t.sites, ¬ s.HasSuffix o.suffix := by
    simp only [List.eq_nil_iff_forall_not_mem, mem_withSuffix_iff hx, not_and]
  rw [← hempty, Origin.siteAmong, Option.or_eq_none_iff, List.head?_eq_none_iff]
  constructor
  · exact And.right
  · intro h
    rw [h]
    exact ⟨rfl, rfl⟩

/-- The radar of a product is what the sites and the lines of text make of it. -/
theorem isRadar_iff (hd : t.Distinct) (ho : IsOrigin o) :
    IsRadar t.sites o x ↔ x = o.radarId t := by
  constructor
  · rintro (⟨hlength, hleads⟩ | ⟨hlength, hno, hoffice⟩ | hlength)
    · have hx := ho.suffix hlength
      rw [Origin.radarId, if_pos hlength, (siteAmong_eq_some_iff hd hx).2 hleads]
    · have hx := ho.suffix hlength
      rw [Origin.radarId, if_pos hlength, (siteAmong_eq_none_iff hx).2 hno]
      exact (letter_append hoffice).symm
    · rw [Origin.radarId, if_neg hlength]
  · rintro rfl
    unfold Origin.radarId
    split_ifs with hlength
    · have hx := ho.suffix hlength
      cases hsite : o.siteAmong (t.withSuffix o.suffix) with
      | some s => exact .site hlength ((siteAmong_eq_some_iff hd hx).1 hsite)
      | none =>
        have hno := (siteAmong_eq_none_iff hx).1 hsite
        obtain ⟨c, rest, hoffice⟩ := ho.exists_letter
        show IsRadar t.sites o (String.ofList (o.office.toList.take 1) ++ o.suffix)
        rw [letter_append hoffice]
        exact .letter hlength hno hoffice
    · exact .office hlength

/-- Of the sites with the suffix one leads. -/
theorem exists_leads (hd : t.Distinct) (hx : IsTriple o.suffix) (hs : s ∈ t.sites)
    (hsuffix : s.HasSuffix o.suffix) : ∃ r, Leads t.sites o r := by
  cases hsite : o.siteAmong (t.withSuffix o.suffix) with
  | none => exact absurd hsuffix ((siteAmong_eq_none_iff hx).1 hsite s hs)
  | some r => exact ⟨r, (siteAmong_eq_some_iff hd hx).1 hsite⟩

theorem radarId_of_leads (hd : t.Distinct) (ho : IsOrigin o) (hlength : o.suffix.length = 3)
    (h : Leads t.sites o s) : o.radarId t = s.key :=
  ((isRadar_iff hd ho).1 (.site hlength h)).symm

theorem radarId_of_no_site (hd : t.Distinct) (ho : IsOrigin o) (hlength : o.suffix.length = 3)
    (hno : ∀ s ∈ t.sites, ¬ s.HasSuffix o.suffix) {c : Char} {rest : List Char}
    (hoffice : o.office.toList = c :: rest) :
    o.radarId t = String.ofList (c :: o.suffix.toList) :=
  ((isRadar_iff hd ho).1 (.letter hlength hno hoffice)).symm

/-- The site that leads gets the product. -/
theorem decode_of_leads {m : Level3Message} (hd : t.Distinct)
    (horigin : Origin.read data = .ok (o, rest)) (hmessage : Level3Message.read rest = .ok m)
    (hlength : o.suffix.length = 3) (h : Leads t.sites o s) :
    ∃ p, Level3Product.decode t data = .ok p ∧ p.radarId = s.key := by
  have hp := decode_of_read horigin hmessage t
  obtain ⟨l, -⟩ := exists_layout hp
  have ho : IsOrigin o := l.origin_eq horigin ▸ l.isOrigin
  exact ⟨_, hp, radarId_of_leads hd ho hlength h⟩

/-- A radar with a suffix of three letters is a character of a byte and the suffix. -/
theorem IsRadar.toList (ho : IsOrigin o) (h : IsRadar sites o x) (hlength : o.suffix.length = 3) :
    ∃ c : Char, c.utf8Size = 1 ∧ c.toUpper = c ∧ x.toList = c :: o.suffix.toList := by
  cases h with
  | site _ hleads => exact hleads.holds.1.toList_key (ho.suffix hlength)
  | @letter c _ _ _ hoffice =>
    obtain ⟨hletter, hcapital⟩ := ho.office_letters c (hoffice ▸ List.mem_cons_self)
    refine ⟨c, Ascii.utf8Size_of_isAlphanumeric hletter, hcapital, ?_⟩
    rw [String.toList_ofList]
  | office hne => exact absurd hlength hne

theorem IsRadar.isRadarId (ho : IsOrigin o) (h : IsRadar sites o x) : IsRadarId x := by
  by_cases hlength : o.suffix.length = 3
  · have hx := ho.suffix hlength
    obtain ⟨c, hsize, hcapital, hchars⟩ := h.toList ho hlength
    refine ⟨?_, ?_, ?_⟩
    · rw [hchars, List.length_cons, hx.length]
    · rw [hchars, List.forall_mem_cons]
      refine ⟨Ascii.utf8Size_eq_one_iff.1 hsize, ?_⟩
      intro d hd
      exact Ascii.utf8Size_eq_one_iff.1 (Ascii.utf8Size_of_isAlphanumeric (hx.letters d hd))
    · rw [hchars, List.forall_mem_cons]
      exact ⟨hcapital, hx.capitals⟩
  · cases h with
    | site hthree => exact absurd hthree hlength
    | letter hthree => exact absurd hthree hlength
    | office =>
      refine ⟨ho.office_length, ?_, fun c hc => (ho.office_letters c hc).2⟩
      intro c hc
      obtain ⟨hletter, -⟩ := ho.office_letters c hc
      exact Ascii.utf8Size_eq_one_iff.1 (Ascii.utf8Size_of_isAlphanumeric hletter)

/-- The order of the sites does not count. -/
theorem radarId_congr (ht : t.Distinct) (hu : u.Distinct) (ho : IsOrigin o)
    (h : ∀ s, s ∈ u.sites ↔ s ∈ t.sites) : o.radarId u = o.radarId t := by
  have hsites : ∀ x, IsRadar t.sites o x → IsRadar u.sites o x := by
    rintro x (⟨hlength, hleads⟩ | ⟨hlength, hno, hoffice⟩ | hlength)
    · refine .site hlength (hleads.congr h ?_)
      intro s _
      simp only [Competes, h]
    · refine .letter hlength ?_ hoffice
      intro s hs
      exact hno s ((h s).1 hs)
    · exact .office hlength
  exact ((isRadar_iff hu ho).1 (hsites _ ((isRadar_iff ht ho).2 rfl))).symm

/-- The record of a product goes, in every feed, to a manager of the product's radar, and there to
the cache of its code. -/
structure IsRouted (p : Level3Product) : Prop where
  manager : ∀ sites settings moves serial,
    let f := (Feed.new sites settings).run moves
    let found := f.manager (Record.ofFile serial (.level3 p)).radarId
    ∃ m, found.1.manager? found.2 = some m ∧ m.alive = true ∧ m.radarId = p.radarId
  cache : ∀ serial, Manager.keyOf (.ofFile serial (.level3 p)) = some p.productCode

theorem isRouted {p : Level3Product} (hradar : IsRadarId p.radarId) (hcode : IsTriple p.productCode) :
    IsRouted p where
  manager := by
    intro sites settings moves serial f found
    have hnamed : f.Named := ((Feed.orderly_new sites settings).run moves).named
    have hrecord : (Record.ofFile serial (.level3 p)).radarId = p.radarId := hradar.upper
    obtain ⟨m, hm, halive, hid⟩ :=
      hnamed.radarId_manager (Record.ofFile serial (.level3 p)).radarId
    refine ⟨m, hm, halive, ?_⟩
    rw [hid, hrecord, hradar.upper]
  cache := by
    intro serial
    show some (Ascii.upper p.productCode) = some p.productCode
    rw [hcode.upper]

/-- **The radar of a product.** A table that has been made in any way gives a product one radar,
whatever the order in which it holds its sites: with a suffix of three letters that of the first site
with the suffix that is a terminal radar as the code says, or if there is none of the first site with
the suffix, or else the suffix behind the first letter of the office; and with another suffix the
office. The radar has four ASCII characters without letters in lower case and ends in a suffix of
three letters, the code has three letters or digits in capitals, and so the record of the product
goes to a manager of this radar. -/
theorem radar_of_product {t : SiteTable} (ht : t.Reached) {data : List UInt8} {p : Level3Product}
    (h : Level3Product.decode t data = .ok p) :
    ∃ l : Layout data, l.product t = p ∧
      (∀ x, IsRadar t.sites l.origin x ↔ x = p.radarId) ∧
      IsRadarId p.radarId ∧
      (l.origin.suffix.length = 3 → l.origin.suffix.toList <:+ p.radarId.toList) ∧
      IsTriple p.productCode ∧
      (∀ u : SiteTable, u.sites.Perm t.sites → Level3Product.decode u data = .ok p) ∧
      IsRouted p := by
  obtain ⟨l, rfl⟩ := exists_layout h
  have ho : IsOrigin l.origin := l.isOrigin
  have hradar : ∀ x, IsRadar t.sites l.origin x ↔ x = (l.product t).radarId := by
    intro x
    rw [l.radarId_product]
    exact isRadar_iff ht.distinct ho
  have hthis : IsRadar t.sites l.origin (l.product t).radarId := (hradar _).2 rfl
  have hid : IsRadarId (l.product t).radarId := hthis.isRadarId ho
  refine ⟨l, rfl, hradar, hid, ?_, ho.code, ?_, isRouted hid ho.code⟩
  · intro hlength
    obtain ⟨c, -, -, hchars⟩ := hthis.toList ho hlength
    rw [hchars]
    exact List.suffix_cons c _
  · intro u hperm
    have hsame : l.origin.radarId u = l.origin.radarId t :=
      radarId_congr ht.distinct (ht.of_perm hperm).distinct ho fun s => hperm.mem_iff
    rw [l.decode u]
    simp only [Layout.product, hsame]

/-- A site of which no more is told than its kind and its id. -/
def siteOf (kind id : String) : Site :=
  ⟨id, kind, 0, 0, "", "", ""⟩

/-- The header of a message at noon. -/
def noon : MessageHeader := ⟨94, 19844, 43200, 18, 1, 0, 1⟩

/-- The bytes of a file that KLSX has issued under an identifier, without a payload. -/
def issuedAs (identifier : String) : List UInt8 :=
  Utf8.bytes ("SDUS53 KLSX 011200\r\r\n" ++ identifier ++ "\r\r\n") ++ noon.bytes

/-- What the lines of text of such a file say. -/
def originOf (productCode suffix : String) : Origin :=
  ⟨"SDUS53 KLSX 011200", "KLSX", productCode, suffix⟩

/-- The bytes of its heading. -/
def headingLine : List UInt8 :=
  [0x53, 0x44, 0x55, 0x53, 0x35, 0x33, 0x20, 0x4B, 0x4C, 0x53, 0x58, 0x20, 0x30, 0x31, 0x31, 0x32,
    0x30, 0x30]

/-- What the lines of a product say of its origin. -/
theorem read_issuedAs {identifier : String} (line : List UInt8) {productCode suffix : String}
    (hheading : nextLine (skipFraming (issuedAs identifier)) =
      some (headingLine, line ++ lineEnd ++ noon.bytes))
    (hline : nextLine (line ++ lineEnd ++ noon.bytes) = some (line, noon.bytes))
    (hidentifier : readIdentifier line = .ok (productCode, suffix)) :
    Origin.read (issuedAs identifier) = .ok (originOf productCode suffix, noon.bytes) := by
  have hoffice : readHeading headingLine = .ok ("SDUS53 KLSX 011200", "KLSX") := rfl
  simp only [Origin.read, hheading, hoffice, hline, hidentifier, bind, Except.bind]
  rfl

theorem read_noon : Level3Message.read noon.bytes = .ok (noon.message []) := by
  rw [← List.append_nil noon.bytes, read_bytes_eq_ok_iff]
  exact ⟨by decide, rfl⟩

/-- A weather radar and a terminal radar with one suffix, the latter in other letters. -/
def twoRadars : SiteTable :=
  ⟨[siteOf Site.weatherRadar "KLSX", siteOf Site.terminalRadar "tLsx"]⟩

theorem radar_of_product_of_twoRadars : twoRadars.Reached ∧
    ∃ p, Level3Product.decode twoRadars (issuedAs "TV0LSX") = .ok p ∧
      p.radarId = "TLSX" ∧ p.productCode = "TV0" ∧ IsRouted p := by
  have hreached : twoRadars.Reached := reached_iff_distinct.2 (by decide)
  have hread : Origin.read (issuedAs "TV0LSX") = .ok (originOf "TV0" "LSX", noon.bytes) :=
    read_issuedAs [0x54, 0x56, 0x30, 0x4C, 0x53, 0x58] (by decide +kernel) (by decide +kernel) rfl
  have hp := decode_of_read hread read_noon twoRadars
  obtain ⟨l, hl, hradar, -, -, -, -, hrouted⟩ := radar_of_product hreached hp
  refine ⟨hreached, _, hp, ((hradar "TLSX").1 ?_).symm, rfl, hrouted⟩
  rw [l.origin_eq hread]
  have hterminal : Site.HasSuffix "LSX" (siteOf Site.terminalRadar "tLsx") :=
    ⟨by decide, by decide⟩
  have hleads : Leads twoRadars.sites (originOf "TV0" "LSX") (siteOf Site.terminalRadar "tLsx") := by
    refine ⟨by simp [twoRadars], ⟨hterminal, .inl (by decide)⟩, ?_⟩
    rintro s hs ⟨-, hkind⟩
    simp only [twoRadars, List.mem_cons, List.not_mem_nil, or_false] at hs
    rcases hs with rfl | rfl
    · rcases hkind with hkind | hno
      · exact absurd hkind (by decide)
      · exact absurd (by decide) (hno _ (by simp [twoRadars]) hterminal)
    · exact String.le_refl _
  have hcapitals : "TLSX" = Ascii.upper (siteOf Site.terminalRadar "tLsx").id := by decide
  rw [hcapitals]
  exact .site (by decide) hleads

end Level3

end RadarFeed
