import RadarFeed.Proofs.Level3.Radar

/-!
Letter case in the ids of sites.

The case of an id counts neither for its key nor for its suffix, nor does it show in the radar of a
product. It counts where sites with one suffix are put in order: there the first characters decide
as they are written (`id_le_iff`), and a small letter comes behind every capital. So two tables that
differ in letter case only may give one product different radars, and `same_result_iff` says when
they do not.
-/

namespace RadarFeed

open SiteTable

variable {s s' r r' : Site} {t u : SiteTable}

namespace Site

/-- The site with its id in capitals. -/
def capitals (s : Site) : Site :=
  { s with id := Ascii.upper s.id }

theorem key_eq_of_capitals (h : s.capitals = s'.capitals) : s.key = s'.key :=
  congrArg Site.id h

theorem isTerminal_eq_of_capitals (h : s.capitals = s'.capitals) :
    s.isTerminal = s'.isTerminal := by
  have hkind : s.capitals.kind = s'.capitals.kind := congrArg Site.kind h
  show decide (s.capitals.kind = terminalRadar) = decide (s'.capitals.kind = terminalRadar)
  rw [hkind]

/-- Of ids that begin with different characters, the characters give the order. -/
theorem id_le_iff {c d : Char} {cs ds : List Char} (hs : s.id.toList = c :: cs)
    (hr : r.id.toList = d :: ds) (hne : c ≠ d) : s.id ≤ r.id ↔ c < d := by
  rw [← String.not_lt, String.lt_iff, hs, hr, List.cons_lt_cons_iff]
  constructor
  · intro hno
    have hle : c ≤ d := Char.not_lt.1 fun hlt => hno (.inl hlt)
    exact Std.lt_of_le_of_ne hle hne
  · rintro hlt (hlt' | ⟨heq, -⟩)
    · exact Char.lt_asymm hlt hlt'
    · exact hne heq.symm

end Site

namespace SiteTable

/-- The tables hold the same sites, but for the case of the letters in their ids. -/
def SameUpToCase (t u : SiteTable) : Prop :=
  (t.sites.map Site.capitals).Perm (u.sites.map Site.capitals)

theorem SameUpToCase.symm (h : SameUpToCase t u) : SameUpToCase u t :=
  List.Perm.symm h

/-- Each site has a counterpart. -/
theorem SameUpToCase.exists_capitals (h : SameUpToCase t u) (hs : s ∈ t.sites) :
    ∃ s' ∈ u.sites, s'.capitals = s.capitals :=
  List.mem_map.1 (h.mem_iff.1 (List.mem_map_of_mem hs))

/-- The counterpart of a site is the one with its key. -/
theorem SameUpToCase.capitals_eq (h : SameUpToCase t u) (hu : u.Distinct) (hs : s ∈ t.sites)
    (hs' : s' ∈ u.sites) (hkey : s.key = s'.key) : s.capitals = s'.capitals := by
  obtain ⟨r, hr, hcapitals⟩ := h.exists_capitals hs
  have hrs : r = s' := hu.eq_of_key hr hs' ((Site.key_eq_of_capitals hcapitals).trans hkey)
  rw [← hcapitals, hrs]

end SiteTable

namespace Level3

variable {o : Origin} {data : List UInt8}

theorem competes_of_capitals (h : SameUpToCase t u) (hs : s.capitals = s'.capitals)
    (hcompetes : Competes t.sites o s) : Competes u.sites o s' := by
  obtain ⟨hsuffix, hkind⟩ := hcompetes
  refine ⟨(Site.hasSuffix_congr (Site.key_eq_of_capitals hs)).1 hsuffix, ?_⟩
  rw [← Site.isTerminal_eq_of_capitals hs]
  rcases hkind with hkind | hno
  · exact .inl hkind
  · right
    intro r' hr' hr'suffix
    obtain ⟨r, hr, hcapitals⟩ := h.symm.exists_capitals hr'
    rw [← Site.isTerminal_eq_of_capitals hcapitals]
    exact hno r hr ((Site.hasSuffix_congr (Site.key_eq_of_capitals hcapitals)).2 hr'suffix)

/-- The site to which the product belongs in the one table comes, with its id as the other table
writes it, before all that compete with it there. -/
def KeepsLeader (t u : SiteTable) (o : Origin) : Prop :=
  ∀ s ∈ t.sites, ∀ s' ∈ u.sites, s.key = s'.key → Leads t.sites o s →
    ∀ r' ∈ u.sites, Competes u.sites o r' → s'.id ≤ r'.id

theorem radarId_eq_iff (ht : t.Distinct) (hu : u.Distinct) (h : SameUpToCase t u)
    (ho : IsOrigin o) (hlength : o.suffix.length = 3) :
    o.radarId t = o.radarId u ↔ KeepsLeader t u o := by
  have hx := ho.suffix hlength
  constructor
  · intro hradar s hs s' hs' hkey hleads
    have hcompetes : Competes u.sites o s' :=
      competes_of_capitals h (h.capitals_eq hu hs hs' hkey) hleads.holds
    obtain ⟨r, hr⟩ := exists_leads hu hx hs' hcompetes.1
    have hrkey : r.key = s'.key := by
      rw [← radarId_of_leads hu ho hlength hr, ← hradar, radarId_of_leads ht ho hlength hleads,
        hkey]
    rw [← hu.eq_of_key hr.mem hs' hrkey]
    exact hr.least
  · intro hfirst
    by_cases hno : ∀ s ∈ t.sites, ¬ s.HasSuffix o.suffix
    · have hno' : ∀ s' ∈ u.sites, ¬ s'.HasSuffix o.suffix := by
        intro s' hs' hsuffix
        obtain ⟨s, hs, hcapitals⟩ := h.symm.exists_capitals hs'
        exact hno s hs ((Site.hasSuffix_congr (Site.key_eq_of_capitals hcapitals)).2 hsuffix)
      obtain ⟨c, rest, hoffice⟩ := ho.exists_letter
      rw [radarId_of_no_site ht ho hlength hno hoffice,
        radarId_of_no_site hu ho hlength hno' hoffice]
    · push Not at hno
      obtain ⟨s₀, hs₀, hsuffix⟩ := hno
      obtain ⟨s, hleads⟩ := exists_leads ht hx hs₀ hsuffix
      obtain ⟨s', hs', hcapitals⟩ := h.exists_capitals hleads.mem
      have hkey : s.key = s'.key := Site.key_eq_of_capitals hcapitals.symm
      have hleads' : Leads u.sites o s' :=
        ⟨hs', competes_of_capitals h hcapitals.symm hleads.holds,
          hfirst s hleads.mem s' hs' hkey hleads⟩
      rw [radarId_of_leads ht ho hlength hleads, radarId_of_leads hu ho hlength hleads', hkey]

/-- Tables that agree on the radar of a file give it one result, a product or an error. -/
theorem decode_eq_iff : Level3Product.decode t data = Level3Product.decode u data ↔
    ∀ l : Layout data, l.origin.radarId t = l.origin.radarId u := by
  constructor
  · intro h l
    rw [l.decode t, l.decode u] at h
    have hradar := congrArg Level3Product.radarId (Except.ok.inj h)
    rwa [l.radarId_product, l.radarId_product] at hradar
  · intro h
    unfold Level3Product.decode
    cases horigin : Origin.read data with
    | error e => rfl
    | ok found =>
      cases hmessage : Level3Message.read found.2 with
      | error e => simp only [bind, Except.bind, hmessage]
      | ok m =>
        obtain ⟨l, -⟩ := exists_layout (decode_of_read horigin hmessage t)
        have hradar := h l
        rw [l.origin_eq horigin] at hradar
        simp only [bind, Except.bind, hmessage, hradar]

/-- Where the ids begin alike, the sites with a suffix stand in one order. -/
theorem id_le_of_heads {suffix : String} (hx : IsTriple suffix) (hu : u.Distinct)
    (hs : s.HasSuffix suffix) (hr : r.HasSuffix suffix) (hs' : s' ∈ u.sites) (hr' : r' ∈ u.sites)
    (hskey : s.key = s'.key) (hrkey : r.key = r'.key)
    (hshead : s.id.toList.head? = s'.id.toList.head?)
    (hrhead : r.id.toList.head? = r'.id.toList.head?) (hle : s.id ≤ r.id) : s'.id ≤ r'.id := by
  by_cases hkey : s.key = r.key
  · obtain rfl : s' = r' := hu.eq_of_key hs' hr' (hskey.symm.trans (hkey.trans hrkey))
    exact String.le_refl _
  · obtain ⟨c, cs, hc, -, hcs⟩ := hs.id hx
    obtain ⟨d, ds, hd, -, hds⟩ := hr.id hx
    -- keys that end alike and differ begin differently
    have hne : c ≠ d := by
      rintro rfl
      apply hkey
      rw [← String.toList_inj, Site.key_toList, Site.key_toList, hc, hd, List.map_cons,
        List.map_cons, hcs, hds]
    rw [hc, List.head?_cons] at hshead
    rw [hd, List.head?_cons] at hrhead
    obtain ⟨cs', hc'⟩ := List.head?_eq_some_iff.1 hshead.symm
    obtain ⟨ds', hd'⟩ := List.head?_eq_some_iff.1 hrhead.symm
    rw [Site.id_le_iff hc' hd' hne]
    exact (Site.id_le_iff hc hd hne).1 hle

theorem keepsLeader_of_heads (hu : u.Distinct) (h : SameUpToCase t u) (hx : IsTriple o.suffix)
    (heads : ∀ s ∈ t.sites, ∀ s' ∈ u.sites, s.key = s'.key →
      s.id.toList.head? = s'.id.toList.head?) : KeepsLeader t u o := by
  intro s hs s' hs' hkey hleads r' hr' hcompetes
  -- the counterpart of the competitor has lost already in the first table
  obtain ⟨r, hr, hcapitals⟩ := h.symm.exists_capitals hr'
  have hrkey : r.key = r'.key := Site.key_eq_of_capitals hcapitals
  have hrcompetes : Competes t.sites o r :=
    competes_of_capitals h.symm hcapitals.symm hcompetes
  exact id_le_of_heads hx hu hleads.holds.1 hrcompetes.1 hs' hr' hkey hrkey
    (heads s hs s' hs' hkey) (heads r hr r' hr' hrkey) (hleads.least r hr hrcompetes)

/-- **Where letter case counts.** Two tables with the same sites up to the case of their ids give a
file one result, the same product or the same error, exactly if the site to which the product belongs
in the one comes first in the other too, where the ids are ordered as they are written. They do if
the ids begin with the same characters, whatever the case of the other letters. -/
theorem same_result_iff (ht : t.Reached) (hu : u.Reached) (h : SameUpToCase t u)
    (data : List UInt8) :
    (Level3Product.decode t data = Level3Product.decode u data ↔
      ∀ l : Layout data, l.origin.suffix.length = 3 → KeepsLeader t u l.origin) ∧
    ((∀ s ∈ t.sites, ∀ s' ∈ u.sites, s.key = s'.key →
        s.id.toList.head? = s'.id.toList.head?) →
      Level3Product.decode t data = Level3Product.decode u data) := by
  have hiff : Level3Product.decode t data = Level3Product.decode u data ↔
      ∀ l : Layout data, l.origin.suffix.length = 3 → KeepsLeader t u l.origin := by
    rw [decode_eq_iff]
    apply forall_congr'
    intro l
    by_cases hlength : l.origin.suffix.length = 3
    · rw [radarId_eq_iff ht.distinct hu.distinct h l.isOrigin hlength]
      simp only [hlength, true_implies]
    · rw [Origin.radarId, Origin.radarId, if_neg hlength, if_neg hlength]
      simp only [hlength, false_implies]
  refine ⟨hiff, ?_⟩
  intro heads
  rw [hiff]
  intro l hlength
  exact keepsLeader_of_heads hu.distinct h (l.isOrigin.suffix hlength) heads

/-- A table of two weather radars. -/
def weatherRadars (id id' : String) : SiteTable :=
  ⟨[siteOf Site.weatherRadar id, siteOf Site.weatherRadar id']⟩

/-- Of two weather radars the one with the lesser id leads. -/
theorem leads_weatherRadars {id id' : String} (hkind : o.isTerminal = false)
    (hsuffix : (siteOf Site.weatherRadar id).HasSuffix o.suffix) (hle : id ≤ id') :
    Leads (weatherRadars id id').sites o (siteOf Site.weatherRadar id) := by
  refine ⟨List.mem_cons_self, ⟨hsuffix, .inl hkind.symm⟩, ?_⟩
  rintro s hs -
  simp only [weatherRadars, List.mem_cons, List.not_mem_nil, or_false] at hs
  rcases hs with rfl | rfl
  · exact String.le_refl _
  · exact hle

theorem exists_decode_weatherRadars {id id' : String} (hd : (weatherRadars id id').Distinct)
    (hsuffix : (siteOf Site.weatherRadar id).HasSuffix "XYZ") (hle : id ≤ id') :
    ∃ p, Level3Product.decode (weatherRadars id id') (issuedAs "N0BXYZ") = .ok p ∧
      p.radarId = (siteOf Site.weatherRadar id).key := by
  have hread : Origin.read (issuedAs "N0BXYZ") = .ok (originOf "N0B" "XYZ", noon.bytes) :=
    read_issuedAs [0x4E, 0x30, 0x42, 0x58, 0x59, 0x5A] (by decide +kernel) (by decide +kernel) rfl
  have hleads : Leads (weatherRadars id id').sites (originOf "N0B" "XYZ") _ :=
    leads_weatherRadars rfl hsuffix hle
  exact decode_of_leads hd hread read_noon (by decide) hleads

theorem capitals_siteOf (kind id : String) :
    (siteOf kind id).capitals = siteOf kind (Ascii.upper id) := rfl

theorem same_result_of_weatherRadars :
    ∃ p, Level3Product.decode (weatherRadars "KXYZ" "PXYZ") (issuedAs "N0BXYZ") = .ok p ∧
      Level3Product.decode (weatherRadars "KXyz" "Pxyz") (issuedAs "N0BXYZ") = .ok p ∧
      p.radarId = "KXYZ" := by
  have ht : (weatherRadars "KXYZ" "PXYZ").Reached := reached_iff_distinct.2 (by decide)
  have hu : (weatherRadars "KXyz" "Pxyz").Reached := reached_iff_distinct.2 (by decide)
  have hcase : SameUpToCase (weatherRadars "KXYZ" "PXYZ") (weatherRadars "KXyz" "Pxyz") := by
    have hk : Ascii.upper "KXYZ" = Ascii.upper "KXyz" := by decide
    have hp : Ascii.upper "PXYZ" = Ascii.upper "Pxyz" := by decide
    simp only [SameUpToCase, weatherRadars, List.map_cons, List.map_nil, capitals_siteOf, hk, hp]
    exact .refl _
  have heads : ∀ s ∈ (weatherRadars "KXYZ" "PXYZ").sites,
      ∀ s' ∈ (weatherRadars "KXyz" "Pxyz").sites, s.key = s'.key →
        s.id.toList.head? = s'.id.toList.head? := by
    simp only [weatherRadars, List.forall_mem_cons, List.not_mem_nil, false_implies, implies_true,
      and_true]
    decide
  have hsame := (same_result_iff ht hu hcase (issuedAs "N0BXYZ")).2 heads
  obtain ⟨p, hp, hradar⟩ := exists_decode_weatherRadars ht.distinct ⟨by decide, by decide⟩
    (by decide : "KXYZ" ≤ "PXYZ")
  refine ⟨p, hp, ?_, ?_⟩
  · rw [← hsame, hp]
  · rw [hradar]
    decide

/-- A site whose id begins with a small letter loses its products to another one. -/
theorem other_radar_in_small_letters :
    let t := weatherRadars "KXYZ" "PXYZ"
    let u := weatherRadars "PXYZ" "kXYZ"
    t.Reached ∧ u.Reached ∧ SameUpToCase t u ∧
      ∃ p q, Level3Product.decode t (issuedAs "N0BXYZ") = .ok p ∧
        Level3Product.decode u (issuedAs "N0BXYZ") = .ok q ∧
        p.radarId = "KXYZ" ∧ q.radarId = "PXYZ" := by
  intro t u
  have ht : t.Reached := reached_iff_distinct.2 (by decide)
  have hu : u.Reached := reached_iff_distinct.2 (by decide)
  have hcase : SameUpToCase t u := by
    have hk : Ascii.upper "kXYZ" = Ascii.upper "KXYZ" := by decide
    simp only [SameUpToCase, t, u, weatherRadars, List.map_cons, List.map_nil, capitals_siteOf, hk]
    exact .swap _ _ _
  obtain ⟨p, hp, hpradar⟩ := exists_decode_weatherRadars ht.distinct ⟨by decide, by decide⟩
    (by decide : "KXYZ" ≤ "PXYZ")
  obtain ⟨q, hq, hqradar⟩ := exists_decode_weatherRadars hu.distinct ⟨by decide, by decide⟩
    (by decide : "PXYZ" ≤ "kXYZ")
  refine ⟨ht, hu, hcase, p, q, hp, hq, ?_, ?_⟩
  · rw [hpradar]
    decide
  · rw [hqradar]
    decide

end Level3

end RadarFeed
