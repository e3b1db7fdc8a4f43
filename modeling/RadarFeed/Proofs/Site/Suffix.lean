import RadarFeed.Proofs.Site.Table
import RadarFeed.Proofs.Text.Utf8

/-!
The sites with a suffix.

A site has a suffix if its id takes four bytes and, in capitals, ends in the suffix. With a suffix of
three letters such an id is one ASCII character and these letters in any case (`HasSuffix.id`). The
sites are listed by their ids as stored, so that the first one of some kind is the one with the
least id, in whatever order the table holds them (`find?_withSuffix_iff`).
-/

namespace RadarFeed

variable {suffix : String} {s t : Site}

/-- Three letters or digits, in capitals: the code of a product, or the suffix of an id. -/
structure IsTriple (suffix : String) : Prop where
  length : suffix.toList.length = 3
  letters : ∀ c ∈ suffix.toList, Ascii.isAlphanumeric c = true
  capitals : ∀ c ∈ suffix.toList, c.toUpper = c

theorem IsTriple.size (h : IsTriple suffix) : Utf8.size suffix.toList = 3 := by
  rw [Utf8.size_eq_length h.letters, h.length]

theorem IsTriple.map_toUpper (h : IsTriple suffix) :
    suffix.toList.map Char.toUpper = suffix.toList := by
  rw [List.map_congr_left h.capitals, List.map_id']

theorem IsTriple.upper (h : IsTriple suffix) : Ascii.upper suffix = suffix := by
  rw [← String.toList_inj, Ascii.toList_upper, h.map_toUpper]

namespace Site

/-- The id takes four bytes and ends, in capitals, in the suffix. -/
structure HasSuffix (suffix : String) (s : Site) : Prop where
  size : Utf8.size s.id.toList = 4
  ends : suffix.toList <:+ s.key.toList

theorem key_toList (s : Site) : s.key.toList = s.id.toList.map Char.toUpper :=
  Ascii.toList_upper s.id

theorem size_key (s : Site) : Utf8.size s.key.toList = Utf8.size s.id.toList :=
  Utf8.size_upper s.id

/-- The case of an id does not count. -/
theorem hasSuffix_congr (h : s.key = t.key) : s.HasSuffix suffix ↔ t.HasSuffix suffix := by
  have hsize : Utf8.size s.id.toList = Utf8.size t.id.toList := by
    rw [← size_key, ← size_key, h]
  constructor
  · rintro ⟨hs, hends⟩
    exact ⟨hsize ▸ hs, h ▸ hends⟩
  · rintro ⟨ht, hends⟩
    exact ⟨hsize.symm ▸ ht, h.symm ▸ hends⟩

/-- An id with a suffix is one character of a byte and the letters of the suffix in any case. -/
theorem HasSuffix.id (hx : IsTriple suffix) (h : s.HasSuffix suffix) :
    ∃ c rest, s.id.toList = c :: rest ∧ c.utf8Size = 1 ∧ rest.map Char.toUpper = suffix.toList := by
  obtain ⟨hsize, front, hfront⟩ := h
  rw [key_toList] at hfront
  have hfour : Utf8.size front + 3 = 4 := by
    rw [← hx.size, ← Utf8.size_append, hfront, ← key_toList, size_key, hsize]
  cases hid : s.id.toList with
  | nil =>
    rw [hid] at hsize
    simp [Utf8.size] at hsize
  | cons c rest =>
    rw [hid, List.map_cons] at hfront
    cases front with
    | nil => simp [Utf8.size] at hfour
    | cons d front =>
      have hd := d.utf8Size_pos
      obtain ⟨rfl, htail⟩ := List.cons.inj hfront
      have hnil : front = [] := by
        rw [← Utf8.size_eq_zero_iff]
        rw [Utf8.size_cons] at hfour
        omega
      subst hnil
      refine ⟨c, rest, rfl, ?_, htail.symm⟩
      rw [Utf8.size_cons, Ascii.utf8Size_toUpper] at hfour
      simpa [Utf8.size] using hfour

/-- In capitals such an id is a character of a byte and the suffix. -/
theorem HasSuffix.toList_key (hx : IsTriple suffix) (h : s.HasSuffix suffix) :
    ∃ c : Char, c.utf8Size = 1 ∧ c.toUpper = c ∧ s.key.toList = c :: suffix.toList := by
  obtain ⟨c, rest, hid, hc, hrest⟩ := h.id hx
  refine ⟨c.toUpper, ?_, Ascii.toUpper_toUpper c, ?_⟩
  · rw [Ascii.utf8Size_toUpper, hc]
  · rw [key_toList, hid, List.map_cons, hrest]

end Site

open Site

theorem SiteTable.hasSuffix_iff (hx : IsTriple suffix) :
    SiteTable.hasSuffix suffix s.key = true ↔ s.HasSuffix suffix := by
  have hupper : ∀ back : List Char, (∃ front, s.key.toList = front ++ back) →
      (Ascii.sameLetters (String.ofList back) suffix = true ↔ back = suffix.toList) := by
    rintro back ⟨front, hfront⟩
    -- a part of a key is in capitals already
    have hback : back.map Char.toUpper = back := by
      have hmap : s.key.toList.map Char.toUpper = s.key.toList := by
        rw [← Ascii.toList_upper, Site.key, Ascii.upper_upper]
      rw [hfront, List.map_append] at hmap
      exact (List.append_inj hmap (List.length_map _)).2
    rw [Ascii.sameLetters_iff, hx.upper, ← String.toList_inj, Ascii.toList_upper,
      String.toList_ofList, hback]
  unfold SiteTable.hasSuffix
  rw [Bool.and_eq_true, decide_eq_true_eq, size_key]
  constructor
  · rintro ⟨hsize, hends⟩
    split at hends
    · rename_i front back hsplit
      obtain ⟨hkey, -⟩ := Utf8.splitBytes_eq_some_iff.1 hsplit
      rw [hupper back ⟨front, hkey⟩] at hends
      exact ⟨hsize, front, by rw [hkey, hends]⟩
    · cases hends
  · rintro ⟨hsize, front, hkey⟩
    have hone : Utf8.size front = 1 := by
      have hfour := congrArg Utf8.size hkey
      rw [Utf8.size_append, hx.size, size_key, hsize] at hfour
      omega
    refine ⟨hsize, ?_⟩
    rw [Utf8.splitBytes_eq_some_iff.2 ⟨hkey.symm, hone⟩]
    exact (hupper suffix.toList ⟨front, hkey.symm⟩).2 rfl

namespace SiteTable

variable {p q : Site → Prop} {x : Site → Bool} {sites sites' : List Site}

/-- The sites with the suffix are listed, -/
theorem mem_withSuffix_iff {t : SiteTable} (hx : IsTriple suffix) :
    s ∈ t.withSuffix suffix ↔ s ∈ t.sites ∧ s.HasSuffix suffix := by
  rw [withSuffix, List.mem_mergeSort, List.mem_filter, hasSuffix_iff hx]

/-- in the order of their ids. -/
theorem pairwise_withSuffix (t : SiteTable) (suffix : String) :
    (t.withSuffix suffix).Pairwise fun a b => a.id ≤ b.id := by
  unfold withSuffix
  refine (List.pairwise_mergeSort ?_ ?_ _).imp ?_
  · intro a b c hab hbc
    rw [decide_eq_true_eq] at hab hbc ⊢
    exact String.le_trans hab hbc
  · intro a b
    rw [Bool.or_eq_true, decide_eq_true_eq, decide_eq_true_eq]
    exact String.le_total a.id b.id
  · intro a b hab
    exact of_decide_eq_true hab

/-- The first site with a property, in the order of the ids as stored. -/
structure IsFirst (sites : List Site) (p : Site → Prop) (s : Site) : Prop where
  mem : s ∈ sites
  holds : p s
  least : ∀ t ∈ sites, p t → s.id ≤ t.id

/-- The order of the sites does not count, nor how the property is put. -/
theorem IsFirst.congr (h : IsFirst sites p s) (hsites : ∀ t, t ∈ sites' ↔ t ∈ sites)
    (hp : ∀ t ∈ sites, (q t ↔ p t)) : IsFirst sites' q s := by
  refine ⟨(hsites s).2 h.mem, (hp s h.mem).2 h.holds, ?_⟩
  intro t ht hqt
  have ht : t ∈ sites := (hsites t).1 ht
  exact h.least t ht ((hp t ht).1 hqt)

theorem isFirst_congr (hp : ∀ t ∈ sites, (q t ↔ p t)) :
    IsFirst sites q s ↔ IsFirst sites p s := by
  constructor
  · intro h
    exact h.congr (fun _ => Iff.rfl) fun t ht => (hp t ht).symm
  · intro h
    exact h.congr (fun _ => Iff.rfl) hp

/-- In a table there is one first site. -/
theorem IsFirst.unique {table : SiteTable} (hd : table.Distinct) (hs : IsFirst table.sites p s)
    (ht : IsFirst table.sites p t) : s = t := by
  have hid : s.id = t.id :=
    String.le_antisymm (hs.least t ht.mem ht.holds) (ht.least s hs.mem hs.holds)
  have hkey : s.key = t.key := congrArg Ascii.upper hid
  exact hd.eq_of_key hs.mem ht.mem hkey

/-- What is found in a list of sites in the order of their ids is the first one. -/
theorem isFirst_of_find? (hsorted : sites.Pairwise fun a b => a.id ≤ b.id)
    (h : sites.find? x = some s) : IsFirst sites (x · = true) s := by
  obtain ⟨hs, before, after, rfl, hbefore⟩ := List.find?_eq_some_iff_append.1 h
  have hafter := (List.pairwise_cons.1 (List.pairwise_append.1 hsorted).2.1).1
  refine ⟨by simp, hs, ?_⟩
  intro t ht hxt
  rw [List.mem_append, List.mem_cons] at ht
  rcases ht with ht | rfl | ht
  · have hno := hbefore t ht
    rw [hxt] at hno
    cases hno
  · exact String.le_refl _
  · exact hafter t ht

/-- **The first site with the suffix.** Looking through the listed sites finds the site whose id as
stored is the least, in whatever order the table holds the sites. -/
theorem find?_withSuffix_iff {table : SiteTable} (hd : table.Distinct) (hx : IsTriple suffix) :
    (table.withSuffix suffix).find? x = some s ↔
      IsFirst table.sites (fun t => t.HasSuffix suffix ∧ x t = true) s := by
  have first : ∀ {s}, (table.withSuffix suffix).find? x = some s →
      IsFirst table.sites (fun t => t.HasSuffix suffix ∧ x t = true) s := by
    intro s h
    have hfirst := isFirst_of_find? (pairwise_withSuffix table suffix) h
    obtain ⟨hmem, hsuffix⟩ := (mem_withSuffix_iff hx).1 hfirst.mem
    refine ⟨hmem, ⟨hsuffix, hfirst.holds⟩, ?_⟩
    rintro t ht ⟨hsuffix, hxt⟩
    exact hfirst.least t ((mem_withSuffix_iff hx).2 ⟨ht, hsuffix⟩) hxt
  constructor
  · exact first
  · intro h
    cases hfind : (table.withSuffix suffix).find? x with
    | none =>
      have hmem : s ∈ table.withSuffix suffix := (mem_withSuffix_iff hx).2 ⟨h.mem, h.holds.1⟩
      exact absurd h.holds.2 (List.find?_eq_none.1 hfind s hmem)
    | some t =>
      rw [(first hfind).unique hd h]

theorem find?_withSuffix_eq_none_iff {table : SiteTable} (hx : IsTriple suffix) :
    (table.withSuffix suffix).find? x = none ↔
      ∀ t ∈ table.sites, t.HasSuffix suffix → x t = false := by
  rw [List.find?_eq_none]
  simp only [mem_withSuffix_iff hx, and_imp, Bool.not_eq_true]

end SiteTable

end RadarFeed
