import Mathlib.Data.List.Nodup
import Mathlib.Data.List.Perm.Basic
import RadarFeed.Proofs.Text.Ascii
import RadarFeed.Site.File

/-!
Tables of sites as changes leave them.

A table grows by sites that are added and by files that are merged; a file that cannot be read, or
whose text is refused, changes nothing. Sites in a table have distinct keys, whatever has been done
to it (`Reached.distinct`). Nothing is said about the order in which a table holds its sites: a table
is `Reached` in every order.
-/

namespace RadarFeed

/-- What is done to a table. -/
inductive SiteChange where
  | extend (sites : List Site)
  /-- A file is merged, whose bytes are missing if it cannot be read. -/
  | mergeFile (contents : Option (List UInt8))

namespace SiteTable

variable {t : SiteTable} {site : Site}

/-- The table after a change. -/
def change (t : SiteTable) : SiteChange → SiteTable
  | .extend sites => t.extend sites
  | .mergeFile contents =>
    match contents.bind t.mergeFile with
    | some (merged, _) => merged
    | none => t

/-- The table after some changes. -/
def changes (t : SiteTable) (cs : List SiteChange) : SiteTable :=
  cs.foldl change t

/-- A table that changes have made of the empty one, with its sites in any order. The table of the
built-in sites is among these. -/
def Reached (t : SiteTable) : Prop :=
  ∃ cs, t.sites.Perm (empty.changes cs).sites

/-- No two sites have one key. -/
def Distinct (t : SiteTable) : Prop :=
  (t.sites.map Site.key).Nodup

instance (t : SiteTable) : Decidable t.Distinct :=
  inferInstanceAs (Decidable (t.sites.map Site.key).Nodup)

/-- A site takes the place of the one with its key, and else comes last. -/
theorem keys_put (site : Site) (sites : List Site) : (put site sites).map Site.key =
    if site.key ∈ sites.map Site.key then sites.map Site.key
    else sites.map Site.key ++ [site.key] := by
  induction sites with
  | nil => simp [put]
  | cons s sites ih =>
    by_cases h : s.key = site.key
    · simp [put, h]
    · by_cases hmem : site.key ∈ sites.map Site.key <;> simp [put, h, Ne.symm h, ih, hmem]

theorem Distinct.insert (h : t.Distinct) (site : Site) : (t.insert site).Distinct := by
  show ((put site t.sites).map Site.key).Nodup
  rw [keys_put]
  split
  · exact h
  · rename_i hkey
    refine List.nodup_append.2 ⟨h, List.nodup_singleton _, ?_⟩
    intro a ha b hb hab
    rw [List.mem_singleton] at hb
    exact hkey (hb ▸ hab ▸ ha)

theorem Distinct.extend (h : t.Distinct) (sites : List Site) : (t.extend sites).Distinct := by
  induction sites generalizing t with
  | nil => exact h
  | cons site sites ih => exact ih (h.insert site)

theorem Distinct.change (h : t.Distinct) (c : SiteChange) : (t.change c).Distinct := by
  cases c with
  | extend sites => exact h.extend sites
  | mergeFile contents =>
    cases hmerge : contents.bind t.mergeFile with
    | none => simpa only [SiteTable.change, hmerge] using h
    | some merged =>
      obtain ⟨bytes, -, hbytes⟩ := Option.bind_eq_some_iff.1 hmerge
      obtain ⟨sites, -, hsites⟩ := Option.bind_eq_some_iff.1 hbytes
      obtain rfl := Option.some.inj hsites
      simpa only [SiteTable.change, hmerge] using h.extend sites

theorem Distinct.changes (h : t.Distinct) (cs : List SiteChange) : (t.changes cs).Distinct := by
  induction cs generalizing t with
  | nil => exact h
  | cons c cs ih => exact ih (h.change c)

theorem Reached.distinct (h : t.Reached) : t.Distinct := by
  obtain ⟨cs, hperm⟩ := h
  have hempty : empty.Distinct := List.nodup_nil
  exact ((hperm.map Site.key).nodup_iff).2 (hempty.changes cs)

/-- The order in which a table holds its sites does not count. -/
theorem Reached.of_perm {u : SiteTable} (h : t.Reached) (hperm : u.sites.Perm t.sites) :
    u.Reached := by
  obtain ⟨cs, hcs⟩ := h
  exact ⟨cs, hperm.trans hcs⟩

/-- A site with a new key comes last. -/
theorem put_of_notMem {sites : List Site} (h : site.key ∉ sites.map Site.key) :
    put site sites = sites ++ [site] := by
  induction sites with
  | nil => rfl
  | cons s sites ih =>
    rw [List.map_cons, List.mem_cons, not_or] at h
    rw [put, if_neg (Ne.symm h.1), ih h.2, List.cons_append]

theorem sites_extend_of_nodup {sites : List Site} (h : ((t.sites ++ sites).map Site.key).Nodup) :
    (t.extend sites).sites = t.sites ++ sites := by
  induction sites generalizing t with
  | nil => exact (List.append_nil _).symm
  | cons site sites ih =>
    rw [List.map_append, List.map_cons] at h
    have hnew : site.key ∉ t.sites.map Site.key := by
      intro hmem
      exact (List.nodup_append.1 h).2.2 _ hmem _ List.mem_cons_self rfl
    have hinsert : (t.insert site).sites = t.sites ++ [site] := put_of_notMem hnew
    have hrest : (((t.insert site).sites ++ sites).map Site.key).Nodup := by
      rw [hinsert, List.append_assoc, List.map_append]
      exact h
    show ((t.insert site).extend sites).sites = t.sites ++ site :: sites
    rw [ih hrest, hinsert, List.append_assoc]
    rfl

/-- **The tables that changes make.** They are those in which no two sites have one key. -/
theorem reached_iff_distinct : t.Reached ↔ t.Distinct := by
  constructor
  · exact Reached.distinct
  · intro h
    have hsites : (empty.extend t.sites).sites = t.sites := sites_extend_of_nodup h
    refine ⟨[.extend t.sites], ?_⟩
    show t.sites.Perm (empty.extend t.sites).sites
    rw [hsites]

/-- A site of a table is known by its key. -/
theorem Distinct.eq_of_key {s s' : Site} (h : t.Distinct) (hs : s ∈ t.sites) (hs' : s' ∈ t.sites)
    (hkey : s.key = s'.key) : s = s' :=
  List.inj_on_of_nodup_map h hs hs' hkey

end SiteTable

end RadarFeed
