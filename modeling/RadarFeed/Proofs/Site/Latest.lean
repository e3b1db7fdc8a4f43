import Mathlib.Data.List.Dedup
import Mathlib.Data.List.Forall2
import RadarFeed.Proofs.Keys
import RadarFeed.Proofs.Site.Suffix

/-!
What a table of sites holds.

Every change adds some sites, none if a file is refused (`change_eq_extend`), so that after any
changes a table is one that some sites were added to, one after the other. What is found in such a
table is the site that was added last (`find?_extend`). `holds_last_added` puts this together with
what a file has to be to be merged (`readFile_eq_some_iff`) and which ids end in a suffix, byte by
byte (`hasSuffix_upper_iff`).
-/

namespace RadarFeed

namespace Utf8

/-- A text does not begin within a character, -/
theorem head_encode {s : List Char} {b : UInt8} {rest : List UInt8} (h : encode s = b :: rest) :
    b.toNat < 128 ∨ 192 ≤ b.toNat := by
  cases s with
  | nil => cases h
  | cons c s =>
    rw [encode_cons] at h
    obtain ⟨x, hx⟩ | ⟨x, y, hx⟩ | ⟨x, y, z, hx⟩ | ⟨x, y, z, w, hx⟩ := encodeChar_cases c
    · have := encodeChar_eq_one_iff.1 hx
      rw [hx] at h
      obtain ⟨rfl, -⟩ := List.cons.inj h
      omega
    · have := encodeChar_eq_two_iff.1 hx
      rw [hx] at h
      obtain ⟨rfl, -⟩ := List.cons.inj h
      omega
    · have := encodeChar_eq_three_iff.1 hx
      rw [hx] at h
      obtain ⟨rfl, -⟩ := List.cons.inj h
      omega
    · have := encodeChar_eq_four_iff.1 hx
      rw [hx] at h
      obtain ⟨rfl, -⟩ := List.cons.inj h
      omega

/-- and the second byte of a character is within it. -/
theorem second_encodeChar {c : Char} {a b : UInt8} {rest : List UInt8}
    (h : String.utf8EncodeChar c = a :: b :: rest) : 128 ≤ b.toNat ∧ b.toNat < 192 := by
  obtain ⟨x, hx⟩ | ⟨x, y, hx⟩ | ⟨x, y, z, hx⟩ | ⟨x, y, z, w, hx⟩ := encodeChar_cases c
  · rw [hx] at h
    cases h
  · have := encodeChar_eq_two_iff.1 hx
    rw [hx] at h
    cases h
    omega
  · have := encodeChar_eq_three_iff.1 hx
    rw [hx] at h
    cases h
    omega
  · have := encodeChar_eq_four_iff.1 hx
    rw [hx] at h
    cases h
    omega

end Utf8

namespace SiteTable

variable {t : SiteTable} {suffix : String} {s : Site}

/-! ## The ends of ids -/

/-- An id takes four bytes, and the last three are those of the suffix up to the case of letters. -/
structure EndsIn (suffix id : String) : Prop where
  size : (Utf8.bytes id).length = 4
  ends : ((Utf8.bytes id).drop 1).map Utf8.upperByte = (Utf8.bytes suffix).map Utf8.upperByte

theorem hasSuffix_upper_iff (suffix id : String) :
    hasSuffix suffix (Ascii.upper id) = true ↔ EndsIn suffix id := by
  have hsize : Utf8.size (Ascii.upper id).toList = (Utf8.bytes id).length := by
    rw [Utf8.size_upper, Utf8.bytes, Utf8.length_encode]
  have hdrop : ((Utf8.bytes id).drop 1).map Utf8.upperByte =
      (Utf8.encode (Ascii.upper id).toList).drop 1 := by
    rw [List.map_drop, ← Utf8.bytes_upper, Utf8.bytes]
  have hends : ∀ {front back : List Char}, (Ascii.upper id).toList = front ++ back →
      Utf8.size front = 1 →
      (Ascii.sameLetters (String.ofList back) suffix = true ↔
        ((Utf8.bytes id).drop 1).map Utf8.upperByte =
          (Utf8.bytes suffix).map Utf8.upperByte) := by
    intro front back hid hone
    rw [← Utf8.length_encode] at hone
    have hback : ((Utf8.bytes id).drop 1).map Utf8.upperByte = Utf8.encode back := by
      rw [hdrop, hid, Utf8.encode_append, List.drop_left' hone]
    -- the bytes are those of capitals already
    have htwice : (Utf8.encode back).map Utf8.upperByte = Utf8.encode back := by
      rw [← hback, List.map_map]
      exact List.map_congr_left fun b _ => Utf8.upperByte_upperByte b
    rw [Ascii.sameLetters_iff, ← Utf8.map_upperByte_eq_iff, Utf8.bytes, String.toList_ofList,
      htwice, hback]
  unfold hasSuffix
  rw [Bool.and_eq_true, decide_eq_true_eq, hsize]
  constructor
  · rintro ⟨hfour, hrest⟩
    split at hrest
    · rename_i front back hsplit
      obtain ⟨hid, hone⟩ := Utf8.splitBytes_eq_some_iff.1 hsplit
      exact ⟨hfour, (hends hid hone).1 hrest⟩
    · cases hrest
  · rintro ⟨hfour, hrest⟩
    obtain ⟨c, back, hid, hone⟩ : ∃ c back, (Ascii.upper id).toList = [c] ++ back ∧
        Utf8.size [c] = 1 := by
      cases hid : (Ascii.upper id).toList with
      | nil =>
        rw [← hsize, hid] at hfour
        cases hfour
      | cons c back =>
        refine ⟨c, back, rfl, ?_⟩
        rw [← Utf8.length_encode, Utf8.encode_cons, Utf8.encode_nil, List.append_nil]
        cases hc : String.utf8EncodeChar c with
        | nil => exact absurd hc (String.utf8EncodeChar_ne_nil)
        | cons a more =>
          cases more with
          | nil => rfl
          | cons b more =>
            -- what is left of a character is not the front of a text
            have hsecond := Utf8.second_encodeChar hc
            have hsuffix : Utf8.encode (Ascii.upper suffix).toList =
                b :: (more ++ Utf8.encode back) := by
              have h := hrest
              rw [hdrop, hid, Utf8.encode_cons, hc, ← Utf8.bytes_upper] at h
              exact h.symm
            have hfirst := Utf8.head_encode hsuffix
            omega
    refine ⟨hfour, ?_⟩
    rw [Utf8.splitBytes_eq_some_iff.2 ⟨hid, hone⟩]
    exact (hends hid hone).2 hrest

/-! ## Additions -/

/-- The sites that a change adds. -/
def added : SiteChange → List Site
  | .extend sites => sites
  | .mergeFile contents => (contents.bind readFile).getD []

theorem mergeFile_eq (t : SiteTable) (contents : Option (List UInt8)) :
    contents.bind t.mergeFile =
      (contents.bind readFile).map fun sites => (t.extend sites, sites.length) := by
  cases contents with
  | none => rfl
  | some bytes =>
    show t.mergeFile bytes = (readFile bytes).map fun sites => (t.extend sites, sites.length)
    unfold mergeFile
    cases readFile bytes <;> rfl

theorem change_mergeFile (t : SiteTable) (contents : Option (List UInt8)) :
    t.change (.mergeFile contents) = t.extend ((contents.bind readFile).getD []) := by
  rw [change, mergeFile_eq]
  cases contents.bind readFile <;> rfl

theorem change_eq_extend (t : SiteTable) (c : SiteChange) : t.change c = t.extend (added c) := by
  cases c with
  | extend sites => rfl
  | mergeFile contents => exact t.change_mergeFile contents

theorem extend_append (t : SiteTable) (sites more : List Site) :
    t.extend (sites ++ more) = (t.extend sites).extend more :=
  List.foldl_append

theorem changes_eq_extend (t : SiteTable) (cs : List SiteChange) :
    t.changes cs = t.extend (cs.flatMap added) := by
  induction cs generalizing t with
  | nil => rfl
  | cons c cs ih =>
    rw [List.flatMap_cons, extend_append, ← change_eq_extend, ← ih]
    rfl

theorem find?_insert (t : SiteTable) (site : Site) (id : String) :
    (t.insert site).find? id =
      if site.key = Ascii.upper id then some site else t.find? id := by
  show (put site t.sites).find? (fun s => s.key = Ascii.upper id) =
    if site.key = Ascii.upper id then some site
    else t.sites.find? fun s => s.key = Ascii.upper id
  induction t.sites with
  | nil => by_cases h : site.key = Ascii.upper id <;> simp [put, h]
  | cons s sites ih =>
    by_cases hs : s.key = site.key
    · rw [put, if_pos hs]
      by_cases h : site.key = Ascii.upper id <;> simp [h, hs]
    · rw [put, if_neg hs, List.find?_cons, List.find?_cons, ih]
      by_cases h : site.key = Ascii.upper id
      · have hne : ¬ s.key = Ascii.upper id := by rw [← h]; exact hs
        simp [h, hne]
      · simp [h]

/-- What is found is the site that was added last. -/
theorem find?_extend (t : SiteTable) (sites : List Site) (id : String) :
    (t.extend sites).find? id =
      (sites.reverse.find? fun s => s.key = Ascii.upper id).or (t.find? id) := by
  induction sites generalizing t with
  | nil => rfl
  | cons site sites ih =>
    show ((t.insert site).extend sites).find? id = _
    rw [ih, find?_insert, List.reverse_cons, List.find?_append, Option.or_assoc]
    congr 1
    by_cases h : site.key = Ascii.upper id <;> simp [h]

/-- The keys are those of the sites that were added. -/
theorem mem_keys_extend (t : SiteTable) (sites : List Site) (key : String) :
    key ∈ (t.extend sites).sites.map Site.key ↔
      key ∈ t.sites.map Site.key ∨ key ∈ sites.map Site.key := by
  induction sites generalizing t with
  | nil => simp [extend]
  | cons site sites ih =>
    show key ∈ ((t.insert site).extend sites).sites.map Site.key ↔ _
    have hinsert : (t.insert site).sites.map Site.key =
        if site.key ∈ t.sites.map Site.key then t.sites.map Site.key
        else t.sites.map Site.key ++ [site.key] := keys_put site t.sites
    rw [ih, hinsert, List.map_cons, List.mem_cons, ← or_assoc]
    split
    · rename_i hold
      refine or_congr_left ?_
      constructor
      · exact .inl
      · rintro (h | rfl)
        · exact h
        · exact hold
    · rw [List.mem_append, List.mem_singleton]

/-! ## Files -/

/-- The site of every item of a list. -/
theorem mapM_eq_some_iff {α β : Type} {f : α → Option β} {items : List α} {results : List β} :
    items.mapM f = some results ↔ List.Forall₂ (fun v x => f v = some x) items results := by
  induction items generalizing results with
  | nil => simp [eq_comm]
  | cons v items ih =>
    rw [List.mapM_cons, List.forall₂_cons_left_iff]
    simp only [Option.bind_eq_bind, Option.bind_eq_some_iff, Option.pure_def, Option.some.injEq, ih]
    constructor
    · rintro ⟨x, hx, xs, hxs, rfl⟩
      exact ⟨x, xs, hx, hxs, rfl⟩
    · rintro ⟨x, xs, hx, hxs, rfl⟩
      exact ⟨x, hx, xs, hxs, rfl⟩

/-- A file is read if it is an array and each of its items a site. -/
theorem readFile_eq_some_iff {bytes : List UInt8} {sites : List Site} :
    readFile bytes = some sites ↔ ∃ items, Json.Value.read bytes = some (.array items) ∧
      List.Forall₂ (fun v s => Site.ofJson v = some s) items sites := by
  unfold readFile
  simp only [Option.bind_eq_bind, Option.bind_eq_some_iff, mapM_eq_some_iff]
  constructor
  · rintro ⟨v, hread, items, hv, hsites⟩
    cases v with
    | array found =>
      obtain rfl := Option.some.inj hv
      exact ⟨found, hread, hsites⟩
    | _ => cases hv
  · rintro ⟨items, hread, hsites⟩
    exact ⟨.array items, hread, items, rfl, hsites⟩

theorem mergeFile_eq_some_iff {contents : Option (List UInt8)} {merged : SiteTable} {n : Nat} :
    contents.bind t.mergeFile = some (merged, n) ↔
      ∃ sites, contents.bind readFile = some sites ∧ merged = t.extend sites ∧
        n = sites.length := by
  rw [mergeFile_eq, Option.map_eq_some_iff]
  simp only [Prod.mk.injEq, eq_comm]

/-! ## The sites of a table -/

/-- Where a table starts from. -/
inductive Start where
  | empty
  | builtin

namespace Start

def table : Start → SiteTable
  | .empty => SiteTable.empty
  | .builtin => SiteTable.builtin

/-- The sites that a table starts with. -/
def sites : Start → List Site
  | .empty => []
  | .builtin => builtinSites

theorem table_eq_extend (start : Start) : start.table = SiteTable.empty.extend start.sites := by
  cases start <;> rfl

end Start

/-- Of some sites, added one after the other, a table holds the last one of every id. -/
structure HoldsLast (t : SiteTable) (all : List Site) : Prop where
  keys : (t.sites.map Site.key).Perm (all.map Site.key).dedup
  find : ∀ id, t.find? id = all.reverse.find? fun s => Ascii.sameLetters s.id id
  mem : ∀ s, s ∈ t.sites ↔ t.find? s.id = some s
  sorted : ∀ suffix, (t.withSuffix suffix).Pairwise fun a b => a.id < b.id
  suffix : ∀ suffix s, s ∈ t.withSuffix suffix ↔ s ∈ t.sites ∧ EndsIn suffix s.id

/-- The sites with a suffix are listed once, in ascending order. -/
theorem Distinct.pairwise_withSuffix (h : t.Distinct) (suffix : String) :
    (t.withSuffix suffix).Pairwise fun a b => a.id < b.id := by
  have hnodup : (t.withSuffix suffix).Nodup := by
    refine (List.mergeSort_perm _ _).nodup_iff.2 (List.Nodup.filter _ ?_)
    exact List.Nodup.of_map Site.key h
  refine ((SiteTable.pairwise_withSuffix t suffix).and hnodup).imp_of_mem ?_
  rintro a b ha hb ⟨hle, hne⟩
  refine String.not_le.1 fun hge => hne ?_
  have mem : ∀ s ∈ t.withSuffix suffix, s ∈ t.sites := fun s hs =>
    List.mem_of_mem_filter (List.mem_mergeSort.1 hs)
  have hid : a.id = b.id := String.le_antisymm hle hge
  exact h.eq_of_key (mem a ha) (mem b hb) (congrArg Ascii.upper hid)

theorem holdsLast_extend (all : List Site) : HoldsLast (empty.extend all) all := by
  have hempty : empty.Distinct := List.nodup_nil
  have hdistinct : (empty.extend all).Distinct := hempty.extend all
  refine ⟨?keys, ?find, ?mem, hdistinct.pairwise_withSuffix, ?suffix⟩
  case keys =>
    refine (List.perm_ext_iff_of_nodup hdistinct (List.nodup_dedup _)).2 fun key => ?_
    rw [mem_keys_extend, List.mem_dedup]
    simp [empty]
  case find =>
    intro id
    rw [find?_extend]
    exact Option.or_none
  case mem =>
    intro s
    have hfind : (empty.extend all).find? s.id = some s ↔ _ := find?_key_eq_some_iff hdistinct
    rw [hfind]
    exact (and_iff_left rfl).symm
  case suffix =>
    intro suffix s
    rw [withSuffix, List.mem_mergeSort, List.mem_filter, Site.key, hasSuffix_upper_iff]

/-- **What a table holds.** Whatever was added and whichever files were merged, the table holds for
every id, up to the case of letters, the site that was added last. A file that is not an array of
sites changes nothing, one that is returns how many sites it lists. -/
theorem holds_last_added (start : Start) (cs : List SiteChange) :
    HoldsLast (start.table.changes cs) (start.sites ++ cs.flatMap added) ∧
      (∀ contents merged n, contents.bind (start.table.changes cs).mergeFile = some (merged, n) ↔
        ∃ bytes items sites, contents = some bytes ∧
          Json.Value.read bytes = some (.array items) ∧
          List.Forall₂ (fun v s => Site.ofJson v = some s) items sites ∧
          added (.mergeFile contents) = sites ∧ n = items.length ∧
          merged = (start.table.changes cs).extend sites ∧
          (start.table.changes cs).change (.mergeFile contents) = merged) ∧
      ∀ contents, contents.bind (start.table.changes cs).mergeFile = none →
        added (.mergeFile contents) = [] ∧
          (start.table.changes cs).change (.mergeFile contents) = start.table.changes cs := by
  refine ⟨?_, ?_, ?_⟩
  · rw [changes_eq_extend, start.table_eq_extend, ← extend_append]
    exact holdsLast_extend _
  · intro contents merged n
    generalize start.table.changes cs = t
    rw [mergeFile_eq_some_iff]
    constructor
    · rintro ⟨sites, hsites, rfl, rfl⟩
      obtain ⟨bytes, hbytes, hread⟩ := Option.bind_eq_some_iff.1 hsites
      obtain ⟨items, hitems, hall⟩ := readFile_eq_some_iff.1 hread
      refine ⟨bytes, items, sites, hbytes, hitems, hall, ?_, hall.length_eq.symm, rfl, ?_⟩
      · rw [added, hsites, Option.getD_some]
      · rw [change_mergeFile, hsites, Option.getD_some]
    · rintro ⟨bytes, items, sites, rfl, hitems, hall, -, rfl, rfl, -⟩
      exact ⟨sites, readFile_eq_some_iff.2 ⟨items, hitems, hall⟩, rfl, hall.length_eq⟩
  · intro contents hnone
    rw [mergeFile_eq, Option.map_eq_none_iff] at hnone
    refine ⟨?_, ?_⟩
    · rw [added, hnone, Option.getD_none]
    · rw [change_mergeFile, hnone, Option.getD_none]
      rfl

end SiteTable

end RadarFeed
