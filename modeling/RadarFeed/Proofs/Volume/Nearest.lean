import Mathlib.Algebra.Order.Group.Unbundled.Abs
import Mathlib.Algebra.Order.Ring.Rat
import Mathlib.Tactic.Linarith
import RadarFeed.Proofs.Volume.Selection

/-!
How near the cut of a scan is to the elevation asked for, with exact angles.

The cut that is taken is the last to start of the `candidates`: the cuts whose distance to the
requested elevation exceeds the least one by less than the tolerance (`nearestCut_eq`). Distances
do not tell the two sides of the requested elevation apart, so a candidate need not be near the
nearest cut. It is, unless it lies on the other side and the two distances add up to the tolerance
or more (`IsAcross`); `shows_nearest_iff_not_across` says so of every scan.
-/

namespace RadarFeed

namespace ElevationScan

variable {α : Type}

/-! ## The last cut to start -/

/-- `c` is the last cut of `cuts` to start; of those that start together it comes last. -/
def IsLatest (cuts : List (Cut α)) (c : Cut α) : Prop :=
  ∃ before after, cuts = before ++ c :: after ∧ (∀ d ∈ before, d.start ≤ c.start) ∧
    ∀ d ∈ after, d.start < c.start

theorem IsLatest.mem {cuts : List (Cut α)} {c : Cut α} (h : IsLatest cuts c) : c ∈ cuts := by
  obtain ⟨before, after, rfl, -⟩ := h
  simp

theorem IsLatest.start_le {cuts : List (Cut α)} {c d : Cut α} (h : IsLatest cuts c)
    (hd : d ∈ cuts) : d.start ≤ c.start := by
  obtain ⟨before, after, rfl, hbefore, hafter⟩ := h
  rcases List.mem_append.1 hd with hd | hd
  · exact hbefore d hd
  · rcases List.mem_cons.1 hd with rfl | hd
    · exact Instant.le_refl _
    · exact Instant.le_of_lt (hafter d hd)

/-- A cut behind the others takes the place of the last one unless it started before it. -/
theorem IsLatest.concat {cuts : List (Cut α)} {c : Cut α} (h : IsLatest cuts c) (d : Cut α) :
    IsLatest (cuts ++ [d]) (if c.start ≤ d.start then d else c) := by
  split
  · rename_i hcd
    refine ⟨cuts, [], by simp, fun x hx => Instant.le_trans (h.start_le hx) hcd, by simp⟩
  · rename_i hcd
    obtain ⟨before, after, rfl, hbefore, hafter⟩ := h
    refine ⟨before, after ++ [d], by simp, hbefore, fun x hx => ?_⟩
    rcases List.mem_append.1 hx with hx | hx
    · exact hafter x hx
    · rw [List.mem_singleton.1 hx]
      exact Instant.not_le.1 hcd

theorem isLatest_of_latest? {cuts : List (Cut α)} {c : Cut α} (h : latest? cuts = some c) :
    IsLatest cuts c := by
  -- the cut kept so far is the last one of those seen
  have kept : ∀ (s seen : List (Cut α)) (best : Cut α), IsLatest seen best →
      IsLatest (seen ++ s)
        (s.foldl (fun best d => if best.start ≤ d.start then d else best) best) := by
    intro s
    induction s with
    | nil => intro seen best hb; simpa using hb
    | cons d s ih =>
      intro seen best hb
      have hd := ih (seen ++ [d]) _ (hb.concat d)
      rwa [List.append_assoc] at hd
  cases cuts with
  | nil => cases h
  | cons first s =>
    rw [← Option.some.inj h]
    exact kept s [first] first ⟨[], [], rfl, by simp, by simp⟩

theorem latest?_eq_none_iff {cuts : List (Cut α)} : latest? cuts = none ↔ cuts = [] := by
  cases cuts <;> simp [latest?]

/-! ## Exact elevations -/

/-- Elevations closer together than this, in degrees, are the same. -/
def tolerance : ℚ := 1 / 10

instance : Elevation ℚ where
  le x y := decide (x ≤ y)
  sub x y := x - y
  gap x y := |x - y|
  isSmall x := decide (x < tolerance)

theorem least?_eq_some {s : List ℚ} {x : ℚ} (h : least? s = some x) :
    x ∈ s ∧ ∀ y ∈ s, x ≤ y := by
  -- the best of what has been seen is there and least
  have kept : ∀ (s seen : List ℚ) (best : ℚ), best ∈ seen → (∀ y ∈ seen, best ≤ y) →
      let m := s.foldl (fun best y => if Elevation.le best y then best else y) best
      m ∈ seen ++ s ∧ ∀ y ∈ seen ++ s, m ≤ y := by
    intro s
    induction s with
    | nil => intro seen best hb hle; simpa using ⟨hb, hle⟩
    | cons y s ih =>
      intro seen best hb hle
      have hy := ih (seen ++ [y]) (if Elevation.le best y then best else y)
      rw [List.append_assoc] at hy
      refine hy ?_ fun z hz => ?_
      · split <;> simp [hb]
      · simp only [Elevation.le, decide_eq_true_eq]
        rcases List.mem_append.1 hz with hz | hz
        · have := hle z hz
          split <;> linarith
        · rw [List.mem_singleton.1 hz]
          split <;> linarith
  cases s with
  | nil => cases h
  | cons first s =>
    rw [← Option.some.inj h]
    exact kept s [first] first (by simp) (by simp)

theorem least?_eq_none_iff {s : List ℚ} : least? s = none ↔ s = [] := by
  cases s <;> simp [least?]

variable {cuts : List (Cut ℚ)} {e : ℚ} {c n : Cut ℚ}

/-- No cut is nearer to `e` than `n`. -/
def IsNearest (e : ℚ) (cuts : List (Cut ℚ)) (n : Cut ℚ) : Prop :=
  n ∈ cuts ∧ ∀ d ∈ cuts, |n.elevation - e| ≤ |d.elevation - e|

theorem exists_isNearest (e : ℚ) (h : cuts ≠ []) : ∃ n, IsNearest e cuts n := by
  cases hm : least? (cuts.map fun c => |c.elevation - e|) with
  | none => exact absurd (List.map_eq_nil_iff.1 (least?_eq_none_iff.1 hm)) h
  | some m =>
    obtain ⟨hmem, hle⟩ := least?_eq_some hm
    obtain ⟨n, hn, rfl⟩ := List.mem_map.1 hmem
    exact ⟨n, hn, fun d hd => hle _ (List.mem_map_of_mem hd)⟩

/-- The cuts that are as near to `e` as every other one, give or take the tolerance. -/
def candidates (e : ℚ) (cuts : List (Cut ℚ)) : List (Cut ℚ) :=
  cuts.filter fun c => decide (∀ d ∈ cuts, |c.elevation - e| < |d.elevation - e| + tolerance)

theorem mem_candidates : c ∈ candidates e cuts ↔
    c ∈ cuts ∧ ∀ d ∈ cuts, |c.elevation - e| < |d.elevation - e| + tolerance := by
  simp [candidates]

theorem IsNearest.mem_candidates (h : IsNearest e cuts n) : n ∈ candidates e cuts := by
  refine ElevationScan.mem_candidates.2 ⟨h.1, fun d hd => ?_⟩
  have := h.2 d hd
  have : (0 : ℚ) < tolerance := by norm_num [tolerance]
  linarith

/-- Of the cuts that had started, the one that is taken is the last candidate to start. -/
theorem nearestCut_eq (e : ℚ) (time : Option Instant) (cuts : List (Cut ℚ)) :
    nearestCut e time cuts = latest? (candidates e (started time cuts)) := by
  unfold nearestCut
  generalize started time cuts = s
  cases hm : least? (s.map fun c => Elevation.gap c.elevation e) with
  | none =>
    have hs : s = [] := List.map_eq_nil_iff.1 (least?_eq_none_iff.1 hm)
    subst hs
    rfl
  | some m =>
    obtain ⟨hmem, hle⟩ := least?_eq_some hm
    obtain ⟨n, hn, rfl⟩ := List.mem_map.1 hmem
    have hleast : ∀ d ∈ s, |n.elevation - e| ≤ |d.elevation - e| := fun d hd =>
      hle _ (List.mem_map_of_mem hd)
    simp only [hm, Option.bind_eq_bind, Option.bind_some, candidates]
    refine congrArg latest? (List.filter_congr fun c _ => decide_eq_decide.2 ?_)
    -- to be near in comparison with the nearest cut is to be so in comparison with every one
    constructor
    · intro h d hd
      have h : |c.elevation - e| - |n.elevation - e| < tolerance := h
      have := hleast d hd
      linarith
    · intro h
      show |c.elevation - e| - |n.elevation - e| < tolerance
      have := h n hn
      linarith

theorem candidates_eq_nil_iff : candidates e cuts = [] ↔ cuts = [] := by
  constructor
  · intro h
    by_contra hne
    obtain ⟨n, hn⟩ := exists_isNearest e hne
    rw [List.eq_nil_iff_forall_not_mem] at h
    exact h n hn.mem_candidates
  · rintro rfl
    rfl

/-- `c` lies on the other side of `e` than the nearest cuts, and not next to them. -/
def IsAcross (e : ℚ) (cuts : List (Cut ℚ)) (c : Cut ℚ) : Prop :=
  ∀ n, IsNearest e cuts n →
    (c.elevation < e ∧ e < n.elevation ∨ n.elevation < e ∧ e < c.elevation) ∧
      tolerance ≤ |c.elevation - e| + |n.elevation - e|

/-- On two sides of `e` distances add up. -/
theorem abs_sub_of_opposite {x y : ℚ} (h : x < e ∧ e < y ∨ y < e ∧ e < x) :
    |x - y| = |x - e| + |y - e| := by
  rcases h with ⟨hx, hy⟩ | ⟨hy, hx⟩
  · rw [abs_of_neg (sub_neg.2 hx), abs_of_pos (sub_pos.2 hy), abs_of_neg (by linarith)]
    linarith
  · rw [abs_of_pos (sub_pos.2 hx), abs_of_neg (sub_neg.2 hy), abs_of_pos (by linarith)]
    linarith

/-- On one side of `e` they are subtracted. -/
theorem abs_sub_of_same_side {x y : ℚ} (h : ¬ (x < e ∧ e < y ∨ y < e ∧ e < x))
    (hle : |y - e| ≤ |x - e|) : |x - y| = |x - e| - |y - e| := by
  have hside : x ≤ e ∧ y ≤ e ∨ e ≤ x ∧ e ≤ y := by
    rcases lt_trichotomy x e with hx | rfl | hx
    · exact .inl ⟨hx.le, not_lt.1 fun hy => h (.inl ⟨hx, hy⟩)⟩
    · have hy : y = x := by simpa [sub_eq_zero] using hle
      exact .inl ⟨le_rfl, hy.le⟩
    · exact .inr ⟨hx.le, not_lt.1 fun hy => h (.inr ⟨hy, hx⟩)⟩
  rcases hside with ⟨hx, hy⟩ | ⟨hx, hy⟩
  · rw [abs_of_nonpos (sub_nonpos.2 hx), abs_of_nonpos (sub_nonpos.2 hy)] at hle ⊢
    rw [abs_of_nonpos (by linarith)]
    linarith
  · rw [abs_of_nonneg (sub_nonneg.2 hx), abs_of_nonneg (sub_nonneg.2 hy)] at hle ⊢
    rw [abs_of_nonneg (by linarith)]
    linarith

/-- A candidate is close to a nearest cut unless it lies across the elevation asked for. -/
theorem near_iff_not_isAcross (h : c ∈ candidates e cuts) :
    (∃ n, IsNearest e cuts n ∧ |c.elevation - n.elevation| < tolerance) ↔
      ¬ IsAcross e cuts c := by
  constructor
  · rintro ⟨n, hn, hlt⟩ hacross
    obtain ⟨hsides, hfar⟩ := hacross n hn
    rw [abs_sub_of_opposite hsides] at hlt
    linarith
  · intro hnot
    simp only [IsAcross, not_forall, not_and, not_le] at hnot
    obtain ⟨n, hn, hside⟩ := hnot
    have hclose := (mem_candidates.1 h).2 n hn.1
    refine ⟨n, hn, ?_⟩
    by_cases hsides : c.elevation < e ∧ e < n.elevation ∨ n.elevation < e ∧ e < c.elevation
    · rw [abs_sub_of_opposite hsides]
      exact hside hsides
    · rw [abs_sub_of_same_side hsides (hn.2 c (mem_candidates.1 h).1)]
      linarith

/-- **A scan shows the nearest elevation unless a later cut lies across.** There is a scan exactly
if some cut of the moment had started. It shows the last candidate to start, and the elevation of
that cut is within the tolerance of the elevation of a nearest one exactly if it does not lie on the
other side of the elevation asked for, at a distance that together with the least one reaches the
tolerance. -/
theorem shows_nearest_iff_not_across (v : VolumeOf ℚ) (moment : Moment) (e : ℚ)
    (time : Option Instant) :
    let cuts := started time (v.cutsOf moment)
    (v.scan moment e time = none ↔ cuts = []) ∧
    ∀ s, v.scan moment e time = some s →
      ∃ c, IsLatest (candidates e cuts) c ∧
        s = ⟨moment, c.elevation, elevationsOf (v.cutsOf moment), c.radials⟩ ∧
        ((∃ n, IsNearest e cuts n ∧ |s.elevation - n.elevation| < tolerance) ↔
          ¬ IsAcross e cuts c) := by
  intro cuts
  constructor
  · rw [VolumeOf.scan_eq_map, Option.map_eq_none_iff, nearestCut_eq, latest?_eq_none_iff]
    exact candidates_eq_nil_iff
  · intro s hs
    obtain ⟨c, hc, rfl⟩ := VolumeOf.scan_eq_some hs
    rw [nearestCut_eq] at hc
    have hlatest : IsLatest (candidates e cuts) c := isLatest_of_latest? hc
    exact ⟨c, hlatest, rfl, near_iff_not_isAcross hlatest.mem⟩

/-- A cut at 0.48 degrees that repeats the one at 0.5 degrees is shown, and the one at 0.9 degrees
is not. -/
theorem shows_nearest_of_repeated :
    let cuts : List (Cut ℚ) := [⟨1 / 2, ⟨0, 0⟩, []⟩, ⟨9 / 10, ⟨30, 0⟩, []⟩, ⟨12 / 25, ⟨60, 0⟩, []⟩]
    let v : VolumeOf ℚ := ⟨default, [(.reflectivity, cuts)]⟩
    ∃ s, v.scan .reflectivity (3 / 5) none = some s ∧ s.elevation = 12 / 25 ∧
      ∃ n, IsNearest (3 / 5) (started none (v.cutsOf .reflectivity)) n ∧
        |s.elevation - n.elevation| < tolerance := by
  intro cuts v
  have hc : nearestCut (3 / 5) none cuts = some ⟨12 / 25, ⟨60, 0⟩, []⟩ := by
    norm_num [cuts, nearestCut, started, least?, latest?, Elevation.gap, Elevation.le,
      Elevation.sub, Elevation.isSmall, tolerance, Instant.le_def]
  have hs : v.scan .reflectivity (3 / 5) none =
      some ⟨.reflectivity, 12 / 25, elevationsOf cuts, []⟩ := by
    rw [VolumeOf.scan_eq_map]
    exact congrArg (Option.map _) hc
  have hn : IsNearest (3 / 5) (started none (v.cutsOf .reflectivity)) ⟨1 / 2, ⟨0, 0⟩, []⟩ := by
    show IsNearest (3 / 5) cuts _
    norm_num [cuts, IsNearest]
  obtain ⟨c, -, hc, hiff⟩ := (shows_nearest_iff_not_across v .reflectivity (3 / 5) none).2 _ hs
  have hel : 12 / 25 = c.elevation := congrArg ElevationScan.elevation hc
  refine ⟨_, hs, rfl, hiff.2 fun hacross => ?_⟩
  have hsides := (hacross _ hn).1
  rw [← hel] at hsides
  norm_num at hsides

/-- Asked for 0.68 degrees, a volume with cuts at 0.5 and 0.9 degrees shows the one at 0.9 degrees,
because it started later. -/
theorem shows_later_cut_across :
    let cuts : List (Cut ℚ) := [⟨1 / 2, ⟨0, 0⟩, []⟩, ⟨9 / 10, ⟨30, 0⟩, []⟩]
    let v : VolumeOf ℚ := ⟨default, [(.reflectivity, cuts)]⟩
    ∃ s, v.scan .reflectivity (17 / 25) none = some s ∧
      ¬ ∃ n, IsNearest (17 / 25) (started none (v.cutsOf .reflectivity)) n ∧
        |s.elevation - n.elevation| < tolerance := by
  intro cuts v
  have hc : nearestCut (17 / 25) none cuts = some ⟨9 / 10, ⟨30, 0⟩, []⟩ := by
    norm_num [cuts, nearestCut, started, least?, latest?, Elevation.gap, Elevation.le,
      Elevation.sub, Elevation.isSmall, tolerance, Instant.le_def]
  have hs : v.scan .reflectivity (17 / 25) none =
      some ⟨.reflectivity, 9 / 10, elevationsOf cuts, []⟩ := by
    rw [VolumeOf.scan_eq_map]
    exact congrArg (Option.map _) hc
  refine ⟨_, hs, ?_⟩
  rintro ⟨n, ⟨hmem, hle⟩, hlt⟩
  have hmem : n ∈ cuts := hmem
  have hle : |n.elevation - 17 / 25| ≤ |(1 / 2 : ℚ) - 17 / 25| :=
    hle ⟨1 / 2, ⟨0, 0⟩, []⟩ (show _ ∈ cuts from List.mem_cons_self)
  have hlt : |(9 / 10 : ℚ) - n.elevation| < tolerance := hlt
  rcases List.mem_cons.1 hmem with rfl | hmem
  · norm_num [tolerance] at hlt
  · rw [List.mem_singleton.1 hmem] at hle
    norm_num at hle

end ElevationScan

end RadarFeed
