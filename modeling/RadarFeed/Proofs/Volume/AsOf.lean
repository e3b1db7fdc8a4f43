import RadarFeed.Proofs.Volume.Nearest

/-!
A volume as it looked at a time.

Whether there is a scan, and which cut it shows, is decided among the cuts that had started by the
time asked for (`nearestCut_congr`). The cut that is shown is the last state of its elevation: no
other cut of the same elevation had started after it (`start_le_of_nearestCut`). Cuts that start
later change nothing but the list of elevations (`scan_congr`, `AddsLater.started_eq`), which always
holds those of the whole volume.
-/

namespace RadarFeed

namespace ElevationScan

section

variable {α : Type}

/-- The cuts of the second list are those of the first and, anywhere between them, others that start
after `t`. -/
inductive AddsLater (t : Instant) : List (Cut α) → List (Cut α) → Prop where
  | nil : AddsLater t [] []
  | keep {cuts cuts'} (c : Cut α) : AddsLater t cuts cuts' → AddsLater t (c :: cuts) (c :: cuts')
  | add {cuts cuts'} (c : Cut α) : t < c.start → AddsLater t cuts cuts' →
      AddsLater t cuts (c :: cuts')

variable {t : Instant} {time : Option Instant} {cuts cuts' : List (Cut α)}

theorem AddsLater.started_eq (h : AddsLater t cuts cuts') :
    started (some t) cuts' = started (some t) cuts := by
  induction h with
  | nil => rfl
  | keep c _ ih =>
    unfold started at *
    rw [List.filter_cons, List.filter_cons, ih]
  | add c hc _ ih =>
    have hlate : ¬ decide (c.start ≤ t) = true := by simpa [Instant.not_le] using hc
    rw [← ih]
    exact List.filter_cons_of_neg hlate

variable [Elevation α] {e : α} {moment : Moment} {v w : VolumeOf α}

theorem nearestCut_congr (h : started time cuts' = started time cuts) :
    nearestCut e time cuts' = nearestCut e time cuts := by
  rw [nearestCut, nearestCut, h]

/-- Volumes whose cuts had started alike show the same, but for the list of elevations. -/
theorem scan_congr (h : started time (w.cutsOf moment) = started time (v.cutsOf moment)) :
    w.scan moment e time = (v.scan moment e time).map fun s =>
      { s with elevations := elevationsOf (w.cutsOf moment) } := by
  rw [VolumeOf.scan_eq_map, VolumeOf.scan_eq_map, nearestCut_congr h, Option.map_map]
  rfl

end

variable {cuts : List (Cut ℚ)} {e : ℚ} {time : Option Instant} {c d : Cut ℚ}

theorem nearestCut_eq_none_iff : nearestCut e time cuts = none ↔ started time cuts = [] := by
  rw [nearestCut_eq, latest?_eq_none_iff, candidates_eq_nil_iff]

theorem nearestCut_isSome_iff :
    (nearestCut e time cuts).isSome ↔ ∃ c ∈ cuts, ∀ t, time = some t → c.start ≤ t := by
  rw [← Option.ne_none_iff_isSome, Ne, nearestCut_eq_none_iff, List.eq_nil_iff_forall_not_mem]
  simp only [mem_started, not_forall, not_not]

/-- What is a candidate is decided by the elevation. -/
theorem mem_candidates_of_elevation_eq (hc : c ∈ candidates e cuts) (hd : d ∈ cuts)
    (h : d.elevation = c.elevation) : d ∈ candidates e cuts := by
  rw [mem_candidates, h]
  exact ⟨hd, (mem_candidates.1 hc).2⟩

/-- No cut of the same elevation had started after the one that is shown. -/
theorem start_le_of_nearestCut (hc : nearestCut e time cuts = some c) (hd : d ∈ cuts)
    (hstarted : ∀ t, time = some t → d.start ≤ t) (h : d.elevation = c.elevation) :
    d.start ≤ c.start := by
  rw [nearestCut_eq] at hc
  have hlatest := isLatest_of_latest? hc
  have hmem : d ∈ started time cuts := mem_started.2 ⟨hd, hstarted⟩
  exact hlatest.start_le (mem_candidates_of_elevation_eq hlatest.mem hmem h)

/-- **Scans as of a time.** There is a scan exactly if some cut of the moment had started. It shows
one of these with its radials, and no later state of its elevation had started. The scan is decided
by the cuts that had started and the list of elevations: cuts that start later change nothing else
but that list. -/
theorem scan_as_of (v : VolumeOf ℚ) (moment : Moment) (e : ℚ) (time : Option Instant) :
    let cuts := v.cutsOf moment
    let HadStarted (c : Cut ℚ) : Prop := ∀ t, time = some t → c.start ≤ t
    ((v.scan moment e time).isSome ↔ ∃ c ∈ cuts, HadStarted c) ∧
    (∀ s, v.scan moment e time = some s → ∃ c ∈ cuts, HadStarted c ∧
      s = ⟨moment, c.elevation, elevationsOf cuts, c.radials⟩ ∧
      ∀ d ∈ cuts, HadStarted d → d.elevation = s.elevation → d.start ≤ c.start) ∧
    (∀ w : VolumeOf ℚ, started time (w.cutsOf moment) = started time cuts →
      elevationsOf (w.cutsOf moment) = elevationsOf cuts →
      w.scan moment e time = v.scan moment e time) ∧
    ∀ t, time = some t → ∀ w : VolumeOf ℚ, AddsLater t cuts (w.cutsOf moment) →
      w.scan moment e time = (v.scan moment e time).map fun s =>
        { s with elevations := elevationsOf (w.cutsOf moment) } := by
  intro cuts HadStarted
  refine ⟨?_, ?_, ?_, ?_⟩
  · rw [VolumeOf.scan_eq_map, Option.isSome_map]
    exact nearestCut_isSome_iff
  · intro s hs
    obtain ⟨c, hc, rfl⟩ := VolumeOf.scan_eq_some hs
    obtain ⟨hmem, hstarted⟩ := of_nearestCut hc
    exact ⟨c, hmem, hstarted, rfl, fun d hd hd' => start_le_of_nearestCut hc hd hd'⟩
  · intro w hstarted helevations
    rw [VolumeOf.scan_eq_map, VolumeOf.scan_eq_map, nearestCut_congr hstarted, helevations]
  · rintro t rfl w hadds
    exact scan_congr hadds.started_eq

/-- While the last of three cuts has not started, a scan shows the same with it and without it. -/
theorem scan_as_of_repeated :
    let cuts : List (Cut ℚ) := [⟨1 / 2, ⟨0, 0⟩, []⟩, ⟨9 / 10, ⟨30, 0⟩, []⟩]
    let v : VolumeOf ℚ := ⟨default, [(.reflectivity, cuts)]⟩
    let w : VolumeOf ℚ := ⟨default, [(.reflectivity, cuts ++ [⟨1 / 2, ⟨60, 0⟩, []⟩])]⟩
    (v.scan .reflectivity (1 / 2) (some ⟨59, 999999999⟩)).isSome ∧
      w.scan .reflectivity (1 / 2) (some ⟨59, 999999999⟩) =
        (v.scan .reflectivity (1 / 2) (some ⟨59, 999999999⟩)).map fun s =>
          { s with elevations := elevationsOf (w.cutsOf .reflectivity) } := by
  intro cuts v w
  obtain ⟨hsome, -, -, hlater⟩ := scan_as_of v .reflectivity (1 / 2) (some ⟨59, 999999999⟩)
  refine ⟨hsome.2 ⟨⟨1 / 2, ⟨0, 0⟩, []⟩, List.mem_cons_self, ?_⟩, hlater _ rfl w ?_⟩
  · rintro t ⟨⟩
    decide
  · exact .keep _ (.keep _ (.add _ (by decide) .nil))

end ElevationScan

end RadarFeed
