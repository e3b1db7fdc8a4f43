import Mathlib.Algebra.Group.Int.Defs
import Mathlib.Data.List.Forall2
import RadarFeed.Proofs.Volume.Header
import RadarFeed.Volume.Decode

/-!
What becomes of the radials of a volume.

`IsRadialOf` says which radial of a moment a radial of a sweep becomes, and `IsCutOf` which cut of a
moment a sweep. Each sweep leaves the cuts that are there and puts its own behind them
(`ofMoment_addSweep`), so that the cuts of a moment are those of the sweeps, in their order
(`ofMoment_splitCuts`). Nothing is lost, doubled or moved on the way (`splitCuts_keeps_radials`).
-/

namespace RadarFeed

variable {moment : Moment} {r : SweepRadial} {sweep : Sweep} {sweeps : List Sweep}

/-! ## Radials -/

namespace SweepRadial

/-- The time of a radial is one that an instant can have. -/
def HasTime (r : SweepRadial) : Prop :=
  Instant.minSeconds * 1000 ≤ r.millis ∧ r.millis < (Instant.maxSeconds + 1) * 1000

instance (r : SweepRadial) : Decidable r.HasTime :=
  inferInstanceAs (Decidable (_ ∧ _))

/-- A radial carries a moment and has a time. -/
def Shows (moment : Moment) (r : SweepRadial) : Prop :=
  (r.data? moment).isSome = true ∧ r.HasTime

instance (moment : Moment) (r : SweepRadial) : Decidable (r.Shows moment) :=
  inferInstanceAs (Decidable (_ ∧ _))

end SweepRadial

namespace Volume

/-- What stands for a gate among the values of a radial: its value, or no number. -/
inductive IsGate : Option Float32 → Float32 → Prop where
  | value (x : Float32) : IsGate (some x) x
  | missing {x : Float32} : x.isNaN = true → IsGate none x

/-- `s` is the radial of a moment that `r` becomes: at its place and time, with a value for each
gate. -/
structure IsRadialOf (moment : Moment) (r : SweepRadial) (s : Radial) : Prop where
  azimuth : s.azimuth = r.azimuth
  elevation : s.elevation = r.elevation
  time : s.time.stamp = r.millis * 1000000
  subsecond : s.time.nanos < nanosPerSecond
  data : ∃ data, r.data? moment = some data ∧ s.firstGateKm = data.firstGateKm ∧
    s.gateIntervalKm = data.gateIntervalKm ∧ List.Forall₂ IsGate data.values s.values

/-- Milliseconds are whole seconds and a part below the second. -/
theorem millis_parts (millis : Int) : millis.fdiv 1000 * 1000 + millis.fmod 1000 = millis ∧
    0 ≤ millis.fmod 1000 ∧ millis.fmod 1000 < 1000 :=
  ⟨Int.fdiv_mul_add_fmod _ _, Int.fmod_nonneg_of_pos _ (by decide),
    Int.fmod_lt_of_pos _ (by decide)⟩

theorem isSome_ofMillis?_iff : (Instant.ofMillis? r.millis).isSome = true ↔ r.HasTime := by
  obtain ⟨hsplit, hleast, hmost⟩ := millis_parts r.millis
  have hnanos : (r.millis.fmod 1000).toNat * 1000000 < nanosPerSecond := by
    rw [nanosPerSecond]
    omega
  simp only [Instant.ofMillis?, Instant.ofSeconds?_of_lt hnanos, SweepRadial.HasTime]
  split
  · simp
    omega
  · simp
    omega

theorem stamp_of_ofMillis? {millis : Int} {t : Instant} (h : Instant.ofMillis? millis = some t) :
    t.stamp = millis * 1000000 ∧ t.nanos < nanosPerSecond := by
  obtain ⟨hsplit, hleast, hmost⟩ := millis_parts millis
  obtain ⟨-, ht⟩ := Option.ite_none_right_eq_some.1 h
  obtain rfl := Option.some.inj ht
  simp only [Instant.stamp, nanosPerSecond]
  omega

theorem isGate_getD (values : List (Option Float32)) :
    List.Forall₂ IsGate values (values.map fun v => v.getD noValue) := by
  induction values with
  | nil => exact .nil
  | cons v values ih =>
    refine .cons ?_ ih
    cases v with
    | none => exact .missing (by decide)
    | some x => exact .value x

theorem momentOf_of_ne (h : moment ≠ .clutterFilterPowerRemoved) :
    momentOf moment r = r.data? moment := by
  cases moment with
  | clutterFilterPowerRemoved => exact absurd rfl h
  | _ => rfl

/-- A radial that carries a moment and has a time becomes a radial of the moment. -/
theorem radialOf_of_shows (hm : moment ≠ .clutterFilterPowerRemoved) (h : r.Shows moment) :
    ∃ s, radialOf moment r = some s ∧ IsRadialOf moment r s := by
  obtain ⟨hdata, htime⟩ := h
  obtain ⟨data, hdata⟩ := Option.isSome_iff_exists.1 hdata
  obtain ⟨t, ht⟩ := Option.isSome_iff_exists.1 (isSome_ofMillis?_iff.2 htime)
  obtain ⟨hstamp, hnanos⟩ := stamp_of_ofMillis? ht
  refine ⟨⟨r.azimuth, r.elevation, t, data.firstGateKm, data.gateIntervalKm,
    data.values.map fun v => v.getD noValue⟩, ?_, ?_⟩
  · simp [radialOf, momentOf_of_ne hm, hdata, ht]
  · exact ⟨rfl, rfl, hstamp, hnanos, data, hdata, rfl, rfl, isGate_getD data.values⟩

/-- A radial without the moment or without a time is passed over. -/
theorem radialOf_of_not_shows (hm : moment ≠ .clutterFilterPowerRemoved) (h : ¬ r.Shows moment) :
    radialOf moment r = none := by
  rw [SweepRadial.Shows, ← isSome_ofMillis?_iff, not_and_or, Bool.not_eq_true, Bool.not_eq_true,
    Option.isSome_eq_false_iff, Option.isSome_eq_false_iff, Option.isNone_iff_eq_none,
    Option.isNone_iff_eq_none] at h
  rcases h with h | h
  · simp [radialOf, momentOf_of_ne hm, h]
  · simp [radialOf, h]

/-- The clutter filter has no radials. -/
theorem radialOf_clutterFilter (r : SweepRadial) :
    radialOf .clutterFilterPowerRemoved r = none := rfl

/-- What is kept by a test and then transformed is what is transformed by a function that gives
nothing to what fails the test. -/
theorem forall₂_filter_filterMap {α β : Type} {p : α → Prop} [DecidablePred p] {f : α → Option β}
    {R : α → β → Prop} (hsome : ∀ x, p x → ∃ y, f x = some y ∧ R x y)
    (hnone : ∀ x, ¬ p x → f x = none) (s : List α) :
    List.Forall₂ R (s.filter fun x => decide (p x)) (s.filterMap f) := by
  induction s with
  | nil => exact .nil
  | cons x s ih =>
    by_cases hx : p x
    · obtain ⟨y, hy, hR⟩ := hsome x hx
      simpa [hx, hy] using ⟨hR, ih⟩
    · simpa [hx, hnone x hx] using ih

/-- The radials of a moment, in their order. -/
theorem forall₂_radialOf (hm : moment ≠ .clutterFilterPowerRemoved) (s : List SweepRadial) :
    List.Forall₂ (IsRadialOf moment) (s.filter fun r => decide (r.Shows moment))
      (s.filterMap (radialOf moment)) :=
  forall₂_filter_filterMap (fun _ => radialOf_of_shows hm) (fun _ => radialOf_of_not_shows hm) s

/-! ## Cuts -/

/-- `cut` is the cut of a moment that a sweep gives: the radials that carry the moment and have a
time, at the elevation of the sweep and from the time of the first of them. -/
structure IsCutOf (moment : Moment) (sweep : Sweep) (cut : Cut Float32) : Prop where
  radials : List.Forall₂ (IsRadialOf moment) (sweep.filter fun r => decide (r.Shows moment))
    cut.radials
  elevation : sweep.head?.map SweepRadial.elevation = some cut.elevation
  start : cut.radials.head?.map Radial.time = some cut.start

theorem IsCutOf.radials_ne_nil {cut : Cut Float32} (h : IsCutOf moment sweep cut) :
    cut.radials ≠ [] := by
  intro hnil
  have hstart := h.start
  simp [hnil] at hstart

/-- A sweep shows a moment if one of its radials does. -/
def ShowsSweep (moment : Moment) (sweep : Sweep) : Prop :=
  ∃ r ∈ sweep, r.Shows moment

instance (moment : Moment) (sweep : Sweep) : Decidable (ShowsSweep moment sweep) :=
  inferInstanceAs (Decidable (∃ r ∈ sweep, r.Shows moment))

theorem cutOf_eq_none_iff : cutOf moment sweep = none ↔ sweep.filterMap (radialOf moment) = [] := by
  cases sweep with
  | nil => simp [cutOf]
  | cons first rest =>
    cases h : List.filterMap (radialOf moment) (first :: rest) <;> simp [cutOf, h]

/-- The radials of the cut that a sweep gives, none without a cut. -/
theorem radials_cutOf (moment : Moment) (sweep : Sweep) :
    (cutOf moment sweep).toList.flatMap Cut.radials = sweep.filterMap (radialOf moment) := by
  cases sweep with
  | nil => simp [cutOf]
  | cons first rest =>
    cases h : List.filterMap (radialOf moment) (first :: rest) <;> simp [cutOf, h]

theorem cutOf_of_shows (hm : moment ≠ .clutterFilterPowerRemoved) (h : ShowsSweep moment sweep) :
    ∃ cut, cutOf moment sweep = some cut ∧ IsCutOf moment sweep cut := by
  have hradials := forall₂_radialOf hm sweep
  obtain ⟨r, hr, hshows⟩ := h
  cases sweep with
  | nil => simp at hr
  | cons first rest =>
    cases hs : List.filterMap (radialOf moment) (first :: rest) with
    | nil =>
      obtain ⟨s, hsome, -⟩ := radialOf_of_shows hm hshows
      have hnone := List.filterMap_eq_nil_iff.1 hs r hr
      rw [hsome] at hnone
      cases hnone
    | cons s more =>
      rw [hs] at hradials
      refine ⟨⟨first.elevation, s.time, s :: more⟩, ?_, hradials, rfl, rfl⟩
      simp [cutOf, hs]

theorem cutOf_of_not_shows (hm : moment ≠ .clutterFilterPowerRemoved)
    (h : ¬ ShowsSweep moment sweep) : cutOf moment sweep = none := by
  rw [cutOf_eq_none_iff, List.filterMap_eq_nil_iff]
  intro r hr
  exact radialOf_of_not_shows hm fun hshows => h ⟨r, hr, hshows⟩

theorem cutOf_clutterFilter (sweep : Sweep) :
    cutOf .clutterFilterPowerRemoved sweep = none := by
  rw [cutOf_eq_none_iff, List.filterMap_eq_nil_iff]
  intro r _
  exact radialOf_clutterFilter r

/-! ## One sweep after the other -/

theorem ofMoment_push (cuts : Cuts) (m moment : Moment) (cut : Cut Float32) :
    (cuts.push m cut).ofMoment moment =
      cuts.ofMoment moment ++ if m = moment then [cut] else [] := by
  by_cases h : m = moment
  · subst h
    simp [Cuts.push, Cuts.ofMoment, Keyed.get?_set_same]
  · simp [Cuts.push, Cuts.ofMoment, Keyed.get?_set_ne _ (Ne.symm h), h]

theorem ofMoment_addMoment (sweep : Sweep) (cuts : Cuts) (m moment : Moment) :
    (addMoment sweep cuts m).ofMoment moment =
      cuts.ofMoment moment ++ if m = moment then (cutOf moment sweep).toList else [] := by
  unfold addMoment
  cases h : cutOf m sweep with
  | none =>
    by_cases hm : m = moment
    · subst hm
      simp [h]
    · simp [hm]
  | some cut =>
    simp only [ofMoment_push]
    by_cases hm : m = moment
    · subst hm
      simp [h]
    · simp [hm]

/-- A sweep puts its cut of a moment behind those that are there, and leaves the other moments. -/
theorem ofMoment_addSweep (cuts : Cuts) (sweep : Sweep) (moment : Moment) :
    (addSweep cuts sweep).ofMoment moment =
      cuts.ofMoment moment ++ (cutOf moment sweep).toList := by
  have hall : moment ∈ Moment.all := by cases moment <;> decide
  -- each moment has its turn once
  have turns : ∀ (moments : List Moment), moments.Nodup → ∀ cuts : Cuts,
      (moments.foldl (addMoment sweep) cuts).ofMoment moment =
        cuts.ofMoment moment ++ if moment ∈ moments then (cutOf moment sweep).toList else [] := by
    intro moments
    induction moments with
    | nil => simp
    | cons m moments ih =>
      intro hnodup cuts
      obtain ⟨hm, hnodup⟩ := List.nodup_cons.1 hnodup
      rw [List.foldl_cons, ih hnodup, ofMoment_addMoment]
      by_cases h : m = moment
      · subst h
        simp [hm]
      · simp [h, Ne.symm h]
  rw [addSweep, turns Moment.all (by decide), if_pos hall]

/-- The cuts of a moment are those that the sweeps give, in their order. -/
theorem ofMoment_splitCuts (sweeps : List Sweep) (moment : Moment) :
    (splitCuts sweeps).ofMoment moment = sweeps.filterMap (cutOf moment) := by
  have adds : ∀ (sweeps : List Sweep) (cuts : Cuts), (sweeps.foldl addSweep cuts).ofMoment moment =
      cuts.ofMoment moment ++ sweeps.filterMap (cutOf moment) := by
    intro sweeps
    induction sweeps with
    | nil => simp
    | cons sweep sweeps ih =>
      intro cuts
      rw [List.foldl_cons, ih, ofMoment_addSweep, List.append_assoc]
      cases h : cutOf moment sweep <;> simp [h]
  exact adds sweeps .empty

/-- No moment has two entries or an empty one, and the clutter filter has none. -/
structure Tidy (cuts : Cuts) : Prop where
  nodup : cuts.keys.Nodup
  decoded : ∀ e ∈ cuts.entries, e.1 ≠ .clutterFilterPowerRemoved
  filled : ∀ e ∈ cuts.entries, e.2 ≠ []

theorem Tidy.addMoment {cuts : Cuts} (h : Tidy cuts) (sweep : Sweep) (m : Moment) :
    Tidy (addMoment sweep cuts m) := by
  unfold Volume.addMoment
  cases hcut : cutOf m sweep with
  | none => exact h
  | some cut =>
    have hm : m ≠ .clutterFilterPowerRemoved := by
      rintro rfl
      rw [cutOf_clutterFilter] at hcut
      cases hcut
    refine ⟨Keyed.nodup_keys_set h.nodup m _, ?_, ?_⟩
    · intro e he
      rcases Keyed.mem_set he with he | rfl
      · exact h.decoded e he
      · exact hm
    · intro e he
      rcases Keyed.mem_set he with he | rfl
      · exact h.filled e he
      · simp

theorem Tidy.addSweep {cuts : Cuts} (h : Tidy cuts) (sweep : Sweep) :
    Tidy (addSweep cuts sweep) := by
  unfold Volume.addSweep
  generalize Moment.all = moments
  induction moments generalizing cuts with
  | nil => exact h
  | cons m moments ih => exact ih (h.addMoment sweep m)

theorem tidy_splitCuts (sweeps : List Sweep) : Tidy (splitCuts sweeps) := by
  have adds : ∀ cuts : Cuts, Tidy cuts → Tidy (sweeps.foldl addSweep cuts) := by
    induction sweeps with
    | nil => exact fun _ h => h
    | cons sweep sweeps ih => exact fun _ h => ih _ (h.addSweep sweep)
  exact adds .empty ⟨List.nodup_nil, by simp [Keyed.empty], by simp [Keyed.empty]⟩

/-- What a volume finds for a moment. -/
theorem cutsOf_entries (header : VolumeHeader) (cuts : Cuts) (moment : Moment) :
    VolumeOf.cutsOf ⟨header, cuts.entries⟩ moment = cuts.ofMoment moment := by
  obtain ⟨entries⟩ := cuts
  have hfind : (entries.find? fun e => e.1 = moment).map Prod.snd = Keyed.find moment entries := by
    induction entries with
    | nil => rfl
    | cons e entries ih =>
      obtain ⟨m, s⟩ := e
      by_cases h : m = moment <;> simp [Keyed.find, h, ih]
  exact congrArg (Option.getD · []) hfind

theorem Tidy.entries_eq_nil_iff {cuts : Cuts} (h : Tidy cuts) :
    cuts.entries = [] ↔ ∀ moment, cuts.ofMoment moment = [] := by
  obtain ⟨entries⟩ := cuts
  constructor
  · rintro rfl moment
    rfl
  · intro hnone
    cases entries with
    | nil => rfl
    | cons e entries =>
      -- the first entry is the one that is found under its key
      have hfirst : e.2 = [] := by
        have hcuts := hnone e.1
        simpa [Cuts.ofMoment, Keyed.get?, Keyed.find] using hcuts
      exact absurd hfirst (h.filled e List.mem_cons_self)

/-- There is no cut at all exactly if no radial with a time carries a moment. -/
theorem entries_splitCuts_eq_nil_iff (sweeps : List Sweep) : (splitCuts sweeps).entries = [] ↔
    ∀ r ∈ sweeps.flatten, r.HasTime →
      ∀ moment, moment ≠ .clutterFilterPowerRemoved → r.data? moment = none := by
  simp only [(tidy_splitCuts sweeps).entries_eq_nil_iff, ofMoment_splitCuts,
    List.filterMap_eq_nil_iff]
  constructor
  · intro h r hr htime moment hm
    obtain ⟨sweep, hsweep, hr⟩ := List.mem_flatten.1 hr
    by_contra hdata
    have hshows : r.Shows moment := ⟨Option.isSome_iff_ne_none.2 hdata, htime⟩
    obtain ⟨cut, hcut, -⟩ := cutOf_of_shows hm ⟨r, hr, hshows⟩
    rw [h moment sweep hsweep] at hcut
    cases hcut
  · intro h moment sweep hsweep
    by_cases hm : moment = .clutterFilterPowerRemoved
    · subst hm
      exact cutOf_clutterFilter sweep
    · refine cutOf_of_not_shows hm ?_
      rintro ⟨r, hr, hdata, htime⟩
      have hnone := h r (List.mem_flatten.2 ⟨sweep, hsweep, hr⟩) htime moment hm
      rw [hnone] at hdata
      cases hdata

/-- The radials of the cuts of a moment, one cut after the other. -/
theorem flatMap_radials_splitCuts (sweeps : List Sweep) (moment : Moment) :
    ((splitCuts sweeps).ofMoment moment).flatMap Cut.radials =
      sweeps.flatten.filterMap (radialOf moment) := by
  rw [ofMoment_splitCuts]
  induction sweeps with
  | nil => rfl
  | cons sweep sweeps ih =>
    rw [List.flatten_cons, List.filterMap_append, ← ih, ← radials_cutOf]
    cases h : cutOf moment sweep <;> simp [h]

section
variable {reader : RecordReader} {data : List UInt8} {header : VolumeHeader}

theorem decode_of_cuts_eq_nil (hread : VolumeHeader.read data = .ok header)
    (hsweeps : reader data = .ok sweeps) (h : (splitCuts sweeps).entries = []) :
    decode reader data = .error (noMoments header) := by
  simp only [decode, ofHeader, hread, hsweeps, bind, Except.bind, Except.mapError, h]
  rfl

theorem decode_of_cuts_ne_nil (hread : VolumeHeader.read data = .ok header)
    (hsweeps : reader data = .ok sweeps) (h : (splitCuts sweeps).entries ≠ []) :
    decode reader data = .ok ⟨header, (splitCuts sweeps).entries⟩ := by
  obtain ⟨e, entries, hcons⟩ := List.exists_cons_of_ne_nil h
  simp only [decode, ofHeader, hread, hsweeps, bind, Except.bind, Except.mapError, hcons]
  rfl

end

/-- **Cuts lose, double and move nothing.** Whatever the sweeps of a volume, their radials and the
moments that these carry, for each moment but that of the clutter filter
* the cuts are those of the sweeps that have a radial with the moment and a time, one for each and
  in their order, and none of them is empty;
* the radials of the cuts, one cut after the other, are the radials of the sweeps with the moment
  and a time, each at its own place and time and with its own values.
No moment has two lists of cuts or an empty one, and the clutter filter has none. A volume without
any radial that has a time and one of the moments is refused, and every other one has these cuts. -/
theorem splitCuts_keeps_radials (sweeps : List Sweep) :
    (∀ moment, moment ≠ .clutterFilterPowerRemoved →
      List.Forall₂ (IsCutOf moment) (sweeps.filter fun s => decide (ShowsSweep moment s))
        ((splitCuts sweeps).ofMoment moment) ∧
      (∀ cut ∈ (splitCuts sweeps).ofMoment moment, cut.radials ≠ []) ∧
      List.Forall₂ (IsRadialOf moment) (sweeps.flatten.filter fun r => decide (r.Shows moment))
        (((splitCuts sweeps).ofMoment moment).flatMap Cut.radials)) ∧
    Tidy (splitCuts sweeps) ∧
    ∀ (reader : RecordReader) (data : List UInt8) (header : VolumeHeader),
      VolumeHeader.read data = .ok header → reader data = .ok sweeps →
        (decode reader data = .error (noMoments header) ↔ ∀ r ∈ sweeps.flatten, r.HasTime →
          ∀ moment, moment ≠ .clutterFilterPowerRemoved → r.data? moment = none) ∧
        (decode reader data ≠ .error (noMoments header) → ∃ v, decode reader data = .ok v ∧
          v.header = header ∧ ∀ moment, v.cutsOf moment = (splitCuts sweeps).ofMoment moment) := by
  refine ⟨?_, tidy_splitCuts sweeps, ?_⟩
  · intro moment hm
    have hcuts : List.Forall₂ (IsCutOf moment)
        (sweeps.filter fun s => decide (ShowsSweep moment s))
        ((splitCuts sweeps).ofMoment moment) := by
      rw [ofMoment_splitCuts]
      exact forall₂_filter_filterMap (fun _ => cutOf_of_shows hm)
        (fun _ => cutOf_of_not_shows hm) sweeps
    refine ⟨hcuts, ?_, ?_⟩
    · intro cut hcut
      obtain ⟨i, hi, rfl⟩ := List.getElem_of_mem hcut
      have hlen := hcuts.length_eq
      exact (List.forall₂_iff_get.1 hcuts |>.2 i (hlen ▸ hi) hi).radials_ne_nil
    · rw [flatMap_radials_splitCuts]
      exact forall₂_radialOf hm sweeps.flatten
  · intro reader data header hread hsweeps
    rw [← entries_splitCuts_eq_nil_iff]
    by_cases hnil : (splitCuts sweeps).entries = []
    · have hdecode := decode_of_cuts_eq_nil hread hsweeps hnil
      exact ⟨⟨fun _ => hnil, fun _ => hdecode⟩, fun h => absurd hdecode h⟩
    · have hdecode := decode_of_cuts_ne_nil hread hsweeps hnil
      refine ⟨⟨?_, fun h => absurd h hnil⟩, fun _ => ⟨_, hdecode, rfl, cutsOf_entries _ _⟩⟩
      intro h
      rw [hdecode] at h
      cases h

/-- The header `AR2V0006.001` of the site `KLSX` at midnight. -/
theorem read_midnight : VolumeHeader.read (VolumeHeader.fieldBytes [0x30, 0x36] [0x30, 0x30, 0x31]
    19845 0 [0x4B, 0x4C, 0x53, 0x58]) = .ok ⟨"KLSX", "06", "001", ⟨1714521600, 0⟩⟩ := by
  have bare : ∀ {s : String}, (∀ c ∈ s.toList, Ascii.isAlphanumeric c = true) →
      VolumeHeader.IsBare s := VolumeHeader.isBare_of_alphanumeric
  have hread := VolumeHeader.read_bytes ⟨"06", "001", 19845, 0, "KLSX", by decide,
    bare (by simp [Ascii.isAlphanumeric, Ascii.isDigit]), by decide,
    bare (by simp [Ascii.isAlphanumeric, Ascii.isDigit]), by decide, by decide, by decide,
    by simp [Ascii.isAlphanumeric]⟩ []
  have hversion : Utf8.bytes "06" = [0x30, 0x36] := by decide
  have hextension : Utf8.bytes "001" = [0x30, 0x30, 0x31] := by decide
  have hsite : Utf8.bytes "KLSX" = [0x4B, 0x4C, 0x53, 0x58] := by decide
  have hupper : Ascii.upper "KLSX" = "KLSX" := by decide
  have hseconds : radarSeconds 19845 0 = 1714521600 := by decide
  have hday : (19845 : UInt32).toNat = 19845 := rfl
  have hmillis : (0 : UInt32).toNat = 0 := rfl
  simpa only [VolumeHeader.Written.bytes, hversion, hextension, hsite, hupper, hday, hmillis,
    hseconds, List.append_nil, Nat.zero_mod, Nat.zero_mul] using hread

/-- Two radials with a velocity, of which one has nothing else, then a sweep without radials and one
whose radial has no time: the velocity has one cut, with two radials. -/
theorem splitCuts_keeps_of_partial :
    let gates : MomentData := ⟨2.125, 0.25, [some 10, none]⟩
    let sweeps : List Sweep :=
      [[⟨0.5, 0, 1714565400000, [(.reflectivity, gates), (.velocity, gates)]⟩,
        ⟨0.5, 1, 1714565400050, [(.velocity, gates)]⟩], [],
        [⟨1.5, 0, 10 ^ 18, [(.velocity, gates)]⟩]]
    let data := VolumeHeader.fieldBytes [0x30, 0x36] [0x30, 0x30, 0x31] 19845 0
      [0x4B, 0x4C, 0x53, 0x58]
    Moment.velocity ≠ .clutterFilterPowerRemoved ∧
      ∃ v, decode (fun _ => .ok sweeps) data = .ok v ∧ (v.cutsOf .velocity).length = 1 ∧
        ((v.cutsOf .velocity).flatMap Cut.radials).length = 2 := by
  intro gates sweeps data
  have hm : Moment.velocity ≠ .clutterFilterPowerRemoved := by decide
  have hread : VolumeHeader.read data = .ok ⟨"KLSX", "06", "001", ⟨1714521600, 0⟩⟩ := read_midnight
  have hshown : (sweeps.filter fun s => decide (ShowsSweep .velocity s)).length = 1 := by decide
  have hradials : (sweeps.flatten.filter fun r => decide (r.Shows .velocity)).length = 2 := by
    decide
  obtain ⟨hkept, -, hdecode⟩ := splitCuts_keeps_radials sweeps
  obtain ⟨hcuts, -, hflat⟩ := hkept .velocity hm
  obtain ⟨hempty, hvolume⟩ := hdecode (fun _ => .ok sweeps) data _ hread rfl
  have hfirst : ⟨0.5, 0, 1714565400000, [(.reflectivity, gates), (.velocity, gates)]⟩ ∈
      sweeps.flatten :=
    List.mem_flatten_of_mem List.mem_cons_self List.mem_cons_self
  have hsome := mt hempty.1 fun hnone =>
    Option.some_ne_none gates (hnone _ hfirst (by decide) .velocity hm)
  obtain ⟨v, hv, -, hof⟩ := hvolume hsome
  refine ⟨hm, v, hv, ?_, ?_⟩
  · rw [hof, ← hcuts.length_eq, hshown]
  · rw [hof, ← hflat.length_eq, hradials]

end Volume

end RadarFeed
