import RadarFeed.Decode.File
import RadarFeed.Proofs.Level3.Layout
import RadarFeed.Proofs.Time.Truncation

/-!
The times of decoded files: day 1 is the first day of 1970, and there is no day 0, so that no file
is older than 1970 (`RadarFile.epoch_le_time`).
-/

namespace RadarFeed

theorem Bytes.epoch_le_time {day millis : Nat} {t : Instant} (h : Bytes.time day millis = .ok t) :
    Instant.epoch ≤ t := by
  obtain ⟨hday, -, rfl⟩ := Bytes.time_eq_ok_iff.1 h
  rw [Instant.epoch_le_iff]
  simp only [radarSeconds]
  omega

theorem VolumeHeader.epoch_le_start {data : List UInt8} {h : VolumeHeader}
    (hread : VolumeHeader.read data = .ok h) : Instant.epoch ≤ h.start := by
  simp only [VolumeHeader.read, guard_eq_ok_iff, bind_eq_ok_iff, pure_eq_ok_iff] at hread
  obtain ⟨-, -, -, -, -, -, start, hstart, -, -, -, rfl⟩ := hread
  exact Bytes.epoch_le_time hstart

theorem Level3.epoch_le_dayTime {day : UInt16} {seconds : UInt32} (h : day ≠ 0) :
    Instant.epoch ≤ dayTime day seconds :=
  Bytes.epoch_le_time (time_eq_ok_iff_dayTime.2 ⟨h, rfl⟩)

theorem Level3.IsVolumeTime.epoch_le {h : MessageHeader} {payload : List UInt8} {t : Instant}
    (ht : IsVolumeTime h payload t) (hday : h.day ≠ 0) : Instant.epoch ≤ t := by
  cases ht with
  | block _ hblock => exact epoch_le_dayTime hblock
  | message _ => exact epoch_le_dayTime hday

theorem Volume.header_ofHeader {reader : RecordReader} {data : List UInt8} {header : VolumeHeader}
    {v : Volume} (h : Volume.ofHeader reader data header = .ok v) : v.header = header := by
  obtain ⟨sweeps, -, h⟩ := bind_eq_ok_iff.1 h
  split at h
  · exact (throw_eq_ok_iff.1 h).elim
  · obtain rfl := pure_eq_ok_iff.1 h
    rfl

/-- No decoded file is older than 1970. -/
theorem RadarFile.epoch_le_time {reader : RecordReader} {sites : SiteTable} {data : List UInt8}
    {file : RadarFile} (h : RadarFile.decode reader sites data = .ok file) :
    Instant.epoch ≤ file.time := by
  unfold RadarFile.decode at h
  split at h
  · obtain ⟨v, hv, rfl⟩ := map_eq_ok_iff.1 h
    obtain ⟨header, hheader, hv⟩ := bind_eq_ok_iff.1 hv
    obtain rfl := Volume.header_ofHeader hv
    exact VolumeHeader.epoch_le_start hheader
  · obtain ⟨p, hp, rfl⟩ := map_eq_ok_iff.1 h
    obtain ⟨l, rfl⟩ := Level3.exists_layout hp
    exact l.volume_time.epoch_le l.dated

end RadarFeed
