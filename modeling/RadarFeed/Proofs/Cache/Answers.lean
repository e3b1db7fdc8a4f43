import Mathlib.Data.List.Dedup
import Mathlib.Data.List.Induction
import RadarFeed.Proofs.Cache.Lookup
import RadarFeed.Proofs.Decode.Times

/-!
A cache as a map from times to records.

Whatever is done with a cache, it holds the first record of each time that has been stored
(`run_eq_insertAll`), and every answer it gives is what this map says (`meets_step`). From 1970 on,
what is found at the second of a time is also the last record not after that time
(`atOrBefore_of_get?`). `answers_as_first_records` puts these together.
-/

namespace RadarFeed

namespace Cache

/-! ## Operations and answers -/

/-- What may be done with a cache. -/
inductive Operation where
  /-- Stores the record of a file. -/
  | insert (serial : Nat) (file : RadarFile)
  | get (t : Instant)
  | latest
  | atOrBefore (t : Instant)
  | times
  | size

/-- What a cache answers. -/
inductive Answer where
  /-- The record that is held after storing one. -/
  | stored (r : Record)
  | found (r? : Option Record)
  | times (ts : List Instant)
  | size (n : Nat)

/-- The cache after an operation, and its answer. -/
def step (c : Cache) : Operation → Cache × Answer
  | .insert serial file =>
    (c.insert (.ofFile serial file), .stored (c.stored (.ofFile serial file)))
  | .get t => (c, .found (c.get? t))
  | .latest => (c, .found c.latest)
  | .atOrBefore t => (c, .found (c.atOrBefore t))
  | .times => (c, .times c.times)
  | .size => (c, .size c.size)

/-- The cache after operations on an empty one. -/
def run (ops : List Operation) : Cache :=
  ops.foldl (fun c op => (c.step op).1) empty

/-- The records that operations store, in their order. -/
def inserted (ops : List Operation) : List Record :=
  ops.filterMap fun
    | .insert serial file => some (.ofFile serial file)
    | _ => none

theorem insertAll_append (c : Cache) (rs ss : List Record) :
    c.insertAll (rs ++ ss) = (c.insertAll rs).insertAll ss :=
  List.foldl_append

theorem inserted_append (ops more : List Operation) :
    inserted (ops ++ more) = inserted ops ++ inserted more :=
  List.filterMap_append

/-- Only storing changes a cache. -/
theorem step_fst (c : Cache) (op : Operation) : (c.step op).1 = c.insertAll (inserted [op]) := by
  cases op <;> rfl

theorem run_eq_insertAll (ops : List Operation) : run ops = empty.insertAll (inserted ops) := by
  induction ops using List.reverseRecOn with
  | nil => rfl
  | append_singleton ops op ih =>
    have hrun : run (ops ++ [op]) = ((run ops).step op).1 := by simp [run]
    rw [hrun, step_fst, ih, inserted_append, insertAll_append]

/-! ## The map from times to records -/

/-- The first of the records that has the time `t`. -/
def firstAt (rs : List Record) (t : Instant) : Option Record :=
  rs.find? fun r => decide (r.time = t)

/-- The answers of the map from times to the first records of `rs`. -/
def Meets (rs : List Record) : Operation → Answer → Prop
  | .insert serial file, .stored r =>
    firstAt (rs ++ [.ofFile serial file]) (Record.ofFile serial file).time = some r
  | .get t, .found r? => r? = firstAt rs t.truncate
  | .latest, .found r? =>
    (∀ r, r? = some r ↔ IsFirst rs r ∧ ∀ x ∈ rs, x.time ≤ r.time) ∧ (r? = none ↔ rs = [])
  | .atOrBefore t, .found r? =>
    (∀ r, r? = some r ↔ IsLast rs t r) ∧ (r? = none ↔ ∀ x ∈ rs, ¬ x.time ≤ t)
  | .times, .times ts => ts.Pairwise (· < ·) ∧ ∀ t, t ∈ ts ↔ ∃ r ∈ rs, r.time = t
  | .size, .size n => n = (rs.map Record.time).dedup.length
  | _, _ => False

variable {rs : List Record} {r : Record} {t : Instant}

theorem get?_empty_insertAll (rs : List Record) (t : Instant) :
    (empty.insertAll rs).records.get? t = firstAt rs t := by
  rw [get?_insertAll]
  exact Option.none_or

theorem firstAt_append (rs ss : List Record) (t : Instant) :
    firstAt (rs ++ ss) t = (firstAt rs t).or (firstAt ss t) :=
  List.find?_append

theorem pairwise_times (c : Cache) : c.times.Pairwise (· < ·) :=
  List.pairwise_map.2 c.records.sorted

theorem mem_times_insertAll : t ∈ (empty.insertAll rs).times ↔ ∃ r ∈ rs, r.time = t := by
  constructor
  · intro h
    obtain ⟨⟨k, r⟩, he, rfl⟩ := List.mem_map.1 h
    obtain ⟨hk, hr⟩ := mem_insertAll.1 he
    exact ⟨r, hr.mem, hk⟩
  · rintro ⟨r, hr, rfl⟩
    -- the entry at the time of `r` may hold a record stored before it
    refine (forall_mem_insertAll fun u => u ∈ (empty.insertAll rs).times).1 (fun e he => ?_) r hr
    exact List.mem_map_of_mem he

theorem size_insertAll : (empty.insertAll rs).size = (rs.map Record.time).dedup.length := by
  have hnodup : (empty.insertAll rs).times.Nodup := (pairwise_times _).imp Instant.ne_of_lt
  have hperm : (empty.insertAll rs).times.Perm (rs.map Record.time).dedup := by
    refine (List.perm_ext_iff_of_nodup hnodup (List.nodup_dedup _)).2 fun t => ?_
    rw [mem_times_insertAll, List.mem_dedup, List.mem_map]
  rw [← hperm.length_eq]
  exact (List.length_map _).symm

/-- What has been stored at a time is the first record of it. -/
theorem firstAt_concat (rs : List Record) (r : Record) :
    firstAt (rs ++ [r]) r.time = some ((empty.insertAll rs).stored r) := by
  rw [stored, get?_empty_insertAll, firstAt_append]
  cases firstAt rs r.time with
  | some x => rfl
  | none => simp [firstAt]

/-- Nothing is last only where nothing has been stored. -/
theorem latest_insertAll_none : (empty.insertAll rs).latest = none ↔ rs = [] := by
  simp only [latest, Timeline.latest_eq_none_iff, List.eq_nil_iff_forall_not_mem]
  exact forall_mem_insertAll fun _ => False

/-- Every answer is that of the map. -/
theorem meets_step (rs : List Record) (op : Operation) :
    Meets rs op ((empty.insertAll rs).step op).2 := by
  cases op with
  | insert serial file => exact firstAt_concat rs _
  | get t => exact get?_empty_insertAll rs t.truncate
  | latest => exact ⟨fun r => latest_insertAll, latest_insertAll_none⟩
  | atOrBefore t => exact ⟨fun r => atOrBefore_insertAll, atOrBefore_insertAll_none⟩
  | times => exact ⟨pairwise_times _, fun t => mem_times_insertAll⟩
  | size => exact size_insertAll

/-- A record that is held is never replaced or removed. -/
theorem get?_insertAll_of_some {c : Cache} (h : c.records.get? t = some r) (rs : List Record) :
    (c.insertAll rs).records.get? t = some r := by
  rw [get?_insertAll, h]
  rfl

/-! ## The two lookups -/

/-- From 1970 on, the record at the second of a time is the last one not after it. -/
theorem atOrBefore_of_get? (hkeys : ∀ x ∈ rs, x.time.truncate = x.time)
    (hrs : ∀ x ∈ rs, Instant.epoch ≤ x.time) (h : (empty.insertAll rs).get? t = some r) :
    (empty.insertAll rs).atOrBefore t = some r := by
  have hfirst : r.time = t.truncate ∧ IsFirst rs r :=
    mem_insertAll.1 (Timeline.get?_eq_some_iff.1 h)
  obtain ⟨htime, hfirst⟩ := hfirst
  refine atOrBefore_insertAll.2 ⟨hfirst, htime ▸ Instant.truncate_le t, fun x hx hxt => ?_⟩
  by_contra hlt
  have hle : t.truncate ≤ x.time := htime ▸ Instant.le_of_lt (Instant.not_le.1 hlt)
  have heq : x.time = t.truncate :=
    Instant.eq_truncate_of_between (hrs x hx) (hkeys x hx) hle hxt
  exact hlt (htime ▸ heq ▸ Instant.le_refl _)

theorem truncate_time_of_inserted {ops : List Operation} (h : r ∈ inserted ops) :
    r.time.truncate = r.time := by
  obtain ⟨op, -, hop⟩ := List.mem_filterMap.1 h
  cases op with
  | insert serial file =>
    rw [← Option.some.inj hop]
    exact Record.truncate_time rfl
  | _ => cases hop

/-- The record of a decoded file is from 1970 or later. -/
theorem epoch_le_time_ofFile {reader : RecordReader} {sites : SiteTable} {data : List UInt8}
    {file : RadarFile} (h : RadarFile.decode reader sites data = .ok file) (serial : Nat) :
    Instant.epoch ≤ (Record.ofFile serial file).time := by
  have hfile := RadarFile.epoch_le_time h
  rw [Instant.epoch_le_iff] at hfile ⊢
  exact (Instant.truncate_seconds file.time).symm ▸ hfile

/-- **A cache is the map from times to the first records.** After any operations a cache holds at
each time the first record stored for it, and keeps it whatever is done next; every answer is that
of this map; and for records from 1970 on, as those of decoded files are, a record found at the second of a
time is also the last one not after that time. -/
theorem answers_as_first_records (ops : List Operation) :
    let c := run ops
    let rs := inserted ops
    (∀ t, c.records.get? t = firstAt rs t) ∧
    (∀ op, Meets rs op (c.step op).2) ∧
    (∀ more t r, c.records.get? t = some r → (run (ops ++ more)).records.get? t = some r) ∧
    ((∀ r ∈ rs, Instant.epoch ≤ r.time) →
      ∀ t r, c.get? t = some r → c.atOrBefore t = some r) ∧
    (∀ reader sites data file serial, RadarFile.decode reader sites data = .ok file →
      Instant.epoch ≤ (Record.ofFile serial file).time) := by
  intro c rs
  have hc : c = empty.insertAll rs := run_eq_insertAll ops
  refine ⟨fun t => ?_, fun op => ?_, fun more t r h => ?_, fun hrs t r h => ?_,
    fun _ _ _ _ serial h => epoch_le_time_ofFile h serial⟩
  · rw [hc]
    exact get?_empty_insertAll rs t
  · rw [hc]
    exact meets_step rs op
  · rw [run_eq_insertAll, inserted_append, insertAll_append]
    rw [hc] at h
    exact get?_insertAll_of_some h _
  · rw [hc] at h ⊢
    exact atOrBefore_of_get? (fun x hx => truncate_time_of_inserted hx) hrs h

/-- Two files of one second, and one of a time that nanosecond counts do not reach. -/
def threeFiles : List Operation :=
  let file (t : Instant) : RadarFile := .level3 { (default : Level3Product) with time := t }
  [.insert 0 (file ⟨1714564800, 500000000⟩), .insert 1 (file ⟨1714564800, 900000000⟩),
    .insert 2 (file ⟨9223372037, 500000000⟩)]

/-- The bytes of a small product file. -/
def productFile : List UInt8 :=
  Utf8.bytes "SDUS53 KLSX 011200\r\r\nN0BX\r\r\n" ++
    Level3.MessageHeader.bytes ⟨94, 19844, 43200, 18, 1, 0, 1⟩

theorem answers_of_threeFiles :
    (∃ r s, (run threeFiles).get? ⟨1714564800, 999999999⟩ = some r ∧ r.serial = 0 ∧
      (run threeFiles).atOrBefore ⟨1714564800, 999999999⟩ = some r ∧
      (run threeFiles).get? ⟨9223372037, 500000000⟩ = some s ∧ s.serial = 2 ∧
      (run threeFiles).atOrBefore ⟨9223372037, 500000000⟩ = some s ∧
      (run (threeFiles ++ threeFiles)).records.get? ⟨1714564800, 0⟩ = some r) ∧
    ∃ file, RadarFile.decode (fun _ => .ok []) .empty productFile = .ok file ∧
      Instant.epoch ≤ (Record.ofFile 0 file).time := by
  obtain ⟨-, -, hkept, hagree, hdecoded⟩ := answers_as_first_records threeFiles
  have hrs : ∀ r ∈ inserted threeFiles, Instant.epoch ≤ r.time := by decide
  have hfirst : (run threeFiles).get? ⟨1714564800, 999999999⟩ = some (.ofFile 0 _) := rfl
  have hlate : (run threeFiles).get? ⟨9223372037, 500000000⟩ = some (.ofFile 2 _) := rfl
  refine ⟨⟨_, _, hfirst, rfl, hagree hrs _ _ hfirst, hlate, rfl, hagree hrs _ _ hlate,
    hkept threeFiles _ _ hfirst⟩, ?_⟩
  have hok : (RadarFile.decode (fun _ => .ok []) .empty productFile).isOk = true := by
    decide +kernel
  cases h : RadarFile.decode (fun _ => .ok []) .empty productFile with
  | error e =>
    rw [h] at hok
    cases hok
  | ok file => exact ⟨file, rfl, hdecoded _ _ _ file 0 h⟩

end Cache

end RadarFeed
