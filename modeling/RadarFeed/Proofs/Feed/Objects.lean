import Mathlib.Data.List.Induction
import RadarFeed.Proofs.Feed.Courses
import RadarFeed.Proofs.Feed.FirstRecord
import RadarFeed.Proofs.Feed.Routing

/-!
Objects of sources.

A load that finds no record at its requested time resolves to a key of its source. Where the source
tells the times of its objects right (`Faithful`), the record of an object stands in the cache at
the time of its key, and whoever resolves to the key later finds it there; and while an object is on
its way to the cache, its load holds the lock. So each object is decoded once (`decoded_once`).
-/

namespace RadarFeed

/-- A load asks for an object of a machine, at or before a time. -/
def Load.Asks (l : Load) (id : MachineId) (time : Option Instant) : Prop :=
  l.manager = id.manager ∧ ∃ product, l.source = .object product time ∧
    product.map Ascii.upper = id.product.map Ascii.upper

/-- A load is fetching an object, or the decoder is at work for it. -/
def LoadPhase.works : LoadPhase → Bool
  | .fetching _ => true
  | .decoding _ => true
  | _ => false

theorem Load.holdsLock_of_works {l : Load} (h : l.phase.works = true) : l.holdsLock = true := by
  unfold holdsLock
  cases hp : l.phase <;> simp_all [LoadPhase.works]

theorem Load.Asks.lock_eq {l k : Load} {id : MachineId} {s t : Option Instant}
    (hl : l.Asks id s) (hk : k.Asks id t) : l.lock = k.lock := by
  obtain ⟨hlm, p, hp, hlp⟩ := hl
  obtain ⟨hkm, q, hq, hkq⟩ := hk
  have hpq : p.map Ascii.upper = q.map Ascii.upper := hlp.trans hkq.symm
  unfold Load.lock
  rw [hp, hq, hlm, hkm]
  cases p <;> cases q
  · rfl
  · cases hpq
  · cases hpq
  · rfl

namespace Feed

variable {f : Feed} {id : MachineId} {timeOf : String → Option Instant} {moves : List FeedMove}
  {task : Nat} {key : String} {l : Load}

/-- A load that begins finds nothing at its requested time, and its source tells it a key. -/
def Resolves (f : Feed) (id : MachineId) (task : Nat) (found : KeyAnswer) (key : String) : Prop :=
  ∃ l time, f.load? task = some l ∧ f.Ready l ∧ l.Asks id time ∧
    time.bind (f.cached id.manager id.product) = none ∧ found.key = some key

/-- A load that begins finds a record at its requested time, which is `t` to the second. -/
def Finds (f : Feed) (id : MachineId) (task : Nat) (t : Instant) (r : Record) : Prop :=
  ∃ l time, f.load? task = some l ∧ f.Ready l ∧ l.Asks id (some time) ∧
    time.truncate = t.truncate ∧ f.cached id.manager id.product time = some r

/-- In the course of moves a load has resolved to a key. -/
def Resolved (f : Feed) (moves : List FeedMove) (id : MachineId) (task : Nat) (key : String) :
    Prop :=
  Sometime (fun before move => ∃ found, move = .beginLoad task found ∧
    (f.run before).Resolves id task found key) moves

/-- After moves a load is decoding the object under a key. -/
def Decodes (f : Feed) (moves : List FeedMove) (id : MachineId) (task : Nat) (key : String) :
    Prop :=
  f.Resolved moves id task key ∧
    ∃ l bytes, (f.run moves).load? task = some l ∧ l.phase = .decoding bytes

/-- In the course of moves the object under a key has been decoded. -/
def Decoded (f : Feed) (moves : List FeedMove) (id : MachineId) (key : String) : Prop :=
  Sometime (fun before move => ∃ task file remarks, move = .decoded task (.file file) remarks ∧
    f.Decodes before id task key) moves

/-- In the course of moves a load that has resolved to a key has a record. -/
def Yields (f : Feed) (moves : List FeedMove) (id : MachineId) (key : String) (r : Record) : Prop :=
  ∃ before after task, moves = before ++ after ∧ f.Resolved before id task key ∧
    (f.run before).Answering task (some r)

/-- The source of a machine tells the times of its objects, and all of them are files of the
machine's site and product. -/
structure Faithful (f : Feed) (id : MachineId) (timeOf : String → Option Instant)
    (moves : List FeedMove) : Prop where
  times : Throughout (fun before move => ∀ task found key, move = .beginLoad task found →
    (f.run before).Resolves id task found key → found.time = timeOf key) moves
  objects : Throughout (fun before move => ∀ task file remarks key,
    move = .decoded task (.file file) remarks → f.Decodes before id task key →
      (∃ t, timeOf key = some t ∧ file.time.truncate = t.truncate) ∧
      file.productCode.map Ascii.upper = id.product.map Ascii.upper ∧
      Ascii.upper file.radarId = (f.run before).radarId id.manager) moves

theorem Faithful.of_append {rest : List FeedMove} (h : f.Faithful id timeOf (moves ++ rest)) :
    f.Faithful id timeOf moves :=
  ⟨h.times.of_append, h.objects.of_append⟩

theorem resolved_concat {move : FeedMove} :
    f.Resolved (moves ++ [move]) id task key ↔ f.Resolved moves id task key ∨
      ∃ found, move = .beginLoad task found ∧ (f.run moves).Resolves id task found key :=
  sometime_concat

theorem decoded_concat {move : FeedMove} :
    f.Decoded (moves ++ [move]) id key ↔ f.Decoded moves id key ∨
      ∃ task file remarks, move = .decoded task (.file file) remarks ∧
        f.Decodes moves id task key :=
  sometime_concat

/-! ## Loads of a machine -/

theorem cacheFor_get? (f : Feed) (l : Load) (product : Option String) (t : Instant) :
    (f.cacheFor l product).get? t = f.cached l.manager product t := by
  unfold cacheFor cached
  cases f.manager? l.manager with
  | none => rfl
  | some m => rfl

theorem cached_truncate {n : Nat} {product : Option String} {s t : Instant}
    (h : s.truncate = t.truncate) : f.cached n product s = f.cached n product t := by
  unfold cached Cache.get?
  rw [h]

/-- The cache that a load of a machine asks is that of the machine's product. -/
theorem bind_cacheFor {product : Option String} (hm : l.manager = id.manager)
    (hp : product.map Ascii.upper = id.product.map Ascii.upper) (t : Option Instant) :
    t.bind (f.cacheFor l product).get? = t.bind (f.cached id.manager id.product) := by
  congr 1
  funext t
  rw [cacheFor_get?, hm, cached_congr hp]

section
variable {move : FeedMove} {found : KeyAnswer} {phase : LoadPhase}

/-- A load that has resolved to a key finds the record at the time of the key, or fetches. -/
theorem Resolves.advances (h : f.Resolves id task found key) (hl : f.load? task = some l)
    (ha : f.Advances (.beginLoad task found) task l phase) :
    (phase = .fetching key ∧ found.time.bind (f.cached id.manager id.product) = none) ∨
      ∃ r, phase = .answering (some r) ∧
        found.time.bind (f.cached id.manager id.product) = some r := by
  obtain ⟨k, time, hk, -, ⟨hm, product, hp, hup⟩, hn, hkey⟩ := h
  cases Option.some.inj (hl.symm.trans hk)
  have cached : ∀ t : Option Instant,
      t.bind (f.cacheFor l product).get? = t.bind (f.cached id.manager id.product) :=
    bind_cacheFor hm hup
  cases ha with
  | enters he =>
    cases he with
    | atTime _ hs hr =>
      cases hp.symm.trans hs
      rw [cached, hn] at hr
      cases hr
    | unknown _ _ _ hk => cases hkey.symm.trans hk
    | atKey _ hs _ _ hr =>
      cases hp.symm.trans hs
      rw [cached] at hr
      exact .inr ⟨_, rfl, hr⟩
    | fetches _ hs _ hk hr =>
      cases hp.symm.trans hs
      cases hkey.symm.trans hk
      rw [cached] at hr
      exact .inl ⟨rfl, hr⟩
    | indexed _ hs | reads _ hs | streamed _ hs | broken _ hs => cases hp.symm.trans hs

theorem Resolves.begins (h : f.Resolves id task found key) :
    ∃ l phase, f.load? task = some l ∧
      (f.move (.beginLoad task found)).load? task = some { l with phase := phase } ∧
      ((phase = .fetching key ∧ found.time.bind (f.cached id.manager id.product) = none) ∨
        ∃ r, phase = .answering (some r) ∧
          found.time.bind (f.cached id.manager id.product) = some r) := by
  have ⟨l, _, hl, hr, _⟩ := h
  obtain ⟨phase, ha, hl'⟩ := hr.begins hl found
  exact ⟨l, phase, hl, hl', h.advances hl ha⟩

/-- A load fetches only what it has resolved to. -/
theorem Advances.resolves {time : Option Instant} (ha : f.Advances move task l (.fetching key))
    (hl : f.load? task = some l) (hasks : l.Asks id time) :
    ∃ found, move = .beginLoad task found ∧ f.Resolves id task found key := by
  obtain ⟨hm, product, hp, hup⟩ := hasks
  cases ha with
  | enters he =>
    cases he with
    | fetches hr hs hn hk _ =>
      cases hp.symm.trans hs
      rw [bind_cacheFor hm hup] at hn
      exact ⟨_, rfl, l, time, hl, hr, ⟨hm, product, hp, hup⟩, hn, hk⟩

end

/-! ## Stages -/

/-- What a load that has resolved to a key does: it is on its way from the object to the record
that the cache holds at the time of the key. -/
def Stage (f : Feed) (id : MachineId) (timeOf : String → Option Instant) (key : String) :
    LoadPhase → Prop
  | .waiting => False
  | .fetching k => k = key
  | .reading => False
  | .decoding _ => True
  | .initializing r owner => owner = id.manager ∧
      Manager.keyOf r = id.product.map Ascii.upper ∧
      ∃ t, timeOf key = some t ∧ r.time = t.truncate
  | .answering none => True
  | .answering (some r) => ∃ t, timeOf key = some t ∧ f.cached id.manager id.product t = some r

theorem Stage.move {phase : LoadPhase} (h : f.Stage id timeOf key phase) (move : FeedMove) :
    (f.move move).Stage id timeOf key phase := by
  cases phase with
  | answering result =>
    cases result with
    | none => trivial
    | some r =>
      obtain ⟨t, ht, hr⟩ := h
      exact ⟨t, ht, cached_move hr move⟩
  | _ => exact h

/-- A file of the machine's site goes to the machine's manager. -/
theorem Stage.routed {time : Option Instant} {file : RadarFile} (hc : f.Coherent)
    (hl : f.load? task = some l) (ha : l.Asks id time)
    (ht : ∃ t, timeOf key = some t ∧ file.time.truncate = t.truncate)
    (hp : file.productCode.map Ascii.upper = id.product.map Ascii.upper)
    (hr : Ascii.upper file.radarId = f.radarId id.manager) (serial : Nat) :
    f.Stage id timeOf key
      (.initializing (.ofFile serial file) (f.manager (Ascii.upper file.radarId)).2) := by
  refine ⟨?_, (Manager.keyOf_ofFile serial file).trans hp, ht⟩
  obtain ⟨t, htask, -, hw⟩ := exists_task_of_load? hl
  obtain ⟨m, hm, hal⟩ := hc.loads.starter t htask hw
  rw [ha.1] at hm
  have hid : f.radarId id.manager = m.radarId := by
    unfold radarId
    rw [hm]
    rfl
  have hlive : f.living? (Ascii.upper (Ascii.upper file.radarId)) = some id.manager := by
    rw [Ascii.upper_upper, hr, hid]
    exact hc.registered.living?_eq hm hal
  unfold Feed.manager
  simp only [hlive]

/-- A record of the machine's site and product, once stored, is what the cache holds. -/
theorem Stage.stored {r : Record} {owner : Nat} (hc : f.Coherent) (hl : f.load? task = some l)
    (hp : l.phase = .initializing r owner) (h : f.Stage id timeOf key l.phase) :
    (f.move (.gridsReady task)).Stage id timeOf key (.answering (some (f.stored owner r))) := by
  rw [hp] at h
  obtain ⟨rfl, hk, t, ht, htime⟩ := h
  obtain ⟨task', htask, -, hw⟩ := exists_task_of_load? hl
  obtain ⟨hr, m, hm, -⟩ := hc.loads.owner task' htask hw hp
  have hstored := cached_sweep (cached_gridsReady hl hp (Record.truncate_time hr) hm)
  refine ⟨t, ht, ?_⟩
  rw [← cached_congr (p := Manager.cacheKey r) hk,
    ← cached_truncate (s := r.time) (by rw [htime, Instant.truncate_truncate])]
  exact hstored

/-- The stage of a load after a step of its own. -/
theorem Stage.advance {move : FeedMove} {phase : LoadPhase} {time : Option Instant}
    (h : f.Stage id timeOf key l.phase) (hc : f.Coherent) (hl : f.load? task = some l)
    (hasks : l.Asks id time) (ha : f.Advances move task l phase)
    (hobj : ∀ file remarks bytes, move = .decoded task (.file file) remarks →
      l.phase = .decoding bytes →
        (∃ t, timeOf key = some t ∧ file.time.truncate = t.truncate) ∧
        file.productCode.map Ascii.upper = id.product.map Ascii.upper ∧
        Ascii.upper file.radarId = f.radarId id.manager) :
    (f.move move).Stage id timeOf key phase := by
  cases ha with
  | enters he =>
    cases he with
    | atTime hr | unknown hr | atKey hr | fetches hr | indexed hr | reads hr | streamed hr
    | broken hr =>
      rw [hr.waiting] at h
      exact h.elim
    | read hp | unreadable hp =>
      rw [hp] at h
      exact h.elim
    | fetched | missing | undecoded => trivial
  | routed hp =>
    obtain ⟨ht, hprod, hrad⟩ := hobj _ _ _ rfl hp
    exact (Stage.routed hc hl hasks ht hprod hrad _).move _
  | stored hp => exact Stage.stored hc hl hp h

/-- A load that has done with its object does not take it up again. -/
theorem Stage.works_advance {move : FeedMove} {phase : LoadPhase}
    (h : f.Stage id timeOf key l.phase) (hn : l.phase.works = false)
    (ha : f.Advances move task l phase) : phase.works = false := by
  cases ha with
  | enters he =>
    cases he with
    | atTime hr | unknown hr | atKey hr | fetches hr | indexed hr | reads hr | streamed hr
    | broken hr =>
      rw [hr.waiting] at h
      exact h.elim
    | read hp | unreadable hp =>
      rw [hp] at h
      exact h.elim
    | fetched hp =>
      rw [hp] at hn
      cases hn
    | missing | undecoded => rfl
  | routed => rfl
  | stored => rfl

/-! ## Runs -/

/-- What holds of the loads of a machine after moves. -/
structure Traced (f : Feed) (id : MachineId) (timeOf : String → Option Instant)
    (moves : List FeedMove) : Prop where
  fresh : ∀ {task key}, f.Resolved moves id task key → task < (f.run moves).nextTask
  stage : ∀ {task key l}, f.Resolved moves id task key → (f.run moves).load? task = some l →
    (∃ time, l.Asks id time) ∧ (f.run moves).Stage id timeOf key l.phase
  resolved : ∀ {task key l time}, (f.run moves).load? task = some l → l.Asks id time →
    l.phase = .fetching key → f.Resolved moves id task key
  /-- What has been decoded is in the cache, or is about to be. -/
  stored : ∀ {key}, f.Decoded moves id key →
    (∃ task l r owner, f.Resolved moves id task key ∧ (f.run moves).load? task = some l ∧
      l.phase = .initializing r owner) ∨
    ∃ t r, timeOf key = some t ∧ (f.run moves).cached id.manager id.product t = some r
  once : ∀ {task key l}, f.Decoded moves id key → f.Resolved moves id task key →
    (f.run moves).load? task = some l → l.phase.works = false

section
variable {move : FeedMove}

theorem Faithful.stage_advance (hf : f.Faithful id timeOf (moves ++ [move]))
    (hc : (f.run moves).Coherent) {k : Load} {phase : LoadPhase} {time : Option Instant}
    (hr : f.Resolved moves id task key) (hk : (f.run moves).load? task = some k)
    (hasks : k.Asks id time) (hst : (f.run moves).Stage id timeOf key k.phase)
    (ha : (f.run moves).Advances move task k phase) :
    ((f.run moves).move move).Stage id timeOf key phase := by
  refine hst.advance hc hk hasks ha ?_
  rintro file remarks bytes rfl hp
  exact hf.objects.last task file remarks key rfl ⟨hr, k, bytes, hk, hp⟩

theorem Faithful.stage_resolves (hf : f.Faithful id timeOf (moves ++ [move])) {found : KeyAnswer}
    (hm : move = .beginLoad task found) (h : (f.run moves).Resolves id task found key)
    (hl : ((f.run moves).move move).load? task = some l) :
    (∃ time, l.Asks id time) ∧ ((f.run moves).move move).Stage id timeOf key l.phase := by
  have ht : found.time = timeOf key := hf.times.last task found key hm h
  subst hm
  obtain ⟨k, phase, hk, hk', hp⟩ := h.begins
  cases Option.some.inj (hl.symm.trans hk')
  obtain ⟨k', time, hk'', -, hasks, -⟩ := h
  cases Option.some.inj (hk.symm.trans hk'')
  refine ⟨⟨time, hasks⟩, ?_⟩
  rcases hp with ⟨rfl, -⟩ | ⟨r, rfl, hr⟩
  · rfl
  · rw [ht] at hr
    obtain ⟨t, ht, hr⟩ := Option.bind_eq_some_iff.1 hr
    exact ⟨t, ht, cached_move hr _⟩

theorem Traced.stage_concat (h : f.Traced id timeOf moves) (hc : (f.run moves).Coherent)
    (hf : f.Faithful id timeOf (moves ++ [move])) (hr : f.Resolved (moves ++ [move]) id task key)
    (hl : ((f.run moves).move move).load? task = some l) :
    (∃ time, l.Asks id time) ∧ ((f.run moves).move move).Stage id timeOf key l.phase := by
  rcases resolved_concat.1 hr with hr | ⟨found, hm, hres⟩
  · rcases load?_of_move hc.sound hl with hl | ⟨k, phase, hk, ha, rfl⟩ | ⟨hlt, -⟩
    · obtain ⟨hasks, hst⟩ := h.stage hr hl
      exact ⟨hasks, hst.move move⟩
    · obtain ⟨⟨time, hasks⟩, hst⟩ := h.stage hr hk
      exact ⟨⟨time, hasks⟩, hf.stage_advance hc hr hk hasks hst ha⟩
    · exact absurd (h.fresh hr) (Nat.not_lt.2 hlt)
  · exact hf.stage_resolves hm hres hl

theorem Traced.resolved_fetching (h : f.Traced id timeOf moves) (hc : (f.run moves).Coherent)
    {time : Option Instant} (hl : ((f.run moves).move move).load? task = some l)
    (hasks : l.Asks id time) (hp : l.phase = .fetching key) :
    f.Resolved (moves ++ [move]) id task key := by
  rcases load?_of_move hc.sound hl with hl | ⟨k, phase, hk, ha, rfl⟩ | ⟨-, _, _, _, -, rfl⟩
  · exact resolved_concat.2 (.inl (h.resolved hl hasks hp))
  · have hp : phase = .fetching key := hp
    subst hp
    exact resolved_concat.2 (.inr (ha.resolves (l := k) hk hasks))
  · cases hp

theorem Decodes.initializing (h : f.Decodes moves id task key) (file : RadarFile)
    (remarks : List LogLine) :
    ∃ l r owner, ((f.run moves).move (.decoded task (.file file) remarks)).load? task = some l ∧
      l.phase = .initializing r owner := by
  obtain ⟨-, l, bytes, hl, hp⟩ := h
  rcases load?_of_loadTask? hl (.decoded task (.file file) remarks) rfl with
    ⟨hi, -⟩ | ⟨phase, ha, hl'⟩
  · cases hi with
    | decoded hn => exact absurd hp (hn l hl bytes)
  · cases ha with
    | enters he =>
      cases he with
      | undecoded _ hn => exact absurd rfl (hn file)
    | routed => exact ⟨_, _, _, hl', rfl⟩

theorem Traced.stored_concat (h : f.Traced id timeOf moves) (hc : (f.run moves).Coherent)
    (hf : f.Faithful id timeOf (moves ++ [move])) (hd : f.Decoded (moves ++ [move]) id key) :
    (∃ task l r owner, f.Resolved (moves ++ [move]) id task key ∧
      ((f.run moves).move move).load? task = some l ∧ l.phase = .initializing r owner) ∨
    ∃ t r, timeOf key = some t ∧
      ((f.run moves).move move).cached id.manager id.product t = some r := by
  rcases decoded_concat.1 hd with hd | ⟨task, file, remarks, rfl, hdec⟩
  · rcases h.stored hd with ⟨task, l, r, owner, hr, hl, hp⟩ | ⟨t, r, ht, hr⟩
    · rcases load?_move hc.sound hl move with hl' | ⟨phase, ha, -⟩ | ⟨-, ⟨result, hp'⟩, -⟩
      · exact .inl ⟨task, l, r, owner, resolved_concat.2 (.inl hr), hl', hp⟩
      · obtain ⟨⟨time, hasks⟩, hst⟩ := h.stage hr hl
        have hst := hf.stage_advance hc hr hl hasks hst ha
        obtain rfl : phase = .answering (some ((f.run moves).stored owner r)) :=
          ha.of_initializing hp
        obtain ⟨t, ht, hr⟩ := hst
        exact .inr ⟨t, _, ht, hr⟩
      · rw [hp] at hp'
        cases hp'
    · exact .inr ⟨t, r, ht, cached_move hr move⟩
  · obtain ⟨l, r, owner, hl, hp⟩ := hdec.initializing file remarks
    exact .inl ⟨task, l, r, owner, resolved_concat.2 (.inl hdec.1), hl, hp⟩

/-- Once an object has been decoded, a load that resolves to its key finds its record. -/
theorem Traced.finds (h : f.Traced id timeOf moves) (hd : f.Decoded moves id key)
    {found : KeyAnswer} (ht : found.time = timeOf key)
    (hr : (f.run moves).Resolves id task found key) :
    found.time.bind ((f.run moves).cached id.manager id.product) ≠ none := by
  rcases h.stored hd with ⟨i, k, r, owner, hi, hk, hp⟩ | ⟨t, r, ht', hcached⟩
  · -- the load that decoded it would hold the lock
    obtain ⟨l, time, hl, hready, hasks, -⟩ := hr
    obtain ⟨⟨time', hasks'⟩, -⟩ := h.stage hi hk
    have hh : k.holdsLock = true := Load.holdsLock_of_initializing hp
    exact absurd (hasks'.lock_eq hasks) (hready.not_held hk hh)
  · rw [ht, ht', Option.bind_some, hcached]
    intro hn
    cases hn

theorem Traced.once_concat (h : f.Traced id timeOf moves) (hc : (f.run moves).Coherent)
    (hx : (f.run moves).Exclusive) (hf : f.Faithful id timeOf (moves ++ [move]))
    (hd : f.Decoded (moves ++ [move]) id key) (hr : f.Resolved (moves ++ [move]) id task key)
    (hl : ((f.run moves).move move).load? task = some l) : l.phase.works = false := by
  rcases decoded_concat.1 hd with hd' | ⟨i, file, remarks, hm, hdec⟩
  · rcases resolved_concat.1 hr with hr | ⟨found, hm, hres⟩
    · rcases load?_of_move hc.sound hl with hl | ⟨k, phase, hk, ha, rfl⟩ | ⟨hlt, -⟩
      · exact h.once hd' hr hl
      · exact (h.stage hr hk).2.works_advance (h.once hd' hr hk) ha
      · exact absurd (h.fresh hr) (Nat.not_lt.2 hlt)
    · have ht : found.time = timeOf key := hf.times.last task found key hm hres
      subst hm
      obtain ⟨k, phase, -, hk, hp⟩ := hres.begins
      cases Option.some.inj (hl.symm.trans hk)
      rcases hp with ⟨rfl, hn⟩ | ⟨r, rfl, -⟩
      · exact absurd hn (h.finds hd' ht hres)
      · rfl
  · -- the load that decodes the object goes on holding the lock
    by_contra hw
    have hst : ∀ {j k}, f.Resolved (moves ++ [move]) id j key →
        ((f.run moves).move move).load? j = some k → ∃ time, k.Asks id time :=
      fun hj hk => (h.stage_concat hc hf hj hk).1
    subst hm
    obtain ⟨k, r, owner, hk, hp⟩ := hdec.initializing file remarks
    obtain ⟨time, hasks⟩ := hst hr hl
    obtain ⟨time', hasks'⟩ := hst (resolved_concat.2 (.inl hdec.1)) hk
    have hw : l.phase.works = true := by simpa using hw
    have hh : k.holdsLock = true := Load.holdsLock_of_initializing hp
    obtain rfl := hx.move hc.sound _ hl hk (Load.holdsLock_of_works hw) hh
      (hasks.lock_eq hasks')
    cases Option.some.inj (hl.symm.trans hk)
    rw [hp] at hw
    cases hw

theorem traced_run (sites : SiteTable) (settings : Settings) (hc : .cleanup ∉ moves)
    (hf : (new sites settings).Faithful id timeOf moves) :
    (new sites settings).Traced id timeOf moves := by
  induction moves using List.reverseRecOn with
  | nil =>
    have none : ∀ {task key}, ¬ (new sites settings).Resolved [] id task key := by
      rintro task key ⟨before, move, after, he, -⟩
      simp at he
    have undecoded : ∀ {key}, ¬ (new sites settings).Decoded [] id key := by
      rintro key ⟨before, move, after, he, -⟩
      simp at he
    refine ⟨fun h => (none h).elim, fun h => (none h).elim, ?_, fun h => (undecoded h).elim,
      fun h => (undecoded h).elim⟩
    intro task key l time hl
    cases hl
  | append_singleton moves move ih =>
    have hcm : .cleanup ∉ moves := fun h => hc (List.mem_append_left _ h)
    have h := ih hcm hf.of_append
    have hg : ((new sites settings).run moves).Coherent := (coherent_new sites settings).run hcm
    have hx := exclusive_run sites settings moves
    refine ⟨fun {task key} hr => ?_, ?_, ?_, ?_, ?_⟩ <;> simp only [run_concat]
    · rcases resolved_concat.1 hr with hr | ⟨found, rfl, l, _, hl, -⟩
      · exact Nat.lt_of_lt_of_le (h.fresh hr) (nextTask_move hg.sound move)
      · exact Nat.lt_of_lt_of_le (load?_lt hg.sound.fresh hl) (nextTask_move hg.sound _)
    · exact fun hr hl => h.stage_concat hg hf hr hl
    · exact fun hl hasks hp => h.resolved_fetching hg hl hasks hp
    · exact fun hd => h.stored_concat hg hf hd
    · exact fun hd hr hl => h.once_concat hg hx hf hd hr hl

end

/-- **Each object is decoded once.** Where a source tells the times of its objects, then once the
object under a key has been decoded, no load of the machine fetches the key, and none that has
resolved to it is at work. All loads that have resolved to the key and have a record have the same
one, which the cache holds at the time of the key; whoever asks for that time finds it too. -/
theorem decoded_once (sites : SiteTable) (settings : Settings) (hc : .cleanup ∉ moves)
    (hf : (new sites settings).Faithful id timeOf moves) (key : String) :
    let f := new sites settings
    (f.Decoded moves id key → ∀ task l time, (f.run moves).load? task = some l → l.Asks id time →
      l.phase ≠ .fetching key ∧ (f.Resolved moves id task key → l.phase.works = false)) ∧
    ∀ r, f.Yields moves id key r → ∃ t, timeOf key = some t ∧
      (f.run moves).cached id.manager id.product t = some r ∧
      (∀ r', f.Yields moves id key r' → r' = r) ∧
      ∀ before after task r', moves = before ++ after → (f.run before).Finds id task t r' →
        r' = r := by
  intro f
  have h : f.Traced id timeOf moves := traced_run sites settings hc hf
  -- what a load has, the cache holds from then on
  have yields : ∀ {r}, f.Yields moves id key r →
      ∃ t, timeOf key = some t ∧ (f.run moves).cached id.manager id.product t = some r := by
    rintro r ⟨before, after, task, rfl, hr, l, hl, hp⟩
    have hb : f.Traced id timeOf before :=
      traced_run sites settings (fun h => hc (List.mem_append_left _ h)) hf.of_append
    have hst := (hb.stage hr hl).2
    rw [hp] at hst
    obtain ⟨t, ht, hcached⟩ := hst
    rw [run_append]
    exact ⟨t, ht, cached_run hcached after⟩
  refine ⟨fun hd task l time hl hasks => ⟨fun hp => ?_, fun hr => h.once hd hr hl⟩, ?_⟩
  · have hw := h.once hd (h.resolved hl hasks hp) hl
    rw [hp] at hw
    cases hw
  · intro r hr
    obtain ⟨t, ht, hcached⟩ := yields hr
    refine ⟨t, ht, hcached, fun r' hr' => ?_, ?_⟩
    · obtain ⟨t', ht', hcached'⟩ := yields hr'
      cases Option.some.inj (ht.symm.trans ht')
      exact Option.some.inj (hcached'.symm.trans hcached)
    · rintro before after task r' rfl ⟨l, time, -, -, -, hsame, hfound⟩
      have hr' := cached_run hfound after
      rw [← run_append, cached_truncate hsame, hcached] at hr'
      exact (Option.some.inj hr').symm

def timeOfVolume : Instant := ⟨1767225600, 250000000⟩

/-- The times of the objects of a source that has one. -/
def timeOfKey (key : String) : Option Instant :=
  if key = "KLSX_1" then some timeOfVolume else none

/-- Moves by which the last object of a source, and the one before a later time, are asked for while
a stream is loaded. -/
def askingTwice : List FeedMove :=
  [.hold "KLSX", .load 0 (.object none none) none,
    .load 0 (.object none (some ⟨1767229200, 0⟩)) none, .load 0 (.stream (.ok [])) none,
    .beginLoad 0 ⟨some "KLSX_1", some timeOfVolume⟩, .beginLoad 1 ⟨none, none⟩,
    .beginLoad 2 ⟨none, none⟩, .object 0 (.ok []), .decoded 0 (.file (volumeOf "klsx")) [],
    .gridsReady 0, .beginLoad 1 ⟨some "KLSX_1", some timeOfVolume⟩]

theorem faithful_askingTwice :
    (new .empty .default).Faithful ⟨0, none⟩ timeOfKey askingTwice := by
  have key_of_resolves : ∀ {g : Feed} {task found key}, .beginLoad task found ∈ askingTwice →
      g.Resolves ⟨0, none⟩ task found key →
        key = "KLSX_1" ∧ found.time = some timeOfVolume := by
    rintro g task found key hm ⟨_, _, -, -, -, -, hk⟩
    simp only [askingTwice, List.mem_cons, List.not_mem_nil, FeedMove.beginLoad.injEq, or_false,
      reduceCtorEq, false_or] at hm
    rcases hm with ⟨-, rfl⟩ | ⟨-, rfl⟩ | ⟨-, rfl⟩ | ⟨-, rfl⟩
    · exact ⟨(Option.some.inj hk).symm, rfl⟩
    · cases hk
    · cases hk
    · exact ⟨(Option.some.inj hk).symm, rfl⟩
  constructor
  · rintro before move after he task found key rfl hr
    have hm : .beginLoad task found ∈ askingTwice := by
      rw [he]
      simp
    obtain ⟨rfl, ht⟩ := key_of_resolves hm hr
    exact ht
  · simp only [askingTwice, throughout_cons, throughout_nil, and_true, reduceCtorEq, false_implies,
      implies_true, true_and, FeedMove.decoded.injEq, DecodeOutcome.file.injEq]
    rintro task file remarks key ⟨rfl, rfl, rfl⟩ ⟨⟨before, _, after, he, found, rfl, hr⟩, -⟩
    have hm : .beginLoad 0 found ∈ askingTwice := by
      have hb : .beginLoad 0 found ∈ before ++ .beginLoad 0 found :: after := by simp
      rw [← he] at hb
      exact List.mem_append_left [_, _, _] hb
    obtain ⟨rfl, -⟩ := key_of_resolves hm hr
    exact ⟨⟨timeOfVolume, rfl, rfl⟩, rfl, rfl⟩

theorem resolved_askingTwice (rest : List FeedMove) :
    (new .empty .default).Resolved (askingTwice.take 5 ++ rest) ⟨0, none⟩ 0 "KLSX_1" := by
  have hl : ((new .empty .default).run (askingTwice.take 4)).load? 0 =
      some ⟨0, .object none none, none, .waiting⟩ := rfl
  refine ⟨askingTwice.take 4, _, rest, rfl, ⟨some "KLSX_1", some timeOfVolume⟩, rfl, ?_⟩
  exact ⟨_, none, hl, ⟨rfl, rfl⟩, ⟨rfl, none, rfl, rfl⟩, rfl, rfl⟩

theorem decoded_askingTwice : (new .empty .default).Decoded askingTwice ⟨0, none⟩ "KLSX_1" := by
  refine ⟨askingTwice.take 8, _, askingTwice.drop 9, rfl, 0, volumeOf "klsx", [], rfl, ?_⟩
  exact ⟨resolved_askingTwice ((askingTwice.take 8).drop 5),
    ⟨0, .object none none, none, .decoding []⟩, [], rfl, rfl⟩

/-- The object is decoded once, and both loads have its record. -/
theorem decoded_once_for_two :
    let f := new .empty .default
    let g := f.run askingTwice
    let r := Record.ofFile 0 (volumeOf "klsx")
    f.Faithful ⟨0, none⟩ timeOfKey askingTwice ∧
      f.Decoded askingTwice ⟨0, none⟩ "KLSX_1" ∧ f.Yields askingTwice ⟨0, none⟩ "KLSX_1" r ∧
      g.Answering 0 (some r) ∧ g.Answering 1 (some r) ∧
      (∀ r', f.Yields askingTwice ⟨0, none⟩ "KLSX_1" r' → r' = r) ∧
      ∀ task l time, g.load? task = some l → l.Asks ⟨0, none⟩ time →
        l.phase ≠ .fetching "KLSX_1" := by
  have hc : .cleanup ∉ askingTwice := by simp [askingTwice]
  have hg : ∀ task time, task = 0 ∧ time = none ∨ task = 1 ∧ time = some ⟨1767229200, 0⟩ →
      ((new .empty .default).run askingTwice).load? task = some ⟨0, .object none time, none,
        .answering (some (.ofFile 0 (volumeOf "klsx")))⟩ := by
    rintro _ _ (⟨rfl, rfl⟩ | ⟨rfl, rfl⟩) <;> rfl
  intro f g r
  have h₀ : g.Answering 0 (some r) := ⟨_, hg 0 none (.inl ⟨rfl, rfl⟩), rfl⟩
  have h₁ : g.Answering 1 (some r) := ⟨_, hg 1 _ (.inr ⟨rfl, rfl⟩), rfl⟩
  have hyields : f.Yields askingTwice ⟨0, none⟩ "KLSX_1" r :=
    ⟨askingTwice, [], 0, (List.append_nil _).symm, resolved_askingTwice (askingTwice.drop 5), h₀⟩
  obtain ⟨honce, hsame⟩ := decoded_once .empty .default hc faithful_askingTwice "KLSX_1"
  obtain ⟨t, -, -, hsame, -⟩ := hsame r hyields
  exact ⟨faithful_askingTwice, decoded_askingTwice, hyields, h₀, h₁, hsame,
    fun task l time hl ha => (honce decoded_askingTwice task l time hl ha).1⟩

end Feed

end RadarFeed
