import Mathlib.Data.List.Induction
import RadarFeed.Proofs.Feed.Completions
import RadarFeed.Proofs.Feed.FirstRecord
import RadarFeed.Proofs.Feed.Routing

/-!
Files.

A load of a file holds the lock of all files from before it reads until its record is in the index,
and it reads only if the path has no entry then. So no path with an entry is being read, an entry is
never replaced, and a load that fails leaves none (`Indexed`): each file is read until that has once
succeeded, and not again (`read_once`).

A load has its result when it lets the lock go (`Gets`), and completes with it later. In between
other loads go on, so that one which has failed may complete behind one that has read the file after
it. Which record a path has is therefore told in the order in which loads get their results.
-/

namespace RadarFeed

theorem Load.lock_file {l : Load} {p : Path} (h : l.source = .file p) : l.lock = .files := by
  unfold lock
  rw [h]

namespace Feed

variable {f : Feed}

/-- The index of files changes when a file has been loaded. -/
theorem files_move {move : FeedMove} (hc : move ≠ .cleanup) :
    (f.move move).files = f.files ∨ ∃ task l p r owner, move = .gridsReady task ∧
      f.load? task = some l ∧ l.source = .file p ∧ l.phase = .initializing r owner ∧
      (f.move move).files = f.files.insert p (f.stored owner r) := by
  unfold Feed.move
  split
  · simp only [files_sweep]
    exact files_apply hc
  · exact .inl rfl

/-- A record from a file is put into the index when it is stored. -/
theorem files_gridsReady {task : Nat} {l : Load} {r : Record} {owner : Nat}
    (hl : f.load? task = some l) (hp : l.phase = .initializing r owner) :
    (f.move (.gridsReady task)).files = f.indexAfter l.source (f.stored owner r) := by
  obtain ⟨log, he⟩ := takeGrids_eq hl hp
  show (f.apply (.gridsReady task)).sweep.files = _
  rw [files_sweep, show f.apply (.gridsReady task) = _ from he]
  rfl

/-- Loads of files, and the index. -/
structure Indexed (f : Feed) : Prop where
  sound : f.Sound
  exclusive : f.Exclusive
  answered : ∀ {task l p r}, f.load? task = some l → l.source = .file p →
    l.phase = .answering (some r) → f.files.get? p = some r
  unread : ∀ {task l p}, f.load? task = some l → l.source = .file p → l.holdsLock = true →
    f.files.get? p = none

theorem indexed_new (sites : SiteTable) (settings : Settings) : (new sites settings).Indexed where
  sound := sound_new sites settings
  exclusive := exclusive_run sites settings []
  answered hl := by cases hl
  unread hl := by cases hl

section
variable {p : Path} {r : Record} {task : Nat} {l : Load}

/-- An entry is never replaced. -/
theorem Indexed.stays (h : f.Indexed) (hr : f.files.get? p = some r) {move : FeedMove}
    (hc : move ≠ .cleanup) : (f.move move).files.get? p = some r := by
  rcases files_move (f := f) hc with he | ⟨task, l, q, x, owner, -, hl, hs, hp, he⟩
  · rw [he, hr]
  · cases hpq : q.same p with
    | false => rw [he, FileIndex.get?_insert_ne _ _ hpq, hr]
    | true =>
      have hn := h.unread hl hs (Load.holdsLock_of_initializing hp)
      rw [FileIndex.get?_congr _ hpq, hr] at hn
      cases hn

theorem Indexed.answered_move (h : f.Indexed) {move : FeedMove} (hc : move ≠ .cleanup)
    (hl : (f.move move).load? task = some l) (hs : l.source = .file p)
    (hp : l.phase = .answering (some r)) : (f.move move).files.get? p = some r := by
  rcases load?_of_move h.sound hl with hl | ⟨k, phase, hk, ha, rfl⟩ | ⟨-, _, _, _, -, rfl⟩
  · exact h.stays (h.answered hl hs hp) hc
  · have hp : phase = .answering (some r) := hp
    subst hp
    cases ha with
    | enters he =>
      cases he with
      | atTime _ ho | atKey _ ho => cases ho.symm.trans hs
      | indexed _ hf hr =>
        cases hf.symm.trans hs
        exact h.stays hr hc
    | stored hx =>
      have hs : k.source = .file p := hs
      rw [files_gridsReady hk hx, hs]
      exact FileIndex.get?_insert_same _ _ (Path.same_refl p)
  · cases hp

theorem Indexed.unread_move (h : f.Indexed) {move : FeedMove} (hc : move ≠ .cleanup)
    (hl : (f.move move).load? task = some l) (hs : l.source = .file p)
    (hh : l.holdsLock = true) : (f.move move).files.get? p = none := by
  -- the entries stay while a load is at work, unless it is the one that stores
  have before : f.files.get? p = none := by
    rcases load?_of_move h.sound hl with hl | ⟨k, phase, hk, ha, rfl⟩ | ⟨-, _, _, _, -, rfl⟩
    · exact h.unread hl hs hh
    · have hs : k.source = .file p := hs
      cases ha with
      | enters he =>
        cases he with
        | fetches _ ho | fetched _ ho => cases ho.symm.trans hs
        | reads _ hf hn =>
          cases hf.symm.trans hs
          exact hn
        | read hp => exact h.unread hk hs (by unfold Load.holdsLock; rw [hp])
        | streamed _ hf => cases hf.symm.trans hs
        | _ => cases hh
      | routed hp => exact h.unread hk hs (by unfold Load.holdsLock; rw [hp])
      | stored => cases hh
    · cases hh
  rcases files_move (f := f) hc with he | ⟨i, k, q, x, owner, rfl, hk, hks, hp, -⟩
  · rw [he, before]
  · have hk' := load?_gridsReady hk hp
    have hne : task ≠ i := by
      rintro rfl
      cases Option.some.inj (hl.symm.trans hk')
      cases hh
    rcases load?_of_move h.sound hl with hl' | ⟨_, _, -, ha', -⟩ | ⟨-, _, _, _, h', -⟩
    · exact absurd (h.exclusive hl' hk hh (Load.holdsLock_of_initializing hp)
        ((Load.lock_file hs).trans (Load.lock_file hks).symm)) hne
    · exact absurd (Option.some.inj ha'.loadTask?).symm hne
    · cases h'

theorem Indexed.move (h : f.Indexed) {move : FeedMove} (hc : move ≠ .cleanup) :
    (f.move move).Indexed where
  sound := h.sound.move move
  exclusive := h.exclusive.move h.sound move
  answered hl hs hp := h.answered_move hc hl hs hp
  unread hl hs hh := h.unread_move hc hl hs hh

theorem Indexed.run (h : f.Indexed) {moves : List FeedMove} (hc : .cleanup ∉ moves) :
    (f.run moves).Indexed :=
  run_of_move h fun _ _ hm hg => hg.move fun he => hc (he ▸ hm)

/-- A load of a path with an entry does not fail any more. -/
theorem Indexed.failed_move (h : f.Indexed) (hr : f.files.get? p = some r) {move : FeedMove}
    (hl : (f.move move).load? task = some l) (hs : l.source = .file p)
    (hp : l.phase = .answering none) : f.load? task = some l := by
  rcases load?_of_move h.sound hl with hl | ⟨k, phase, hk, ha, rfl⟩ | ⟨-, _, _, _, -, rfl⟩
  · exact hl
  · have hs : k.source = .file p := hs
    have hp : phase = .answering none := hp
    subst hp
    have working : k.holdsLock = true := by
      refine ha.ready_or_holds.resolve_left fun hready => ?_
      cases ha with
      | enters he =>
        cases he with
        | unknown _ ho => cases ho.symm.trans hs
        | broken _ ho => cases ho.symm.trans hs
        | missing hp | unreadable hp | undecoded hp => cases hready.waiting.symm.trans hp
    have hn := h.unread hk hs working
    rw [hr] at hn
    cases hn
  · cases hp

/-- What becomes of a path with an entry. -/
theorem Indexed.entry_run (h : f.Indexed) (hr : f.files.get? p = some r) {moves : List FeedMove}
    (hc : .cleanup ∉ moves) :
    (f.run moves).files.get? p = some r ∧
      ∀ task l, (f.run moves).load? task = some l → l.source = .file p →
        l.phase = .answering none → f.load? task = some l := by
  refine (run_of_move (I := fun g => g.Indexed ∧ g.files.get? p = some r ∧
    ∀ task l, g.load? task = some l → l.source = .file p → l.phase = .answering none →
      f.load? task = some l) ⟨h, hr, fun _ _ hl _ _ => hl⟩ ?_).2
  rintro g move hm ⟨hg, hr, hbefore⟩
  have hne : move ≠ .cleanup := fun he => hc (he ▸ hm)
  exact ⟨hg.move hne, hg.stays hr hne,
    fun task l hl hs hp => hbefore task l (hg.failed_move hr hl hs hp) hs hp⟩

/-- A path with an entry is not at work. -/
theorem Indexed.idle (h : f.Indexed) (hr : f.files.get? p = some r) (hl : f.load? task = some l)
    (hs : l.source = .file p) : l.phase = .waiting ∨ ∃ result, l.phase = .answering result := by
  rw [← Load.holdsLock_eq_false_iff, Bool.eq_false_iff]
  intro hh
  have hn := h.unread hl hs hh
  rw [hr] at hn
  cases hn

/-- A load of a path with an entry completes with it, unless it has failed before. -/
theorem Indexed.completes (h : f.Indexed) (hr : f.files.get? p = some r) {move : FeedMove}
    {c : Completion} (hm : f.completed? move = some c) (hs : c.source = .file p) :
    c.result = some r ∨ c.result = none ∧ ∃ task l, move = .answer task ∧ f.load? task = some l ∧
      l.source = .file p ∧ l.phase = .answering none := by
  rcases (completion?_eq_some (completed?_eq_some_iff.1 hm).2).2 with
    ⟨n, path, r', -, hr', hs', hc⟩ | ⟨task, l, rfl, hl, hp, hs', -⟩
  · cases hs.symm.trans hs'
    cases Option.some.inj (hr.symm.trans hr')
    exact .inl hc
  · have hs := hs'.symm.trans hs
    cases hc : c.result with
    | none =>
      rw [hc] at hp
      exact .inr ⟨rfl, task, l, rfl, hl, hs, hp⟩
    | some r' =>
      rw [hc] at hp
      rw [← h.answered hl hs hp, hr]
      exact .inl rfl

/-- When a load completes with a record, its path has an entry. -/
theorem Indexed.of_completed (h : f.Indexed) {move : FeedMove} {c : Completion}
    (hm : f.completed? move = some c) (hs : c.source = .file p) (hc : c.result = some r) :
    f.files.get? p = some r := by
  rcases (completion?_eq_some (completed?_eq_some_iff.1 hm).2).2 with
    ⟨n, path, r', -, hr, hs', hc'⟩ | ⟨task, l, -, hl, hp, hs', -⟩
  · cases hs.symm.trans hs'
    rw [hr, ← hc', hc]
  · rw [hc] at hp
    exact h.answered hl (hs'.symm.trans hs) hp

/-- A load of a path without an entry waits for the lock. -/
theorem Indexed.starts (h : f.Indexed) (hn : f.files.get? p = none) {n : Nat}
    {request : Option Nat} (ha : f.allows (.load n (.file p) request) = true) :
    (f.move (.load n (.file p) request)).load? f.nextTask =
      some ⟨n, .file p, request, .waiting⟩ := by
  rcases f.startLoad_cases n (.file p) request with
    ⟨_, _, _, h, -⟩ | ⟨path, r, _, h, hr, -⟩ | ⟨-, -, log, he⟩
  · cases h
  · cases h
    rw [hn] at hr
    cases hr
  · rw [Feed.move, if_pos ha, load?_sweep, show f.apply (.load n (.file p) request) = _ from he]
    exact load?_start (f := { f with managers := _, log := log }) h.sound.fresh _

/-- A load of a path without an entry reads it. -/
theorem Ready.reads (hr : f.Ready l) (hn : f.files.get? p = none) (hl : f.load? task = some l)
    (hs : l.source = .file p) (found : KeyAnswer) :
    (f.move (.beginLoad task found)).load? task = some { l with phase := .reading } := by
  obtain ⟨phase, ha, hl'⟩ := hr.begins hl found
  rw [hl']
  cases ha with
  | enters he =>
    cases he with
    | reads => rfl
    | indexed _ hf h =>
      cases hf.symm.trans hs
      cases hn.symm.trans h
    | atTime _ ho | unknown _ ho | atKey _ ho | fetches _ ho | streamed _ ho | broken _ ho =>
      cases ho.symm.trans hs

end

/-! ## Runs -/

/-- In the course of moves a load of a path has a record. -/
def Got (f : Feed) (moves : List FeedMove) (p : Path) (r : Record) : Prop :=
  ∃ before after task l q, moves = before ++ after ∧ (f.run before).load? task = some l ∧
    l.source = .file q ∧ q.same p = true ∧ l.phase = .answering (some r)

/-- By a move a load of an equal path stores its record, or finds that there was one. -/
def Indexes (f : Feed) (p : Path) (r : Record) (before : List FeedMove) (move : FeedMove) : Prop :=
  ∃ task l x owner q, move = .gridsReady task ∧ (f.run before).load? task = some l ∧
    l.phase = .initializing x owner ∧ r = (f.run before).stored owner x ∧
    l.source = .file q ∧ q.same p = true

section
variable {p : Path} {r : Record} {moves : List FeedMove}

theorem Indexes.entry {before : List FeedMove} {move : FeedMove} (h : f.Indexes p r before move) :
    ((f.run before).move move).files.get? p = some r := by
  obtain ⟨task, l, x, owner, q, rfl, hl, hp, rfl, hs, hq⟩ := h
  rw [files_gridsReady hl hp, hs]
  exact FileIndex.get?_insert_same _ _ hq

/-- An entry of the index has been made by a load that has stored its record. -/
theorem sometime_indexes (sites : SiteTable) (settings : Settings) (hc : .cleanup ∉ moves)
    (h : ((new sites settings).run moves).files.get? p = some r) :
    Sometime ((new sites settings).Indexes p r) moves := by
  induction moves using List.reverseRecOn with
  | nil => cases h
  | append_singleton moves move ih =>
    have hcm : .cleanup ∉ moves := fun h => hc (List.mem_append_left _ h)
    have hne : move ≠ .cleanup := fun he => hc (by simp [he])
    rw [run_concat] at h
    rw [sometime_concat]
    rcases files_move (f := (new sites settings).run moves) hne with
      he | ⟨task, l, q, x, owner, rfl, hl, hs, hp, he⟩
    · rw [he] at h
      exact .inl (ih hcm h)
    · rw [he] at h
      cases hq : q.same p with
      | false =>
        rw [FileIndex.get?_insert_ne _ _ hq] at h
        exact .inl (ih hcm h)
      | true =>
        rw [FileIndex.get?_insert_same _ _ hq] at h
        exact .inr ⟨task, l, x, owner, q, rfl, hl, hp, (Option.some.inj h).symm, hs, hq⟩

/-- The entries of the index are the records that loads have had. -/
theorem get?_files_run_iff (sites : SiteTable) (settings : Settings) (hc : .cleanup ∉ moves) :
    ((new sites settings).run moves).files.get? p = some r ↔
      (new sites settings).Got moves p r := by
  constructor
  · intro h
    obtain ⟨before, _, after, rfl, task, l, x, owner, q, rfl, hl, hp, rfl, hs, hq⟩ :=
      sometime_indexes sites settings hc h
    have hl' := load?_gridsReady hl hp
    rw [← run_concat] at hl'
    exact ⟨before ++ [.gridsReady task], after, task, { l with phase := .answering (some _) }, q,
      by simp, hl', hs, hq, rfl⟩
  · rintro ⟨before, after, task, l, q, rfl, hl, hs, hq, hp⟩
    have hcb : .cleanup ∉ before := fun h => hc (List.mem_append_left _ h)
    have hca : .cleanup ∉ after := fun h => hc (List.mem_append_right _ h)
    have h := (indexed_new sites settings).run hcb
    rw [run_append, ← FileIndex.get?_congr _ hq]
    exact (h.entry_run (h.answered hl hs hp) hca).1

end

/-! ## Results -/

/-- By a move the load of a task gets its result for a file, and lets the lock go. -/
def Concludes (f : Feed) (move : FeedMove) (task : Nat) (p : Path) (result : Option Record) :
    Prop :=
  (f.move move).Answering task result ∧
    ∃ l, f.load? task = some l ∧ l.source = .file p ∧ ∀ x, l.phase ≠ .answering x

/-- By a move a load of a file gets its result: it lets the lock go, or the index has the file when
it is started. -/
def Gets (f : Feed) (move : FeedMove) (p : Path) (result : Option Record) : Prop :=
  (∃ task, f.Concludes move task p result) ∨
    ∃ n request r, move = .load n (.file p) request ∧ f.allows move = true ∧
      f.files.get? p = some r ∧ result = some r

/-- By a move a load of a file gets a record, or completes with one. -/
def Succeeds (f : Feed) (move : FeedMove) (p : Path) (r : Record) : Prop :=
  f.Gets move p (some r) ∨
    ∃ c, f.completed? move = some c ∧ c.source = .file p ∧ c.result = some r

section
variable {move : FeedMove} {p q : Path} {r : Record} {task : Nat} {result : Option Record}

theorem Concludes.advances (h : f.Concludes move task p result) (hs : f.Sound) :
    ∃ l, f.load? task = some l ∧ l.source = .file p ∧
      f.Advances move task l (.answering result) ∧
      (f.move move).load? task = some { l with phase := .answering result } := by
  obtain ⟨⟨k, hk, hp⟩, l, hl, hls, hn⟩ := h
  rcases load?_move hs hl move with hl' | ⟨phase, ha, hl'⟩ | ⟨-, ⟨x, hx⟩, -⟩
  · obtain rfl := Option.some.inj (hl'.symm.trans hk)
    exact absurd hp (hn result)
  · obtain rfl := Option.some.inj (hl'.symm.trans hk)
    obtain rfl : phase = .answering result := hp
    exact ⟨l, hl, hls, ha, hl'⟩
  · exact absurd hx (hn x)

theorem ne_cleanup_of_loadTask? (h : move.loadTask? = some task) : move ≠ .cleanup := by
  rintro rfl
  cases h

/-- What a load gets for a path with an entry is the entry. -/
theorem Indexed.of_gets (h : f.Indexed) (hr : f.files.get? p = some r)
    (hg : f.Gets move p result) : result = some r := by
  rcases hg with ⟨task, hg⟩ | ⟨n, request, r', -, -, hr', rfl⟩
  · obtain ⟨l, hl, hs, ha, hl'⟩ := hg.advances h.sound
    have hne := ne_cleanup_of_loadTask? ha.loadTask?
    cases result with
    | none =>
      have hbefore := h.failed_move hr hl' hs rfl
      have hphase := congrArg Load.phase (Option.some.inj (hl.symm.trans hbefore))
      exact absurd hphase (ha.unanswered none)
    | some x => rw [← h.stays hr hne, h.answered_move hne hl' hs rfl]
  · rw [← hr', hr]

/-- A load that succeeds has let the lock go by this move, or the path has its entry before. -/
theorem Indexed.succeeds_cases (h : f.Indexed) (hr : f.Succeeds move p r) :
    (∃ task, f.Concludes move task p (some r)) ∨
      f.files.get? p = some r ∧ move ≠ .cleanup ∧ move.loadTask? = none := by
  rcases hr with (hr | ⟨n, request, r', rfl, -, hr', hr⟩) | ⟨c, hm, hs, hc⟩
  · exact .inl hr
  · cases hr
    exact .inr ⟨hr', by simp, rfl⟩
  · refine .inr ⟨h.of_completed hm hs hc, ?_⟩
    rcases (completion?_eq_some (completed?_eq_some_iff.1 hm).2).2 with
      ⟨n, path, r', rfl, -⟩ | ⟨task, l, rfl, -⟩
    · exact ⟨by simp, rfl⟩
    · exact ⟨by simp, rfl⟩

/-- After a load has succeeded its path has an entry, and a load that has failed had done so
before. -/
theorem Indexed.succeeded (h : f.Indexed) (hr : f.Succeeds move p r) :
    move ≠ .cleanup ∧ (f.move move).files.get? p = some r ∧
      ∀ task l, (f.move move).load? task = some l → l.phase = .answering none →
        f.load? task = some l := by
  have failed : ∀ {task l}, (f.move move).load? task = some l → l.phase = .answering none →
      (∀ k, ¬ f.Advances move task k (.answering none)) → f.load? task = some l := by
    intro task l hl hp hn
    rcases load?_of_move h.sound hl with hl | ⟨k, phase, hk, ha, rfl⟩ | ⟨-, _, _, _, -, rfl⟩
    · exact hl
    · obtain rfl : phase = .answering none := hp
      exact absurd ha (hn k)
    · cases hp
  rcases h.succeeds_cases hr with ⟨task, hr⟩ | ⟨hr, hne, hm⟩
  · obtain ⟨l, hl, hs, ha, hl'⟩ := hr.advances h.sound
    have hne := ne_cleanup_of_loadTask? ha.loadTask?
    refine ⟨hne, h.answered_move hne hl' hs rfl, fun i k hk hp => failed hk hp fun k' ha' => ?_⟩
    -- the one load that goes on has a record
    obtain rfl := Option.some.inj (ha.loadTask?.symm.trans ha'.loadTask?)
    obtain rfl := Option.some.inj (hl'.symm.trans hk)
    cases hp
  · refine ⟨hne, h.stays hr hne, fun i k hk hp => failed hk hp fun k' ha => ?_⟩
    cases hm.symm.trans ha.loadTask?

/-- What becomes of a path once a load of it has succeeded. -/
theorem Indexed.after_success (h : f.Indexed) (hr : f.Succeeds move p r) (hq : p.same q = true)
    {after : List FeedMove} (ha : .cleanup ∉ after) :
    let g := (f.move move).run after
    g.Indexed ∧ g.files.get? q = some r ∧
      ∀ task l, g.load? task = some l → l.source = .file q → l.phase = .answering none →
        f.load? task = some l := by
  obtain ⟨hne, hentry, hbefore⟩ := h.succeeded hr
  rw [FileIndex.get?_congr _ hq] at hentry
  obtain ⟨hstays, hfailed⟩ := (h.move hne).entry_run hentry ha
  exact ⟨(h.move hne).run ha, hstays,
    fun task l hl hs hp => hbefore task l (hfailed task l hl hs hp) hp⟩

end

section
variable {moves : List FeedMove} {p : Path} {task : Nat} {l : Load} {result : Option Record}

/-- A load that has its result has got it by one of the moves. -/
theorem sometime_concludes (sites : SiteTable) (settings : Settings)
    (hl : ((new sites settings).run moves).load? task = some l) (hs : l.source = .file p)
    (hp : l.phase = .answering result) :
    Sometime (fun before move => ((new sites settings).run before).Concludes move task p result)
      moves := by
  induction moves using List.reverseRecOn with
  | nil => cases hl
  | append_singleton moves move ih =>
    have hsound : ((new sites settings).run moves).Sound := (sound_new sites settings).run moves
    rw [sometime_concat]
    rw [run_concat] at hl
    rcases load?_of_move hsound hl with hl' | ⟨k, phase, hk, ha, rfl⟩ | ⟨-, _, _, _, -, rfl⟩
    · exact .inl (ih hl')
    · exact .inr ⟨⟨_, hl, hp⟩, k, hk, hs, ha.unanswered⟩
    · cases hp

/-- A load completes with the result that it has got, by this move or by an earlier one. -/
theorem gets_of_completed (sites : SiteTable) (settings : Settings) {move : FeedMove}
    {c : Completion} (hm : ((new sites settings).run moves).completed? move = some c)
    (hs : c.source = .file p) :
    ((new sites settings).run moves).Gets move p c.result ∨
      ∃ task, move = .answer task ∧
        Sometime (fun before m => ((new sites settings).run before).Concludes m task p c.result)
          moves := by
  obtain ⟨hallows, hcompletion⟩ := completed?_eq_some_iff.1 hm
  rcases (completion?_eq_some hcompletion).2 with
    ⟨n, path, r, rfl, hr, hs', hc⟩ | ⟨task, l, rfl, hl, hp, hs', -⟩
  · cases hs.symm.trans hs'
    exact .inl (.inr ⟨n, c.request, r, rfl, hallows, hr, hc⟩)
  · exact .inr ⟨task, rfl, sometime_concludes sites settings hl (hs'.symm.trans hs) hp⟩

end

/-- **Each file is read until that has succeeded, and not again.** Once a load of a path has got a
record, or has completed with one, the index has the record for good under every equal path, no load
of such a path is at work any more, and each one that gets its result then gets that record; so does
each one that completes, unless it has let the lock go without a record before. A load completes
with the result that it has got. The entries of the index are the records that loads have had, so
one that fails leaves none; a load of a path without an entry reads it. -/
theorem read_once (sites : SiteTable) (settings : Settings) {before : List FeedMove}
    (hb : .cleanup ∉ before) :
    let f := (new sites settings).run before
    (∀ move p r, f.Succeeds move p r → ∀ after, .cleanup ∉ after → ∀ q, p.same q = true →
      let g := (f.move move).run after
      g.files.get? q = some r ∧
      (∀ task l, g.load? task = some l → l.source = .file q →
        l.phase = .waiting ∨ ∃ result, l.phase = .answering result) ∧
      (∀ move' result, g.Gets move' q result → result = some r) ∧
      ∀ move' c, g.completed? move' = some c → c.source = .file q →
        c.result = some r ∨
          c.result = none ∧ ∃ task, move' = .answer task ∧ f.Answering task none) ∧
    (∀ move c p, f.completed? move = some c → c.source = .file p →
      f.Gets move p c.result ∨ ∃ task, move = .answer task ∧
        Sometime (fun front m => ((new sites settings).run front).Concludes m task p c.result)
          before) ∧
    ∀ p, (∀ r, f.files.get? p = some r ↔ (new sites settings).Got before p r) ∧
      (f.files.get? p = none →
        (∀ n request, f.allows (.load n (.file p) request) = true →
          (f.move (.load n (.file p) request)).load? f.nextTask =
            some ⟨n, .file p, request, .waiting⟩) ∧
        ∀ task l found, f.load? task = some l → l.source = .file p → f.Ready l →
          (f.move (.beginLoad task found)).load? task = some { l with phase := .reading }) := by
  intro f
  have hf : f.Indexed := (indexed_new sites settings).run hb
  refine ⟨?_, fun move c p hm hs => gets_of_completed sites settings hm hs, ?_⟩
  · intro move p r hr after ha q hq g
    obtain ⟨hg, hentry, hfailed⟩ := hf.after_success hr hq ha
    refine ⟨hentry, fun task l => hg.idle hentry, fun move' result => hg.of_gets hentry,
      fun move' c hm hs => ?_⟩
    rcases hg.completes hentry hm hs with hc | ⟨hn, task, l, rfl, hl, hls, hp⟩
    · exact .inl hc
    · exact .inr ⟨hn, task, rfl, l, hfailed task l hl hls hp, hp⟩
  · intro p
    refine ⟨fun r => get?_files_run_iff sites settings hb, fun hn => ⟨?_, ?_⟩⟩
    · exact fun n request ha => hf.starts hn ha
    · exact fun task l found hl hs hready => hready.reads hn hl hs found

def fileOfVolume : Path := ⟨"/data/KLSX_1"⟩

/-- The same file, spelt in another way. -/
def fileSpeltOut : Path := ⟨"/data//./KLSX_1"⟩

/-- Moves by which a file is loaded thrice, through two sites: one load has failed and is yet to
answer, one has decoded it, and one waits. -/
def loadingThrice : List FeedMove :=
  [.hold "KTLX", .hold "KLSX", .load 0 (.file fileOfVolume) none, .load 1 (.file fileSpeltOut) none,
    .load 0 (.file fileOfVolume) none, .beginLoad 0 ⟨none, none⟩, .contents 0 (.error .notFound),
    .beginLoad 1 ⟨none, none⟩, .contents 1 (.ok []), .decoded 1 (.file (volumeOf "klsx")) []]

/-- The load that fails leaves no entry, and the one that waits gets the record of the other, even
if the one that has failed completes in between. -/
theorem read_once_after_failure :
    let f := (new .empty .default).run loadingThrice
    let g := (f.move (.gridsReady 1)).run [.answer 1, .answer 0]
    let r := Record.ofFile 0 (volumeOf "klsx")
    f.Concludes (.gridsReady 1) 1 fileSpeltOut (some r) ∧
      (f.move (.gridsReady 1)).completed? (.answer 0) =
        some ⟨.file fileOfVolume, none, [], none⟩ ∧
      g.files.get? fileOfVolume = some r ∧
      g.Gets (.beginLoad 2 ⟨none, none⟩) fileOfVolume (some r) ∧
      (∀ move result, g.Gets move fileOfVolume result → result = some r) ∧
      (((new .empty .default).run (loadingThrice.take 7)).move (.beginLoad 2 ⟨none, none⟩)).load? 2 =
        some ⟨0, .file fileOfVolume, none, .reading⟩ := by
  have hsame : fileSpeltOut.same fileOfVolume = true := by decide +kernel
  have hstores : ((new .empty .default).run loadingThrice).Concludes (.gridsReady 1) 1 fileSpeltOut
      (some (.ofFile 0 (volumeOf "klsx"))) :=
    ⟨⟨_, rfl, rfl⟩, _, rfl, rfl, fun _ h => by cases h⟩
  have hfailed : (((new .empty .default).run loadingThrice).move (.gridsReady 1)).completed?
      (.answer 0) = some ⟨.file fileOfVolume, none, [], none⟩ := rfl
  have hlast : ((((new .empty .default).run loadingThrice).move (.gridsReady 1)).run
      [.answer 1, .answer 0]).Concludes (.beginLoad 2 ⟨none, none⟩) 2 fileOfVolume
      (some (.ofFile 0 (volumeOf "klsx"))) :=
    ⟨⟨_, rfl, rfl⟩, _, rfl, rfl, fun _ h => by cases h⟩
  have hwaiting : ((new .empty .default).run (loadingThrice.take 7)).load? 2 =
      some ⟨0, .file fileOfVolume, none, .waiting⟩ := rfl
  have hready : ((new .empty .default).run (loadingThrice.take 7)).Ready
      ⟨0, .file fileOfVolume, none, .waiting⟩ := ⟨rfl, rfl⟩
  have hempty : ((new .empty .default).run (loadingThrice.take 7)).files.get? fileOfVolume = none :=
    rfl
  have hc : .cleanup ∉ loadingThrice := by simp [loadingThrice]
  obtain ⟨hstays, -, hresult, -⟩ := (read_once .empty .default hc).1 _ _ _ (.inl (.inl ⟨1, hstores⟩))
    [.answer 1, .answer 0] (by simp) _ hsame
  have hc' : .cleanup ∉ loadingThrice.take 7 := fun h => hc (List.mem_of_mem_take h)
  have hagain := ((read_once .empty .default hc').2.2 fileOfVolume).2 hempty
  intro f g r
  exact ⟨hstores, hfailed, hstays, .inl ⟨2, hlast⟩, hresult, hagain.2 2 _ _ hwaiting rfl hready⟩

end Feed

end RadarFeed
