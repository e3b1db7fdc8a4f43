import RadarFeed.Proofs.Feed.Answers
import RadarFeed.Proofs.Feed.Quiet

/-!
Loads that fail.

A load that is alone goes from step to step with what it is told of the outside world (`Answers`):
it finds a record, gives one to be stored, waits for a lock, or fails. `Fails` lists the ways to
fail: there is no machine, no key or no object, the file or the stream cannot be read, the decoder
gives an error or breaks. A load that fails never comes to store a record, and all that it has left
is an empty cache for its product, which nobody can tell from none (`failure_unseen`).
-/

namespace RadarFeed

namespace Feed

variable {f g : Feed} {l : Load} {id : Nat}

/-- What the outside world tells a load: the key and its time, the object, the bytes of the file,
the outcome of the decoder and what it writes to the log. -/
structure Answers where
  found : KeyAnswer
  object : Except SourceError (List UInt8)
  contents : Except FileError (List UInt8)
  outcome : DecodeOutcome
  remarks : List LogLine

/-- The steps of a load that has begun, up to its answer, those that it does not take among them. -/
def Answers.steps (a : Answers) (id : Nat) : List FeedMove :=
  [.object id a.object, .contents id a.contents, .decoded id a.outcome a.remarks, .gridsReady id]

theorem run_steps (g : Feed) (a : Answers) (id : Nat) :
    g.run (a.steps id) = (((g.move (.object id a.object)).move (.contents id a.contents)).move
      (.decoded id a.outcome a.remarks)).move (.gridsReady id) := by
  simp only [Answers.steps, run, List.foldl_cons, List.foldl_nil]

/-- The moves of a load that is alone. -/
def alone (f : Feed) (n : Nat) (source : LoadSource) (request : Option Nat) (a : Answers) :
    List FeedMove :=
  .load n source request :: .beginLoad f.nextTask a.found :: a.steps f.nextTask ++
    [.answer f.nextTask]

theorem run_alone (f : Feed) (n : Nat) (source : LoadSource) (request : Option Nat) (a : Answers) :
    f.run (f.alone n source request a) =
      ((f.move (.load n source request)).run
        (.beginLoad f.nextTask a.found :: a.steps f.nextTask)).move (.answer f.nextTask) := by
  rw [alone, run_concat, run_cons]

/-- A load can have its lock, and the object that it wants is not in the cache at the time asked
for. -/
structure Seeks (f : Feed) (l : Load) (product : Option String) (time : Option Instant) : Prop where
  source : l.source = .object product time
  unlocked : f.isLocked l.lock = false
  absent : time.bind (f.cached l.manager product) = none

/-- It has to be fetched. -/
structure Fetches (f : Feed) (a : Answers) (l : Load) (product : Option String)
    (time : Option Instant) : Prop extends f.Seeks l product time where
  key : a.found.key ≠ none
  unknown : a.found.time.bind (f.cached l.manager product) = none

/-- A load reads its file. -/
structure ReadsFile (f : Feed) (l : Load) (path : Path) : Prop where
  source : l.source = .file path
  unlocked : f.isLocked l.lock = false
  absent : f.files.get? path = none

/-- A load has bytes for the decoder. -/
inductive Decoding (f : Feed) (a : Answers) (l : Load) (bytes : List UInt8) : Prop where
  | object {product time} : f.Fetches a l product time → a.object = .ok bytes → Decoding f a l bytes
  | file {path} : f.ReadsFile l path → a.contents = .ok bytes → Decoding f a l bytes
  | stream : l.source = .stream (.ok bytes) → f.isLocked l.lock = false → Decoding f a l bytes

/-- The ways in which a load fails. -/
inductive Fails (f : Feed) (a : Answers) (l : Load) : Prop where
  | noMachine {product time} : l.source = .object (some product) time →
      f.machine? ⟨l.manager, some product⟩ = none → Fails f a l
  | noKey {product time} : f.Seeks l product time → a.found.key = none → Fails f a l
  | noObject {product time e} : f.Fetches a l product time → a.object = .error e → Fails f a l
  | unreadable {path e} : f.ReadsFile l path → a.contents = .error e → Fails f a l
  | broken {cause} : l.source = .stream (.error cause) → f.isLocked l.lock = false → Fails f a l
  /-- The decoder gives an error or breaks. -/
  | undecoded {bytes} : f.Decoding a l bytes → (∀ file, a.outcome ≠ .file file) → Fails f a l

section
variable {a : Answers}

theorem Fails.of_object (h : f.Fails a l) {product : Option String} {time : Option Instant}
    (hsrc : l.source = .object product time)
    (hmach : ∀ p time, l.source = .object (some p) time → f.machine? ⟨l.manager, some p⟩ ≠ none) :
    f.Seeks l product time ∧ (a.found.key = none ∨ f.Fetches a l product time ∧
      ((∃ e, a.object = .error e) ∨ ∀ file, a.outcome ≠ .file file)) := by
  cases h with
  | noMachine hs hm =>
    exact absurd hm (hmach _ _ hs)
  | noKey hs hk =>
    cases hsrc.symm.trans hs.source
    exact ⟨hs, .inl hk⟩
  | noObject hs ho =>
    cases hsrc.symm.trans hs.source
    exact ⟨hs.toSeeks, .inr ⟨hs, .inl ⟨_, ho⟩⟩⟩
  | unreadable hs => cases hsrc.symm.trans hs.source
  | broken hs => cases hsrc.symm.trans hs
  | undecoded hd hn =>
    cases hd with
    | object hs =>
      cases hsrc.symm.trans hs.source
      exact ⟨hs.toSeeks, .inr ⟨hs, .inr hn⟩⟩
    | file hs => cases hsrc.symm.trans hs.source
    | stream hs => cases hsrc.symm.trans hs

theorem Fails.of_file (h : f.Fails a l) {path : Path} (hsrc : l.source = .file path) :
    f.ReadsFile l path ∧ ((∃ e, a.contents = .error e) ∨ ∀ file, a.outcome ≠ .file file) := by
  cases h with
  | unreadable hs he =>
    cases hsrc.symm.trans hs.source
    exact ⟨hs, .inl ⟨_, he⟩⟩
  | undecoded hd hn =>
    cases hd with
    | file hs =>
      cases hsrc.symm.trans hs.source
      exact ⟨hs, .inr hn⟩
    | object hs => cases hsrc.symm.trans hs.source
    | stream hs => cases hsrc.symm.trans hs
  | noMachine hs => cases hsrc.symm.trans hs
  | noKey hs => cases hsrc.symm.trans hs.source
  | noObject hs => cases hsrc.symm.trans hs.source
  | broken hs => cases hsrc.symm.trans hs

theorem Fails.of_stream (h : f.Fails a l) {contents : Except String (List UInt8)}
    (hsrc : l.source = .stream contents) :
    f.isLocked l.lock = false ∧
      ((∃ cause, contents = .error cause) ∨ ∀ file, a.outcome ≠ .file file) := by
  cases h with
  | broken hs hfree =>
    cases hsrc.symm.trans hs
    exact ⟨hfree, .inl ⟨_, rfl⟩⟩
  | undecoded hd hn =>
    cases hd with
    | stream hs hfree => exact ⟨hfree, .inr hn⟩
    | object hs => cases hsrc.symm.trans hs.source
    | file hs => cases hsrc.symm.trans hs.source
  | noMachine hs => cases hsrc.symm.trans hs
  | noKey hs => cases hsrc.symm.trans hs.source
  | noObject hs => cases hsrc.symm.trans hs.source
  | unreadable hs => cases hsrc.symm.trans hs.source

/-- A load whose bytes the decoder takes does not fail. -/
theorem Decoding.not_fails {bytes : List UInt8} (h : f.Decoding a l bytes)
    (hmach : ∀ p time, l.source = .object (some p) time → f.machine? ⟨l.manager, some p⟩ ≠ none)
    (ho : ∃ file, a.outcome = .file file) : ¬ f.Fails a l := by
  obtain ⟨file, ho⟩ := ho
  intro hf
  cases h with
  | object hs hb =>
    rcases (hf.of_object hs.source hmach).2 with hk | ⟨-, ⟨e, he⟩ | hn⟩
    · exact hs.key hk
    · cases hb.symm.trans he
    · exact hn file ho
  | file hs hb =>
    rcases (hf.of_file hs.source).2 with ⟨e, he⟩ | hn
    · cases hb.symm.trans he
    · exact hn file ho
  | stream hs _ =>
    rcases (hf.of_stream hs).2 with ⟨cause, hc⟩ | hn
    · cases hc
    · exact hn file ho

/-- A load that cannot have its lock does not fail. -/
theorem Fails.unlocked (h : f.Fails a l)
    (hmach : ∀ p time, l.source = .object (some p) time → f.machine? ⟨l.manager, some p⟩ ≠ none) :
    f.isLocked l.lock = false := by
  cases hsrc : l.source with
  | object product time => exact (h.of_object hsrc hmach).1.unlocked
  | file path => exact (h.of_file hsrc).1.unlocked
  | stream contents => exact (h.of_stream hsrc).1

end

/-! ## What a load does not touch -/

/-- A load that waits goes on only by beginning. -/
theorem Advances.of_waiting {move : FeedMove} {phase : LoadPhase} (h : f.Advances move id l phase)
    (hw : l.phase = .waiting) : ∃ found, move = .beginLoad id found := by
  cases h with
  | enters he =>
    cases he with
    | fetched hp | missing hp | read hp | unreadable hp | undecoded hp => cases hw.symm.trans hp
    | _ => exact ⟨_, rfl⟩
  | routed hp | stored hp => cases hw.symm.trans hp

theorem Advances.of_object {answer : Except SourceError (List UInt8)} {phase : LoadPhase}
    (h : f.Advances (.object id answer) id l phase) : ∃ key, l.phase = .fetching key := by
  cases h with
  | enters he =>
    cases he with
    | fetched hp | missing hp => exact ⟨_, hp⟩

theorem Advances.of_contents {answer : Except FileError (List UInt8)} {phase : LoadPhase}
    (h : f.Advances (.contents id answer) id l phase) : l.phase = .reading := by
  cases h with
  | enters he =>
    cases he with
    | read hp | unreadable hp => exact hp

/-! ## The steps of a load -/

/-- The load of the task that `f` starts next stands so in `g`, and nothing else has been
touched. -/
structure Stands (f g : Feed) (l : Load) : Prop where
  quiet : f.Quiet g
  load : g.load? f.nextTask = some l

/-- How a load ends, and whether it fails: it has a record, or none and has touched nothing, or it
has got no further than to wait. -/
inductive Ends (f : Feed) (a : Answers) (l : Load) (g : Feed) : Prop where
  | waits : g.load? f.nextTask = some { l with phase := .waiting } → ¬ f.Fails a l → Ends f a l g
  | finds {r} : g.load? f.nextTask = some { l with phase := .answering (some r) } →
      ¬ f.Fails a l → Ends f a l g
  | fails : f.Stands g { l with phase := .answering none } → f.Fails a l → Ends f a l g

section
variable (hs : f.Sound) (ht : f.Tended)
include hs ht

/-- A step that does not fit the load changes nothing. -/
theorem Stands.idle (h : f.Stands g l) {move : FeedMove} (hm : move.loadTask? = some f.nextTask)
    (hn : ∀ phase, ¬ g.Advances move f.nextTask l phase) : f.Stands (g.move move) l := by
  refine ⟨h.quiet.step hs ht h.load hm fun phase ha => absurd ha (hn phase), ?_⟩
  rcases load?_of_loadTask? h.load move hm with ⟨-, hl⟩ | ⟨phase, ha, -⟩
  · exact hl
  · exact absurd ha (hn phase)

/-- A step that fits the load, and neither routes nor stores a record. -/
theorem Stands.enters (h : f.Stands g l) {move : FeedMove} (hm : move.loadTask? = some f.nextTask)
    (hi : ¬ g.Idles move)
    (hn : ∀ phase, g.Advances move f.nextTask l phase → g.Enters move f.nextTask l phase) :
    ∃ phase, g.Enters move f.nextTask l phase ∧
      f.Stands (g.move move) { l with phase := phase } := by
  rcases load?_of_loadTask? h.load move hm with ⟨hid, -⟩ | ⟨phase, ha, hl⟩
  · exact absurd hid hi
  · exact ⟨phase, hn phase ha, h.quiet.step hs ht h.load hm hn, hl⟩

/-- A load that nothing brings on stays as it is. -/
theorem Stands.rest (h : f.Stands g l) {moves : List FeedMove}
    (hn : ∀ move ∈ moves, move.loadTask? = some f.nextTask ∧
      ∀ (g' : Feed) phase, ¬ g'.Advances move f.nextTask l phase) : f.Stands (g.run moves) l := by
  induction moves generalizing g with
  | nil => exact h
  | cons move moves ih =>
    obtain ⟨⟨hm, hstay⟩, hn⟩ := List.forall_mem_cons.1 hn
    exact ih (h.idle hs ht hm (hstay g)) hn

theorem Stands.begins (h : f.Stands g l) (hr : g.Ready l) (found : KeyAnswer) :
    ∃ phase, g.Enters (.beginLoad f.nextTask found) f.nextTask l phase ∧
      f.Stands (g.move (.beginLoad f.nextTask found)) { l with phase := phase } := by
  refine h.enters hs ht rfl (fun hi => ?_) fun phase ha => ?_
  · cases hi with
    | waiting hn => exact hn l h.load hr
  · cases ha with
    | enters he => exact he

theorem Stands.takesObject (h : f.Stands g l) {key : String} (hp : l.phase = .fetching key)
    {product : Option String} {time : Option Instant} (hsrc : l.source = .object product time)
    (answer : Except SourceError (List UInt8)) :
    (∀ bytes, answer = .ok bytes →
      f.Stands (g.move (.object f.nextTask answer)) { l with phase := .decoding bytes }) ∧
    ∀ e, answer = .error e →
      f.Stands (g.move (.object f.nextTask answer)) { l with phase := .answering none } := by
  have hbusy : ¬ g.Idles (.object f.nextTask answer) := by
    intro hi
    cases hi with
    | object hn => exact hn l h.load key product time hp hsrc
  obtain ⟨phase, he, h'⟩ := h.enters hs ht rfl hbusy fun phase ha => by
    cases ha with
    | enters he => exact he
  cases he with
  | fetched =>
    refine ⟨fun bytes hb => ?_, fun e he => by cases he⟩
    cases hb
    exact h'
  | missing => exact ⟨fun bytes hb => (by cases hb), fun e _ => h'⟩

theorem Stands.takesContents (h : f.Stands g l) (hp : l.phase = .reading) {path : Path}
    (hsrc : l.source = .file path) (answer : Except FileError (List UInt8)) :
    (∀ bytes, answer = .ok bytes →
      f.Stands (g.move (.contents f.nextTask answer)) { l with phase := .decoding bytes }) ∧
    ∀ e, answer = .error e →
      f.Stands (g.move (.contents f.nextTask answer)) { l with phase := .answering none } := by
  have hbusy : ¬ g.Idles (.contents f.nextTask answer) := by
    intro hi
    cases hi with
    | contents hn => exact hn l h.load hp path hsrc
  obtain ⟨phase, he, h'⟩ := h.enters hs ht rfl hbusy fun phase ha => by
    cases ha with
    | enters he => exact he
  cases he with
  | read =>
    refine ⟨fun bytes hb => ?_, fun e he => by cases he⟩
    cases hb
    exact h'
  | unreadable => exact ⟨fun bytes hb => (by cases hb), fun e _ => h'⟩

/-- A load whose file has been decoded has a record in the end, and any other has touched
nothing. -/
theorem Stands.decodes (h : f.Stands g l) {bytes : List UInt8} (hp : l.phase = .decoding bytes)
    (outcome : DecodeOutcome) (remarks : List LogLine) :
    let g' := (g.move (.decoded f.nextTask outcome remarks)).move (.gridsReady f.nextTask)
    (∃ file, outcome = .file file) ∧
        (∃ r, g'.load? f.nextTask = some { l with phase := .answering (some r) }) ∨
      (∀ file, outcome ≠ .file file) ∧ f.Stands g' { l with phase := .answering none } := by
  have hbusy : ¬ g.Idles (.decoded f.nextTask outcome remarks) := by
    intro hi
    cases hi with
    | decoded hn => exact hn l h.load bytes hp
  by_cases hfile : ∃ file, outcome = .file file
  · obtain ⟨file, rfl⟩ := hfile
    refine .inl ⟨⟨file, rfl⟩, ?_⟩
    rcases load?_of_loadTask? h.load (.decoded f.nextTask (.file file) remarks) rfl with
      ⟨hi, -⟩ | ⟨phase, ha, hl⟩
    · exact absurd hi hbusy
    · cases ha with
      | enters he =>
        cases he with
        | undecoded _ hn => exact absurd rfl (hn file)
      | routed =>
        have hl' := load?_gridsReady hl rfl
        exact ⟨_, hl'⟩
  · have hn : ∀ file, outcome ≠ .file file := fun file he => hfile ⟨file, he⟩
    refine .inr ⟨hn, ?_⟩
    obtain ⟨phase, he, h'⟩ := h.enters hs ht rfl hbusy fun phase ha => by
      cases ha with
      | enters he => exact he
      | routed => exact absurd rfl (hn _)
    cases he with
    | undecoded => exact h'.idle hs ht rfl fun phase ha => ha.unanswered none rfl

/-- A load that has its result, or waits for a lock, takes none of the later steps. -/
theorem Stands.steps_idle (h : f.Stands g l) (hh : l.holdsLock = false) (a : Answers)
    {moves : List FeedMove} (hsub : ∀ move ∈ moves, move ∈ a.steps f.nextTask) :
    f.Stands (g.run moves) l := by
  refine h.rest hs ht fun move hmem => ?_
  have hm : move.loadTask? = some f.nextTask ∧ ∀ found, move ≠ .beginLoad f.nextTask found := by
    have hmem := hsub move hmem
    simp only [Answers.steps, List.mem_cons, List.not_mem_nil, or_false] at hmem
    rcases hmem with rfl | rfl | rfl | rfl <;> exact ⟨rfl, fun found he => by cases he⟩
  refine ⟨hm.1, fun g' phase ha => ?_⟩
  rcases Load.holdsLock_eq_false_iff.1 hh with hw | ⟨result, hp⟩
  · obtain ⟨found, he⟩ := ha.of_waiting hw
    exact hm.2 found he
  · exact ha.unanswered result hp

/-- A load without an object to fetch goes past that step. -/
theorem Stands.past_object (h : f.Stands g l) (hp : ∀ key, l.phase ≠ .fetching key)
    (answer : Except SourceError (List UInt8)) :
    f.Stands (g.move (.object f.nextTask answer)) l := by
  refine h.idle hs ht rfl fun phase ha => ?_
  obtain ⟨key, hk⟩ := ha.of_object
  exact hp key hk

/-- A load without a file to read goes past that step. -/
theorem Stands.past_contents (h : f.Stands g l) (hp : l.phase ≠ .reading)
    (answer : Except FileError (List UInt8)) :
    f.Stands (g.move (.contents f.nextTask answer)) l :=
  h.idle hs ht rfl fun _ ha => hp ha.of_contents

section
variable {a : Answers}
  (hmach : ∀ product time, l.source = .object (some product) time →
    f.machine? ⟨l.manager, some product⟩ ≠ none)
include hmach

theorem Stands.ends_decoding {bytes : List UInt8}
    (h : f.Stands g { l with phase := .decoding bytes }) (hd : f.Decoding a l bytes) :
    f.Ends a l
      ((g.move (.decoded f.nextTask a.outcome a.remarks)).move (.gridsReady f.nextTask)) := by
  rcases h.decodes hs ht rfl a.outcome a.remarks with ⟨hfile, r, hl⟩ | ⟨hn, h'⟩
  · exact .finds hl (hd.not_fails hmach hfile)
  · exact .fails h' (.undecoded hd hn)

theorem Stands.ends_fetching {key : String} (h : f.Stands g { l with phase := .fetching key })
    {product : Option String} {time : Option Instant} (hf : f.Fetches a l product time) :
    f.Ends a l (g.run (a.steps f.nextTask)) := by
  obtain ⟨hok, herror⟩ := h.takesObject hs ht rfl hf.source a.object
  cases ho : a.object with
  | ok bytes =>
    have h' := (hok bytes ho).past_contents hs ht (by simp) a.contents
    rw [run_steps]
    exact h'.ends_decoding hs ht hmach (.object hf ho)
  | error e =>
    have h' := herror e ho
    rw [Answers.steps, run_cons]
    refine .fails (h'.steps_idle hs ht rfl a fun move hmem => ?_) (.noObject hf ho)
    exact List.mem_cons_of_mem _ hmem

theorem Stands.ends_reading (h : f.Stands g { l with phase := .reading }) {path : Path}
    (hf : f.ReadsFile l path) : f.Ends a l (g.run (a.steps f.nextTask)) := by
  have h' := h.past_object hs ht (by simp) a.object
  obtain ⟨hok, herror⟩ := h'.takesContents hs ht rfl hf.source a.contents
  cases hc : a.contents with
  | ok bytes =>
    have h' := hok bytes hc
    rw [run_steps]
    exact h'.ends_decoding hs ht hmach (.file hf hc)
  | error e =>
    have h' := herror e hc
    rw [Answers.steps, run_cons, run_cons]
    refine .fails (h'.steps_idle hs ht rfl a fun move hmem => ?_) (.unreadable hf hc)
    exact List.mem_cons_of_mem _ (List.mem_cons_of_mem _ hmem)

theorem Stands.ends_stream {bytes : List UInt8}
    (h : f.Stands g { l with phase := .decoding bytes }) (hd : f.Decoding a l bytes) :
    f.Ends a l (g.run (a.steps f.nextTask)) := by
  have h' := (h.past_object hs ht (by simp) a.object).past_contents hs ht (by simp) a.contents
  rw [run_steps]
  exact h'.ends_decoding hs ht hmach hd

/-- The steps of a load that waits for a lock, finds a record or gives one, or fails. -/
theorem Stands.ends (h : f.Stands g l) (hw : l.phase = .waiting)
    (hlock : g.isLocked l.lock = f.isLocked l.lock) :
    f.Ends a l ((g.move (.beginLoad f.nextTask a.found)).run (a.steps f.nextTask)) := by
  have waits : { l with phase := .waiting } = l := by rw [← hw]
  have mem : ∀ move ∈ a.steps f.nextTask, move ∈ a.steps f.nextTask := fun _ hmem => hmem
  cases hfree : f.isLocked l.lock with
  | true =>
    -- another load has the lock and stays where it is: nothing brings this one on
    have h' : f.Stands (g.move (.beginLoad f.nextTask a.found)) l := by
      refine h.idle hs ht rfl fun phase ha => ?_
      rcases ha.ready_or_holds with hr | hh
      · cases (hlock.trans hfree).symm.trans hr.unlocked
      · rw [Load.holdsLock_eq_false_iff.2 (.inl hw)] at hh
        cases hh
    have hl := (h'.steps_idle hs ht (Load.holdsLock_eq_false_iff.2 (.inl hw)) a mem).load
    refine .waits (waits ▸ hl) fun hf => ?_
    cases hfree.symm.trans (hf.unlocked hmach)
  | false =>
    obtain ⟨phase, he, h'⟩ := h.begins hs ht ⟨hw, hlock.trans hfree⟩ a.found
    cases he with
    | atTime _ hsrc hr =>
      rw [h.quiet.cacheFor] at hr
      refine .finds (h'.steps_idle hs ht rfl a mem).load fun hf => ?_
      cases (hf.of_object hsrc hmach).1.absent.symm.trans hr
    | unknown _ hsrc hn hk =>
      rw [h.quiet.cacheFor] at hn
      exact .fails (h'.steps_idle hs ht rfl a mem) (.noKey ⟨hsrc, hfree, hn⟩ hk)
    | atKey _ hsrc hn hk hr =>
      rw [h.quiet.cacheFor] at hr
      refine .finds (h'.steps_idle hs ht rfl a mem).load fun hf => ?_
      rcases (hf.of_object hsrc hmach).2 with hk' | ⟨hf, -⟩
      · cases hk'.symm.trans hk
      · cases hf.unknown.symm.trans hr
    | fetches _ hsrc hn hk hu =>
      rw [h.quiet.cacheFor] at hn hu
      have hkey : a.found.key ≠ none := by simp [hk]
      exact h'.ends_fetching hs ht hmach ⟨⟨hsrc, hfree, hn⟩, hkey, hu⟩
    | indexed _ hsrc hr =>
      rw [h.quiet.files] at hr
      refine .finds (h'.steps_idle hs ht rfl a mem).load fun hf => ?_
      cases (hf.of_file hsrc).1.absent.symm.trans hr
    | reads _ hsrc hn =>
      rw [h.quiet.files] at hn
      exact h'.ends_reading hs ht hmach ⟨hsrc, hfree, hn⟩
    | streamed _ hsrc => exact h'.ends_stream hs ht hmach (.stream hsrc hfree)
    | broken _ hsrc => exact .fails (h'.steps_idle hs ht rfl a mem) (.broken hsrc hfree)

end

/-- A load that answers ends its task. -/
theorem Stands.answers (h : f.Stands g l) {result : Option Record}
    (hp : l.phase = .answering result) : f.Quiet (g.move (.answer f.nextTask)) := by
  have hanswer : g.apply (.answer f.nextTask) =
      (g.complete l.request result).finish f.nextTask := by
    show g.answer f.nextTask = _
    simp only [answer, h.load, hp]
  obtain ⟨_, _, he⟩ := g.complete_eq l.request result
  have hmove : g.move (.answer f.nextTask) = (g.apply (.answer f.nextTask)).sweep := rfl
  rw [hmove, hanswer, he]
  refine Quiet.sweep (h.quiet.congr rfl rfl fun t hmem => ?_) ht
  refine List.mem_filter.2 ⟨h.quiet.tasks t hmem, ?_⟩
  exact decide_eq_true (Nat.ne_of_lt (hs.fresh t hmem))

/-! ## The start of a load -/

variable {n : Nat} {source : LoadSource} {request : Option Nat} {log : List LogLine}

theorem stands_start
    (he : f.startLoad n source request =
      ({ f with managers := f.managersFor n source, log := log } : Feed).start
        (.load ⟨n, source, request, .waiting⟩)) :
    f.Stands (f.startLoad n source request).sweep ⟨n, source, request, .waiting⟩ := by
  rw [he]
  refine ⟨Quiet.sweep ⟨⟨n, source, rfl⟩, rfl, fun t hmem => ?_⟩ ht, ?_⟩
  · exact List.mem_append_left _ hmem
  · rw [load?_sweep]
    exact load?_start (f := { f with managers := _, log := log }) hs.fresh _

omit hs ht in
/-- A load that waits holds no lock. -/
theorem isLocked_start (lock : Lock)
    (he : f.startLoad n source request =
      ({ f with managers := f.managersFor n source, log := log } : Feed).start
        (.load ⟨n, source, request, .waiting⟩)) :
    (f.startLoad n source request).sweep.isLocked lock = f.isLocked lock := by
  unfold isLocked
  rw [tasks_sweep, he]
  show List.any (f.tasks ++ [_]) _ = _
  rw [List.any_append]
  simp [Load.holdsLock]

end

/-- A load that is given up at once leaves everything as it was. -/
theorem quiet_dropped (hs : f.Sound) (ht : f.Tended) {n : Nat} {source : LoadSource}
    {request : Option Nat} {log : List LogLine} (ha : f.allows (.load n source request) = true)
    (he : f.startLoad n source request = ({ f with log := log } : Feed).dropRequest request)
    (a : Answers) : f.Quiet (f.run (f.alone n source request a)) := by
  have hmove : f.move (.load n source request) = (f.startLoad n source request).sweep := if_pos ha
  obtain ⟨_, hdrop⟩ := dropRequest_eq { f with log := log } request
  rw [he, hdrop] at hmove
  have hq : f.Quiet (f.move (.load n source request)) := by
    rw [hmove]
    exact Quiet.sweep ((Quiet.refl f).congr rfl rfl fun _ hmem => hmem) ht
  have hnone : f.load? f.nextTask = none := by
    cases hl : f.load? f.nextTask with
    | none => rfl
    | some l => exact absurd (load?_lt hs.fresh hl) (Nat.lt_irrefl _)
  have hl : (f.move (.load n source request)).load? f.nextTask = none := by
    rw [hmove, load?_sweep]
    exact hnone
  rw [run_alone, ← run_concat]
  refine hq.absent_run ht hl fun move hmem => ?_
  simp only [Answers.steps, List.cons_append, List.nil_append, List.mem_cons, List.not_mem_nil,
    or_false] at hmem
  rcases hmem with rfl | rfl | rfl | rfl | rfl | rfl
  all_goals first | exact .inl rfl | exact .inr rfl

/-- A load that has started, and is alone, up to its answer. -/
theorem ends_alone (hs : f.Sound) (ht : f.Tended) {n : Nat} {source : LoadSource}
    {request : Option Nat} {log : List LogLine} (ha : f.allows (.load n source request) = true)
    (hmach : ∀ product time, source = .object (some product) time →
      f.machine? ⟨n, some product⟩ ≠ none)
    (he : f.startLoad n source request =
      ({ f with managers := f.managersFor n source, log := log } : Feed).start
        (.load ⟨n, source, request, .waiting⟩)) (a : Answers) :
    f.Ends a ⟨n, source, request, .waiting⟩ ((f.move (.load n source request)).run
      (.beginLoad f.nextTask a.found :: a.steps f.nextTask)) := by
  have hmove : f.move (.load n source request) = (f.startLoad n source request).sweep := if_pos ha
  rw [hmove, run_cons]
  exact (stands_start hs ht he).ends hs ht hmach rfl (isLocked_start _ he)

theorem Ends.load {a : Answers} (h : f.Ends a l g) :
    ∃ phase, g.load? f.nextTask = some { l with phase := phase } := by
  cases h with
  | waits hl | finds hl => exact ⟨_, hl⟩
  | fails h => exact ⟨_, h.load⟩

/-! ## The answer -/

section
variable {i : Nat} {n : Nat} {source : LoadSource} {tags : List String} {a : Answers}

/-- What a load that has started, and is alone, answers. -/
theorem Ends.reply (h : f.Ends a l g) (hg : g.Sound) (hc : g.Carried i source tags)
    (hr : l.request = some i) :
    (g.move (.answer f.nextTask)).reply i = some (.result none) ↔ f.Fails a l := by
  -- the completion of a load that has a result settles the request
  have told : ∀ {result}, g.load? f.nextTask = some { l with phase := .answering result } →
      (g.move (.answer f.nextTask)).reply i = some (.result result) := by
    intro result hl
    have hm := completed?_eq_some_iff.2 ⟨rfl, completion?_answer hl rfl⟩
    exact (hc.completes hg hm hr).2.1.reply
  cases h with
  | waits hl hno =>
    refine ⟨fun hreply => ?_, fun hf => absurd hf hno⟩
    have hopen : (g.move (.answer f.nextTask)).Carried i source tags := by
      refine hc.stays hg fun c hm => ?_
      obtain ⟨-, hm⟩ := completed?_eq_some_iff.1 hm
      rcases (completion?_eq_some hm).2 with ⟨_, _, _, he, -⟩ | ⟨_, k, he, hk, hp, -⟩
      · cases he
      · cases he
        cases Option.some.inj (hl.symm.trans hk)
        cases hp
    cases hopen.reply.symm.trans hreply
  | finds hl hno =>
    refine ⟨fun hreply => ?_, fun hf => absurd hf hno⟩
    cases (told hl).symm.trans hreply
  | fails h' hf => exact ⟨fun _ => hf, fun _ => told h'.load⟩

/-- A load that is given up at once answers that there is no record. -/
theorem reply_dropped (hs : f.Sound) (ha : f.allows (.load n source (some i)) = true)
    (hr : f.requests[i]? = some ⟨some tags, .waiting, true, false⟩) {product : String}
    {time : Option Instant} (hsrc : source = .object (some product) time)
    (hm : f.machine? ⟨n, some product⟩ = none) :
    (f.run (f.alone n source (some i) a)).reply i = some (.result none) := by
  rw [run_alone, ← run_concat]
  rcases request_load hs ha hr with ⟨_, _, -, -, hshut, -⟩ | ⟨hm', -⟩
  · exact (hshut.run (hs.move _) _).1.reply_closed
  · exact absurd hm (hm' _ _ hsrc)

/-- A load whose file has been loaded before answers with its record. -/
theorem reply_indexed (hs : f.Sound) {path : Path} {r : Record}
    (ha : f.allows (.load n (.file path) (some i)) = true)
    (hr : f.requests[i]? = some ⟨some tags, .waiting, true, false⟩)
    (hfile : f.files.get? path = some r) :
    ∃ r, (f.run (f.alone n (.file path) (some i) a)).reply i = some (.result (some r)) := by
  rw [run_alone, ← run_concat]
  rcases request_load hs ha hr with ⟨_, _, h, -⟩ | ⟨-, ⟨r', hshut, -⟩ | ⟨-, hc⟩⟩
  · cases h
  · exact ⟨r', (hshut.run (hs.move _) _).1.reply⟩
  · rw [completed?, if_pos ha, completion?, hfile] at hc
    cases hc

/-- The request of a load that has started is open until it answers. -/
theorem Ends.carried (hs : f.Sound) (hi : f.Unused i) {log : List LogLine}
    (ha : f.allows (.load n source (some i)) = true)
    (hr : f.requests[i]? = some ⟨some tags, .waiting, true, false⟩)
    (he : f.startLoad n source (some i) =
      ({ f with managers := f.managersFor n source, log := log } : Feed).start
        (.load ⟨n, source, some i, .waiting⟩)) {moves : List FeedMove}
    (h : f.Ends a ⟨n, source, some i, .waiting⟩
      ((f.move (.load n source (some i))).run moves)) :
    ((f.move (.load n source (some i))).run moves).Carried i source tags := by
  have hmove : f.move (.load n source (some i)) = (f.startLoad n source (some i)).sweep := if_pos ha
  have hc : (f.move (.load n source (some i))).Carried i source tags :=
    hmove ▸ carried_start hs hi hr he
  rcases hc.run (hs.move _) moves with ⟨hc, -⟩ | ⟨_, hshut, -⟩
  · exact hc
  · obtain ⟨phase, hl⟩ := h.load
    exact absurd rfl (hshut.unused _ _ hl)

end

/-- **A load that fails leaves nothing behind that can be read.** Run alone, it answers without a
record exactly if it fails; all managers then give the same answers as before, none has been
created, no event has been published, and the index of files is what it was. -/
theorem failure_unseen (sites : SiteTable) (settings : Settings) (before : List FeedMove)
    {n : Nat} {source : LoadSource} {request : Option Nat} (a : Answers)
    (ha : ((new sites settings).run before).allows (.load n source request) = true) :
    let f := (new sites settings).run before
    let g := f.run (f.alone n source request a)
    let l : Load := ⟨n, source, request, .waiting⟩
    (∀ i, request = some i → (g.reply i = some (.result none) ↔ f.Fails a l)) ∧
      (f.Fails a l → f.Unseen g) := by
  intro f g l
  have hs : f.Sound := sound_run_new sites settings before
  have ht : f.Tended := tended_run_new sites settings before
  rcases f.startLoad_cases n source request with
    ⟨product, time, log, hsrc, hm, he⟩ | ⟨path, r, log, hsrc, hfile, he⟩ | ⟨hm, -, log, he⟩
  · have hf : f.Fails a l := .noMachine hsrc hm
    refine ⟨fun i hi => ⟨fun _ => hf, fun _ => ?_⟩, fun _ => (quiet_dropped hs ht ha he a).unseen⟩
    subst hi
    obtain ⟨tags, -, hr⟩ := request_of_allows sites settings before ha
    exact reply_dropped hs ha hr hsrc hm
  · have hno : ¬ f.Fails a l := fun hf => by
      cases (hf.of_file hsrc).1.absent.symm.trans hfile
    refine ⟨fun i hi => ⟨fun hreply => ?_, fun hf => absurd hf hno⟩, fun hf => absurd hf hno⟩
    subst hi hsrc
    obtain ⟨tags, -, hr⟩ := request_of_allows sites settings before ha
    obtain ⟨r', hr'⟩ := reply_indexed (a := a) hs ha hr hfile
    cases hr'.symm.trans hreply
  · have hends := ends_alone hs ht ha hm he a
    have hg : g = _ := f.run_alone n source request a
    rw [hg]
    refine ⟨fun i hi => ?_, fun hf => ?_⟩
    · subst hi
      obtain ⟨tags, -, hr⟩ := request_of_allows sites settings before ha
      have hi : f.Unused i := (of_isFree (isFree_of_allows ha)).2
      exact hends.reply ((hs.move _).run _) (hends.carried hs hi ha hr he) rfl
    · cases hends with
      | waits _ hno | finds _ hno => exact absurd hf hno
      | fails h' => exact (h'.answers hs ht rfl).unseen

/-- A product whose machine is there. -/
def productWanted : List FeedMove :=
  [.hold "KLSX", .machine 0 "N0B", .request ["done"]]

/-- The decoder breaks for its object. -/
def decoderBreaks : Answers :=
  ⟨⟨some "LSX_N0B", none⟩, .ok [], .error .notFound, .broken, []⟩

/-- A load whose decoder breaks has made the cache of its product, which nobody can tell. -/
theorem failure_unseen_of_broken :
    let f := (new .empty .default).run productWanted
    let g := f.run (f.alone 0 (.object (some "N0B") none) (some 0) decoderBreaks)
    f.allows (.load 0 (.object (some "N0B") none) (some 0)) = true ∧
      g.reply 0 = some (.result none) ∧ f.Unseen g := by
  have ha : ((new .empty .default).run productWanted).allows
      (.load 0 (.object (some "N0B") none) (some 0)) = true := rfl
  have hfetch : ((new .empty .default).run productWanted).Fetches decoderBreaks
      ⟨0, .object (some "N0B") none, some 0, .waiting⟩ (some "N0B") none :=
    ⟨⟨rfl, rfl, rfl⟩, by simp [decoderBreaks], rfl⟩
  have hbroken : ∀ file, decoderBreaks.outcome ≠ .file file := by
    intro file h
    cases h
  intro f g
  obtain ⟨hreply, hunseen⟩ := failure_unseen .empty .default productWanted decoderBreaks ha
  have hf := Fails.undecoded (.object hfetch rfl) hbroken
  exact ⟨ha, (hreply 0 rfl).2 hf, hunseen hf⟩

end Feed

end RadarFeed
