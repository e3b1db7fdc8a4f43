import RadarFeed.Proofs.Feed.Operations

/-!
What a move does.

`Step` lists the cases: to each move, when it has an effect and which feed it leads to, whatever it
writes to the log. `step` says that every move is one of them; what is true of all moves is proved
by cases on it. The steps of a load are listed apart, by `Enters`: the move, the load before it, and
the phase after it.
-/

namespace RadarFeed

namespace Feed

/-- The cache that a load of an object asks first. -/
def cacheFor (f : Feed) (l : Load) (product : Option String) : Cache :=
  ((f.manager? l.manager).map fun m => m.cacheOf product).getD .empty

/-- The step that enables or disables a machine. -/
def switch (on : Bool) : RefreshMove :=
  if on then .enable else .disable

/-- The managers when a load has been started: that of a product has a cache for it. -/
def managersFor (f : Feed) (n : Nat) : LoadSource → List Manager
  | .object (some product) _ => f.managers.modify n (Manager.ensureCache · product)
  | _ => f.managers

/-- A load waits, and nobody holds its lock. -/
structure Ready (f : Feed) (l : Load) : Prop where
  waiting : l.phase = .waiting
  unlocked : f.isLocked l.lock = false

/-- The steps of the load of a task. -/
inductive Enters (f : Feed) : FeedMove → Nat → Load → LoadPhase → Prop where
  | atTime {id found l product time r} : f.Ready l → l.source = .object product time →
      time.bind (f.cacheFor l product).get? = some r →
      Enters f (.beginLoad id found) id l (.answering (some r))
  | unknown {id found l product time} : f.Ready l → l.source = .object product time →
      time.bind (f.cacheFor l product).get? = none → found.key = none →
      Enters f (.beginLoad id found) id l (.answering none)
  | atKey {id found l product time key r} : f.Ready l → l.source = .object product time →
      time.bind (f.cacheFor l product).get? = none → found.key = some key →
      found.time.bind (f.cacheFor l product).get? = some r →
      Enters f (.beginLoad id found) id l (.answering (some r))
  | fetches {id found l product time key} : f.Ready l → l.source = .object product time →
      time.bind (f.cacheFor l product).get? = none → found.key = some key →
      found.time.bind (f.cacheFor l product).get? = none →
      Enters f (.beginLoad id found) id l (.fetching key)
  | indexed {id found l path r} : f.Ready l → l.source = .file path → f.files.get? path = some r →
      Enters f (.beginLoad id found) id l (.answering (some r))
  | reads {id found l path} : f.Ready l → l.source = .file path → f.files.get? path = none →
      Enters f (.beginLoad id found) id l .reading
  | streamed {id found l bytes} : f.Ready l → l.source = .stream (.ok bytes) →
      Enters f (.beginLoad id found) id l (.decoding bytes)
  | broken {id found l cause} : f.Ready l → l.source = .stream (.error cause) →
      Enters f (.beginLoad id found) id l (.answering none)
  | fetched {id l key product time bytes} : l.phase = .fetching key →
      l.source = .object product time → Enters f (.object id (.ok bytes)) id l (.decoding bytes)
  | missing {id l key product time e} : l.phase = .fetching key →
      l.source = .object product time → Enters f (.object id (.error e)) id l (.answering none)
  | read {id l path bytes} : l.phase = .reading → l.source = .file path →
      Enters f (.contents id (.ok bytes)) id l (.decoding bytes)
  | unreadable {id l path e} : l.phase = .reading → l.source = .file path →
      Enters f (.contents id (.error e)) id l (.answering none)
  | undecoded {id l bytes outcome remarks} : l.phase = .decoding bytes →
      (∀ file, outcome ≠ .file file) →
      Enters f (.decoded id outcome remarks) id l (.answering none)

theorem Enters.unanswered {f : Feed} {move : FeedMove} {id : Nat} {l : Load} {phase : LoadPhase}
    (h : f.Enters move id l phase) (result : Option Record) : l.phase ≠ .answering result := by
  intro hp
  cases h with
  | atTime h | unknown h | atKey h | fetches h | indexed h | reads h | streamed h | broken h =>
    have := h.waiting
    rw [hp] at this
    cases this
  | fetched h | missing h | read h | unreadable h | undecoded h => rw [hp] at h; cases h

/-- A load that enters with a record has found it in the index of files or in a cache. -/
theorem Enters.found {f : Feed} {move : FeedMove} {id : Nat} {l : Load} {r : Record}
    (h : f.Enters move id l (.answering (some r))) :
    l.phase = .waiting ∧ (∃ answer, move = .beginLoad id answer) ∧
      ((∃ path, l.source = .file path) ∨
        ∃ product t, (f.cacheFor l product).get? t = some r) := by
  cases h with
  | atTime h hs hr =>
    obtain ⟨t, -, hr⟩ := Option.bind_eq_some_iff.1 hr
    exact ⟨h.waiting, ⟨_, rfl⟩, .inr ⟨_, t, hr⟩⟩
  | atKey h hs hn hk hr =>
    obtain ⟨t, -, hr⟩ := Option.bind_eq_some_iff.1 hr
    exact ⟨h.waiting, ⟨_, rfl⟩, .inr ⟨_, t, hr⟩⟩
  | indexed h hs hr => exact ⟨h.waiting, ⟨_, rfl⟩, .inl ⟨_, hs⟩⟩

/-- Moves that are not possible, or not wanted any more. -/
inductive Idles (f : Feed) : FeedMove → Prop where
  | product {n product on offered} :
      (∀ s, offered = .ok s → (s.any fun p => Ascii.sameLetters p product) = false) →
      Idles f (.toggleProduct n product on offered)
  | updated {n} : (∀ m, f.manager? n = some m → m.productsRequested = true) →
      Idles f (.updateProducts n)
  | waiting {id found} : (∀ l, f.load? id = some l → ¬ f.Ready l) → Idles f (.beginLoad id found)
  | object {id answer} :
      (∀ l, f.load? id = some l → ∀ key product time, l.phase = .fetching key →
        l.source ≠ .object product time) → Idles f (.object id answer)
  | contents {id answer} :
      (∀ l, f.load? id = some l → l.phase = .reading → ∀ path, l.source ≠ .file path) →
      Idles f (.contents id answer)
  | decoded {id outcome remarks} :
      (∀ l, f.load? id = some l → ∀ bytes, l.phase ≠ .decoding bytes) →
      Idles f (.decoded id outcome remarks)
  | gridsReady {id} : (∀ l, f.load? id = some l → ∀ r owner, l.phase ≠ .initializing r owner) →
      Idles f (.gridsReady id)
  | answer {id} : (∀ l, f.load? id = some l → ∀ result, l.phase ≠ .answering result) →
      Idles f (.answer id)
  /-- Another cycle has its turn. -/
  | cycleBegins {id} : (∀ machine, f.work? id = some (.cycle machine false) →
      ∃ r, f.machine? machine = some r ∧ r.inFlight = true) → Idles f (.cycleBegins id)
  | cycleEnds {id answer} : (∀ machine, f.work? id ≠ some (.cycle machine true)) →
      Idles f (.cycleEnds id answer)
  | timerEnds {id how} : (∀ machine token, f.work? id ≠ some (.timer machine token)) →
      Idles f (.timerEnds id how)
  | productsAsked {id} : (∀ n, f.work? id ≠ some (.products n false)) → Idles f (.productsAsked id)
  | productsListed {id answer available} : (∀ n, f.work? id ≠ some (.products n true)) →
      Idles f (.productsListed id answer available)

/-- The effects of moves. -/
inductive Step (f : Feed) : FeedMove → Feed → Prop where
  /-- The move shows in the log at most. -/
  | idle {move} (log : List LogLine) : f.Idles move → Step f move { f with log := log }
  | held {radarId} :
      Step f (.hold radarId)
        { (f.manager radarId).1 with holders := (f.manager radarId).2 :: f.holders }
  | released {n} : Step f (.release n) (f.releaseHolder n)
  | cleared : Step f .cleanup { f with registry := .empty, files := .empty }
  | requested {callbacks} :
      Step f (.request callbacks)
        { f with requests := f.requests ++ [callbacks.foldl Request.onComplete .new] }
  | started {n source request} (log : List LogLine) :
      Step f (.load n source request)
        (({ f with managers := f.managersFor n source, log := log } : Feed).start
          (.load ⟨n, source, request, .waiting⟩))
  /-- The file has been loaded before. -/
  | found {n path request r} (log : List LogLine) : f.files.get? path = some r →
      Step f (.load n (.file path) request)
        (({ f with log := log } : Feed).complete request (some r))
  /-- There is no machine for the product. -/
  | dropped {n product time request} (log : List LogLine) :
      f.machine? ⟨n, some product⟩ = none →
      Step f (.load n (.object (some product) time) request)
        (({ f with log := log } : Feed).dropRequest request)
  | grids {n} : Step f (.grids n) (f.computeGrids n)
  | volumes {n on} : Step f (.toggleVolumes n on) (f.stepMachine ⟨n, none⟩ (switch on))
  | machine {n product} : Step f (.machine n product) (f.ensureMachine n product)
  | product {n product on offered} :
      offered.any (fun p => Ascii.sameLetters p product) = true →
      Step f (.toggleProduct n product on (.ok offered))
        (f.stepMachine ⟨n, some (Ascii.upper product)⟩ (switch on))
  | updated {n m} (log : List LogLine) : f.manager? n = some m → m.productsRequested = false →
      Step f (.updateProducts n)
        (({ f with
            managers := f.managers.modify n fun m => { m with productsRequested := true }
            log := log } : Feed).start (.products n false))
  | entered {move id l phase} (log : List LogLine) : f.load? id = some l →
      f.Enters move id l phase → Step f move (({ f with log := log } : Feed).enter id l phase)
  /-- The record of a decoded file waits for the grids of the manager of its own site. -/
  | routed {id l bytes file remarks} (log : List LogLine) : f.load? id = some l →
      l.phase = .decoding bytes →
      Step f (.decoded id (.file file) remarks)
        (({ (f.manager (Ascii.upper file.radarId)).1 with
            nextSerial := f.nextSerial + 1, log := log } : Feed).enter id l
          (.initializing (.ofFile f.nextSerial file) (f.manager (Ascii.upper file.radarId)).2))
  /-- The record is stored, and if it comes from a file, the file has it. -/
  | stored {id l r owner} (log : List LogLine) : f.load? id = some l →
      l.phase = .initializing r owner →
      Step f (.gridsReady id)
        (({ f with
            managers := (f.computeGrids owner).managers.modify owner (Manager.store · r)
            files := f.indexAfter l.source (f.stored owner r)
            log := log } : Feed).enter id l (.answering (some (f.stored owner r))))
  | answered {id l result} : f.load? id = some l → l.phase = .answering result →
      Step f (.answer id) ((f.complete l.request result).finish id)
  | gone {id machine} : f.work? id = some (.cycle machine false) → f.machine? machine = none →
      Step f (.cycleBegins id) (f.finish id)
  | begun {id machine r} : f.work? id = some (.cycle machine false) →
      f.machine? machine = some r → r.inFlight = false → r.enabled = true →
      Step f (.cycleBegins id)
        ((f.stepMachine machine .cycleBegins).setWork id (.cycle machine true))
  | refused {id machine r} : f.work? id = some (.cycle machine false) →
      f.machine? machine = some r → r.inFlight = false → r.enabled = false →
      Step f (.cycleBegins id) ((f.stepMachine machine .cycleBegins).finish id)
  | ended {id machine answer} : f.work? id = some (.cycle machine true) →
      Step f (.cycleEnds id answer) ((f.finish id).stepMachine machine (.cycleEnds answer))
  | timed {id machine token how} : f.work? id = some (.timer machine token) →
      Step f (.timerEnds id how) ((f.finish id).stepMachine machine (.timerEnds token how))
  | asked {id n} : f.work? id = some (.products n false) →
      Step f (.productsAsked id)
        ((f.ensureMachine n f.settings.defaultLevel3Product).setWork id (.products n true))
  | listed {id n answer available} (log : List LogLine) : f.work? id = some (.products n true) →
      Step f (.productsListed id answer available)
        ((({ f with log := log } : Feed).takeProducts n available).finish id)

theorem step_startLoad (f : Feed) (n : Nat) (source : LoadSource) (request : Option Nat) :
    Step f (.load n source request) (f.startLoad n source request) := by
  unfold startLoad
  dsimp only
  split
  · exact .started _
  · split
    · exact .started _
    · exact .dropped _ ‹_›
  · split
    · exact .found _ ‹_›
    · exact .started _
  · exact .started _

theorem step_beginLoad (f : Feed) (id : Nat) (found : KeyAnswer) :
    Step f (.beginLoad id found) (f.beginLoad id found) := by
  cases hl : f.load? id with
  | none =>
    simp only [beginLoad, hl]
    exact .idle f.log (.waiting (by simp [hl]))
  | some l =>
    by_cases hr : f.Ready l
    · simp only [beginLoad, hl, hr.waiting, hr.unlocked, Bool.false_eq_true, if_false]
      split
      · rename_i product time hs
        unfold beginObject
        dsimp only
        split
        · exact .entered _ hl (.atTime hr hs ‹_›)
        · split
          · exact .entered _ hl (.unknown hr hs ‹_› ‹_›)
          · split
            · exact .entered _ hl (.atKey hr hs ‹_› ‹_› ‹_›)
            · exact .entered f.log hl (.fetches hr hs ‹_› ‹_› ‹_›)
      · rename_i path hs
        unfold beginFile
        split
        · exact .entered f.log hl (.indexed hr hs ‹_›)
        · exact .entered f.log hl (.reads hr hs ‹_›)
      · rename_i contents hs
        cases contents with
        | ok bytes => exact .entered f.log hl (.streamed hr hs)
        | error cause => exact .entered _ hl (.broken hr hs)
    · have h : f.beginLoad id found = f := by
        simp only [beginLoad, hl]
        split
        · rename_i hw
          cases hf : f.isLocked l.lock with
          | true => rfl
          | false => exact absurd ⟨hw, hf⟩ hr
        · rfl
      rw [h]
      refine .idle f.log (.waiting fun k hk => ?_)
      rw [hl] at hk
      exact Option.some.inj hk ▸ hr

theorem step_takeObject (f : Feed) (id : Nat) (answer : Except SourceError (List UInt8)) :
    Step f (.object id answer) (f.takeObject id answer) := by
  unfold takeObject
  split
  · rename_i l hl
    split
    · rename_i hp hs
      cases answer with
      | ok bytes => exact .entered f.log hl (.fetched hp hs)
      | error e => exact .entered _ hl (.missing hp hs)
    · rename_i hn
      refine .idle f.log (.object fun k hk key product time hp hs => ?_)
      rw [hl] at hk
      cases hk
      exact hn key product time hp hs
  · rename_i hl
    exact .idle f.log (.object (by simp [hl]))

theorem step_takeContents (f : Feed) (id : Nat) (answer : Except FileError (List UInt8)) :
    Step f (.contents id answer) (f.takeContents id answer) := by
  unfold takeContents
  split
  · rename_i l hl
    split
    · rename_i hp hs
      cases answer with
      | ok bytes => exact .entered f.log hl (.read hp hs)
      | error e => exact .entered _ hl (.unreadable hp hs)
    · rename_i hn
      refine .idle f.log (.contents fun k hk hp path hs => ?_)
      rw [hl] at hk
      cases hk
      exact hn path hp hs
  · rename_i hl
    exact .idle f.log (.contents (by simp [hl]))

theorem step_takeDecoded (f : Feed) (id : Nat) (outcome : DecodeOutcome) (remarks : List LogLine) :
    Step f (.decoded id outcome remarks) (f.takeDecoded id outcome remarks) := by
  cases hl : f.load? id with
  | none => simp only [takeDecoded, hl]; exact .idle f.log (.decoded (by simp [hl]))
  | some l =>
    cases hp : l.phase with
    | decoding bytes =>
      cases outcome with
      | file file =>
        obtain ⟨log, h⟩ := takeDecoded_eq hl hp file remarks
        rw [h]
        exact .routed log hl hp
      | error e =>
        have hn : ∀ file, DecodeOutcome.error e ≠ .file file := by intro file h; cases h
        simp only [takeDecoded, hl, hp]
        exact .entered _ hl (.undecoded hp hn)
      | broken =>
        have hn : ∀ file, DecodeOutcome.broken ≠ .file file := by intro file h; cases h
        simp only [takeDecoded, hl, hp]
        exact .entered _ hl (.undecoded hp hn)
    | _ => simp only [takeDecoded, hl, hp]; exact .idle f.log (.decoded (by simp [hl, hp]))

theorem step_takeGrids (f : Feed) (id : Nat) : Step f (.gridsReady id) (f.takeGrids id) := by
  cases hl : f.load? id with
  | none => simp only [takeGrids, hl]; exact .idle f.log (.gridsReady (by simp [hl]))
  | some l =>
    cases hp : l.phase with
    | initializing r owner =>
      obtain ⟨log, h⟩ := takeGrids_eq hl hp
      rw [h]
      exact .stored log hl hp
    | _ => simp only [takeGrids, hl, hp]; exact .idle f.log (.gridsReady (by simp [hl, hp]))

theorem step_answer (f : Feed) (id : Nat) : Step f (.answer id) (f.answer id) := by
  cases hl : f.load? id with
  | none => simp only [answer, hl]; exact .idle f.log (.answer (by simp [hl]))
  | some l =>
    cases hp : l.phase with
    | answering result => simp only [answer, hl, hp]; exact .answered hl hp
    | _ => simp only [answer, hl, hp]; exact .idle f.log (.answer (by simp [hl, hp]))

theorem step_toggleProduct (f : Feed) (n : Nat) (product : String) (on : Bool)
    (offered : Except SourceError (List String)) :
    Step f (.toggleProduct n product on offered) (f.toggleProduct n product on offered) := by
  cases offered with
  | error e =>
    obtain ⟨log, h⟩ := f.sayOf_eq ⟨n, some product⟩ .warn ("Cannot list products: " ++ e.message)
    simp only [toggleProduct, h]
    exact .idle log (.product nofun)
  | ok offered =>
    simp only [toggleProduct]
    split
    · exact .product ‹_›
    · rename_i ho
      obtain ⟨log, h⟩ := f.sayOf_eq ⟨n, some product⟩ .debug "Product not offered"
      rw [h]
      refine .idle log (.product fun s hs => ?_)
      cases hs
      simpa using ho

theorem step_updateProducts (f : Feed) (n : Nat) :
    Step f (.updateProducts n) (f.updateProducts n) := by
  unfold updateProducts
  split
  · rename_i hn
    exact .idle f.log (.updated (by simp [hn]))
  · rename_i m hm
    split
    · rename_i hr
      refine .idle f.log (.updated fun m' hm' => ?_)
      rw [hm] at hm'
      exact Option.some.inj hm' ▸ hr
    · exact .updated _ hm (by simpa using ‹¬ m.productsRequested = true›)

theorem step_cycleBegins (f : Feed) (id : Nat) : Step f (.cycleBegins id) (f.cycleBegins id) := by
  unfold cycleBegins
  split
  · rename_i machine hw
    split
    · exact .gone hw ‹_›
    · rename_i r hr
      split
      · rename_i hf
        refine .idle f.log (.cycleBegins fun machine' hw' => ?_)
        rw [hw] at hw'
        cases hw'
        exact ⟨r, hr, hf⟩
      · rename_i hf
        have hf : r.inFlight = false := by simpa using hf
        rcases he : r.enabled with _ | _
        · exact .refused hw hr hf he
        · exact .begun hw hr hf he
  · rename_i hn
    exact .idle f.log (.cycleBegins fun machine hw => absurd hw (hn machine))

theorem step_productsListed (f : Feed) (id : Nat) (answer : Except SourceError Unit)
    (available : List String) :
    Step f (.productsListed id answer available) (f.productsListed id answer available) := by
  unfold productsListed
  split
  · rename_i n hw
    cases answer with
    | ok => exact .listed f.log hw
    | error e =>
      obtain ⟨log, hlog⟩ := f.sayOf_eq ⟨n, some f.settings.defaultLevel3Product⟩ .warn
        ("Cannot list products: " ++ e.message)
      simp only [hlog]
      exact .listed log hw
  · rename_i hn
    exact .idle f.log (.productsListed fun n hw => hn n hw)

/-- **Every move is one of the cases of `Step`.** -/
theorem step (f : Feed) (move : FeedMove) : Step f move (f.apply move) := by
  cases move with
  | hold radarId =>
    obtain ⟨_, _, _, _, h⟩ := f.manager_eq radarId
    have hh : (f.manager radarId).1.holders = f.holders := by rw [h]
    simp only [apply, hh]
    exact .held
  | release n => exact .released
  | cleanup => exact .cleared
  | request callbacks => exact .requested
  | load n source request => exact step_startLoad f n source request
  | grids n => exact .grids
  | toggleVolumes n on => exact .volumes
  | machine n product => exact .machine
  | toggleProduct n product on offered => exact step_toggleProduct f n product on offered
  | updateProducts n => exact step_updateProducts f n
  | beginLoad id found => exact step_beginLoad f id found
  | object id answer => exact step_takeObject f id answer
  | contents id answer => exact step_takeContents f id answer
  | decoded id outcome remarks => exact step_takeDecoded f id outcome remarks
  | gridsReady id => exact step_takeGrids f id
  | answer id => exact step_answer f id
  | cycleBegins id => exact step_cycleBegins f id
  | cycleEnds id answer =>
    simp only [apply, cycleEnds]
    split
    · exact .ended ‹_›
    · exact .idle f.log (.cycleEnds ‹_›)
  | timerEnds id how =>
    simp only [apply, timerEnds]
    split
    · exact .timed ‹_›
    · exact .idle f.log (.timerEnds ‹_›)
  | productsAsked id =>
    simp only [apply, productsAsked]
    split
    · exact .asked ‹_›
    · exact .idle f.log (.productsAsked ‹_›)
  | productsListed id answer available => exact step_productsListed f id answer available

end Feed

end RadarFeed
