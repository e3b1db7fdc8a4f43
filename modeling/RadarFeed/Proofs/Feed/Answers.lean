import Mathlib.Data.List.Induction
import RadarFeed.Proofs.Feed.Completions
import RadarFeed.Proofs.Feed.Routing

/-!
Answers of loads.

A request that is given to a load is carried by that load alone until it completes, which fills the
request and runs its callbacks (`Carried.run`); after that nobody touches it (`Shut`). As long as
there is a load some load can go on (`exists_move`). So when none can, each load has answered, and
has done so once: `answers_once`.
-/

namespace RadarFeed

/-- A load fetches an object, and reads a file. -/
def Load.Fits (l : Load) : Prop :=
  match l.phase with
  | .fetching _ => ∃ product time, l.source = .object product time
  | .reading => ∃ path, l.source = .file path
  | _ => True

namespace Feed

variable {f : Feed} {task i : Nat} {l : Load}

/-! ## Loads that can go on -/

/-- No load can go on. -/
def Still (f : Feed) : Prop :=
  ∀ task l move, f.load? task = some l → (f.move move).load? task = some l

theorem Advances.ne {move : FeedMove} {phase : LoadPhase} (h : f.Advances move task l phase) :
    phase ≠ l.phase := by
  intro he
  cases h with
  | enters h =>
    cases h with
    | atTime h | unknown h | atKey h | fetches h | indexed h | reads h | streamed h | broken h =>
      cases he.trans h.waiting
    | fetched h | missing h | read h | unreadable h | undecoded h => cases he.trans h
  | routed h | stored h => cases he.trans h

theorem Advances.load?_ne {move : FeedMove} {phase : LoadPhase} (h : f.Advances move task l phase)
    (hl : (f.move move).load? task = some { l with phase := phase }) :
    (f.move move).load? task ≠ some l := by
  rw [hl]
  intro he
  exact h.ne (congrArg Load.phase (Option.some.inj he))

theorem fits_move (hs : f.Sound) (h : ∀ task l, f.load? task = some l → l.Fits) (move : FeedMove)
    (hl : (f.move move).load? task = some l) : l.Fits := by
  rcases load?_of_move hs hl with hl | ⟨k, phase, hk, ha, rfl⟩ | ⟨-, _, _, _, -, rfl⟩
  · exact h task l hl
  · cases ha with
    | enters he =>
      cases he with
      | fetches _ hs => exact ⟨_, _, hs⟩
      | reads _ hs => exact ⟨_, hs⟩
      | _ => trivial
    | _ => trivial
  · trivial

theorem fits_run (sites : SiteTable) (settings : Settings) (moves : List FeedMove)
    (hl : ((new sites settings).run moves).load? task = some l) : l.Fits := by
  refine (run_of_move (I := fun g => g.Sound ∧ ∀ task l, g.load? task = some l → l.Fits)
    ⟨sound_new sites settings, fun _ _ hl => by cases hl⟩ ?_).2 task l hl
  rintro g move - ⟨hs, h⟩
  exact ⟨hs.move move, fun task l => fits_move hs h move⟩

theorem load?_ne_of_not_idles {move : FeedMove} (hl : f.load? task = some l)
    (hm : move.loadTask? = some task) (hn : ¬ f.Idles move) :
    (f.move move).load? task ≠ some l := by
  obtain ⟨phase, ha, hl'⟩ := (load?_of_loadTask? hl move hm).resolve_left fun hi => hn hi.1
  exact ha.load?_ne hl'

/-- A load that can have its lock can go on, and so can one that does not wait. -/
theorem exists_move (hf : l.Fits) (hl : f.load? task = some l)
    (h : f.Ready l ∨ l.phase ≠ .waiting) : ∃ move, (f.move move).load? task ≠ some l := by
  cases hp : l.phase with
  | waiting =>
    have hr : f.Ready l := h.resolve_right fun hn => hn hp
    obtain ⟨phase, ha, hl'⟩ := hr.begins hl ⟨none, none⟩
    exact ⟨.beginLoad task ⟨none, none⟩, ha.load?_ne hl'⟩
  | fetching key =>
    obtain ⟨product, time, hs⟩ : ∃ product time, l.source = .object product time := by
      simpa only [Load.Fits, hp] using hf
    refine ⟨.object task (.ok []), load?_ne_of_not_idles hl rfl fun hi => ?_⟩
    cases hi with
    | object hn => exact hn l hl key product time hp hs
  | reading =>
    obtain ⟨path, hs⟩ : ∃ path, l.source = .file path := by
      simpa only [Load.Fits, hp] using hf
    refine ⟨.contents task (.ok []), load?_ne_of_not_idles hl rfl fun hi => ?_⟩
    cases hi with
    | contents hn => exact hn l hl hp path hs
  | decoding bytes =>
    refine ⟨.decoded task .broken [], load?_ne_of_not_idles hl rfl fun hi => ?_⟩
    cases hi with
    | decoded hn => exact hn l hl bytes hp
  | initializing r owner =>
    refine ⟨.gridsReady task, load?_ne_of_not_idles hl rfl fun hi => ?_⟩
    cases hi with
    | gridsReady hn => exact hn l hl r owner hp
  | answering result =>
    refine ⟨.answer task, ?_⟩
    rw [load?_answer hl hp]
    intro he
    cases he

/-- **Loads do not block each other.** When none can go on, there is none. -/
theorem Still.load?_eq_none (h : f.Still) (hs : f.Sound)
    (hf : ∀ task l, f.load? task = some l → l.Fits) (task : Nat) : f.load? task = none := by
  have blocked : ∀ {task l}, f.load? task = some l → ¬ (f.Ready l ∨ l.phase ≠ .waiting) := by
    intro task l hl hr
    obtain ⟨move, hm⟩ := exists_move (hf task l hl) hl hr
    exact hm (h task l move hl)
  cases hl : f.load? task with
  | none => rfl
  | some l =>
    have hn := blocked hl
    have hw : l.phase = .waiting := by
      by_contra hp
      exact hn (.inr hp)
    cases hlock : f.isLocked l.lock with
    | false => exact absurd (.inl ⟨hw, hlock⟩) hn
    | true =>
      -- whoever holds the lock can go on
      obtain ⟨i, k, hk, hh, -⟩ := hs.exists_holder hlock
      refine absurd (.inr fun hp => ?_) (blocked hk)
      rw [Load.holdsLock_eq_false_iff.2 (.inl hp)] at hh
      cases hh

/-! ## Requests -/

/-- The callbacks of the requests that moves make. -/
def registered (moves : List FeedMove) : List (List String) :=
  moves.filterMap fun
    | .request callbacks => some callbacks
    | _ => none

/-- What who waits for a request is told. -/
def reply (f : Feed) (i : Nat) : Option (Request.Reply Record) :=
  f.requests[i]?.map fun r => r.await.2

theorem foldl_onComplete (tags callbacks : List String) (slot : Slot Record)
    (held answered : Bool) :
    callbacks.foldl Request.onComplete ⟨some tags, slot, held, answered⟩ =
      ⟨some (tags ++ callbacks), slot, held, answered⟩ := by
  induction callbacks generalizing tags with
  | nil => rw [List.append_nil]; rfl
  | cons tag callbacks ih =>
    rw [List.foldl_cons, show Request.onComplete ⟨some tags, slot, held, answered⟩ tag =
      ⟨some (tags ++ [tag]), slot, held, answered⟩ from rfl, ih]
    simp

/-- A request that was made with some callbacks has them until it is settled. -/
def Made (r : Request String Record) (tags : List String) : Prop :=
  r.callbacks = none ∨ r = ⟨some tags, .waiting, true, false⟩

theorem Made.complete {r : Request String Record} {tags : List String} (h : Made r tags)
    (result : Option Record) : Made (r.complete result).1 tags := by
  rcases h with h | rfl
  · unfold Request.complete
    rw [h]
    exact .inl h
  · exact .inl rfl

theorem Made.drop {r : Request String Record} {tags : List String} (h : Made r tags) :
    Made r.drop tags := by
  rcases h with h | rfl
  · unfold Request.drop
    rw [h]
    exact .inl h
  · exact .inl rfl

/-- The requests of a feed are those that moves have made. -/
def MadeBy (s : List (Request String Record)) (made : List (List String)) : Prop :=
  s.length = made.length ∧
    ∀ (i : Nat) r, s[i]? = some r → ∃ tags, made[i]? = some tags ∧ Made r tags

theorem MadeBy.modify {s : List (Request String Record)} {made : List (List String)}
    (h : MadeBy s made) (k : Nat) {change : Request String Record → Request String Record}
    (hc : ∀ {r tags}, Made r tags → Made (change r) tags) : MadeBy (s.modify k change) made := by
  refine ⟨(List.length_modify ..).trans h.1, fun i r hr => ?_⟩
  rw [List.getElem?_modify] at hr
  obtain ⟨x, hx, rfl⟩ := Option.map_eq_some_iff.1 hr
  obtain ⟨tags, ht, hm⟩ := h.2 i x hx
  refine ⟨tags, ht, ?_⟩
  split
  · exact hc hm
  · exact hm

theorem MadeBy.append {s : List (Request String Record)} {made : List (List String)}
    (h : MadeBy s made) (callbacks : List String) :
    MadeBy (s ++ [callbacks.foldl Request.onComplete .new]) (made ++ [callbacks]) := by
  refine ⟨by simp [h.1], fun i r hr => ?_⟩
  rcases Nat.lt_trichotomy i s.length with hi | hi | hi
  · rw [List.getElem?_append_left hi] at hr
    rw [List.getElem?_append_left (h.1 ▸ hi)]
    exact h.2 i r hr
  · subst hi
    rw [List.getElem?_concat_length] at hr
    refine ⟨callbacks, by rw [h.1, List.getElem?_concat_length], .inr ?_⟩
    rw [← Option.some.inj hr]
    exact (foldl_onComplete [] callbacks .waiting true false).trans (by simp)
  · rw [List.getElem?_eq_none (by simpa using Nat.succ_le_of_lt hi)] at hr
    cases hr

theorem madeBy_run (sites : SiteTable) (settings : Settings) (moves : List FeedMove) :
    MadeBy ((new sites settings).run moves).requests (registered moves) := by
  induction moves using List.reverseRecOn with
  | nil => exact ⟨rfl, fun i r hr => by cases hr⟩
  | append_singleton moves move ih =>
    have kept : (∀ callbacks, move ≠ .request callbacks) →
        registered (moves ++ [move]) = registered moves := by
      intro hn
      unfold registered
      rw [List.filterMap_append]
      cases move with
      | request callbacks => exact absurd rfl (hn callbacks)
      | _ => simp
    rw [run_concat]
    by_cases ha : ((new sites settings).run moves).allows move = true
    · have h := requests_move ha
      generalize (((new sites settings).run moves).move move).requests = s at h
      cases h with
      | @made callbacks =>
        have hr : registered (moves ++ [.request callbacks]) = registered moves ++ [callbacks] := by
          simp [registered]
        rw [hr]
        exact ih.append callbacks
      | completed hc =>
        rw [kept fun callbacks he => by rw [he] at hc; cases hc]
        exact ih.modify _ fun hm => hm.complete _
      | dropped =>
        rw [kept fun callbacks he => by cases he]
        exact ih.modify _ fun hm => hm.drop
      | kept hn =>
        rw [kept hn]
        exact ih
    · rw [Feed.move, if_neg ha, kept fun callbacks he => ha (he ▸ rfl)]
      exact ih

/-! ## One request -/

/-- No load has a request. -/
def Unused (f : Feed) (i : Nat) : Prop :=
  ∀ task l, f.load? task = some l → l.request ≠ some i

/-- A request is settled. -/
structure Shut (f : Feed) (i : Nat) (slot : Slot Record) : Prop where
  request : f.requests[i]? = some ⟨none, slot, true, false⟩
  unused : f.Unused i

/-- A request is open, and one load has it. -/
structure Carried (f : Feed) (i : Nat) (source : LoadSource) (tags : List String) : Prop where
  request : f.requests[i]? = some ⟨some tags, .waiting, true, false⟩
  load : ∃ task l, f.load? task = some l ∧ l.request = some i
  source : ∀ {task l}, f.load? task = some l → l.request = some i → l.source = source
  only : ∀ {a b k l}, f.load? a = some k → f.load? b = some l → k.request = some i →
    l.request = some i → a = b

/-- A request that can be given to a load is open, and no load has it. -/
theorem of_isFree (h : f.isFree i = true) :
    (∃ r tags, f.requests[i]? = some r ∧ r.callbacks = some tags) ∧ f.Unused i := by
  unfold isFree at h
  rw [Bool.and_eq_true] at h
  obtain ⟨hopen, hunused⟩ := h
  constructor
  · cases hr : f.requests[i]? with
    | none =>
      rw [hr] at hopen
      cases hopen
    | some r =>
      rw [hr] at hopen
      obtain ⟨tags, ht⟩ := Option.isSome_iff_exists.1 hopen
      exact ⟨r, tags, rfl, ht⟩
  · intro task l hl hr
    obtain ⟨t, ht, -, hw⟩ := exists_task_of_load? hl
    have hn := List.all_eq_true.1 hunused t ht
    simp only [hw, decide_eq_true_eq] at hn
    exact hn hr

/-- Only a request that is free is given to a load. -/
theorem isFree_of_allows {n : Nat} {source : LoadSource}
    (ha : f.allows (.load n source (some i)) = true) : f.isFree i = true := by
  simp only [allows, Bool.and_eq_true, Option.all_some] at ha
  exact ha.2

/-- A load has the request that it was given. -/
theorem exists_load_of_move {move : FeedMove} (hs : f.Sound)
    (hl : (f.move move).load? task = some l) (hr : l.request = some i) :
    (∃ k, f.load? task = some k ∧ k.request = some i ∧ k.source = l.source) ∨
      f.isFree i = true := by
  by_cases ha : f.allows move = true
  · rcases load?_of_move hs hl with hl | ⟨k, phase, hk, -, rfl⟩ | ⟨-, n, source, request, rfl, rfl⟩
    · exact .inl ⟨l, hl, hr, rfl⟩
    · exact .inl ⟨k, hk, hr, rfl⟩
    · have hr : request = some i := hr
      subst hr
      exact .inr (isFree_of_allows ha)
  · rw [Feed.move, if_neg ha] at hl
    exact .inl ⟨l, hl, hr, rfl⟩

/-- A request stays as it is unless its load completes, or it is given to a load. -/
theorem request_move {move : FeedMove} {r : Request String Record}
    (hr : f.requests[i]? = some r) (hf : ¬ f.isFree i = true)
    (hc : ∀ c, f.completed? move = some c → c.request ≠ some i) :
    (f.move move).requests[i]? = some r := by
  by_cases ha : f.allows move = true
  · have h := requests_move ha
    generalize (f.move move).requests = s at h
    cases h with
    | made =>
      rw [List.getElem?_append_left (List.getElem?_eq_some_iff.1 hr).1]
      exact hr
    | @completed _ c k hm hk =>
      have hne : k ≠ i := by
        rintro rfl
        exact hc c (completed?_eq_some_iff.2 ⟨ha, hm⟩) hk
      rw [List.getElem?_modify_ne _ _ hne]
      exact hr
    | @dropped _ _ _ k hm =>
      have hne : k ≠ i := by
        rintro rfl
        exact hf (isFree_of_allows ha)
      rw [List.getElem?_modify_ne _ _ hne]
      exact hr
    | kept => exact hr
  · rw [Feed.move, if_neg ha]
    exact hr

/-- A request that is settled stays so. -/
theorem Shut.move {slot : Slot Record} (h : f.Shut i slot) (hs : f.Sound) (move : FeedMove) :
    (f.move move).Shut i slot ∧ ∀ c, f.completed? move = some c → c.request ≠ some i := by
  have hfree : ¬ f.isFree i = true := by
    intro hf
    obtain ⟨⟨r, tags, hr, ht⟩, -⟩ := of_isFree hf
    rw [h.request] at hr
    cases hr
    cases ht
  have hc : ∀ c, f.completed? move = some c → c.request ≠ some i := by
    intro c hm hr
    obtain ⟨ha, hm⟩ := completed?_eq_some_iff.1 hm
    rcases (completion?_eq_some hm).2 with ⟨n, path, r, rfl, -⟩ | ⟨task, l, -, hl, -, -, hlr⟩
    · rw [hr] at ha
      exact hfree (isFree_of_allows ha)
    · exact h.unused task l hl (hlr.symm.trans hr)
  refine ⟨⟨request_move h.request hfree hc, fun task l hl hr => ?_⟩, hc⟩
  rcases exists_load_of_move hs hl hr with ⟨k, hk, hkr, -⟩ | hf
  · exact h.unused task k hk hkr
  · exact hfree hf

theorem Carried.not_isFree {source : LoadSource} {tags : List String}
    (h : f.Carried i source tags) : ¬ f.isFree i = true := by
  intro hf
  obtain ⟨task, l, hl, hr⟩ := h.load
  exact (of_isFree hf).2 task l hl hr

/-- No other load gets a request that one has. -/
theorem Carried.of_move {source : LoadSource} {tags : List String} (h : f.Carried i source tags)
    (hs : f.Sound) {move : FeedMove} (hl : f.load? task = some l) (hr : l.request = some i)
    {a : Nat} {k : Load} (hk : (f.move move).load? a = some k) (hkr : k.request = some i) :
    a = task ∧ k.source = source := by
  obtain ⟨k', hk', hkr', hks⟩ := (exists_load_of_move hs hk hkr).resolve_right h.not_isFree
  exact ⟨h.only hk' hl hkr' hr, hks ▸ h.source hk' hkr'⟩

/-- The load that has a request settles it when it completes. -/
theorem Carried.completes {source : LoadSource} {tags : List String} (h : f.Carried i source tags)
    (hs : f.Sound) {move : FeedMove} {c : Completion} (hm : f.completed? move = some c)
    (hcr : c.request = some i) :
    c = ⟨source, some i, tags, c.result⟩ ∧ (f.move move).Shut i (.filled c.result) ∧
      ∀ task l, f.load? task = some l → l.request = some i → l.holdsLock = false := by
  obtain ⟨ha, hm'⟩ := completed?_eq_some_iff.1 hm
  obtain ⟨hcb, ⟨n, path, r, rfl, -⟩ | ⟨task, l, rfl, hl, hp, hcs, hlr⟩⟩ := completion?_eq_some hm'
  · rw [hcr] at ha
    exact absurd (isFree_of_allows ha) h.not_isFree
  · have hr : l.request = some i := hlr.symm.trans hcr
    refine ⟨?_, ⟨?_, ?_⟩, ?_⟩
    · have hsource : c.source = source := hcs.trans (h.source hl hr)
      have htags : c.callbacks = tags := by
        rw [hcb, hcr]
        simp [callbacksOf, h.request]
      rw [← hsource, ← hcr, ← htags]
    · have hserves := requests_move ha
      generalize (f.move (.answer task)).requests = s at hserves ⊢
      cases hserves with
      | completed hm hk =>
        cases Option.some.inj (hm'.symm.trans hm)
        cases Option.some.inj (hcr.symm.trans hk)
        rw [List.getElem?_modify_eq, h.request]
        rfl
      | kept _ hn => cases hcr.symm.trans (hn c hm')
    · intro a k hk hkr
      cases (h.of_move hs hl hr hk hkr).1
      cases (load?_answer hl hp).symm.trans hk
    · intro a k hk hkr
      cases h.only hk hl hkr hr
      cases Option.some.inj (hl.symm.trans hk)
      exact Load.holdsLock_eq_false_iff.2 (.inr ⟨_, hp⟩)

/-- A load has its request until it completes. -/
theorem Carried.stays {source : LoadSource} {tags : List String} (h : f.Carried i source tags)
    (hs : f.Sound) {move : FeedMove} (hc : ∀ c, f.completed? move = some c → c.request ≠ some i) :
    (f.move move).Carried i source tags := by
  obtain ⟨task, l, hl, hr⟩ := h.load
  refine ⟨request_move h.request h.not_isFree hc, ?_,
    fun hk hkr => (h.of_move hs hl hr hk hkr).2,
    fun ha hb hka hkb => (h.of_move hs hl hr ha hka).1.trans (h.of_move hs hl hr hb hkb).1.symm⟩
  rcases load?_move hs hl move with hl' | ⟨phase, -, hl'⟩ | ⟨rfl, ⟨result, hp⟩, -⟩
  · exact ⟨task, l, hl', hr⟩
  · exact ⟨task, _, hl', hr⟩
  · have hm := completed?_eq_some_iff.2 ⟨rfl, completion?_answer hl hp⟩
    exact absurd hr (hc _ hm)

/-- A request that a load has stays open until the load completes, which settles it. -/
theorem Carried.move {source : LoadSource} {tags : List String} (h : f.Carried i source tags)
    (hs : f.Sound) (move : FeedMove) :
    ((f.move move).Carried i source tags ∧
      ∀ c, f.completed? move = some c → c.request ≠ some i) ∨
    ∃ result, (f.move move).Shut i (.filled result) ∧
      f.completed? move = some ⟨source, some i, tags, result⟩ ∧
      ∀ task l, f.load? task = some l → l.request = some i → l.holdsLock = false := by
  by_cases hcomp : ∃ c, f.completed? move = some c ∧ c.request = some i
  · obtain ⟨c, hm, hcr⟩ := hcomp
    obtain ⟨hc, hshut, hunlocked⟩ := h.completes hs hm hcr
    exact .inr ⟨c.result, hshut, hc ▸ hm, hunlocked⟩
  · have hc : ∀ c, f.completed? move = some c → c.request ≠ some i :=
      fun c hm hcr => hcomp ⟨c, hm, hcr⟩
    exact .inl ⟨h.stays hs hc, hc⟩

/-- A load that is started has its request. -/
theorem carried_start {n : Nat} {source : LoadSource} {tags : List String} {log : List LogLine}
    (hs : f.Sound) (hunused : f.Unused i)
    (hr : f.requests[i]? = some ⟨some tags, .waiting, true, false⟩)
    (he : f.startLoad n source (some i) =
      ({ f with managers := f.managersFor n source, log := log } : Feed).start
        (.load ⟨n, source, some i, .waiting⟩)) :
    (f.startLoad n source (some i)).sweep.Carried i source tags := by
  have load : ∀ {task k}, (f.startLoad n source (some i)).sweep.load? task = some k →
      k.request = some i → task = f.nextTask ∧ k = ⟨n, source, some i, .waiting⟩ := by
    intro task k hk hkr
    rw [load?_sweep, he] at hk
    exact (load?_of_start hk).resolve_left fun hk => hunused task k hk hkr
  refine ⟨?_, ⟨f.nextTask, ⟨n, source, some i, .waiting⟩, ?_, rfl⟩, ?_, ?_⟩
  · rw [requests_sweep, he]
    exact hr
  · rw [load?_sweep, he]
    exact load?_start (f := { f with managers := _, log := log }) hs.fresh _
  · intro task k hk hkr
    rw [(load hk hkr).2]
  · intro a b k k' hk hk' hkr hkr'
    rw [(load hk hkr).1, (load hk' hkr').1]

/-- What becomes of a request that is given to a load. -/
theorem request_load {n : Nat} {source : LoadSource} {tags : List String} (hs : f.Sound)
    (ha : f.allows (.load n source (some i)) = true)
    (hr : f.requests[i]? = some ⟨some tags, .waiting, true, false⟩) :
    (∃ product time, source = .object (some product) time ∧ f.machine? ⟨n, some product⟩ = none ∧
      (f.move (.load n source (some i))).Shut i .closed ∧
      f.completed? (.load n source (some i)) = none) ∨
    (∀ product time, source = .object (some product) time → f.machine? ⟨n, some product⟩ ≠ none) ∧
      ((∃ r, (f.move (.load n source (some i))).Shut i (.filled (some r)) ∧
          f.completed? (.load n source (some i)) = some ⟨source, some i, tags, some r⟩) ∨
        (f.move (.load n source (some i))).Carried i source tags ∧
          f.completed? (.load n source (some i)) = none) := by
  have hunused : f.Unused i := (of_isFree (isFree_of_allows ha)).2
  have hmove : f.move (.load n source (some i)) = (f.startLoad n source (some i)).sweep :=
    if_pos ha
  rw [hmove, completed?, if_pos ha]
  rcases f.startLoad_cases n source (some i) with
    ⟨product, time, log, rfl, hm, he⟩ | ⟨path, r, log, rfl, hp, he⟩ | ⟨hm, hp, log, he⟩
  · refine .inl ⟨product, time, rfl, hm, ⟨?_, fun task l hl => ?_⟩, rfl⟩
    · rw [requests_sweep, he]
      show (f.requests.modify i Request.drop)[i]? = _
      rw [List.getElem?_modify_eq, hr]
      rfl
    · rw [load?_sweep, he] at hl
      exact hunused task l hl
  · refine .inr ⟨fun _ _ h => (by cases h), .inl ⟨r, ⟨?_, fun task l hl => ?_⟩, ?_⟩⟩
    · rw [requests_sweep, he, requests_complete]
      show (f.requests.modify i _)[i]? = _
      rw [List.getElem?_modify_eq, hr]
      rfl
    · obtain ⟨_, _, hcomplete⟩ := complete_eq { f with log := log } (some i) (some r)
      rw [load?_sweep, he, hcomplete] at hl
      exact hunused task l hl
    · simp [completion?, hp, callbacksOf, hr]
  · refine .inr ⟨hm, .inr ⟨carried_start hs hunused hr he, ?_⟩⟩
    cases source with
    | file path => simp [completion?, hp path rfl]
    | _ => rfl

/-! ## Runs -/

/-- The completions of a request in the course of moves. -/
def completionsOf (f : Feed) (i : Nat) (moves : List FeedMove) : List Completion :=
  (f.completions moves).filter fun c => c.request = some i

/-- Whenever a load with a request completes, no load with that request holds its lock. -/
def Unlocks (f : Feed) (i : Nat) (moves : List FeedMove) : Prop :=
  Throughout (fun before move => ∀ c, (f.run before).completed? move = some c →
    c.request = some i → ∀ task l, (f.run before).load? task = some l → l.request = some i →
      l.holdsLock = false) moves

theorem completionsOf_cons {move : FeedMove} {moves : List FeedMove} :
    f.completionsOf i (move :: moves) =
      ((f.completed? move).toList.filter fun c => c.request = some i) ++
        (f.move move).completionsOf i moves := by
  rw [completionsOf, completions, List.filter_append]
  rfl

theorem unlocks_cons {move : FeedMove} {moves : List FeedMove} :
    f.Unlocks i (move :: moves) ↔
      (∀ c, f.completed? move = some c → c.request = some i → ∀ task l, f.load? task = some l →
        l.request = some i → l.holdsLock = false) ∧ (f.move move).Unlocks i moves :=
  throughout_cons

theorem completionsOf_cons_of_ne {move : FeedMove} {moves : List FeedMove}
    (h : ∀ c, f.completed? move = some c → c.request ≠ some i) :
    f.completionsOf i (move :: moves) = (f.move move).completionsOf i moves := by
  rw [completionsOf_cons]
  cases hc : f.completed? move with
  | none => rfl
  | some c => simp [h c hc]

theorem completionsOf_cons_of_eq {move : FeedMove} {moves : List FeedMove} {c : Completion}
    (h : f.completed? move = some c) (hc : c.request = some i) :
    f.completionsOf i (move :: moves) = c :: (f.move move).completionsOf i moves := by
  rw [completionsOf_cons, h]
  simp [hc]

/-- Nobody touches a request that is settled. -/
theorem Shut.run {slot : Slot Record} (h : f.Shut i slot) (hs : f.Sound) (moves : List FeedMove) :
    (f.run moves).Shut i slot ∧ f.completionsOf i moves = [] ∧ f.Unlocks i moves := by
  induction moves generalizing f with
  | nil => exact ⟨h, rfl, throughout_nil⟩
  | cons move moves ih =>
    obtain ⟨h', hc⟩ := h.move hs move
    obtain ⟨hshut, hnone, hunlocks⟩ := ih h' (hs.move move)
    rw [completionsOf_cons_of_ne hc]
    exact ⟨hshut, hnone, unlocks_cons.2 ⟨fun c hm hr => absurd hr (hc c hm), hunlocks⟩⟩

/-- A request that a load has is completed once, or the load has yet to complete. -/
theorem Carried.run {source : LoadSource} {tags : List String} (h : f.Carried i source tags)
    (hs : f.Sound) (moves : List FeedMove) :
    ((f.run moves).Carried i source tags ∧ f.completionsOf i moves = []) ∨
    ∃ result, (f.run moves).Shut i (.filled result) ∧
      f.completionsOf i moves = [⟨source, some i, tags, result⟩] ∧ f.Unlocks i moves := by
  induction moves generalizing f with
  | nil => exact .inl ⟨h, rfl⟩
  | cons move moves ih =>
    rcases h.move hs move with ⟨h', hc⟩ | ⟨result, hshut, hm, hunlocked⟩
    · rw [completionsOf_cons_of_ne hc]
      rcases ih h' (hs.move move) with h | ⟨result, hshut, hone, hunlocks⟩
      · exact .inl h
      · refine .inr ⟨result, hshut, hone, unlocks_cons.2 ⟨fun c hm hr => ?_, hunlocks⟩⟩
        exact absurd hr (hc c hm)
    · obtain ⟨hshut, hnone, hunlocks⟩ := hshut.run (hs.move move) moves
      refine .inr ⟨result, hshut, ?_, unlocks_cons.2 ⟨fun _ _ _ => hunlocked, hunlocks⟩⟩
      rw [completionsOf_cons_of_eq hm rfl, hnone]

/-- What becomes of a load that is started with a request, in the course of moves. -/
theorem load_run {n : Nat} {source : LoadSource} {tags : List String} (hs : f.Sound)
    (ha : f.allows (.load n source (some i)) = true)
    (hr : f.requests[i]? = some ⟨some tags, .waiting, true, false⟩) (after : List FeedMove) :
    let moves := .load n source (some i) :: after
    (∃ product time, source = .object (some product) time ∧ f.machine? ⟨n, some product⟩ = none ∧
      (f.run moves).Shut i .closed ∧ f.completionsOf i moves = [] ∧
      ∀ early late, moves = early ++ late → (f.run early).Unused i) ∨
    (∀ product time, source = .object (some product) time → f.machine? ⟨n, some product⟩ ≠ none) ∧
      ((f.run moves).Carried i source tags ∨
        ∃ result, (f.run moves).Shut i (.filled result) ∧
          f.completionsOf i moves = [⟨source, some i, tags, result⟩] ∧ f.Unlocks i moves) := by
  have hunused : f.Unused i := (of_isFree (isFree_of_allows ha)).2
  intro moves
  rcases request_load hs ha hr with ⟨product, time, hsource, hm, hshut, hc⟩ |
    ⟨hm, ⟨r, hshut, hc⟩ | ⟨hcarried, hc⟩⟩
  · obtain ⟨hlast, hnone, -⟩ := hshut.run (hs.move _) after
    refine .inl ⟨product, time, hsource, hm, hlast, ?_, fun early late he => ?_⟩
    · rw [completionsOf_cons_of_ne (by simp [hc]), hnone]
    · cases early with
      | nil => exact hunused
      | cons move early =>
        obtain ⟨rfl, -⟩ := List.cons.inj he
        exact (hshut.run (hs.move _) early).1.unused
  · obtain ⟨hlast, hnone, hunlocks⟩ := hshut.run (hs.move _) after
    refine .inr ⟨hm, .inr ⟨some r, hlast, ?_, unlocks_cons.2 ⟨?_, hunlocks⟩⟩⟩
    · rw [completionsOf_cons_of_eq hc rfl, hnone]
    · exact fun _ _ _ task l hl hlr => absurd hlr (hunused task l hl)
  · have hne : ∀ c, f.completed? (.load n source (some i)) = some c → c.request ≠ some i := by
      simp [hc]
    rcases hcarried.run (hs.move _) after with ⟨hlast, -⟩ | ⟨result, hlast, hone, hunlocks⟩
    · exact .inr ⟨hm, .inl hlast⟩
    · refine .inr ⟨hm, .inr ⟨result, hlast, ?_, unlocks_cons.2 ⟨?_, hunlocks⟩⟩⟩
      · rw [completionsOf_cons_of_ne hne, hone]
      · exact fun c hm hr => absurd hr (hne c hm)

/-- Who waits for a request that has been filled is told with what. -/
theorem Shut.reply {result : Option Record} (h : f.Shut i (.filled result)) :
    f.reply i = some (.result result) := by
  rw [Feed.reply, h.request]
  rfl

/-- Who waits for a request that was given up is told that there is nothing. -/
theorem Shut.reply_closed (h : f.Shut i .closed) : f.reply i = some (.result none) := by
  rw [Feed.reply, h.request]
  rfl

/-- Who waits for a request that is open is told to wait. -/
theorem Carried.reply {source : LoadSource} {tags : List String} (h : f.Carried i source tags) :
    f.reply i = some .pending := by
  rw [Feed.reply, h.request]
  rfl

/-- A request that is given to a load is open, with the callbacks that it was made with. -/
theorem request_of_allows (sites : SiteTable) (settings : Settings) (before : List FeedMove)
    {n : Nat} {source : LoadSource}
    (ha : ((new sites settings).run before).allows (.load n source (some i)) = true) :
    ∃ tags, (registered before)[i]? = some tags ∧
      ((new sites settings).run before).requests[i]? = some ⟨some tags, .waiting, true, false⟩ := by
  obtain ⟨⟨r, tags, hr, ht⟩, -⟩ := of_isFree (isFree_of_allows ha)
  obtain ⟨tags', htags, hmade⟩ := (madeBy_run sites settings before).2 i r hr
  obtain rfl : r = ⟨some tags', .waiting, true, false⟩ :=
    hmade.resolve_left fun hn => by cases hn.symm.trans ht
  exact ⟨tags', htags, hr⟩

/-- **Every load answers exactly once.** When no load can go on, a load that was started with a
request has completed: its handle is told the result, and the callbacks of the request, as they were
registered, have run once with that result, while the load did not hold its lock. Only a load of a
product without a machine gives its request up: no task is started for it, its handle is told that
there is no record, and no callback runs. -/
theorem answers_once (sites : SiteTable) (settings : Settings) (before after : List FeedMove)
    {n : Nat} {source : LoadSource}
    (ha : ((new sites settings).run before).allows (.load n source (some i)) = true)
    (hstill : ((new sites settings).run (before ++ .load n source (some i) :: after)).Still) :
    let f := (new sites settings).run before
    let moves := .load n source (some i) :: after
    let g := f.run moves
    g.called = f.called ++ (f.completions moves).flatMap Completion.calls ∧
    ∃ tags, (registered before)[i]? = some tags ∧
      ((∃ product time, source = .object (some product) time ∧
          f.machine? ⟨n, some product⟩ = none ∧ g.reply i = some (.result none) ∧
          f.completionsOf i moves = [] ∧
          ∀ early late, moves = early ++ late → (f.run early).Unused i) ∨
        (∀ product time, source = .object (some product) time →
          f.machine? ⟨n, some product⟩ ≠ none) ∧
        ∃ result, g.reply i = some (.result result) ∧
          f.completionsOf i moves = [⟨source, some i, tags, result⟩] ∧ f.Unlocks i moves) := by
  intro f moves g
  have hs : f.Sound := sound_run_new sites settings before
  have hempty : ∀ task, g.load? task = none := by
    rw [run_append] at hstill
    refine Still.load?_eq_none hstill (hs.run moves) fun task l hl => ?_
    exact fits_run sites settings (before ++ moves) (by rw [run_append]; exact hl)
  refine ⟨called_run f moves, ?_⟩
  obtain ⟨tags, htags, hr⟩ := request_of_allows sites settings before ha
  refine ⟨tags, htags, ?_⟩
  rcases load_run hs ha hr after with ⟨product, time, hsource, hm, hshut, hnone, hunused⟩ |
    ⟨hm, hcarried | ⟨result, hshut, hone, hunlocks⟩⟩
  · exact .inl ⟨product, time, hsource, hm, hshut.reply_closed, hnone, hunused⟩
  · obtain ⟨task, l, hl, -⟩ := hcarried.load
    cases (hempty task).symm.trans hl
  · exact .inr ⟨hm, result, hshut.reply, hone, hunlocks⟩

/-- Moves before a load is started: another one holds the lock. -/
def othersFirst : List FeedMove :=
  [.hold "KLSX", .request ["first", "second"], .request ["other"],
    .load 0 (.stream (.ok [])) (some 1), .beginLoad 0 ⟨none, none⟩]

/-- Moves after it: the decoder breaks for the other one, and then takes the file of this one. -/
def bothAnswer : List FeedMove :=
  [.beginLoad 1 ⟨none, none⟩, .decoded 0 .broken [], .answer 0, .beginLoad 1 ⟨none, none⟩,
    .decoded 1 (.file (volumeOf "klsx")) [], .gridsReady 1, .answer 1]

theorem still_of_tasks (h : f.tasks = []) : f.Still := by
  intro task l move hl
  obtain ⟨t, ht, -⟩ := exists_task_of_load? hl
  rw [h] at ht
  cases ht

/-- Two loads answer, one of them with the file; a load of a product without a machine does not. -/
theorem answers_once_in_turn :
    let f := (new .empty .default).run othersFirst
    let r := Record.ofFile 0 (volumeOf "klsx")
    f.allows (.load 0 (.stream (.ok [])) (some 0)) = true ∧
      (f.run (.load 0 (.stream (.ok [])) (some 0) :: bothAnswer)).called =
        [("other", none), ("first", some r), ("second", some r)] ∧
      f.completionsOf 0 (.load 0 (.stream (.ok [])) (some 0) :: bothAnswer) =
        [⟨.stream (.ok []), some 0, ["first", "second"], some r⟩] ∧
      f.Unlocks 0 (.load 0 (.stream (.ok [])) (some 0) :: bothAnswer) ∧
      (f.run [.load 0 (.object (some "N0B") none) (some 0), .decoded 0 .broken [],
        .answer 0]).reply 0 = some (.result none) := by
  have ha : ((new .empty .default).run othersFirst).allows
      (.load 0 (.stream (.ok [])) (some 0)) = true := rfl
  have hstill : ((new .empty .default).run
      (othersFirst ++ .load 0 (.stream (.ok [])) (some 0) :: bothAnswer)).Still :=
    still_of_tasks rfl
  have hreply : (((new .empty .default).run othersFirst).run
      (.load 0 (.stream (.ok [])) (some 0) :: bothAnswer)).reply 0 =
        some (.result (some (.ofFile 0 (volumeOf "klsx")))) := rfl
  have hcalled : (((new .empty .default).run othersFirst).run
      (.load 0 (.stream (.ok [])) (some 0) :: bothAnswer)).called =
        [("other", none), ("first", some (.ofFile 0 (volumeOf "klsx"))),
          ("second", some (.ofFile 0 (volumeOf "klsx")))] := rfl
  have hb : ((new .empty .default).run othersFirst).allows
      (.load 0 (.object (some "N0B") none) (some 0)) = true := rfl
  have hquiet : ((new .empty .default).run (othersFirst ++
      [.load 0 (.object (some "N0B") none) (some 0), .decoded 0 .broken [], .answer 0])).Still :=
    still_of_tasks rfl
  have hnone : ((new .empty .default).run othersFirst).machine? ⟨0, some "N0B"⟩ = none := rfl
  intro f r
  obtain ⟨-, tags, htags, hanswer⟩ := answers_once .empty .default othersFirst bothAnswer ha hstill
  obtain ⟨-, tags', -, hdropped⟩ := answers_once .empty .default othersFirst
    [.decoded 0 .broken [], .answer 0] hb hquiet
  cases htags
  refine ⟨ha, hcalled, ?_⟩
  rcases hanswer with ⟨_, _, h, -⟩ | ⟨-, result, hresult, hone, hunlocks⟩
  · cases h
  · cases hresult.symm.trans hreply
    refine ⟨hone, hunlocks, ?_⟩
    rcases hdropped with ⟨_, _, -, -, h, -⟩ | ⟨h, -⟩
    · exact h
    · exact absurd hnone (h _ _ rfl)

end Feed

end RadarFeed
