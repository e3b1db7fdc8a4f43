import RadarFeed.Proofs.Feed.Locks

/-!
What happens in the course of moves.

`Sometime` and `Throughout` speak of the moves of a run, each together with the moves before it. A
load that can go on does so by a move of its own (`load?_of_loadTask?`), and no other changes it.
-/

namespace RadarFeed

namespace Feed

variable {f : Feed} {moves : List FeedMove} {move : FeedMove}

/-- Some move is such, with those before it. -/
def Sometime (P : List FeedMove → FeedMove → Prop) (moves : List FeedMove) : Prop :=
  ∃ before move after, moves = before ++ move :: after ∧ P before move

/-- Each move is such, with those before it. -/
def Throughout (P : List FeedMove → FeedMove → Prop) (moves : List FeedMove) : Prop :=
  ∀ before move after, moves = before ++ move :: after → P before move

section
variable {P : List FeedMove → FeedMove → Prop}

theorem sometime_concat :
    Sometime P (moves ++ [move]) ↔ Sometime P moves ∨ P moves move := by
  unfold Sometime
  rw [Refresher.exists_split_concat (f := fun x => x), or_comm]
  simp

theorem Throughout.of_append {rest : List FeedMove} (h : Throughout P (moves ++ rest)) :
    Throughout P moves := by
  rintro before x after rfl
  exact h before x (after ++ rest) (by simp)

theorem Throughout.last (h : Throughout P (moves ++ [move])) : P moves move :=
  h moves move [] rfl

theorem throughout_nil : Throughout P [] := by
  intro before x after h
  simp at h

theorem throughout_cons :
    Throughout P (move :: moves) ↔
      P [] move ∧ Throughout (fun before => P (move :: before)) moves := by
  constructor
  · intro h
    refine ⟨h [] move moves rfl, ?_⟩
    rintro before x after rfl
    exact h (move :: before) x after rfl
  · rintro ⟨h₀, h⟩ before x after he
    cases before with
    | nil =>
      obtain ⟨rfl, -⟩ := List.cons.inj he
      exact h₀
    | cons y before =>
      obtain ⟨rfl, hrest⟩ := List.cons.inj he
      exact h before x after hrest

end

theorem run_cons (f : Feed) (move : FeedMove) (moves : List FeedMove) :
    f.run (move :: moves) = (f.move move).run moves :=
  List.foldl_cons

theorem run_append (f : Feed) (before after : List FeedMove) :
    f.run (before ++ after) = (f.run before).run after :=
  List.foldl_append

theorem run_concat (f : Feed) (moves : List FeedMove) (move : FeedMove) :
    f.run (moves ++ [move]) = (f.run moves).move move := by
  rw [run_append]
  rfl

/-! ## Loads -/

section
variable {id : Nat} {l : Load}

theorem load?_enter (hl : f.load? id = some l) (phase : LoadPhase) :
    (f.enter id l phase).load? id = some { l with phase := phase } := by
  obtain ⟨t, ht, -⟩ := Option.map_eq_some_iff.1 (load?_eq_some_iff.1 hl)
  refine load?_eq_some_iff.2 ?_
  show workIn (f.tasks.map _) id = _
  rw [workIn_goOn, workIn, ht]
  simp

theorem load?_start (hf : ∀ t ∈ f.tasks, t.id < f.nextTask) (l : Load) :
    (f.start (.load l)).load? f.nextTask = some l := by
  have hn : workIn f.tasks f.nextTask = none := by
    unfold workIn
    rw [List.find?_eq_none.2, Option.map_none]
    intro t ht
    simpa using Nat.ne_of_lt (hf t ht)
  refine load?_eq_some_iff.2 ?_
  show workIn (f.tasks ++ [_]) f.nextTask = _
  rw [workIn_append, hn]
  simp

theorem load?_of_start {k : Load} (hk : (f.start (.load l)).load? id = some k) :
    f.load? id = some k ∨ id = f.nextTask ∧ k = l := by
  rw [load?_eq_some_iff] at hk
  have hk : workIn (f.tasks ++ [⟨f.nextTask, .load l⟩]) id = some (.load k) := hk
  rw [workIn_append] at hk
  cases hw : workIn f.tasks id with
  | some w =>
    rw [hw] at hk
    exact .inl (load?_eq_some_iff.2 (hw.trans hk))
  | none =>
    rw [hw, Option.none_or] at hk
    split at hk
    · cases hk
      exact .inr ⟨‹_ = id›.symm, rfl⟩
    · cases hk

/-- A move of a load is not wanted, or brings it on. -/
theorem load?_of_loadTask? (hl : f.load? id = some l) (move : FeedMove)
    (hm : move.loadTask? = some id) :
    f.Idles move ∧ (f.move move).load? id = some l ∨
      ∃ phase, f.Advances move id l phase ∧
        (f.move move).load? id = some { l with phase := phase } := by
  simp only [move_of_loadTask? hm, load?_sweep]
  have h := f.step move
  generalize f.apply move = g at h ⊢
  cases h with
  | idle _ hi => exact .inl ⟨hi, hl⟩
  | @entered _ _ _ phase log hk he =>
    have ha : f.Advances _ _ _ _ := .enters he
    cases Option.some.inj (hm.symm.trans ha.loadTask?)
    cases Option.some.inj (hl.symm.trans hk)
    exact .inr ⟨phase, ha, load?_enter (f := { f with log := log }) hl phase⟩
  | @routed _ _ _ file _ log hk hp =>
    cases hm
    cases Option.some.inj (hl.symm.trans hk)
    refine .inr ⟨_, .routed hp, load?_enter ?_ _⟩
    obtain ⟨_, _, _, _, he⟩ := f.manager_eq (Ascii.upper file.radarId)
    rw [he]
    exact hl
  | stored log hk hp =>
    cases hm
    cases Option.some.inj (hl.symm.trans hk)
    refine .inr ⟨_, .stored hp, load?_enter ?_ _⟩
    exact hl
  | _ => cases hm

/-- A load that can have its lock begins. -/
theorem Ready.begins (hr : f.Ready l) (hl : f.load? id = some l) (found : KeyAnswer) :
    ∃ phase, f.Advances (.beginLoad id found) id l phase ∧
      (f.move (.beginLoad id found)).load? id = some { l with phase := phase } := by
  refine (load?_of_loadTask? hl (.beginLoad id found) rfl).resolve_left fun hi => ?_
  cases hi.1 with
  | waiting hn => exact hn l hl hr

theorem load?_gridsReady {r : Record} {owner : Nat} (hl : f.load? id = some l)
    (hp : l.phase = .initializing r owner) :
    (f.move (.gridsReady id)).load? id =
      some { l with phase := .answering (some (f.stored owner r)) } := by
  rcases load?_of_loadTask? hl (.gridsReady id) rfl with ⟨hi, -⟩ | ⟨phase, ha, hl'⟩
  · cases hi with
    | gridsReady hn => exact absurd hp (hn l hl r owner)
  · rw [hl', ha.of_initializing hp]

theorem load?_answer {result : Option Record} (hl : f.load? id = some l)
    (hp : l.phase = .answering result) : (f.move (.answer id)).load? id = none := by
  have hanswer : f.apply (.answer id) = (f.complete l.request result).finish id := by
    show f.answer id = _
    simp only [answer, hl, hp]
  obtain ⟨_, _, he⟩ := f.complete_eq l.request result
  show (f.apply (.answer id)).sweep.load? id = none
  rw [load?_sweep, hanswer, he]
  unfold load?
  rw [show work? _ id = workIn (f.tasks.filter fun t => t.id ≠ id) id from rfl, workIn_finish,
    if_pos rfl]

theorem load?_of_move (hs : f.Sound) (hl : (f.move move).load? id = some l) :
    f.load? id = some l ∨
      (∃ k phase, f.load? id = some k ∧ f.Advances move id k phase ∧
        l = { k with phase := phase }) ∨
      (f.nextTask ≤ id ∧ ∃ n source request, move = .load n source request ∧
        l = ⟨n, source, request, .waiting⟩) := by
  unfold Feed.move at hl
  split at hl
  · rw [load?_sweep] at hl
    exact load?_of_apply hs.fresh hl
  · exact .inl hl

theorem load?_move (hs : f.Sound) (hl : f.load? id = some l) (move : FeedMove) :
    (f.move move).load? id = some l ∨
      (∃ phase, f.Advances move id l phase ∧
        (f.move move).load? id = some { l with phase := phase }) ∨
      (move = .answer id ∧ (∃ result, l.phase = .answering result) ∧
        (f.move move).load? id = none) := by
  unfold Feed.move
  split
  · simp only [load?_sweep]
    exact load?_apply hs.fresh hl move
  · exact .inl hl

theorem nextTask_move (hs : f.Sound) (move : FeedMove) : f.nextTask ≤ (f.move move).nextTask := by
  unfold Feed.move
  split
  · rw [nextTask_sweep]
    exact ((tasks_apply f move).fresh hs.fresh).1
  · exact Nat.le_refl _

end

end Feed

end RadarFeed
