import RadarFeed.Proofs.Feed.Courses

/-!
Loads that complete, and their requests.

A load completes when it answers, and at once if its file has been loaded before. `completion?` says
which moves complete a load, and `requests_apply` what that and other moves do to the requests: a
completion fills the request of its load and runs the callbacks.
-/

namespace RadarFeed

/-- A load that completes: what it has read, its request with its callbacks, and the result. -/
structure Completion where
  source : LoadSource
  request : Option Nat
  callbacks : List String
  result : Option Record

/-- The callbacks run in turn, each with the result. -/
def Completion.calls (c : Completion) : List (String × Option Record) :=
  c.callbacks.map fun tag => (tag, c.result)

namespace Feed

variable {f : Feed} {move : FeedMove} {i : Nat}

/-- The callbacks of a request, if it is open. -/
def callbacksOf (f : Feed) (request : Option Nat) : List String :=
  ((request.bind fun i => f.requests[i]?).bind Request.callbacks).getD []

/-- The load that a move completes. -/
def completion? (f : Feed) : FeedMove → Option Completion
  | .load _ (.file path) request =>
    (f.files.get? path).map fun r => ⟨.file path, request, f.callbacksOf request, some r⟩
  | .answer id =>
    match f.load? id with
    | some ⟨_, source, request, .answering result⟩ =>
      some ⟨source, request, f.callbacksOf request, result⟩
    | _ => none
  | _ => none

/-- The load that a move completes, if it is possible. -/
def completed? (f : Feed) (move : FeedMove) : Option Completion :=
  if f.allows move then f.completion? move else none

/-- The loads that moves complete, in turn. -/
def completions (f : Feed) : List FeedMove → List Completion
  | [] => []
  | move :: moves => (f.completed? move).toList ++ (f.move move).completions moves

/-- What a move does to the requests. -/
inductive Serves (f : Feed) : FeedMove → List (Request String Record) → Prop where
  | made {callbacks} :
      Serves f (.request callbacks) (f.requests ++ [callbacks.foldl Request.onComplete .new])
  /-- The request of a load that completes is filled. -/
  | completed {m c k} : f.completion? m = some c → c.request = some k →
      Serves f m (f.requests.modify k fun r => (r.complete c.result).1)
  /-- A load gives its request up for want of a machine. -/
  | dropped {n product time k} : f.machine? ⟨n, some product⟩ = none →
      Serves f (.load n (.object (some product) time) (some k)) (f.requests.modify k Request.drop)
  | kept {m} : (∀ callbacks, m ≠ .request callbacks) →
      (∀ c, f.completion? m = some c → c.request = none) → Serves f m f.requests

theorem completion?_answer {id : Nat} {l : Load} {result : Option Record}
    (hl : f.load? id = some l) (hp : l.phase = .answering result) :
    f.completion? (.answer id) =
      some ⟨l.source, l.request, f.callbacksOf l.request, result⟩ := by
  obtain ⟨n, source, request, phase⟩ := l
  subst hp
  simp only [completion?, hl]

/-- A load completes when it answers, or at once with the record of its file. -/
theorem completion?_eq_some {c : Completion} (h : f.completion? move = some c) :
    c.callbacks = f.callbacksOf c.request ∧
      ((∃ n path r, move = .load n (.file path) c.request ∧ f.files.get? path = some r ∧
          c.source = .file path ∧ c.result = some r) ∨
        ∃ id l, move = .answer id ∧ f.load? id = some l ∧ l.phase = .answering c.result ∧
          c.source = l.source ∧ c.request = l.request) := by
  unfold completion? at h
  split at h
  · obtain ⟨r, hr, rfl⟩ := Option.map_eq_some_iff.1 h
    exact ⟨rfl, .inl ⟨_, _, r, rfl, hr, rfl, rfl⟩⟩
  · split at h
    · rename_i hl
      cases h
      exact ⟨rfl, .inr ⟨_, _, rfl, hl, rfl, rfl, rfl⟩⟩
    · cases h
  · cases h

theorem completed?_eq_some_iff {c : Completion} :
    f.completed? move = some c ↔ f.allows move = true ∧ f.completion? move = some c := by
  unfold completed?
  split <;> simp_all

theorem requests_complete (f : Feed) (request : Option Nat) (result : Option Record) :
    (f.complete request result).requests = match request with
      | some i => f.requests.modify i fun r => (r.complete result).1
      | none => f.requests := by
  cases request with
  | none => rfl
  | some i =>
    unfold complete
    cases hi : f.requests[i]? with
    | none => simp [hi, List.modify_eq_self (List.getElem?_eq_none_iff.1 hi)]
    | some r => simp [hi, List.modify_eq_set]

theorem called_complete (f : Feed) (request : Option Nat) (result : Option Record) :
    (f.complete request result).called =
      f.called ++ (f.callbacksOf request).map fun tag => (tag, result) := by
  unfold complete callbacksOf
  cases request with
  | none => simp
  | some i =>
    cases hi : f.requests[i]? with
    | none => simp [hi]
    | some r => cases hr : r.callbacks <;> simp [hi, hr, Request.complete]

/-- A load that is started is given up for want of a machine, or has its file in the index, or
waits. -/
theorem startLoad_cases (f : Feed) (n : Nat) (source : LoadSource) (request : Option Nat) :
    (∃ product time log, source = .object (some product) time ∧
      f.machine? ⟨n, some product⟩ = none ∧
      f.startLoad n source request = ({ f with log := log } : Feed).dropRequest request) ∨
    (∃ path r log, source = .file path ∧ f.files.get? path = some r ∧
      f.startLoad n source request = ({ f with log := log } : Feed).complete request (some r)) ∨
    ((∀ product time, source = .object (some product) time → f.machine? ⟨n, some product⟩ ≠ none) ∧
      (∀ path, source = .file path → f.files.get? path = none) ∧
      ∃ log, f.startLoad n source request =
        ({ f with managers := f.managersFor n source, log := log } : Feed).start
          (.load ⟨n, source, request, .waiting⟩)) := by
  cases source with
  | object product time =>
    cases product with
    | none => exact .inr (.inr ⟨by simp, by simp, _, rfl⟩)
    | some product =>
      unfold startLoad
      dsimp only
      have hm : ∀ text, (f.say .debug text).machine? ⟨n, some product⟩ =
        f.machine? ⟨n, some product⟩ := fun _ => rfl
      rw [hm]
      cases hr : f.machine? ⟨n, some product⟩ with
      | none => exact .inl ⟨product, time, _, rfl, hr, rfl⟩
      | some r => exact .inr (.inr ⟨by simp [hr], by simp, _, rfl⟩)
  | file path =>
    unfold startLoad
    dsimp only
    have hm : ∀ text, (f.say .debug text).files.get? path = f.files.get? path := fun _ => rfl
    rw [hm]
    cases hr : f.files.get? path with
    | none => exact .inr (.inr ⟨by simp, by simp [hr], _, rfl⟩)
    | some r => exact .inr (.inl ⟨path, r, _, rfl, hr, rfl⟩)
  | stream contents => exact .inr (.inr ⟨by simp, by simp, _, rfl⟩)

theorem Serves.of_complete {c : Completion} (hc : f.completion? move = some c) :
    f.Serves move (f.complete c.request c.result).requests := by
  rw [requests_complete]
  cases hr : c.request with
  | none =>
    refine .kept (fun callbacks he => ?_) fun d hd => ?_
    · rw [he] at hc
      cases hc
    cases Option.some.inj (hc.symm.trans hd)
    exact hr
  | some k => exact .completed hc hr

theorem called_of_complete {c : Completion} (hc : f.completion? move = some c) :
    (f.complete c.request c.result).called =
      f.called ++ (f.completion? move).toList.flatMap Completion.calls := by
  rw [called_complete, hc, Option.toList_some, List.flatMap_singleton, Completion.calls,
    (completion?_eq_some hc).1]

theorem requests_startLoad (f : Feed) (n : Nat) (source : LoadSource) (request : Option Nat) :
    f.Serves (.load n source request) (f.startLoad n source request).requests ∧
      (f.startLoad n source request).called = f.called ++
        (f.completion? (.load n source request)).toList.flatMap Completion.calls := by
  rcases f.startLoad_cases n source request with
    ⟨product, time, log, rfl, hm, he⟩ | ⟨path, r, log, rfl, hr, he⟩ | ⟨hm, hr, _, he⟩ <;> rw [he]
  · refine ⟨?_, ?_⟩
    · cases request with
      | none => exact .kept (fun _ he => by cases he) fun c hc => by cases hc
      | some k => exact .dropped hm
    · cases request <;> exact (List.append_nil _).symm
  · have hc : f.completion? (.load n (.file path) request) =
        some ⟨.file path, request, f.callbacksOf request, some r⟩ := by
      simp only [completion?, hr, Option.map_some]
    rw [requests_complete { f with log := log }, called_complete { f with log := log }]
    exact ⟨f.requests_complete request _ ▸ .of_complete hc,
      f.called_complete request _ ▸ called_of_complete hc⟩
  · have hc : f.completion? (.load n source request) = none := by
      cases source with
      | file path => simp only [completion?, hr path rfl, Option.map_none]
      | _ => rfl
    rw [hc]
    refine ⟨.kept (fun _ he => ?_) fun c h => ?_, (List.append_nil _).symm⟩
    · cases he
    · cases hc.symm.trans h

theorem stepMachine_parts (f : Feed) (id : MachineId) (step : RefreshMove) :
    (f.stepMachine id step).requests = f.requests ∧ (f.stepMachine id step).called = f.called := by
  obtain ⟨_, _, _, _, h⟩ := f.stepMachine_eq id step
  rw [h]
  exact ⟨rfl, rfl⟩

/-- **The requests after a move**, and the callbacks that it runs. -/
theorem requests_apply (f : Feed) (move : FeedMove) :
    f.Serves move (f.apply move).requests ∧
      (f.apply move).called =
        f.called ++ (f.completion? move).toList.flatMap Completion.calls := by
  by_cases hrequest : ∃ callbacks, move = .request callbacks
  · obtain ⟨callbacks, rfl⟩ := hrequest
    exact ⟨.made, (List.append_nil _).symm⟩
  have keeps : ∀ {g : Feed}, g.requests = f.requests ∧ g.called = f.called →
      f.completion? move = none → f.Serves move g.requests ∧
        g.called = f.called ++ (f.completion? move).toList.flatMap Completion.calls := by
    intro g hg hn
    rw [hg.1, hg.2, hn]
    refine ⟨.kept (fun callbacks he => hrequest ⟨callbacks, he⟩) fun c h => ?_,
      (List.append_nil _).symm⟩
    cases hn.symm.trans h
  by_cases hload : ∃ n source request, move = .load n source request
  · obtain ⟨n, source, request, rfl⟩ := hload
    exact f.requests_startLoad n source request
  have h := f.step move
  generalize f.apply move = g at h
  cases h with
  | started | found | dropped => exact absurd ⟨_, _, _, rfl⟩ hload
  | idle log hi =>
    cases hi with
    | @answer id hn =>
      refine keeps ⟨rfl, rfl⟩ (Option.eq_none_iff_forall_ne_some.2 fun c hc => ?_)
      rcases (completion?_eq_some hc).2 with ⟨_, _, _, h, -⟩ | ⟨_, l, h, hl, hp, -⟩
      · cases h
      · cases h
        exact hn l hl _ hp
    | product | updated | waiting | object | contents | decoded | gridsReady | cycleBegins
    | cycleEnds | timerEnds | productsAsked | productsListed => exact keeps ⟨rfl, rfl⟩ rfl
  | requested => exact absurd ⟨_, rfl⟩ hrequest
  | answered hl hp =>
    have hc := completion?_answer hl hp
    exact ⟨.of_complete hc, called_of_complete hc⟩
  | @held radarId =>
    obtain ⟨_, _, _, _, h⟩ := f.manager_eq radarId
    rw [h]
    exact keeps ⟨rfl, rfl⟩ rfl
  | released | cleared | updated | gone | listed => exact keeps ⟨rfl, rfl⟩ rfl
  | @grids n =>
    obtain ⟨_, _, h⟩ := f.computeGrids_eq n
    rw [h]
    exact keeps ⟨rfl, rfl⟩ rfl
  | volumes | product | refused => exact keeps (f.stepMachine_parts _ _) rfl
  | begun => exact keeps (f.stepMachine_parts _ .cycleBegins) rfl
  | @machine n product =>
    obtain ⟨_, _, h⟩ := f.ensureMachine_eq n product
    rw [h]
    exact keeps ⟨rfl, rfl⟩ rfl
  | entered log hl he => cases he <;> exact keeps ⟨rfl, rfl⟩ rfl
  | @routed id l bytes file remarks log hl hp =>
    obtain ⟨_, _, _, _, h⟩ := f.manager_eq (Ascii.upper file.radarId)
    rw [h]
    exact keeps ⟨rfl, rfl⟩ rfl
  | stored => exact keeps ⟨rfl, rfl⟩ rfl
  | @ended id machine answer _ => exact keeps (stepMachine_parts (f.finish id) _ _) rfl
  | @timed id machine token how _ => exact keeps (stepMachine_parts (f.finish id) _ _) rfl
  | @asked id n _ =>
    obtain ⟨_, _, h⟩ := f.ensureMachine_eq n f.settings.defaultLevel3Product
    rw [h]
    exact keeps ⟨rfl, rfl⟩ rfl

theorem called_move (f : Feed) (move : FeedMove) :
    (f.move move).called = f.called ++ (f.completed? move).toList.flatMap Completion.calls := by
  unfold Feed.move completed?
  split
  · rw [called_sweep]
    exact (f.requests_apply move).2
  · exact (List.append_nil _).symm

/-- Callbacks run only when a load completes. -/
theorem called_run (f : Feed) (moves : List FeedMove) :
    (f.run moves).called = f.called ++ (f.completions moves).flatMap Completion.calls := by
  induction moves generalizing f with
  | nil => exact (List.append_nil _).symm
  | cons move moves ih =>
    show ((f.move move).run moves).called = _
    rw [ih, called_move, completions, List.flatMap_append, List.append_assoc]

theorem requests_move (ha : f.allows move = true) : f.Serves move (f.move move).requests := by
  rw [Feed.move, if_pos ha, requests_sweep]
  exact (f.requests_apply move).1

end Feed

end RadarFeed
