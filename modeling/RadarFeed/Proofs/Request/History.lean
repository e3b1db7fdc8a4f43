import Mathlib.Data.List.Induction
import RadarFeed.Request

/-!
The history of a request.

A history is what the two halves of a request do, each as long as it is there, in any order
(`allowsAll`). `Tracks` says what a request is after a history: which callbacks it has, what its
handle would find, and whether the handle has found it. From this follow what runs and what is
answered in every history (`callbacks_and_replies`): the callbacks run when the request is
completed, each once, and the handle yields the result once.
-/

namespace RadarFeed

/-- What is done with a request. -/
inductive RequestMove (τ α : Type) where
  | onComplete (tag : τ)
  | complete (result : Option α)
  /-- The working half is dropped. -/
  | drop
  /-- The handle is asked for the result. -/
  | ask
  /-- The handle is polled for the result. -/
  | poll
  /-- The result is waited for, which uses up the handle. -/
  | await
  | dropHandle
deriving DecidableEq, Repr

/-- How the working half of a request has ended. -/
inductive Ending (α : Type) where
  | completed (result : Option α)
  | dropped
deriving DecidableEq, Repr

/-- What there is to be found once the working half has ended. -/
def Ending.result {α : Type} : Ending α → Option α
  | completed x => x
  | dropped => none

/-- What a move brings about besides the state of the request. -/
structure RequestEffect (τ α : Type) where
  /-- The callbacks that run, each with what it is given. -/
  called : List (τ × Option α)
  /-- What the handle tells. -/
  reply : Option (Request.Reply α)

namespace RequestMove

variable {τ α : Type}

def tag? : RequestMove τ α → Option τ
  | onComplete tag => some tag
  | _ => none

/-- How a move ends the working half. -/
def ending? : RequestMove τ α → Option (Ending α)
  | complete x => some (.completed x)
  | drop => some .dropped
  | _ => none

/-- A move that wants to know the result. -/
def reads : RequestMove τ α → Bool
  | ask | poll | await => true
  | _ => false

end RequestMove

/-- The result in the answer of a handle. -/
def Request.Reply.result? {α : Type} : Request.Reply α → Option (Option α)
  | .result x => some x
  | _ => none

theorem RequestMove.ending?_of_reads {τ α : Type} {move : RequestMove τ α}
    (h : move.reads = true) : move.ending? = none := by
  cases move <;> first | rfl | cases h

theorem RequestMove.tag?_of_reads {τ α : Type} {move : RequestMove τ α}
    (h : move.reads = true) : move.tag? = none := by
  cases move <;> first | rfl | cases h

namespace Request

variable {τ α : Type} {r : Request τ α} {moves : List (RequestMove τ α)} {move : RequestMove τ α}

/-! ## Histories -/

/-- Whether there is the half that a move needs. A handle that has found a result is not waited for
again. -/
def allows (r : Request τ α) : RequestMove τ α → Bool
  | .onComplete _ | .complete _ | .drop => r.callbacks.isSome
  | .ask | .dropHandle => r.held
  | .poll | .await => r.held && !r.answered

/-- A move of a request. A poll that breaks off tells nothing. -/
def step (r : Request τ α) : RequestMove τ α → Request τ α × RequestEffect τ α
  | .onComplete tag => (r.onComplete tag, ⟨[], none⟩)
  | .complete x => ((r.complete x).1, ⟨(r.complete x).2, none⟩)
  | .drop => (r.drop, ⟨[], none⟩)
  | .ask => (r.ask.1, ⟨[], some r.ask.2⟩)
  | .poll => ((r.poll.map Prod.fst).getD r, ⟨[], r.poll.map Prod.snd⟩)
  | .await => (r.await.1, ⟨[], some r.await.2⟩)
  | .dropHandle => (r.dropHandle, ⟨[], none⟩)

/-- The request after several moves. -/
def run (r : Request τ α) (moves : List (RequestMove τ α)) : Request τ α :=
  moves.foldl (fun r move => (r.step move).1) r

/-- Each of several moves can be made in its turn. -/
def allowsAll (r : Request τ α) : List (RequestMove τ α) → Bool
  | [] => true
  | move :: moves => r.allows move && (r.step move).1.allowsAll moves

/-- The callbacks that run in several moves, each with what it is given. -/
def called (r : Request τ α) : List (RequestMove τ α) → List (τ × Option α)
  | [] => []
  | move :: moves => (r.step move).2.called ++ (r.step move).1.called moves

/-- The results that the handle yields in several moves. -/
def results (r : Request τ α) : List (RequestMove τ α) → List (Option α)
  | [] => []
  | move :: moves =>
    ((r.step move).2.reply.bind Reply.result?).toList ++ (r.step move).1.results moves

/-- The callbacks that moves register. -/
def registered (moves : List (RequestMove τ α)) : List τ :=
  moves.filterMap RequestMove.tag?

/-- How moves have ended the working half, if they have. -/
def ending? (moves : List (RequestMove τ α)) : Option (Ending α) :=
  moves.findSome? RequestMove.ending?

theorem run_concat (r : Request τ α) (moves : List (RequestMove τ α)) (move : RequestMove τ α) :
    r.run (moves ++ [move]) = ((r.run moves).step move).1 := by
  simp only [run, List.foldl_append, List.foldl_cons, List.foldl_nil]

theorem allowsAll_append (r : Request τ α) (s t : List (RequestMove τ α)) :
    r.allowsAll (s ++ t) = (r.allowsAll s && (r.run s).allowsAll t) := by
  induction s generalizing r with
  | nil => rfl
  | cons move s ih =>
    rw [List.cons_append, allowsAll, ih, allowsAll, Bool.and_assoc]
    rfl

theorem allowsAll_concat :
    r.allowsAll (moves ++ [move]) = true ↔
      r.allowsAll moves = true ∧ (r.run moves).allows move = true := by
  rw [allowsAll_append, allowsAll, allowsAll, Bool.and_true, Bool.and_eq_true]

theorem called_concat (r : Request τ α) (moves : List (RequestMove τ α)) (move : RequestMove τ α) :
    r.called (moves ++ [move]) = r.called moves ++ ((r.run moves).step move).2.called := by
  induction moves generalizing r with
  | nil => simp [called, run]
  | cons first moves ih =>
    rw [List.cons_append, called, ih, called, List.append_assoc]
    rfl

theorem results_concat (r : Request τ α) (moves : List (RequestMove τ α))
    (move : RequestMove τ α) :
    r.results (moves ++ [move]) =
      r.results moves ++ (((r.run moves).step move).2.reply.bind Reply.result?).toList := by
  induction moves generalizing r with
  | nil => simp [results, run]
  | cons first moves ih =>
    rw [List.cons_append, results, ih, results, List.append_assoc]
    rfl

theorem registered_concat (moves : List (RequestMove τ α)) (move : RequestMove τ α) :
    registered (moves ++ [move]) = registered moves ++ move.tag?.toList := by
  cases move <;> simp [registered, RequestMove.tag?]

theorem ending?_concat (moves : List (RequestMove τ α)) (move : RequestMove τ α) :
    ending? (moves ++ [move]) = (ending? moves).or move.ending? := by
  rw [ending?, List.findSome?_append]
  cases move <;> rfl

/-! ## The state of a request -/

/-- What the handle finds when the working half has ended. -/
def slotOf : Ending α → Slot α
  | .completed x => .filled x
  | .dropped => .closed

/-- What a handle tells when the working half has ended so, if it has, and these results have been
found before. -/
def due : Option (Ending α) → List (Option α) → Reply α
  | none, _ => .pending
  | some e, [] => .result e.result
  | some _, _ :: _ => .result none

/-- The state of a request after a history in which its handle has found some results. -/
structure Tracks (moves : List (RequestMove τ α)) (found : List (Option α)) (r : Request τ α) :
    Prop where
  callbacks : r.callbacks = if (ending? moves).isNone then some (registered moves) else none
  slot : r.slot = match ending? moves with
    | none => .waiting
    | some e => if r.held && !r.answered then slotOf e else .closed
  answered : r.held = true → (r.answered = true ↔ found ≠ [])
  /-- Nothing is found before the working half has ended, and only the first result is that of the
  request. -/
  found : found = [] ∨ ∃ e k, ending? moves = some e ∧ found = e.result :: List.replicate k none

theorem tracks_new : Tracks [] [] (new : Request τ α) :=
  ⟨rfl, rfl, fun _ => by simp [new], .inl rfl⟩

theorem poll_eq (hn : r.answered = false) : r.poll = some r.ask := by
  rw [poll, hn]
  rfl

section
variable {found : List (Option α)} (h : Tracks moves found r)
include h

theorem Tracks.open_iff : r.callbacks.isSome = true ↔ ending? moves = none := by
  rw [h.callbacks]
  cases ending? moves <;> simp

theorem Tracks.callbacks_eq (ho : ending? moves = none) :
    r.callbacks = some (registered moves) := by
  rw [h.callbacks, ho]
  rfl

theorem Tracks.found_eq_nil (ho : ending? moves = none) : found = [] := by
  rcases h.found with hnil | ⟨e, k, he, -⟩
  · exact hnil
  · rw [ho] at he
    cases he

/-- Asking a handle that is there. -/
theorem Tracks.ask (hh : r.held = true) :
    r.ask = match ending? moves with
      | none => (r, .pending)
      | some e => ({ r with slot := .closed, answered := true }, due (some e) found) := by
  obtain ⟨callbacks, slot, held, answered⟩ := r
  obtain rfl : held = true := hh
  have ha : answered = true ↔ found ≠ [] := h.answered rfl
  have hs := h.slot
  cases he : ending? moves with
  | none =>
    obtain rfl : slot = .waiting := by rw [he] at hs; exact hs
    rfl
  | some e =>
    rw [he] at hs
    cases found with
    | nil =>
      obtain rfl : answered = false := by simpa using ha
      obtain rfl : slot = slotOf e := hs
      cases e <;> rfl
    | cons x found =>
      obtain rfl : answered = true := ha.2 (List.cons_ne_nil x found)
      obtain rfl : slot = .closed := hs
      rfl

theorem Tracks.ask_snd (hh : r.held = true) : r.ask.2 = due (ending? moves) found := by
  rw [h.ask hh]
  cases ending? moves <;> rfl

/-- Waiting for the result, which a handle does as long as the working half has not ended. -/
theorem Tracks.await (hh : r.held = true) (hn : r.answered = false) :
    r.await = match ending? moves with
      | none => (r, .pending)
      | some e => ({ r with held := false, slot := .closed }, due (some e) found) := by
  unfold Request.await canAwait
  rw [hn, h.callbacks]
  cases he : ending? moves with
  | none => rfl
  | some e =>
    simp only [Option.isNone_some, Bool.false_eq_true, if_false, Option.isNone_none, Bool.not_false,
      Bool.and_true, if_true, hh]
    rw [h.ask_snd hh, he]

/-- Whoever wants to know the result is told what is due. -/
theorem Tracks.reply (hr : move.reads = true) (ha : r.allows move = true) :
    (r.step move).2.reply = some (due (ending? moves) found) := by
  cases move with
  | ask => exact congrArg some (h.ask_snd ha)
  | poll =>
    obtain ⟨hh, hn⟩ : r.held = true ∧ r.answered = false := by simpa [allows] using ha
    simp only [step, poll_eq hn, Option.map_some, h.ask_snd hh]
  | await =>
    obtain ⟨hh, hn⟩ : r.held = true ∧ r.answered = false := by simpa [allows] using ha
    rw [step, h.await hh hn]
    cases ending? moves <;> rfl
  | _ => cases hr

/-- The results that have been found once the handle has told what is due. -/
theorem Tracks.found_due :
    found ++ (due (ending? moves) found).result?.toList = [] ∨
      ∃ e k, ending? moves = some e ∧
        found ++ (due (ending? moves) found).result?.toList = e.result :: List.replicate k none := by
  rcases h.found with rfl | ⟨e, k, he, rfl⟩
  · cases he : ending? moves with
    | none => exact .inl rfl
    | some e => exact .inr ⟨e, 0, rfl, rfl⟩
  · refine .inr ⟨e, k + 1, he, ?_⟩
    rw [he, List.replicate_succ', ← List.cons_append]
    rfl

/-- The state once the handle has been asked. -/
theorem Tracks.asked (hh : r.held = true) :
    Tracks moves (found ++ (due (ending? moves) found).result?.toList) r.ask.1 := by
  have hfound := h.found_due
  rw [h.ask hh]
  cases he : ending? moves with
  | none =>
    obtain rfl := h.found_eq_nil he
    exact h
  | some e =>
    rw [he] at hfound
    refine ⟨h.callbacks, ?_, fun _ => ?_, he ▸ hfound⟩
    · rw [he]
      simp
    · cases found <;> simp [due, Reply.result?]

/-- The state once the result has been waited for. -/
theorem Tracks.awaited (hh : r.held = true) (hn : r.answered = false) :
    Tracks moves (found ++ (due (ending? moves) found).result?.toList) r.await.1 := by
  have hfound := h.found_due
  rw [h.await hh hn]
  cases he : ending? moves with
  | none =>
    obtain rfl := h.found_eq_nil he
    exact h
  | some e =>
    rw [he] at hfound
    refine ⟨h.callbacks, ?_, fun h => ?_, he ▸ hfound⟩
    · rw [he]
      simp
    · cases h

theorem Tracks.concat_reads (hr : move.reads = true) : Tracks (moves ++ [move]) found r := by
  have he : ending? (moves ++ [move]) = ending? moves := by
    rw [ending?_concat, RequestMove.ending?_of_reads hr, Option.or_none]
  have hg : registered (moves ++ [move]) = registered moves := by
    rw [registered_concat, RequestMove.tag?_of_reads hr, Option.toList_none, List.append_nil]
  exact ⟨he ▸ hg ▸ h.callbacks, he ▸ h.slot, h.answered, he ▸ h.found⟩

/-- What has been found is that which the working half has ended with, whatever comes next. -/
theorem Tracks.found_concat (move : RequestMove τ α) :
    found = [] ∨ ∃ e k, ending? (moves ++ [move]) = some e ∧
      found = e.result :: List.replicate k none := by
  refine h.found.imp_right ?_
  rintro ⟨e, k, he, hfound⟩
  exact ⟨e, k, by rw [ending?_concat, he]; rfl, hfound⟩

theorem Tracks.onComplete (ho : ending? moves = none) (tag : τ) :
    Tracks (moves ++ [.onComplete tag]) found (r.onComplete tag) := by
  have he : ending? (moves ++ [.onComplete tag]) = none := by rw [ending?_concat, ho]; rfl
  have hslot := h.slot
  refine ⟨?_, ?_, h.answered, h.found_concat _⟩
  · rw [he, registered_concat, Request.onComplete, h.callbacks_eq ho]
    rfl
  · rw [ho] at hslot
    rw [he]
    exact hslot

theorem Tracks.complete (ho : ending? moves = none) (x : Option α) :
    Tracks (moves ++ [.complete x]) found (r.complete x).1 := by
  have he : ending? (moves ++ [.complete x]) = some (.completed x) := by
    rw [ending?_concat, ho]; rfl
  have hn : r.held = true → r.answered = false := fun hh => by
    simpa [h.found_eq_nil ho] using h.answered hh
  have hr : (r.complete x).1 =
      { r with callbacks := none, slot := if r.held then .filled x else .closed } := by
    rw [Request.complete, h.callbacks_eq ho]
  rw [hr]
  refine ⟨by rw [he]; rfl, ?_, h.answered, h.found_concat _⟩
  rw [he]
  by_cases hh : r.held = true
  · simp [hh, hn hh, slotOf]
  · simp [hh]

theorem Tracks.drop (ho : ending? moves = none) : Tracks (moves ++ [.drop]) found r.drop := by
  have he : ending? (moves ++ [.drop]) = some .dropped := by rw [ending?_concat, ho]; rfl
  have hr : r.drop = { r with callbacks := none, slot := .closed } := by
    rw [Request.drop, h.callbacks_eq ho]
  rw [hr]
  refine ⟨by rw [he]; rfl, ?_, h.answered, h.found_concat _⟩
  rw [he]
  simp [slotOf]

theorem Tracks.dropHandle : Tracks (moves ++ [.dropHandle]) found r.dropHandle := by
  have he : ending? (moves ++ [.dropHandle]) = ending? moves := by
    rw [ending?_concat]; exact Option.or_none
  have hg : registered (moves ++ [.dropHandle]) = registered moves := by
    rw [registered_concat]; exact List.append_nil _
  have hslot := h.slot
  refine ⟨by rw [he, hg]; exact h.callbacks, ?_, (fun hh => by cases hh), h.found_concat _⟩
  rw [he, Request.dropHandle, h.callbacks]
  cases ho : ending? moves with
  | none =>
    rw [ho] at hslot
    exact hslot
  | some e => simp

/-- **What a move makes of a request.** -/
theorem Tracks.step (ha : r.allows move = true) :
    Tracks (moves ++ [move]) (found ++ ((r.step move).2.reply.bind Reply.result?).toList)
      (r.step move).1 := by
  by_cases hr : move.reads = true
  · rw [h.reply hr ha, Option.bind_some]
    cases move with
    | ask => exact (h.asked ha).concat_reads hr
    | poll =>
      obtain ⟨hh, hn⟩ : r.held = true ∧ r.answered = false := by simpa [allows] using ha
      rw [Request.step, poll_eq hn]
      exact (h.asked hh).concat_reads hr
    | await =>
      obtain ⟨hh, hn⟩ : r.held = true ∧ r.answered = false := by simpa [allows] using ha
      exact (h.awaited hh hn).concat_reads hr
    | _ => cases hr
  · have hfound : found ++ ((r.step move).2.reply.bind Reply.result?).toList = found := by
      cases move <;> first | exact List.append_nil _ | exact absurd rfl hr
    rw [hfound]
    cases move with
    | onComplete tag => exact h.onComplete (h.open_iff.1 ha) tag
    | complete x => exact h.complete (h.open_iff.1 ha) x
    | drop => exact h.drop (h.open_iff.1 ha)
    | dropHandle => exact h.dropHandle
    | _ => exact absurd rfl hr

end

/-- A request after a history. -/
theorem tracks_run (h : (new : Request τ α).allowsAll moves = true) :
    Tracks moves ((new : Request τ α).results moves) (new.run moves) := by
  induction moves using List.reverseRecOn with
  | nil => exact tracks_new
  | append_singleton moves move ih =>
    obtain ⟨hs, hm⟩ := allowsAll_concat.1 h
    rw [results_concat, run_concat]
    exact (ih hs).step hm

/-! ## Callbacks and replies -/

/-- What is due to callbacks when the working half has ended so, if it has. -/
def calls : Option (Ending α) → List τ → List (τ × Option α)
  | some (.completed x), tags => tags.map fun tag => (tag, x)
  | _, _ => []

theorem called_run (h : (new : Request τ α).allowsAll moves = true) :
    (new : Request τ α).called moves = calls (ending? moves) (registered moves) := by
  induction moves using List.reverseRecOn with
  | nil => rfl
  | append_singleton moves move ih =>
    obtain ⟨hs, hm⟩ := allowsAll_concat.1 h
    have ht := tracks_run hs
    rw [called_concat, ih hs, ending?_concat, registered_concat]
    cases move with
    | onComplete tag => rw [ht.open_iff.1 hm]; rfl
    | complete x =>
      have ho := ht.open_iff.1 hm
      rw [ho, step, complete, ht.callbacks_eq ho]
      simp [calls, RequestMove.ending?, RequestMove.tag?]
    | drop => rw [ht.open_iff.1 hm]; rfl
    | ask | poll | await | dropHandle =>
      show _ ++ [] = calls ((ending? moves).or none) (registered moves ++ [])
      rw [List.append_nil, List.append_nil, Option.or_none]

theorem ending?_eq_none_iff :
    ending? moves = none ↔ (∀ x, .complete x ∉ moves) ∧ .drop ∉ moves := by
  rw [ending?, List.findSome?_eq_none_iff]
  constructor
  · intro h
    refine ⟨fun x hx => ?_, fun hd => ?_⟩
    · cases h _ hx
    · cases h _ hd
  · rintro ⟨hc, hd⟩ move hmove
    cases move with
    | complete x => exact absurd hmove (hc x)
    | drop => exact absurd hmove hd
    | _ => rfl

theorem due_eq_pending_iff {e : Option (Ending α)} {found : List (Option α)} :
    due e found = .pending ↔ e = none := by
  cases e <;> cases found <;> simp [due]

/-- The callbacks that a move of a history runs. -/
theorem Tracks.called {found : List (Option α)} (h : Tracks moves found r)
    (ha : r.allows move = true) :
    (r.step move).2.called = calls move.ending? (registered moves) := by
  cases move with
  | complete x => rw [Request.step, Request.complete, h.callbacks_eq (h.open_iff.1 ha)]; rfl
  | _ => rfl

/-- **Callbacks and replies.** In every history the callbacks run when the request is completed, in
the order in which they were registered, each once and with the result, and nothing else runs any.
The handle tells that the request is open as long as it has neither been completed nor dropped. The
first result that it yields is the one that the request was completed with, or none if it was
dropped, and every later one is none: so a record is handed out once at most. -/
theorem callbacks_and_replies (h : (new : Request τ α).allowsAll moves = true) :
    (new : Request τ α).called moves = calls (ending? moves) (registered moves) ∧
      (∀ before move after, moves = before ++ move :: after →
        let effect := (((new : Request τ α).run before).step move).2
        effect.called = calls move.ending? (registered before) ∧
          (move.reads = true →
            effect.reply = some (due (ending? before) ((new : Request τ α).results before)) ∧
              (effect.reply = some .pending ↔ (∀ x, .complete x ∉ before) ∧ .drop ∉ before))) ∧
      ((new : Request τ α).results moves = [] ∨ ∃ e k, ending? moves = some e ∧
        (new : Request τ α).results moves = e.result :: List.replicate k none) ∧
      ((new : Request τ α).results moves).countP Option.isSome ≤ 1 := by
  have hfound := (tracks_run h).found
  refine ⟨called_run h, ?_, hfound, ?_⟩
  · rintro before move after rfl
    have hall := allowsAll_append (new : Request τ α) before (move :: after)
    rw [h, allowsAll] at hall
    obtain ⟨hbefore, hmove⟩ := Bool.and_eq_true_iff.1 hall.symm
    have ht := tracks_run hbefore
    have ha := (Bool.and_eq_true_iff.1 hmove).1
    refine ⟨ht.called ha, fun hr => ?_⟩
    have hreply := ht.reply hr ha
    refine ⟨hreply, ?_⟩
    rw [hreply, Option.some.injEq, due_eq_pending_iff, ending?_eq_none_iff]
  · rcases hfound with hnil | ⟨e, k, -, hk⟩
    · rw [hnil]
      exact Nat.zero_le 1
    · rw [hk, List.countP_cons, List.countP_replicate]
      cases e.result <;> simp

/-- Two callbacks are registered, and the handle is asked before and after the end. -/
theorem callbacks_and_replies_of_record :
    let moves : List (RequestMove String Nat) :=
      [.onComplete "first", .ask, .onComplete "second", .poll, .complete (some 7), .poll, .ask]
    (new : Request String Nat).allowsAll moves = true ∧
      (new : Request String Nat).called moves = [("first", some 7), ("second", some 7)] ∧
      (new : Request String Nat).results moves = [some 7, none] ∧
      ((new : Request String Nat).results moves).countP Option.isSome ≤ 1 := by
  intro moves
  have hall : (new : Request String Nat).allowsAll moves = true := rfl
  obtain ⟨hcalled, -, -, honce⟩ := callbacks_and_replies hall
  exact ⟨hall, hcalled, rfl, honce⟩

end Request

end RadarFeed
