/-!
Requests for a result.

A request has two halves. Who works on it holds the one: he may register callbacks and then, once,
complete the request or drop it. Who waits holds the other, the handle: he may ask for the result
or wait for it. `Request` is the state of both. The result of a request that is dropped is absent,
and so is every result that is asked for after the first one.
-/

namespace RadarFeed

/-- What the handle of a request finds. -/
inductive Slot (α : Type) where
  /-- Nothing yet. -/
  | waiting
  | filled (result : Option α)
  /-- Nothing any more: the request was dropped or its result has been handed out. -/
  | closed
deriving Repr

/-- A request with callbacks that are known by tags in `τ` and a result in `α`. -/
structure Request (τ α : Type) where
  /-- The callbacks that are registered, as long as the working half is there. -/
  callbacks : Option (List τ)
  slot : Slot α
  /-- The handle is there. -/
  held : Bool
  /-- The handle has been asked and has found a result, or that there will be none. -/
  answered : Bool
deriving Repr

namespace Request

variable {τ α : Type}

def new : Request τ α := ⟨some [], .waiting, true, false⟩

instance : Inhabited (Request τ α) := ⟨new⟩

/-- Registers a callback. -/
def onComplete (r : Request τ α) (tag : τ) : Request τ α :=
  { r with callbacks := r.callbacks.map fun tags => tags ++ [tag] }

/-- Describes the working half. -/
def describe (r : Request τ α) : Option String :=
  r.callbacks.map fun tags => "LoadRequest \x7b callbacks: " ++ toString tags.length ++ " \x7d"

/-- Completes a request. The callbacks run, in the order in which they were registered. -/
def complete (r : Request τ α) (result : Option α) : Request τ α × List (τ × Option α) :=
  match r.callbacks with
  | none => (r, [])
  | some tags =>
    ({ r with callbacks := none, slot := if r.held then .filled result else .closed },
      tags.map fun tag => (tag, result))

/-- Drops the working half. -/
def drop (r : Request τ α) : Request τ α :=
  match r.callbacks with
  | none => r
  | some _ => { r with callbacks := none, slot := .closed }

/-- Drops the handle, and with it a result that nobody has asked for. -/
def dropHandle (r : Request τ α) : Request τ α :=
  { r with held := false, slot := if r.callbacks.isSome then r.slot else .closed }

/-- What a handle is told. -/
inductive Reply (α : Type) where
  /-- There is no handle. -/
  | noHandle
  /-- The request is still open. -/
  | pending
  | result (x : Option α)
deriving Repr

/-- Asks for the result without waiting. -/
def ask (r : Request τ α) : Request τ α × Reply α :=
  if r.held then
    match r.slot with
    | .waiting => (r, .pending)
    | .filled x => ({ r with slot := .closed, answered := true }, .result x)
    | .closed => ({ r with answered := true }, .result none)
  else (r, .noHandle)

/-- Polls the handle, as whoever waits for the result does. A handle that has found a result, or
that there will be none, must not be polled again: there the poll breaks off. -/
def poll (r : Request τ α) : Option (Request τ α × Reply α) :=
  if r.answered then none else some r.ask

/-- The request can be waited for: it is settled, and its handle has not found that yet. -/
def canAwait (r : Request τ α) : Bool :=
  r.callbacks.isNone && !r.answered

/-- Waits for the result of a settled request, which uses up the handle. -/
def await (r : Request τ α) : Request τ α × Reply α :=
  if r.canAwait then
    if r.held then ({ r with held := false, slot := .closed }, r.ask.2) else (r, .noHandle)
  else (r, .pending)

end Request

end RadarFeed
