/-!
Channels: one sender, any number of readers, each with a place of its own.

A channel keeps a limited number of messages. A reader that has fallen behind is told how many it
has missed and goes on with the oldest message that is kept. A new reader gets what is sent from
then on.
-/

namespace RadarFeed

structure Channel (α : Type) where
  /-- The number of messages that are kept. -/
  capacity : Nat
  /-- All messages, the oldest first. -/
  sent : List α
deriving Inhabited

/-- The number of messages a reader has received or missed. -/
abbrev Place := Nat

/-- What a reader gets. -/
structure Delivery (α : Type) where
  /-- The number of messages that it has missed. -/
  missed : Nat
  messages : List α
deriving DecidableEq, Repr

/-- The smallest power of two that is not below `n`, found by doubling `m` as often as `steps`
allows. -/
def doubled (n : Nat) : Nat → Nat → Nat
  | 0, m => m
  | steps + 1, m => if n ≤ m then m else doubled n steps (2 * m)

/-- The smallest power of two that is not below `n`. -/
def nextPowerOfTwo (n : Nat) : Nat :=
  doubled n n 1

namespace Channel

variable {α : Type}

/-- A channel for at least one message, its size rounded up to a power of two. -/
def new (capacity : Nat) : Channel α :=
  ⟨nextPowerOfTwo (max capacity 1), []⟩

/-- Sends a message. -/
def send (c : Channel α) (x : α) : Channel α :=
  { c with sent := c.sent ++ [x] }

/-- The place of a reader that starts now. -/
def tail (c : Channel α) : Place :=
  c.sent.length

/-- The number of messages no longer kept. -/
def lost (c : Channel α) : Nat :=
  c.sent.length - c.capacity

/-- What a reader at a place gets. -/
def receive (c : Channel α) (place : Place) : Delivery α :=
  ⟨c.lost - place, c.sent.drop (max place c.lost)⟩

end Channel

example : nextPowerOfTwo 1 = 1 ∧ nextPowerOfTwo 5 = 8 ∧ nextPowerOfTwo 64 = 64 := by decide

end RadarFeed
