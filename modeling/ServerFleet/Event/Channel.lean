/-!
A channel on which every subscriber reads every message sent after it subscribed, as long as it
does not fall behind by more than the capacity. The channel keeps the latest messages only; a
subscriber that needs an older one is told how many it missed and goes on with the oldest kept.
-/

namespace ServerFleet

/-- A channel for messages of a type. -/
structure Channel (α : Type u) where
  /-- The number of messages that are kept. -/
  capacity : Nat
  /-- The latest messages, oldest first. -/
  kept : List α
  /-- The number of messages sent so far. -/
  sent : Nat
  /-- The number of messages each subscriber is done with; `none` once it left. -/
  cursors : List (Option Nat)
  /-- Whether messages may still come. -/
  isOpen : Bool

/-- What a subscriber gets when it asks for a message. -/
inductive Received (α : Type u) where
  | message (a : α)
  /-- So many messages were lost to this subscriber. -/
  | lagged (missed : Nat)
  /-- Everything was read. -/
  | empty
  /-- Everything was read and nothing more will come. -/
  | closed
  /-- There is no such subscriber. -/
  | noSubscriber

namespace Channel

variable {α : Type u}

/-- The number of messages kept when nothing else is asked for. -/
def defaultCapacity : Nat := 256

/-- A channel that keeps at least `capacity` messages. -/
def create (capacity : Nat) : Channel α :=
  ⟨(max capacity 1).nextPowerOfTwo, [], 0, [], true⟩

/-- Adds a subscriber, which reads what is sent from now on; gives its number. A subscriber of a
closed channel is none from the start. -/
def subscribe (c : Channel α) : Channel α × Nat :=
  ({ c with cursors := c.cursors ++ [if c.isOpen then some c.sent else none] }, c.cursors.length)

def unsubscribe (c : Channel α) (subscriber : Nat) : Channel α :=
  { c with cursors := c.cursors.set subscriber none }

def subscriberCount (c : Channel α) : Nat := c.cursors.countP (·.isSome)

/-- The latest messages after one more. -/
def keepLatest (capacity : Nat) (kept : List α) (a : α) : List α :=
  (kept ++ [a]).drop (kept.length + 1 - capacity)

/-- Sends a message; without subscribers it is lost. -/
def send (c : Channel α) (a : α) : Channel α :=
  if c.isOpen && c.subscriberCount != 0 then
    { c with kept := keepLatest c.capacity c.kept a, sent := c.sent + 1 }
  else c

/-- The next message for a subscriber. -/
def receive (c : Channel α) (subscriber : Nat) : Channel α × Received α :=
  match c.cursors[subscriber]?.join with
  | none => (c, .noSubscriber)
  | some next =>
    let oldest := c.sent - c.capacity
    if c.sent ≤ next then (c, if c.isOpen then .empty else .closed)
    else if next < oldest then
      ({ c with cursors := c.cursors.set subscriber (some oldest) }, .lagged (oldest - next))
    else
      match c.kept[c.kept.length - (c.sent - next)]? with
      | some a => ({ c with cursors := c.cursors.set subscriber (some (next + 1)) }, .message a)
      | none => (c, .empty)

/-- Ends the channel; what is kept can still be read. -/
def close (c : Channel α) : Channel α := { c with isOpen := false }

end Channel

end ServerFleet
