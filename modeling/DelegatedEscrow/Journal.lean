/-
DelegatedEscrow/Journal.lean

The journal keeps the newest events, oldest first, up to a capacity of at least
one.  Ids go on increasing after old events have been dropped.

A subscriber polls with the last id it has seen.  `since` finds the first newer
event by bisection, which is right for ids in increasing order; with other ids
it stops where the bisection leads.
-/
import DelegatedEscrow.Bisection
import DelegatedEscrow.Event

namespace DelegatedEscrow

/-- The newest events. -/
structure Journal where
  /-- The events kept, oldest first. -/
  events : List Event
  /-- The id of the next event. -/
  nextId : EventId
  /-- How many events are kept. -/
  capacity : Nat
  capacity_pos : 0 < capacity
  length_le : events.length ≤ capacity

namespace Journal

/-- An empty journal that keeps `n` events, or one if `n` is zero. -/
def empty (n : Nat) : Journal where
  events := []
  nextId := 1
  capacity := max 1 n
  capacity_pos := by omega
  length_le := by simp

/-- Takes an id out of the sequence. -/
def issueId (j : Journal) : Journal × EventId :=
  ({ j with nextId := j.nextId + 1 }, j.nextId)

/-- Adds an event and drops the oldest ones beyond the capacity. -/
def append (j : Journal) (e : Event) : Journal :=
  { j with
    events := (j.events ++ [e]).drop (j.events.length + 1 - j.capacity)
    length_le := by simp; omega }

/-- Announces what happened: the event gets the next id. -/
def record (j : Journal) (now : Timestamp) (escrow : Identity) (nonce : Nonce)
    (payload : Payload) : Journal × EventId :=
  let (j, id) := j.issueId
  (j.append ⟨id, now, escrow, nonce, payload⟩, id)

/-- The newest `n` events. -/
def recent (j : Journal) (n : Nat) : List Event := j.events.drop (j.events.length - n)

/-- The position of the first event newer than `after`. -/
def firstAfter (j : Journal) (after : EventId) : Nat :=
  bisect (fun i => (j.events[i]?).any fun e => e.id ≤ after) 0 j.events.length

/-- The events newer than `after`. -/
def since (j : Journal) (after : EventId) : List Event := j.events.drop (j.firstAfter after)

/-- The id of the newest event. -/
def lastId? (j : Journal) : Option EventId := j.events.getLast?.map Event.id

end Journal

end DelegatedEscrow
