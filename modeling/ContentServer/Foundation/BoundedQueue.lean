import ContentServer.Foundation.Noninterference

/-!
# Bounded queues

A first-in first-out queue of at most `capacity` items, as a machine.  Items
join at the back, several at a time or not at all; they are looked at and
dropped at the front.
-/

namespace Foundation

/-- A queue that never holds more than `capacity` items. -/
structure BoundedQueue (α : Type) (capacity : Nat) where
  items : List α
  length_le : items.length ≤ capacity

inductive QueueCall (α : Type) where
  /-- Append all of `data`, or refuse. -/
  | write (data : List α)
  /-- Append items that the caller knows to fit. -/
  | place (data : List α)
  /-- Copy the first `len` items over the start of `dest`. -/
  | peek (dest : List α) (len : Nat)
  | drop (count : Nat)
  | clear
deriving DecidableEq

inductive QueueAnswer (α : Type) where
  | written (ok : Bool)
  /-- What `dest` holds after a look at the queue. -/
  | peeked (dest : List α)
deriving DecidableEq

namespace BoundedQueue

variable {α : Type} {capacity : Nat}

def empty : BoundedQueue α capacity where
  items := []
  length_le := Nat.zero_le capacity

def append (q : BoundedQueue α capacity) (data : List α)
    (h : q.items.length + data.length ≤ capacity) : BoundedQueue α capacity where
  items := q.items ++ data
  length_le := by
    rw [List.length_append]
    exact h

def dropFront (q : BoundedQueue α capacity) (count : Nat) :
    BoundedQueue α capacity where
  items := q.items.drop count
  length_le := by
    rw [List.length_drop]
    exact (Nat.sub_le _ _).trans q.length_le

/-- A look at more items than there are copies nothing. -/
def peek (q : BoundedQueue α capacity) (dest : List α) (len : Nat) : List α :=
  if len ≤ q.items.length then q.items.take len ++ dest.drop len
  else dest

def call : Machine (BoundedQueue α capacity) (QueueCall α) (QueueAnswer α)
  | q, .write data =>
      if h : q.items.length + data.length ≤ capacity then
        some (q.append data h, [.written true])
      else some (q, [.written false])
  | q, .place data =>
      if h : q.items.length + data.length ≤ capacity then
        some (q.append data h, [])
      else none
  | q, .peek dest len => some (q, [.peeked (q.peek dest len)])
  | q, .drop count =>
      if count ≤ q.items.length then some (q.dropFront count, [])
      else none
  | _, .clear => some (empty, [])

end BoundedQueue

end Foundation
