import Mathlib

/-!
# The queues of the shards

`MPMCQueue` without its lock: every member function is one atomic operation.  A call
of `Pop` waits until the queue holds a value or is stopped.
-/

namespace ContentServer
namespace Consumers

structure MPMCQueue (T : Type) where
  queue : List T
  stopping : Bool

namespace MPMCQueue

variable {T : Type}

/-- A new queue. -/
def empty : MPMCQueue T where
  queue := []
  stopping := false

def push (q : MPMCQueue T) (value : T) : MPMCQueue T :=
  { q with queue := q.queue ++ [value] }

/-- `none` while the caller has to wait; else the answer with the value that was
taken out. -/
def pop (q : MPMCQueue T) : Option (Option T × MPMCQueue T) :=
  match q.queue with
  | [] => if q.stopping then some (none, q) else none
  | value :: rest => some (some value, { q with queue := rest })

def stop (q : MPMCQueue T) : MPMCQueue T :=
  { q with stopping := true }

/-- `Pop` takes the first value, whether the queue is stopped or not. -/
theorem pop_eq_some {q : MPMCQueue T} {value : T} {after : MPMCQueue T} :
    q.pop = some (some value, after) <->
      exists rest, q.queue = value :: rest ∧ after = { q with queue := rest } := by
  rcases q with ⟨queue, stopping⟩
  unfold pop
  cases queue with
  | nil => cases stopping <;> simp
  | cons first others => simp [eq_comm]

/-- `Pop` gives up when the queue is stopped and empty. -/
theorem pop_eq_none {q after : MPMCQueue T} :
    q.pop = some (none, after) <-> q.queue = [] ∧ q.stopping = true ∧ after = q := by
  rcases q with ⟨queue, stopping⟩
  unfold pop
  cases queue with
  | nil => cases stopping <;> simp [eq_comm]
  | cons first others => simp

/-- The caller has to wait for a value or for `Stop`. -/
theorem pop_waits {q : MPMCQueue T} :
    q.pop = none <-> q.queue = [] ∧ q.stopping = false := by
  rcases q with ⟨queue, stopping⟩
  unfold pop
  cases queue with
  | nil => cases stopping <;> simp
  | cons first others => simp

theorem foldl_push (q : MPMCQueue T) (values : List T) :
    values.foldl push q = { q with queue := q.queue ++ values } := by
  induction values generalizing q with
  | nil =>
      rw [List.append_nil]
      rfl
  | cons value rest ih =>
      rw [List.foldl_cons, ih]
      simp only [push, List.append_assoc, List.singleton_append]

end MPMCQueue

end Consumers
end ContentServer
