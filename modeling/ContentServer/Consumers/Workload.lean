import ContentServer.Consumers.Dispatch
import ContentServer.Consumers.Utterances
import ContentServer.Foundation.Workloads

/-!
# The work that is left

What waits in the queues and what the consumers still have to do comes to its
end when no more is brought in: handlers are programs, and the only messages
that they post are trade requests, whose handlers post nothing.
-/

namespace ContentServer
namespace Consumers

open Foundation Protocol Sessions Registry Storage

variable {double : Type} {pg : Postgres double}

/-- What is left of a handler. -/
def restTasks : Handler double Unit -> Multiset (Task (@Answer double) ShardMsg)
  | .done () => 0
  | .call o next => {.running (.call o next)}

/-- What the consumer of a shard does. -/
def consumerTasks (s : Service pg) (k : Nat) : Multiset (Task (@Answer double) ShardMsg) :=
  match s.consumers k with
  | none => 0
  | some w => {.running w.rest}

/-- The messages of a queue. -/
def waitingTasks (msgs : List ShardMsg) : Multiset (Task (@Answer double) ShardMsg) :=
  Multiset.ofList (msgs.map .waiting)

/-- What waits in the queue of a shard. -/
def queueTasks (s : Service pg) (k : Nat) : Multiset (Task (@Answer double) ShardMsg) :=
  waitingTasks (s.waiting k)

/-- The work of all shards. -/
def workload (n : Nat) (s : Service pg) : Multiset (Task (@Answer double) ShardMsg) :=
  (Finset.range n).sum (queueTasks s) + (Finset.range n).sum (consumerTasks s)

theorem eq_of_mem_restTasks {x : Handler double Unit}
    {a : Task (@Answer double) ShardMsg} (h : a ∈ restTasks x) : a = .running x := by
  cases x with
  | done u => cases h
  | call o next => exact Multiset.mem_singleton.mp h

/-- A consumer that goes on changes the work at its place only. -/
theorem sum_consumerTasks_goOn {n k : Nat} (hk : k < n) (s : Service pg) (msg : ShardMsg)
    (log : Log double) (x : Handler double Unit) :
    (Finset.range n).sum (consumerTasks (s.goOn k msg log x)) + consumerTasks s k =
      (Finset.range n).sum (consumerTasks s) + restTasks x := by
  have hplace : consumerTasks (s.goOn k msg log x) =
      Function.update (consumerTasks s) k (restTasks x) := by
    funext i
    by_cases hi : i = k
    · subst hi
      rw [Function.update_self]
      cases x <;> (unfold consumerTasks Service.goOn; simp only [Function.update_self]; rfl)
    · rw [Function.update_of_ne hi]
      unfold consumerTasks
      rw [Service.goOn_consumers_of_ne hi]
  rw [hplace, sum_update_place hk]

theorem waitingTasks_cons (msg : ShardMsg) (rest : List ShardMsg) :
    (waitingTasks (msg :: rest) : Multiset (Task (@Answer double) ShardMsg)) =
      {.waiting msg} + waitingTasks rest := rfl

theorem waitingTasks_append (msgs more : List ShardMsg) :
    (waitingTasks (msgs ++ more) : Multiset (Task (@Answer double) ShardMsg)) =
      waitingTasks msgs + waitingTasks more := by
  unfold waitingTasks
  rw [List.map_append]
  rfl

/-- A queue that changes changes the work that waits at its place only. -/
theorem sum_queueTasks {n k : Nat} (hk : k < n) {s t : Service pg}
    {queue : List ShardMsg}
    (h : t.waiting = Function.update s.waiting k queue) :
    (Finset.range n).sum (queueTasks t) + queueTasks s k =
      (Finset.range n).sum (queueTasks s) + waitingTasks queue := by
  have hplace : queueTasks t = Function.update (queueTasks s) k (waitingTasks queue) := by
    funext i
    unfold queueTasks
    rw [h]
    by_cases hi : i = k
    · rw [hi, Function.update_self, Function.update_self]
    · rw [Function.update_of_ne hi, Function.update_of_ne hi]
  rw [hplace, sum_update_place hk]

theorem mem_workload {n : Nat} {s : Service pg} {a : Task (@Answer double) ShardMsg}
    (h : a ∈ workload n s) :
    (exists msg, a = .waiting msg) ∨
      exists k w, s.consumers k = some w ∧ a = .running w.rest := by
  rcases Multiset.mem_add.mp h with hqueue | hconsumer
  · rcases Multiset.mem_sum.mp hqueue with ⟨k, _, hk⟩
    rcases List.mem_map.mp (Multiset.mem_coe.mp hk) with ⟨msg, _, rfl⟩
    exact Or.inl ⟨msg, rfl⟩
  · rcases Multiset.mem_sum.mp hconsumer with ⟨k, _, hk⟩
    unfold consumerTasks at hk
    cases hw : s.consumers k with
    | none =>
        rw [hw] at hk
        cases hk
    | some w =>
        rw [hw] at hk
        exact Or.inr ⟨k, w, hw, Multiset.mem_singleton.mp hk⟩

/-- Messages are handled, and posts order the handling of further messages. -/
def workshop [One double] : Workshop (@Answer double) ShardMsg where
  work := handle
  orders := fun o =>
    match o with
    | .post id m => [{ m with sessionId := id }]
    | _ => []

/-- Handlers of client messages post messages of other types, and those nothing. -/
def PostedBy (posted msg : ShardMsg) : Prop :=
  posted.type ≠ .client ∧ msg.type = .client

theorem postedBy_wellFounded : WellFounded PostedBy := by
  constructor
  intro msg
  refine ⟨_, fun posted h => ⟨_, fun other h' => ?_⟩⟩
  exact absurd h'.right h.left

variable [One double]

theorem ordersOnly_of_mannered {msg : ShardMsg} {x : Handler double Unit}
    (h : Mannered msg x) :
    ((@workshop double _).ordersOnly fun m => PostedBy m msg).Follows () x
      (fun _ _ => True) := by
  refine h.relax rfl ?_
  intro _ o hallowed posted hposted
  cases o with
  | post id m =>
      rcases hallowed with ⟨hclient, rfl⟩
      rw [List.mem_singleton.mp hposted]
      exact ⟨fun htype => (by cases htype), hclient⟩
  | _ => cases hposted

/-- The handling of every message comes to its end. -/
theorem acc_message (msg : ShardMsg) :
    Acc (@workshop double _).Follows (.waiting msg) :=
  Workshop.acc_waiting postedBy_wellFounded
    (fun m => ordersOnly_of_mannered (mannered_handle m)) msg

/-- A consumer takes a message from its queue. -/
theorem works_taken {n k : Nat} (hk : k < n) {s : Service pg} {msg : ShardMsg}
    {rest : List ShardMsg} (waits : s.consumers k = none)
    (queue : s.waiting k = msg :: rest) :
    (@workshop double _).Works
      (workload n ((s.withWaiting k rest).goOn k msg [] (handle msg))) (workload n s) := by
  refine ⟨restTasks (handle msg), .waiting msg, ?_, ?_⟩
  · intro a ha
    rw [eq_of_mem_restTasks ha]
    exact .started msg
  · have hrunning := sum_consumerTasks_goOn hk (s.withWaiting k rest) msg [] (handle msg)
    have hnone : consumerTasks (s.withWaiting k rest) k = 0 := by
      unfold consumerTasks
      rw [show (s.withWaiting k rest).consumers k = none from waits]
    rw [hnone, add_zero] at hrunning
    have hwaiting := sum_queueTasks hk (s := s)
      (t := (s.withWaiting k rest).goOn k msg [] (handle msg))
      (show _ = Function.update _ k rest by
        rw [Service.goOn_waiting, Service.waiting_withWaiting])
    have hself : queueTasks s k = {.waiting msg} + waitingTasks rest := by
      unfold queueTasks
      rw [queue, waitingTasks_cons]
    rw [hself, ← add_assoc] at hwaiting
    unfold workload
    rw [hrunning, ← add_right_cancel hwaiting]
    have hconsumers : consumerTasks (s.withWaiting k rest) = consumerTasks s := rfl
    rw [hconsumers]
    abel

/-- A handler calls an operation. -/
theorem works_acted {n k : Nat} (hk : k < n) {s : Service pg}
    (hshards : s.stores.manager.shardCount = n) {msg : ShardMsg} {log : Log double}
    {o : Op double} {next : Answer o -> Handler double Unit} (env : Environment double)
    (works : s.consumers k = some ⟨msg, log, .call o next⟩) :
    (@workshop double _).Works
      (workload n ({ s with stores := (s.stores.perform k msg env o).2 }.goOn k msg
        (⟨o, (s.stores.perform k msg env o).1⟩ :: log)
        (next (s.stores.perform k msg env o).1))) (workload n s) := by
  refine ⟨restTasks (next (s.stores.perform k msg env o).1) +
    waitingTasks ((@workshop double _).orders o), .running (.call o next), ?_, ?_⟩
  · intro a ha
    rcases Multiset.mem_add.mp ha with hrest | hposted
    · rw [eq_of_mem_restTasks hrest]
      exact .continued o next _
    · rcases List.mem_map.mp (Multiset.mem_coe.mp hposted) with ⟨m, hm, rfl⟩
      exact .ordered o next m hm
  · have hrunning := sum_consumerTasks_goOn hk
      { s with stores := (s.stores.perform k msg env o).2 } msg
      (⟨o, (s.stores.perform k msg env o).1⟩ :: log)
      (next (s.stores.perform k msg env o).1)
    have hself : consumerTasks
        { s with stores := (s.stores.perform k msg env o).2 } k =
          {.running (.call o next)} := by
      unfold consumerTasks
      simp only [works]
    have hwaiting : (Finset.range n).sum (queueTasks
        ({ s with stores := (s.stores.perform k msg env o).2 }.goOn k msg
          (⟨o, (s.stores.perform k msg env o).1⟩ :: log)
          (next (s.stores.perform k msg env o).1))) =
        (Finset.range n).sum (queueTasks s) +
          waitingTasks ((@workshop double _).orders o) := by
      have hsame : queueTasks
          ({ s with stores := (s.stores.perform k msg env o).2 }.goOn k msg
            (⟨o, (s.stores.perform k msg env o).1⟩ :: log)
            (next (s.stores.perform k msg env o).1)) =
          queueTasks { s with stores := (s.stores.perform k msg env o).2 } := by
        unfold queueTasks
        rw [Service.goOn_waiting]
      rw [hsame]
      cases o with
      | post id m =>
          have hn : 0 < n := Nat.lt_of_le_of_lt (Nat.zero_le k) hk
          have hsum := sum_queueTasks (Nat.mod_lt id hn) (s := s)
            (t := { s with stores := (s.stores.perform k msg env (.post id m)).2 })
            (show _ = Function.update _ (id % n)
              (s.waiting (id % n) ++ [{ m with sessionId := id }]) by
              rw [← hshards]
              exact Service.waiting_withQueue s (id % s.stores.manager.shardCount) _)
          rw [waitingTasks_append, ← add_assoc] at hsum
          apply add_right_cancel (b := queueTasks s (id % n))
          rw [hsum]
          unfold queueTasks workshop
          abel
      | _ => exact (add_zero _).symm
    rw [hself] at hrunning
    unfold workload
    rw [hwaiting, add_assoc _ _ {Task.running (Program.call o next)}, hrunning]
    have hconsumers : consumerTasks
        { s with stores := (s.stores.perform k msg env o).2 } = consumerTasks s := rfl
    rw [hconsumers]
    abel

/-- A handler ends with an exception. -/
theorem works_threw {n k : Nat} (hk : k < n) {s : Service pg} {w : Working double}
    (works : s.consumers k = some w) :
    (@workshop double _).Works
      (workload n { s with consumers := Function.update s.consumers k none })
      (workload n s) := by
  refine ⟨0, .running w.rest, fun a ha => (by cases ha), ?_⟩
  have hplace : consumerTasks { s with consumers := Function.update s.consumers k none } =
      Function.update (consumerTasks s) k 0 := by
    funext i
    unfold consumerTasks
    by_cases hi : i = k
    · subst hi
      simp only [Function.update_self]
    · simp only [Function.update_of_ne hi]
  have hsum := sum_update_place hk (consumerTasks s) 0
  have hself : consumerTasks s k = {.running w.rest} := by
    unfold consumerTasks
    rw [works]
  rw [hself] at hsum
  unfold workload
  rw [hplace, add_assoc, hsum, add_assoc]
  rfl

/-- All work comes to its end if no more is brought in. -/
theorem acc_workload {n : Nat} {s : Service pg} (h : s.Adheres utterance) :
    Acc (@workshop double _).Works (workload n s) := by
  apply Workshop.acc_works
  intro a ha
  rcases mem_workload ha with ⟨msg, rfl⟩ | ⟨k, w, hw, rfl⟩
  · exact acc_message msg
  · exact Workshop.acc_running (fun m _ => acc_message m)
      (ordersOnly_of_mannered (h k w hw))

end Consumers
end ContentServer
