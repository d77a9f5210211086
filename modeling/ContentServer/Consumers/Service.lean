import ContentServer.Consumers.Stores
import ContentServer.Foundation.Runs

/-!
# The service

The consumers of all shards over one set of stores.  A consumer that does not
wait handles a message: its log lists, newest first, the operations that the
handler has called with their answers, and the rest is what the handler still
has to do.  Connections come and go, clients send packets, sends complete and
consumers run their operations in any order.
-/

namespace ContentServer
namespace Consumers

open Foundation Protocol Sessions Registry Storage

variable {double : Type}

/-- The calls of a handler with their answers, newest first. -/
abbrev Log (double : Type) : Type :=
  List (Sigma (@Answer double))

/-- A consumer that handles a message. -/
structure Working (double : Type) where
  msg : ShardMsg
  log : Log double
  rest : Handler double Unit

structure Service (pg : Postgres double) where
  stores : Stores pg
  /-- `none` for a consumer that waits for a message. -/
  consumers : Nat -> Option (Working double)
  /-- The handlers that came to their end. -/
  finished : List (ShardMsg × Log double)

namespace Service

inductive Label (double : Type) where
  | connect (socket : Nat)
  | disconnect (sessionId : Nat)
  | receive (sessionId : Nat) (pkt : Packet)
  | sendDone (sessionId bytes : Nat) (result : PostResult)
  | pop (shard : Nat)
  | act (shard : Nat) (env : Environment double)

variable {pg : Postgres double}

/-- All consumers wait. -/
def start (stores : Stores pg) : Service pg where
  stores := stores
  consumers := fun _ => none
  finished := []

/-- Put another manager into the stores. -/
def withManager (s : Service pg) (manager : SessionManager) : Service pg :=
  { s with stores := { s.stores with world := { s.stores.world with
    manager := manager } } }

/-- Put another queue into the stores. -/
def withQueue (s : Service pg) (shard : Nat) (queue : MPMCQueue ShardMsg) :
    Service pg :=
  { s with stores := { s.stores with world := { s.stores.world with
    queues := Function.update s.stores.world.queues shard queue } } }

/-- What waits in the queue of a shard. -/
def waiting (s : Service pg) (shard : Nat) : List ShardMsg :=
  (s.stores.world.queues shard).queue

/-- Let something else wait in the queue of a shard. -/
def withWaiting (s : Service pg) (shard : Nat) (msgs : List ShardMsg) : Service pg :=
  s.withQueue shard { s.stores.world.queues shard with queue := msgs }

/-- A consumer goes on with its handler, or waits again when it is done. -/
def goOn (s : Service pg) (shard : Nat) (msg : ShardMsg) (log : Log double) :
    Handler double Unit -> Service pg
  | .done () =>
      { s with
        consumers := Function.update s.consumers shard none
        finished := (msg, log) :: s.finished }
  | .call o next =>
      { s with
        consumers := Function.update s.consumers shard
          (some ⟨msg, log, .call o next⟩) }

def step [One double] (s : Service pg) : Label double -> Option (Service pg)
  | .connect socket =>
      match s.stores.manager.create socket with
      | none => some s
      | some (_, manager) =>
          let s' := s.withManager manager
          some { s' with stores := { s'.stores with
            created := s.stores.manager.nextId :: s.stores.created } }
  | .disconnect id =>
      match s.stores.manager.byId.lookup id with
      | none => none
      | some slot => some (s.withManager (s.stores.manager.destroy slot))
  | .receive id pkt =>
      -- `OnRecv` pushes the packets of a live session, with sizes in range.
      match s.stores.manager.byId.lookup id with
      | none => none
      | some slot =>
          if HEADER_SIZE ≤ pkt.header.size.toNat ∧
              pkt.header.size.toNat ≤ PACKET_SIZE then
            let shard := (s.stores.manager.session slot).handler
            let pkt := { pkt with header := { pkt.header with id := UInt16.ofNat id } }
            some (s.withQueue shard ((s.stores.world.queues shard).push
              { type := .client, sessionId := id, pkt := pkt }))
          else none
  | .sendDone id bytes result =>
      match s.stores.manager.byId.lookup id with
      | none => none
      | some slot =>
          if bytes ≤ (s.stores.manager.session slot).sendWsaBuf.len then
            some (s.withManager (s.stores.manager.put slot
              ((s.stores.manager.session slot).onSend bytes result).session))
          else none
  | .pop shard =>
      match s.consumers shard, (s.stores.world.queues shard).pop with
      | none, some (some msg, queue) =>
          some ((s.withQueue shard queue).goOn shard msg [] (handle msg))
      | _, _ => none
  | .act shard env =>
      match s.consumers shard with
      | some ⟨msg, log, .call o next⟩ =>
          let (answer, stores) := s.stores.perform shard msg env o
          some ({ s with stores := stores }.goOn shard msg
            (⟨o, answer⟩ :: log) (next answer))
      | _ => none

/-!
# What a step does
-/

theorem waiting_withQueue (s : Service pg) (shard : Nat) (queue : MPMCQueue ShardMsg) :
    (s.withQueue shard queue).waiting =
      Function.update s.waiting shard queue.queue := by
  funext k
  unfold waiting withQueue
  by_cases hk : k = shard
  · rw [hk, Function.update_self]
    simp only [Function.update_self]
  · rw [Function.update_of_ne hk]
    simp only [Function.update_of_ne hk]

@[simp] theorem waiting_withWaiting (s : Service pg) (shard : Nat)
    (msgs : List ShardMsg) :
    (s.withWaiting shard msgs).waiting = Function.update s.waiting shard msgs :=
  s.waiting_withQueue shard _

/-- Nobody stops a queue by taking messages from it. -/
theorem stopping_withWaiting (s : Service pg) (shard : Nat) (msgs : List ShardMsg)
    (k : Nat) : ((s.withWaiting shard msgs).stores.world.queues k).stopping =
      (s.stores.world.queues k).stopping := by
  unfold withWaiting withQueue
  by_cases hk : k = shard
  · rw [hk]
    simp only [Function.update_self]
  · simp only [Function.update_of_ne hk]

variable [One double]

/-- A waiting consumer takes the first message. -/
theorem step_pop {s : Service pg} {shard : Nat} {msg : ShardMsg} {rest : List ShardMsg}
    (waits : s.consumers shard = none) (queue : s.waiting shard = msg :: rest) :
    s.step (.pop shard) =
      some ((s.withWaiting shard rest).goOn shard msg [] (handle msg)) := by
  have hpop : (s.stores.world.queues shard).pop = some (some msg,
      { s.stores.world.queues shard with queue := rest }) :=
    MPMCQueue.pop_eq_some.mpr ⟨rest, queue, rfl⟩
  simp only [step, waits, hpop]
  rfl

/-- The steps by their effect on the stores and on the consumers. -/
inductive Effect (s : Service pg) : Label double -> Service pg -> Prop where
  /-- A connection that finds the pool used up. -/
  | refused (socket : Nat) : Effect s (.connect socket) s
  | connected (socket : Nat) (slot : Slot) (manager : SessionManager)
      (created : SessionManager.Created s.stores.manager socket slot manager)
      (shards : manager.shardCount = s.stores.manager.shardCount) :
      Effect s (.connect socket)
        { s with stores := { s.stores with
          world := { s.stores.world with manager := manager }
          created := s.stores.manager.nextId :: s.stores.created } }
  | disconnected (id : Nat) (slot : Slot)
      (live : s.stores.manager.byId.lookup id = some slot) :
      Effect s (.disconnect id) (s.withManager (s.stores.manager.destroy slot))
  | received (id : Nat) (pkt : Packet) (slot : Slot) (shard : Nat) (msg : ShardMsg)
      (live : s.stores.manager.byId.lookup id = some slot)
      (handler : shard = (s.stores.manager.session slot).handler)
      (client : msg.type = .client) (sender : msg.sessionId = id) :
      Effect s (.receive id pkt)
        (s.withWaiting shard (s.waiting shard ++ [msg]))
  | completed (id bytes : Nat) (result : PostResult) (slot : Slot)
      (live : s.stores.manager.byId.lookup id = some slot) :
      Effect s (.sendDone id bytes result)
        (s.withManager (s.stores.manager.put slot
          ((s.stores.manager.session slot).onSend bytes result).session))
  | taken (shard : Nat) (msg : ShardMsg) (rest : List ShardMsg)
      (waits : s.consumers shard = none)
      (queue : s.waiting shard = msg :: rest) :
      Effect s (.pop shard)
        ((s.withWaiting shard rest).goOn shard msg [] (handle msg))
  | acted (shard : Nat) (env : Environment double) (msg : ShardMsg)
      (log : Log double) (o : Op double) (next : Answer o -> Handler double Unit)
      (works : s.consumers shard = some ⟨msg, log, .call o next⟩) :
      Effect s (.act shard env)
        ({ s with stores := (s.stores.perform shard msg env o).2 }.goOn shard msg
          (⟨o, (s.stores.perform shard msg env o).1⟩ :: log)
          (next (s.stores.perform shard msg env o).1))

theorem step_effect {s t : Service pg} {label : Label double}
    (h : s.step label = some t) : Effect s label t := by
  cases label with
  | connect socket =>
      simp only [step] at h
      cases hcreate : s.stores.manager.create socket with
      | none =>
          rw [hcreate] at h
          cases h
          exact .refused socket
      | some made =>
          rcases made with ⟨slot, manager⟩
          rw [hcreate] at h
          cases h
          exact .connected socket slot manager
            (SessionManager.create_created hcreate) (shardCount_of_create hcreate)
  | disconnect id =>
      simp only [step] at h
      split at h
      next => cases h
      next slot hlive =>
        cases h
        exact .disconnected id slot hlive
  | receive id pkt =>
      simp only [step] at h
      split at h
      next => cases h
      next slot hlive =>
        split at h
        · cases h
          exact .received id pkt slot _ _ hlive rfl rfl rfl
        · cases h
  | sendDone id bytes result =>
      simp only [step] at h
      split at h
      next => cases h
      next slot hlive =>
        split at h
        · cases h
          exact .completed id bytes result slot hlive
        · cases h
  | pop shard =>
      simp only [step] at h
      split at h
      next msg after hwaits hpop =>
        cases h
        rcases MPMCQueue.pop_eq_some.mp hpop with ⟨rest, hqueue, rfl⟩
        exact .taken shard msg rest hwaits hqueue
      next => cases h
  | act shard env =>
      simp only [step] at h
      split at h
      next msg log o next hworks =>
        cases h
        exact .acted shard env msg log o next hworks
      next => cases h

end Service

end Consumers
end ContentServer
