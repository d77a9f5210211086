import ContentServer.Consumers.Service

/-!
# The shards

Every shard has a queue and one consumer, which takes a message from the queue,
runs the handler of the message to its end and takes the next one.  Sessions
come and go at any time.  A session's messages are pushed to the queue of its
shard, and consumers run in any interleaving of their operations.

The friendship tables and the ranking may answer anything here.  The service, where
they have contents, is a run of the shards as far as these can see.
-/

namespace ContentServer
namespace Consumers

open Foundation Protocol Sessions Registry Storage

variable {double : Type}

structure Shards (pg : Postgres double) where
  world : World pg
  /-- The rest of the handler that each consumer runs. -/
  running : Nat -> Handler double Unit

inductive Label (double : Type) where
  | connect (socket : Nat)
  | disconnect (sessionId : Nat)
  | receive (sessionId : Nat) (pkt : Packet)
  | sendDone (sessionId bytes : Nat) (result : PostResult)
  | pop (shard : Nat)
  | act (shard : Nat) (env : Environment double)

variable {pg : Postgres double}

namespace Shards

/-- All consumers wait for a message. -/
def start (shards : Nat) (db : Db pg) : Shards pg where
  world := {
    manager := .initShards shards
    db := db
    queues := fun _ => .empty
    history := [] }
  running := fun _ => .done ()

def step [One double] (s : Shards pg) : Label double -> Option (Shards pg)
  | .connect socket =>
      match s.world.manager.create socket with
      | none => some s
      | some (_, manager) =>
          some { s with world := { s.world with manager := manager } }
  | .disconnect id =>
      match s.world.manager.byId.lookup id with
      | none => none
      | some slot =>
          some { s with world := { s.world with
            manager := s.world.manager.destroy slot } }
  | .receive id pkt =>
      -- `OnRecv` pushes the packets of a live session, with sizes in range.
      match s.world.manager.byId.lookup id with
      | none => none
      | some slot =>
          if HEADER_SIZE ≤ pkt.header.size.toNat ∧
              pkt.header.size.toNat ≤ PACKET_SIZE then
            let shard := (s.world.manager.session slot).handler
            let pkt := { pkt with header := { pkt.header with id := UInt16.ofNat id } }
            some { s with world := { s.world with
              queues := Function.update s.world.queues shard
                ((s.world.queues shard).push
                  { type := .client, sessionId := id, pkt := pkt }) } }
          else none
  | .sendDone id bytes result =>
      match s.world.manager.byId.lookup id with
      | none => none
      | some slot =>
          if bytes ≤ (s.world.manager.session slot).sendWsaBuf.len then
            some { s with world := { s.world with
              manager := s.world.manager.put slot
                ((s.world.manager.session slot).onSend bytes result).session } }
          else none
  | .pop shard =>
      match s.running shard, (s.world.queues shard).pop with
      | .done (), some (some msg, queue) =>
          some {
            world := { s.world with
              queues := Function.update s.world.queues shard queue }
            running := Function.update s.running shard (handle msg) }
      | _, _ => none
  | .act shard env =>
      match s.running shard with
      | .done () => none
      | .call o next =>
          let (answer, world, _) := perform shard env s.world o
          some {
            world := world
            running := Function.update s.running shard (next answer) }

/-- Sessions and messages come and go, a consumer takes a message, or it runs an
operation of its handler. -/
theorem step_cases [One double] {s t : Shards pg} {label : Label double}
    (h : s.step label = some t) :
    (t.running = s.running ∧ t.world.db = s.world.db ∧
      t.world.history = s.world.history) ∨
    (exists shard msg queue, label = .pop shard ∧ s.running shard = .done () ∧
      (s.world.queues shard).pop = some (some msg, queue) ∧
      t = {
        world := { s.world with
          queues := Function.update s.world.queues shard queue }
        running := Function.update s.running shard (handle msg) }) ∨
    (exists shard env o next, label = .act shard env ∧
      s.running shard = .call o next ∧
      t = {
        world := (perform shard env s.world o).2.1
        running := Function.update s.running shard
          (next (perform shard env s.world o).1) }) := by
  cases label with
  | connect socket =>
      simp only [step] at h
      split at h <;> cases h <;> exact Or.inl ⟨rfl, rfl, rfl⟩
  | disconnect id =>
      simp only [step] at h
      split at h <;> cases h
      exact Or.inl ⟨rfl, rfl, rfl⟩
  | receive id pkt =>
      simp only [step] at h
      split at h
      · cases h
      · split at h <;> cases h
        exact Or.inl ⟨rfl, rfl, rfl⟩
  | sendDone id bytes result =>
      simp only [step] at h
      split at h
      · cases h
      · split at h <;> cases h
        exact Or.inl ⟨rfl, rfl, rfl⟩
  | pop shard =>
      simp only [step] at h
      split at h
      next msg queue hrunning hpop =>
        cases h
        exact Or.inr (Or.inl ⟨shard, msg, queue, rfl, hrunning, hpop, rfl⟩)
      next => cases h
  | act shard env =>
      simp only [step] at h
      split at h
      next => cases h
      next o next hrunning =>
        cases h
        exact Or.inr (Or.inr ⟨shard, env, o, next, rfl, hrunning, rfl⟩)

end Shards

/-!
# The service as a run of the shards
-/

/-- The id that an operation of the service gives to a new row. -/
def Op.newId (o : Op double) (e : Environment double) : Nat :=
  match o with
  | .loginOrRegister _ => e.newId + 1
  | _ => e.newId

namespace Service

/-- What the shards see of the service. -/
def shards (s : Service pg) : Shards pg where
  world := s.stores.world
  running := fun k =>
    match s.consumers k with
    | none => .done ()
    | some w => w.rest

/-- The environment of a call in which the tables answer what they do in the service. -/
def environment (s : Service pg) (shard : Nat) (e : Environment double) :
    Environment double :=
  { e with
    newId :=
      match s.consumers shard with
      | some ⟨_, _, .call o _⟩ => o.newId e
      | _ => e.newId
    answers := fun o => (s.stores.apply shard e o).1 }

def shardLabel (s : Service pg) : Label double -> Consumers.Label double
  | .connect socket => .connect socket
  | .disconnect id => .disconnect id
  | .receive id pkt => .receive id pkt
  | .sendDone id bytes result => .sendDone id bytes result
  | .pop shard => .pop shard
  | .act shard e => .act shard (s.environment shard e)

/-- A consumer that goes on does so in what the shards see. -/
theorem shards_goOn (s : Service pg) (shard : Nat) (msg : ShardMsg) (log : Log double)
    (x : Handler double Unit) :
    (s.goOn shard msg log x).shards =
      ⟨s.stores.world, Function.update s.shards.running shard x⟩ := by
  have hrunning : (s.goOn shard msg log x).shards.running =
      Function.update s.shards.running shard x := by
    funext k
    by_cases hk : k = shard
    · subst hk
      cases x <;> simp [shards, goOn]
    · cases x <;> simp [shards, goOn, Function.update_of_ne hk]
  rw [← hrunning]
  cases x <;> rfl

/-- The stores do to the world what the operation does. -/
theorem world_perform (s : Stores pg) (shard : Nat) (msg : ShardMsg)
    (e : Environment double) (o : Op double) :
    (Consumers.perform shard
      { e with newId := o.newId e, answers := fun o => (s.apply shard e o).1 } s.world o).1 =
        (s.perform shard msg e o).1 ∧
      (Consumers.perform shard
        { e with newId := o.newId e, answers := fun o => (s.apply shard e o).1 }
          s.world o).2.1 = (s.perform shard msg e o).2.world := by
  cases o <;> exact ⟨rfl, rfl⟩

/-- A consumer of the service takes a message as that of the shards does. -/
theorem shards_taken [One double] {s : Service pg} {shard : Nat} {msg : ShardMsg}
    {rest : List ShardMsg} (waits : s.consumers shard = none)
    (queue : s.waiting shard = msg :: rest) :
    s.shards.step (.pop shard) =
      some ((s.withWaiting shard rest).goOn shard msg [] (handle msg)).shards := by
  have hrunning : s.shards.running shard = .done () := by
    unfold shards
    simp only [waits]
  have hpop : (s.shards.world.queues shard).pop = some (some msg,
      { s.stores.world.queues shard with queue := rest }) :=
    MPMCQueue.pop_eq_some.mpr ⟨rest, queue, rfl⟩
  simp only [Shards.step, hrunning, hpop, shards_goOn]
  rfl

/-- Where the tables answer the same, both do one operation alike. -/
theorem shards_acted [One double] {s : Service pg} {shard : Nat}
    (e : Environment double) {msg : ShardMsg} {log : Log double} {o : Op double}
    {next : Answer o -> Handler double Unit}
    (works : s.consumers shard = some ⟨msg, log, .call o next⟩) :
    s.shards.step (.act shard (s.environment shard e)) =
      some ({ s with stores := (s.stores.perform shard msg e o).2 }.goOn shard msg
        (⟨o, (s.stores.perform shard msg e o).1⟩ :: log)
        (next (s.stores.perform shard msg e o).1)).shards := by
  have hrunning : s.shards.running shard = .call o next := by
    unfold shards
    simp only [works]
  have henv : s.environment shard e = { e with
      newId := o.newId e
      answers := fun o => (s.stores.apply shard e o).1 } := by
    unfold environment
    simp only [works]
  rcases world_perform s.stores shard msg e o with ⟨hanswer, hworld⟩
  simp only [Shards.step, hrunning, henv, shards_goOn]
  rw [show s.shards.world = s.stores.world from rfl, hanswer, hworld]
  rfl

/-- Every step of the service is one of the shards. -/
theorem projects_shards [One double] :
    Projects (step : Service pg -> _) Shards.step shards shardLabel := by
  intro s label t h
  have hmanager : s.shards.world.manager = s.stores.manager := rfl
  cases label with
  | act shard e =>
      cases step_effect h with
      | acted _ _ msg log o next works => exact shards_acted e works
  | pop shard =>
      cases step_effect h with
      | taken _ msg rest waits queue => exact shards_taken waits queue
  | connect socket =>
      cases hcreate : s.stores.manager.create socket with
      | none =>
          simp only [step, hcreate, Option.some.injEq] at h
          simp only [shardLabel, Shards.step, hmanager, hcreate, ← h]
      | some created =>
          simp only [step, hcreate, Option.some.injEq] at h
          simp only [shardLabel, Shards.step, hmanager, hcreate, ← h]
          rfl
  | disconnect id =>
      cases hlive : s.stores.manager.byId.lookup id with
      | none =>
          simp only [step, hlive] at h
          cases h
      | some slot =>
          simp only [step, hlive, Option.some.injEq] at h
          simp only [shardLabel, Shards.step, hmanager, hlive, ← h]
          rfl
  | receive id pkt =>
      cases hlive : s.stores.manager.byId.lookup id with
      | none =>
          simp only [step, hlive] at h
          cases h
      | some slot =>
          by_cases hsize : HEADER_SIZE ≤ pkt.header.size.toNat ∧
              pkt.header.size.toNat ≤ PACKET_SIZE
          · simp only [step, hlive, if_pos hsize, Option.some.injEq] at h
            simp only [shardLabel, Shards.step, hmanager, hlive, if_pos hsize, ← h]
            rfl
          · simp only [step, hlive, if_neg hsize] at h
            cases h
  | sendDone id bytes result =>
      cases hlive : s.stores.manager.byId.lookup id with
      | none =>
          simp only [step, hlive] at h
          cases h
      | some slot =>
          by_cases hsize : bytes ≤ (s.stores.manager.session slot).sendWsaBuf.len
          · simp only [step, hlive, if_pos hsize, Option.some.injEq] at h
            simp only [shardLabel, Shards.step, hmanager, hlive, if_pos hsize, ← h]
            rfl
          · simp only [step, hlive, if_neg hsize] at h
            cases h

end Service

end Consumers
end ContentServer
