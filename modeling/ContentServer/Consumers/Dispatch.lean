import ContentServer.Consumers.Steps

/-!
# The loops of the consumers

Workers and consumers push messages to the queues of the shards at any time, and
the loop of each consumer pops the messages of its queue.  A handler may end
with an exception, which the loop catches, and a queue may be stopped.  A loop
ends when `Pop` finds its queue stopped and empty.

The histories record, oldest first, the messages that `OnRecv` pushed, those
that each queue got, and the calls of `Handle`.
-/

namespace ContentServer
namespace Consumers

open Foundation Protocol Sessions Registry Storage

variable {double : Type} {pg : Postgres double}

/-- A message and the queue that it is pushed to. -/
abbrev Push : Type :=
  Nat × ShardMsg

/-- What `OnRecv` makes of a packet. -/
def clientMsg (id : Nat) (pkt : Packet) : ShardMsg where
  type := .client
  sessionId := id
  pkt := { pkt with header := { pkt.header with id := UInt16.ofNat id } }

/-- What an operation pushes, with this many shards. -/
def Op.posted (shards : Nat) : Op double -> Option Push
  | .post id m => some (id % shards, { m with sessionId := id })
  | _ => none

namespace Service

/-- What `OnRecv` pushes in a step. -/
def recvPush (s : Service pg) : Label double -> Option Push
  | .receive id pkt =>
      match s.stores.manager.byId.lookup id with
      | none => none
      | some slot => some ((s.stores.manager.session slot).handler, clientMsg id pkt)
  | _ => none

/-- What `Post` pushes in a step. -/
def postPush (s : Service pg) : Label double -> Option Push
  | .act shard _ =>
      match s.consumers shard with
      | some ⟨_, _, .call o _⟩ => o.posted s.stores.manager.shardCount
      | _ => none
  | _ => none

theorem recvPush_receive {s : Service pg} {id : Nat} {pkt : Packet} {slot : Slot}
    (hlive : s.stores.manager.byId.lookup id = some slot) :
    s.recvPush (.receive id pkt) =
      some ((s.stores.manager.session slot).handler, clientMsg id pkt) := by
  unfold recvPush
  simp only [hlive]

theorem postPush_act {s : Service pg} {shard : Nat} {env : Environment double}
    {msg : ShardMsg} {log : Log double} {o : Op double}
    {next : Answer o -> Handler double Unit}
    (works : s.consumers shard = some ⟨msg, log, .call o next⟩) :
    s.postPush (.act shard env) = o.posted s.stores.manager.shardCount := by
  unfold postPush
  simp only [works]

end Service

/-- The messages among these that go to a queue. -/
def pushesTo (k : Nat) (pushes : List Push) : List ShardMsg :=
  (pushes.filter (fun p => p.1 = k)).map Prod.snd

structure Dispatch (pg : Postgres double) where
  service : Service pg
  /-- The consumers whose loop has ended. -/
  ended : Nat -> Bool
  received : List ShardMsg
  arrived : Nat -> List ShardMsg
  handled : List Push

namespace Dispatch

inductive Label (double : Type) where
  /-- A connection, a worker or a handler. -/
  | serve (label : Service.Label double)
  /-- The consumer of a shard calls `Pop`, and `Handle` with what it gets. -/
  | loop (shard : Nat)
  /-- The handler of a shard ends with an exception. -/
  | throw (shard : Nat)
  | stop (shard : Nat)

def start (service : Service pg) : Dispatch pg where
  service := service
  ended := fun _ => false
  received := []
  arrived := fun _ => []
  handled := []

/-- `stopping_` of the queue of a shard. -/
def stopping (s : Dispatch pg) (k : Nat) : Bool :=
  (s.service.stores.world.queues k).stopping

/-- The queue of a shard is stopped. -/
def stopQueue (s : Dispatch pg) (k : Nat) : Dispatch pg :=
  { s with service := s.service.withQueue k (s.service.stores.world.queues k).stop }

/-- The messages that `Handle` was called with by a consumer. -/
def handledBy (s : Dispatch pg) (k : Nat) : List ShardMsg :=
  pushesTo k s.handled

/-- A step of the service that takes no message, with its histories. -/
def serve (s : Dispatch pg) (label : Service.Label double) (service : Service pg) :
    Dispatch pg :=
  { s with
    service := service
    received := s.received ++ ((s.service.recvPush label).map Prod.snd).toList
    arrived := fun k => s.arrived k ++ pushesTo k
      ((s.service.recvPush label).toList ++ (s.service.postPush label).toList) }

def step [One double] (s : Dispatch pg) : Label double -> Option (Dispatch pg)
  | .serve (.pop _) => none
  | .serve label => (s.service.step label).map (s.serve label)
  | .loop k =>
      if s.ended k then none
      else
        match s.service.consumers k, (s.service.stores.world.queues k).pop with
        | none, some (some msg, _) =>
            (s.service.step (.pop k)).map fun service =>
              { s with service := service, handled := s.handled ++ [(k, msg)] }
        | none, some (none, _) => some { s with ended := Function.update s.ended k true }
        | _, _ => none
  | .throw k =>
      match s.service.consumers k with
      | none => none
      | some _ =>
          some { s with service := { s.service with
            consumers := Function.update s.service.consumers k none } }
  | .stop k => some (s.stopQueue k)

/-!
# What a step does
-/

/-- The steps by their effect. -/
inductive Effect [One double] (s : Dispatch pg) : Label double -> Dispatch pg -> Prop where
  | served (label : Service.Label double) (service : Service pg)
      (other : forall k, label ≠ .pop k) (step : s.service.step label = some service) :
      Effect s (.serve label) (s.serve label service)
  | popped (k : Nat) (msg : ShardMsg) (rest : List ShardMsg)
      (waits : s.service.consumers k = none)
      (queue : s.service.waiting k = msg :: rest) :
      Effect s (.loop k) { s with
        service := (s.service.withWaiting k rest).goOn k msg [] (handle msg)
        handled := s.handled ++ [(k, msg)] }
  | ended (k : Nat) (waits : s.service.consumers k = none)
      (stopped : s.stopping k = true) (empty : s.service.waiting k = []) :
      Effect s (.loop k) { s with ended := Function.update s.ended k true }
  | threw (k : Nat) (w : Working double) (works : s.service.consumers k = some w) :
      Effect s (.throw k) { s with service := { s.service with
        consumers := Function.update s.service.consumers k none } }
  | stopped (k : Nat) : Effect s (.stop k) (s.stopQueue k)

theorem step_effect [One double] {s t : Dispatch pg} {label : Label double}
    (h : s.step label = some t) : Effect s label t := by
  have hserve : forall l : Service.Label double, (forall k, l ≠ .pop k) ->
      (s.service.step l).map (s.serve l) = some t -> Effect s (.serve l) t := by
    intro l hother hl
    rcases Option.map_eq_some_iff.mp hl with ⟨service, hstep, hserved⟩
    subst hserved
    exact .served l service hother hstep
  cases label with
  | serve l =>
      cases l with
      | pop k => cases h
      | _ => exact hserve _ (fun _ hpop => by cases hpop) h
  | loop k =>
      simp only [step] at h
      split at h
      · cases h
      split at h
      next msg after hwaits hpop =>
        rcases Option.map_eq_some_iff.mp h with ⟨service, hstep, hpopped⟩
        subst hpopped
        cases Service.step_effect hstep with
        | taken _ first rest waits queue =>
            rcases MPMCQueue.pop_eq_some.mp hpop with ⟨others, hfirst, _⟩
            replace hfirst : s.service.waiting k = msg :: others := hfirst
            rw [queue] at hfirst
            cases hfirst
            exact .popped k _ _ waits queue
      next after hwaits hpop =>
        cases h
        rcases MPMCQueue.pop_eq_none.mp hpop with ⟨hempty, hstopped, _⟩
        exact .ended k hwaits hstopped hempty
      next => cases h
  | throw k =>
      simp only [step] at h
      split at h
      next => cases h
      next w hworks =>
        cases h
        exact .threw k w hworks
  | stop k =>
      cases h
      exact .stopped k

/-!
# Queues after a step
-/

section Queues

variable {s t : Dispatch pg} {k : Nat}

theorem pushesTo_append (xs ys : List Push) :
    pushesTo k (xs ++ ys) = pushesTo k xs ++ pushesTo k ys := by
  unfold pushesTo
  rw [List.filter_append, List.map_append]

theorem pushesTo_single (p : Push) :
    pushesTo k [p] = if p.1 = k then [p.2] else [] := by
  unfold pushesTo
  rw [List.filter_singleton]
  by_cases hk : p.1 = k <;> simp [hk]

theorem mem_pushesTo {pushes : List Push} {msg : ShardMsg} :
    msg ∈ pushesTo k pushes <-> (k, msg) ∈ pushes := by
  simp [pushesTo]

/-- A push is one to its queue, and none to the others. -/
theorem update_queue (queues : Nat -> MPMCQueue ShardMsg) (p : Push) :
    Function.update queues p.1 ((queues p.1).push p.2) k =
      (pushesTo k [p]).foldl MPMCQueue.push (queues k) := by
  rw [pushesTo_single]
  by_cases hk : p.1 = k
  · rw [if_pos hk, ← hk, Function.update_self]
    rfl
  · rw [if_neg hk, Function.update_of_ne (Ne.symm hk)]
    rfl

theorem queues_perform (shard : Nat) (msg : ShardMsg) (e : Environment double)
    (stores : Stores pg) (o : Op double) :
    (stores.perform shard msg e o).2.world.queues k = (pushesTo k
      (o.posted stores.manager.shardCount).toList).foldl MPMCQueue.push
        (stores.world.queues k) := by
  cases o with
  | post id m =>
      exact update_queue stores.world.queues
        (id % stores.manager.shardCount, { m with sessionId := id })
  | _ => rfl

theorem waiting_perform (shard : Nat) (msg : ShardMsg) (e : Environment double)
    (service : Service pg) (o : Op double) :
    ({ service with
      stores := (service.stores.perform shard msg e o).2 } : Service pg).waiting k =
      service.waiting k ++
        pushesTo k (o.posted service.stores.manager.shardCount).toList := by
  unfold Service.waiting
  rw [queues_perform, MPMCQueue.foldl_push]

/-- Each step that takes no message pushes what its histories say. -/
theorem queues_serve [One double] {label : Service.Label double} {service : Service pg}
    (other : forall k, label ≠ .pop k) (hstep : s.service.step label = some service) :
    service.stores.world.queues k = (pushesTo k ((s.service.recvPush label).toList ++
      (s.service.postPush label).toList)).foldl MPMCQueue.push
        (s.service.stores.world.queues k) := by
  cases label with
  | receive id pkt =>
      simp only [Service.step] at hstep
      split at hstep
      next => cases hstep
      next slot hlive =>
        split at hstep
        · cases hstep
          rw [Service.recvPush_receive hlive]
          exact update_queue s.service.stores.world.queues
            ((s.service.stores.manager.session slot).handler, clientMsg id pkt)
        · cases hstep
  | act shard env =>
      cases Service.step_effect hstep with
      | acted _ _ msg log o next works =>
          rw [Service.goOn_stores, Service.postPush_act works]
          exact queues_perform shard msg env s.service.stores o
  | pop shard => exact absurd rfl (other shard)
  | connect socket =>
      cases Service.step_effect hstep <;> rfl
  | disconnect id =>
      cases Service.step_effect hstep
      rfl
  | sendDone id bytes result =>
      cases Service.step_effect hstep
      rfl

/-- What waits is added to, and nothing is taken out. -/
theorem waiting_serve [One double] {label : Service.Label double} {service : Service pg}
    (other : forall k, label ≠ .pop k) (hstep : s.service.step label = some service) :
    service.waiting k = s.service.waiting k ++
      pushesTo k ((s.service.recvPush label).toList ++
        (s.service.postPush label).toList) := by
  unfold Service.waiting
  rw [queues_serve other hstep, MPMCQueue.foldl_push]

/-- A queue is stopped, and what waits stays. -/
theorem stopping_stopQueue :
    (s.stopQueue k).stopping = Function.update s.stopping k true := by
  funext j
  unfold stopping stopQueue Service.withQueue
  by_cases hj : j = k
  · rw [hj, Function.update_self]
    simp only [Function.update_self]
    rfl
  · rw [Function.update_of_ne hj]
    simp only [Function.update_of_ne hj]

theorem waiting_stopQueue : (s.stopQueue k).service.waiting = s.service.waiting := by
  unfold stopQueue
  rw [Service.waiting_withQueue]
  exact Function.update_eq_self k s.service.waiting

/-- No other step stops a queue. -/
theorem Effect.stopping [One double] {label : Label double} (h : Effect s label t)
    (other : forall k, label ≠ .stop k) : t.stopping = s.stopping := by
  funext j
  cases h with
  | served label service notPop step =>
      show (service.stores.world.queues j).stopping = _
      rw [queues_serve notPop step, MPMCQueue.foldl_push]
      rfl
  | popped k msg rest waits queue =>
      show (((s.service.withWaiting k rest).goOn k msg [] (handle msg)).stores.world.queues
        j).stopping = _
      rw [Service.goOn_stores]
      exact Service.stopping_withWaiting s.service k rest j
  | ended k waits stopped empty => rfl
  | threw k w works => rfl
  | stopped k => exact absurd rfl (other k)

end Queues

end Dispatch

/-!
# Sessions and their shards
-/

/-- Every live session pushes to the queue of the shard of its id. -/
structure Sharded (m : SessionManager) : Prop where
  slots : Occupied m
  handlers : forall id slot, m.byId.lookup id = some slot ->
    (m.session slot).handler = id % m.shardCount

namespace Sharded

variable {m m' : SessionManager}

theorem start (shards : Nat) : Sharded (SessionManager.initShards shards) where
  slots := Occupied.initShards shards
  handlers := fun id slot hslot => by cases hslot

theorem create (h : Sharded m) {socket : Nat} {slot : Slot}
    (hc : SessionManager.Created m socket slot m') (hshards : m'.shardCount = m.shardCount) :
    Sharded m' where
  slots := h.slots.create hc
  handlers := fun id found hfound => by
    rw [hshards]
    rcases h.slots.lookup_create hc hfound with ⟨rfl, rfl⟩ | ⟨hbefore, hsession⟩
    · rw [hc.occupant]
      rfl
    · rw [hsession]
      exact h.handlers id found hbefore

theorem destroy (h : Sharded m) {id : Nat} {slot : Slot}
    (hlive : m.byId.lookup id = some slot) : Sharded (m.destroy slot) where
  slots := h.slots.destroy hlive
  handlers := fun other found hfound => by
    replace hfound : (m.byId.erase (m.session slot).id).lookup other = some found := hfound
    by_cases hother : other = (m.session slot).id
    · rw [hother, AList.lookup_erase] at hfound
      cases hfound
    · rw [AList.lookup_erase_ne hother] at hfound
      exact h.handlers other found hfound

theorem congr (h : Sharded m) (hsame : SameIdentities m m') : Sharded m' where
  slots := hsame.occupied h.slots
  handlers := fun id slot hslot => by
    rw [hsame.byId] at hslot
    rw [hsame.shardCount, (hsame.sessions slot).handler]
    exact h.handlers id slot hslot

theorem put (h : Sharded m) {slot : Slot} {s : Session} (hid : s.id = (m.session slot).id)
    (hindex : s.index = (m.session slot).index)
    (hhandler : s.handler = (m.session slot).handler) : Sharded (m.put slot s) where
  slots := h.slots.put slot hid hindex
  handlers := fun id found hfound => by
    rw [handler_put m hhandler]
    exact h.handlers id found hfound

theorem registers {s after : Stores pg} {o : Op double} {answer : Answer o}
    (h : Sharded s.manager) (hregisters : Stores.Registers s o answer after) :
    Sharded after.manager := by
  cases hregisters with
  | same same refused gone => exact h.congr same.manager
  | @named id name after slot free live manager named bound =>
      rw [manager]
      have hput : Sharded (s.manager.put slot ((s.manager.session slot).setName name)) :=
        h.put rfl rfl rfl
      exact ⟨hput.slots.congr rfl rfl rfl (fun _ => rfl) (fun _ => rfl), hput.handlers⟩
  | @bound id u after slot live manager named bound =>
      rw [manager]
      have hput : Sharded (s.manager.put slot ((s.manager.session slot).setUserId u)) :=
        h.put rfl rfl rfl
      exact ⟨hput.slots.congr rfl rfl rfl (fun _ => rfl) (fun _ => rfl), hput.handlers⟩

theorem step [One double] {s t : Service pg} {label : Service.Label double}
    (h : Sharded s.stores.manager) (effect : s.Effect label t) :
    Sharded t.stores.manager ∧ t.stores.manager.shardCount = s.stores.manager.shardCount := by
  cases effect with
  | refused socket => exact ⟨h, rfl⟩
  | connected socket slot manager created shards => exact ⟨h.create created shards, shards⟩
  | disconnected id slot live => exact ⟨h.destroy live, rfl⟩
  | received id pkt slot shard msg live handler client sender => exact ⟨h, rfl⟩
  | completed id bytes result slot live =>
      have howner := (onSend_sendCall (s.stores.manager.session slot) bytes result).owner
      exact ⟨h.put howner.id howner.index howner.handler, rfl⟩
  | taken shard msg rest waits queue =>
      rw [Service.goOn_stores]
      exact ⟨h, rfl⟩
  | acted shard env msg log o next works =>
      rw [Service.goOn_stores]
      have hregisters := s.stores.perform_registers shard msg env o
      exact ⟨h.registers hregisters, hregisters.places.right.left⟩

end Sharded

end Consumers
end ContentServer
