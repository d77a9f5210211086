import ContentServer.Consumers.Authority
import ContentServer.Consumers.Dispatch

/-!
# The messages of a session stay in order

Each queue holds what arrived at it and was not handled yet, in order.  All
messages of a session go to one queue, and those that its client sent are the
ones that `OnRecv` pushed, so their order is kept from the socket to the handler,
whatever else goes through the queue and whichever handlers fail.
-/

namespace ContentServer
namespace Consumers

open Foundation Protocol Sessions Registry Storage

variable {double : Type} {pg : Postgres double}

/-- A message that the client of a session sent. -/
def clientOf (id : Nat) (msg : ShardMsg) : Bool :=
  msg.type = .client ∧ msg.sessionId = id

section Pushes

variable {n id : Nat}

/-- The pushes go to the shards of their sessions. -/
def Routed (n : Nat) (pushes : List Push) : Prop :=
  forall k msg, (k, msg) ∈ pushes -> k = msg.sessionId % n

theorem Routed.append {xs ys : List Push} (hx : Routed n xs) (hy : Routed n ys) :
    Routed n (xs ++ ys) := by
  intro k msg hmem
  rcases List.mem_append.mp hmem with h | h
  · exact hx k msg h
  · exact hy k msg h

/-- All messages of a client are in the queue of its shard. -/
theorem filter_pushesTo {pushes : List Push} (h : Routed n pushes) :
    (pushesTo (id % n) pushes).filter (clientOf id) =
      (pushes.map Prod.snd).filter (clientOf id) := by
  unfold pushesTo
  rw [List.filter_map, List.filter_map, List.filter_filter]
  refine congrArg (List.map Prod.snd) (List.filter_congr ?_)
  intro p hp
  show (clientOf id p.2 && decide (p.1 = id % n)) = clientOf id p.2
  by_cases hclient : clientOf id p.2 = true
  · have hid : p.2.sessionId = id := (of_decide_eq_true hclient).right
    have hk : p.1 = id % n := by
      rw [h p.1 p.2 hp, hid]
    rw [hclient, Bool.true_and]
    exact decide_eq_true hk
  · rw [Bool.eq_false_iff.mpr hclient, Bool.false_and]

end Pushes

/-- Only one of the lists has elements. -/
theorem flatMap_eq_of_others {ι α : Type} {keys : List ι} {f : ι -> List α} {i : ι}
    (hnodup : keys.Nodup) (hmem : i ∈ keys)
    (hothers : forall j, j ∈ keys -> j ≠ i -> f j = []) : keys.flatMap f = f i := by
  induction keys with
  | nil => cases hmem
  | cons j rest ih =>
      rw [List.nodup_cons] at hnodup
      rw [List.flatMap_cons]
      by_cases hj : j = i
      · subst hj
        have hrest : rest.flatMap f = [] := by
          rw [List.flatMap_eq_nil_iff]
          intro k hk
          refine hothers k (List.mem_cons_of_mem _ hk) fun hkj => ?_
          rw [hkj] at hk
          exact hnodup.left hk
        rw [hrest, List.append_nil]
      · rw [hothers j List.mem_cons_self hj, List.nil_append]
        refine ih hnodup.right ((List.mem_cons.mp hmem).resolve_left (Ne.symm hj)) ?_
        intro k hk
        exact hothers k (List.mem_cons_of_mem _ hk)

namespace Dispatch

/-- The client messages of each session were handled, or wait, in the order in which
they were received, and each consumer handles the sessions of its shard. -/
structure KeepsOrder (n : Nat) (s : Dispatch pg) : Prop where
  order : forall id, (s.handled.map Prod.snd).filter (clientOf id) ++
    (List.range n).flatMap (fun k =>
      (s.service.waiting k).filter (clientOf id)) =
    s.received.filter (fun msg => msg.sessionId = id)
  routed : Routed n s.handled

structure Ordered [One double] (n : Nat) (s : Dispatch pg) : Prop where
  shards : s.service.stores.manager.shardCount = n
  sharded : Sharded s.service.stores.manager
  conducts : forall k w, s.service.consumers k = some w -> Conducts w.msg w.log w.rest
  fifo : forall k, s.arrived k = s.handledBy k ++ s.service.waiting k
  routed : forall k msg, msg ∈ s.arrived k -> k = msg.sessionId % n
  clients : forall id, (s.arrived (id % n)).filter (clientOf id) =
    s.received.filter (fun msg => msg.sessionId = id)

namespace Ordered

variable [One double] {n : Nat} {s t : Dispatch pg}

theorem start (n : Nat) (db : Db pg) (friendships : Friendships) (ranking : Ranking) :
    Ordered n (Dispatch.start (Service.start (Stores.boot n db friendships ranking))) where
  shards := rfl
  sharded := Sharded.start n
  conducts := fun k w hw => by cases hw
  fifo := fun k => rfl
  routed := fun k msg hmsg => by cases hmsg
  clients := fun id => rfl

theorem handled_routed (h : Ordered n s) : Routed n s.handled := by
  intro k msg hmem
  refine h.routed k msg ?_
  rw [h.fifo k]
  exact List.mem_append_left _ (mem_pushesTo.mpr hmem)

theorem queued_routed (h : Ordered n s) {k : Nat} {msg : ShardMsg}
    (hmem : msg ∈ s.service.waiting k) : k = msg.sessionId % n := by
  refine h.routed k msg ?_
  rw [h.fifo k]
  exact List.mem_append_right _ hmem

theorem keepsOrder (h : Ordered n s) (hn : 0 < n) : s.KeepsOrder n where
  order := fun id => by
    have hothers : forall k, k ∈ List.range n -> k ≠ id % n ->
        (s.service.waiting k).filter (clientOf id) = [] := by
      intro k _ hk
      rw [List.filter_eq_nil_iff]
      intro msg hmsg hclient
      have hid : msg.sessionId = id := (of_decide_eq_true hclient).right
      rw [← hid] at hk
      exact hk (h.queued_routed hmsg)
    rw [flatMap_eq_of_others List.nodup_range
      (List.mem_range.mpr (Nat.mod_lt id hn)) hothers, ← h.clients id, h.fifo,
      List.filter_append]
    exact congrArg (· ++ _) (filter_pushesTo h.handled_routed).symm
  routed := h.handled_routed

/-!
# Steps
-/

/-- Workers push what clients sent. -/
theorem recvPush_routed (h : Ordered n s) {label : Service.Label double} {p : Push}
    (hp : s.service.recvPush label = some p) :
    p.1 = p.2.sessionId % n ∧ p.2.type = .client := by
  cases label with
  | receive id pkt =>
      cases hlive : s.service.stores.manager.byId.lookup id with
      | none =>
          unfold Service.recvPush at hp
          simp only [hlive] at hp
          cases hp
      | some slot =>
          rw [Service.recvPush_receive hlive] at hp
          cases hp
          rw [h.sharded.handlers id slot hlive, h.shards]
          exact ⟨rfl, rfl⟩
  | _ => cases hp

/-- Consumers push messages that no client sent. -/
theorem postPush_routed (h : Ordered n s) {label : Service.Label double} {p : Push}
    (hp : s.service.postPush label = some p) :
    p.1 = p.2.sessionId % n ∧ p.2.type ≠ .client := by
  cases label with
  | act shard env =>
      cases hworks : s.service.consumers shard with
      | none =>
          unfold Service.postPush at hp
          simp only [hworks] at hp
          cases hp
      | some w =>
          rcases w with ⟨msg, log, rest⟩
          cases rest with
          | done a =>
              unfold Service.postPush at hp
              simp only [hworks] at hp
              cases hp
          | call o next =>
              rw [Service.postPush_act hworks, h.shards] at hp
              cases o with
              | post id m =>
                  cases hp
                  refine ⟨rfl, ?_⟩
                  rcases (h.conducts shard _ hworks).left.left with howed | hallows
                  · exact absurd (List.mem_of_head? howed) log.post_not_owed
                  · exact hallows
              | _ => cases hp
  | _ => cases hp

/-- Every handler still follows the conduct. -/
theorem conducts_step (h : Ordered n s) {label : Service.Label double}
    {service : Service pg} (effect : s.service.Effect label service) {k : Nat}
    {w : Working double} (hw : service.consumers k = some w) :
    Conducts w.msg w.log w.rest := by
  cases effect with
  | taken shard msg rest waits queue =>
      rcases Service.goOn_consumers hw with ⟨_, rfl⟩ | ⟨_, hother⟩
      · exact conducts_handle msg
      · exact h.conducts k w hother
  | acted shard env msg log o next works =>
      rcases Service.goOn_consumers hw with ⟨_, rfl⟩ | ⟨_, hother⟩
      · exact (h.conducts shard _ works).right _
      · exact h.conducts k w hother
  | _ => exact h.conducts k w hw

/-- Of what a step pushes, the worker's part comes from clients. -/
theorem filter_pushed (h : Ordered n s) (label : Service.Label double) (id : Nat) :
    (((s.service.recvPush label).toList.map Prod.snd).filter (clientOf id) ++
      ((s.service.postPush label).toList.map Prod.snd).filter (clientOf id)) =
    ((s.service.recvPush label).map Prod.snd).toList.filter
      (fun msg => msg.sessionId = id) := by
  have hpost : ((s.service.postPush label).toList.map Prod.snd).filter (clientOf id) = [] := by
    rw [List.filter_eq_nil_iff]
    intro msg hmsg hclient
    rcases List.mem_map.mp hmsg with ⟨p, hp, rfl⟩
    exact (h.postPush_routed (Option.mem_toList.mp hp)).right (of_decide_eq_true hclient).left
  rw [hpost, List.append_nil, ← Option.toList_map]
  refine List.filter_congr ?_
  intro msg hmsg
  rw [Option.toList_map] at hmsg
  rcases List.mem_map.mp hmsg with ⟨p, hp, rfl⟩
  have hclient := (h.recvPush_routed (Option.mem_toList.mp hp)).right
  unfold clientOf
  simp only [hclient, true_and]

theorem served (h : Ordered n s) {label : Service.Label double} {service : Service pg}
    (other : forall k, label ≠ .pop k) (hstep : s.service.step label = some service) :
    Ordered n (s.serve label service) := by
  have hsharded := h.sharded.step (Service.step_effect hstep)
  have hpushes : Routed n ((s.service.recvPush label).toList ++
      (s.service.postPush label).toList) := by
    refine Routed.append ?_ ?_
    · intro k msg hmem
      exact (h.recvPush_routed (Option.mem_toList.mp hmem)).left
    · intro k msg hmem
      exact (h.postPush_routed (Option.mem_toList.mp hmem)).left
  constructor
  · exact hsharded.right.trans h.shards
  · exact hsharded.left
  · intro k w hw
    exact h.conducts_step (Service.step_effect hstep) hw
  · intro k
    show s.arrived k ++ pushesTo k _ = s.handledBy k ++ service.waiting k
    rw [waiting_serve other hstep, h.fifo k, List.append_assoc]
  · intro k msg hmem
    rcases List.mem_append.mp hmem with hold | hnew
    · exact h.routed k msg hold
    · exact hpushes k msg (mem_pushesTo.mp hnew)
  · intro id
    show (s.arrived (id % n) ++ pushesTo (id % n) _).filter (clientOf id) =
      (s.received ++ _).filter _
    rw [List.filter_append, List.filter_append, h.clients id, filter_pushesTo hpushes,
      List.map_append, List.filter_append, h.filter_pushed]

/-- A message leaves its queue and is handled. -/
theorem popped (h : Ordered n s) {j : Nat} {msg : ShardMsg} {rest : List ShardMsg}
    (waits : s.service.consumers j = none)
    (queue : s.service.waiting j = msg :: rest) :
    Ordered n { s with
      service := (s.service.withWaiting j rest).goOn j msg [] (handle msg)
      handled := s.handled ++ [(j, msg)] } := by
  have heffect : s.service.Effect (.pop j)
      ((s.service.withWaiting j rest).goOn j msg [] (handle msg)) :=
    .taken j msg rest waits queue
  have hsharded := h.sharded.step heffect
  constructor
  · exact hsharded.right.trans h.shards
  · exact hsharded.left
  · intro k w hw
    exact h.conducts_step heffect hw
  · intro k
    have hwaiting : ((s.service.withWaiting j rest).goOn j msg []
        (handle msg)).waiting k =
        Function.update s.service.waiting j rest k := by
      rw [Service.goOn_waiting, Service.waiting_withWaiting]
    show s.arrived k = pushesTo k (s.handled ++ [(j, msg)]) ++ _
    rw [hwaiting, pushesTo_append, pushesTo_single, h.fifo k]
    by_cases hk : j = k
    · subst hk
      rw [if_pos rfl, Function.update_self, queue, List.append_assoc]
      rfl
    · rw [if_neg hk, Function.update_of_ne (Ne.symm hk), List.append_nil]
      rfl
  · exact h.routed
  · exact h.clients

theorem step {label : Label double} (h : Ordered n s) (effect : Effect s label t) :
    Ordered n t := by
  cases effect with
  | served label service other step => exact h.served other step
  | popped k msg rest waits queue => exact h.popped waits queue
  | ended k waits stopped empty =>
      exact ⟨h.shards, h.sharded, h.conducts, h.fifo, h.routed, h.clients⟩
  | threw k w works =>
      refine ⟨h.shards, h.sharded, ?_, h.fifo, h.routed, h.clients⟩
      intro other w' hw'
      replace hw' : Function.update s.service.consumers k none other = some w' := hw'
      by_cases hother : other = k
      · rw [hother, Function.update_self] at hw'
        cases hw'
      · rw [Function.update_of_ne hother] at hw'
        exact h.conducts other w' hw'
  | stopped k =>
      refine ⟨h.shards, h.sharded, h.conducts, ?_, h.routed, h.clients⟩
      intro j
      rw [waiting_stopQueue]
      exact h.fifo j

/-- A loop ends when its queue is stopped and all that arrived was handled. -/
theorem loop_end (h : Ordered n s) {label : Label double} (effect : Effect s label t)
    {k : Nat} (running : s.ended k = false) (ended : t.ended k = true) :
    s.stopping k = true ∧ s.service.consumers k = none ∧ s.handledBy k = s.arrived k := by
  cases effect with
  | ended j waits stopped empty =>
      replace ended : Function.update s.ended j true k = true := ended
      by_cases hk : k = j
      · subst hk
        refine ⟨stopped, waits, ?_⟩
        rw [h.fifo k, empty, List.append_nil]
      · rw [Function.update_of_ne hk, running] at ended
        cases ended
  | served label service other step =>
      replace ended : s.ended k = true := ended
      rw [running] at ended
      cases ended
  | popped j msg rest waits queue =>
      replace ended : s.ended k = true := ended
      rw [running] at ended
      cases ended
  | threw j w works =>
      replace ended : s.ended k = true := ended
      rw [running] at ended
      cases ended
  | stopped j =>
      replace ended : s.ended k = true := ended
      rw [running] at ended
      cases ended

end Ordered

theorem ordered_step [One double] (n : Nat) :
    Preserved (Dispatch.step : Dispatch pg -> _) (Ordered n) := by
  intro s label t h hstep
  exact h.step (step_effect hstep)

end Dispatch

/-- In every run the client messages of each session are handled once, in the order in
which they were received, by the consumer of the shard of the session, and no loop
ends before its queue is stopped and everything that arrived there was handled. -/
theorem messages_in_order [One double] {n : Nat} (hn : 0 < n) {db : Db pg}
    {friendships : Friendships} {ranking : Ranking}
    {labels : List (Dispatch.Label double)} {t : Dispatch pg}
    (ht : Visits Dispatch.step
      (.start (Service.start (Stores.boot n db friendships ranking))) labels t) :
    t.KeepsOrder n ∧
      forall label after k, t.step label = some after ->
        t.ended k = false -> after.ended k = true ->
        t.stopping k = true ∧ t.service.consumers k = none ∧
          t.handledBy k = t.arrived k := by
  have hordered : Dispatch.Ordered n t :=
    (Dispatch.ordered_step n).visits (Dispatch.Ordered.start n db friendships ranking) ht
  refine ⟨hordered.keepsOrder hn, ?_⟩
  intro label after k hstep running ended
  exact hordered.loop_end (Dispatch.step_effect hstep) running ended

/-!
# Two sessions of one shard
-/

namespace Dispatch

def oneShard : Dispatch percentServer :=
  .start (.start (.boot 1 ⟨∅, ∅⟩ ∅ ⟨∅, ∅⟩))

/-- Two handlers fail, and the queue is stopped while a message waits. -/
def failsAndStops : List (Label Nat) :=
  [.serve (.connect 10), .serve (.connect 11),
    .serve (.receive 1 (makePacket 0 (text "hi"))),
    .serve (.receive 2 (makePacket 0 (text "yo"))),
    .serve (.receive 1 (makePacket 0 (text "ho"))), .loop 0, .throw 0, .loop 0,
    .serve (.act 0 calm), .serve (.act 0 calm), .stop 0, .loop 0,
    .throw 0, .loop 0]

end Dispatch

theorem messages_in_order_stopped :
    exists t, runFrom Dispatch.step Dispatch.oneShard Dispatch.failsAndStops = some t ∧
      (t.handled.map (fun p => (p.1, p.2.sessionId)), t.ended 0) =
        ([(0, 1), (0, 2), (0, 1)], true) ∧ t.KeepsOrder 1 := by
  have hrun : (runFrom Dispatch.step Dispatch.oneShard Dispatch.failsAndStops).map
      (fun t => (t.handled.map (fun p => (p.1, p.2.sessionId)), t.ended 0)) =
        some ([(0, 1), (0, 2), (0, 1)], true) := by
    decide +kernel
  rcases Option.map_eq_some_iff.mp hrun with ⟨t, hrun, hholds⟩
  exact ⟨t, hrun, hholds, (messages_in_order (by decide) (visits_last hrun)).left⟩

end Consumers
end ContentServer
