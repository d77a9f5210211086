import ContentServer.Consumers.Roster
import ContentServer.Consumers.Utterances

/-!
# Where messages come from

Every message in a queue was received from the session that it names, or it is a
trade request that a handler posted.  Texts are only sent for messages of the
first kind, and only texts that the handler of the message may utter.
-/

namespace ContentServer
namespace Consumers

open Foundation Protocol Sessions Registry Storage

variable {double : Type} {pg : Postgres double}

/-- Where a message in a queue comes from, after these steps. -/
inductive Origin (past : List (Service.Label double)) (next : Nat) : ShardMsg -> Prop
  | client (id : Nat) (pkt : Packet) (received : .receive id pkt ∈ past)
      (positive : 0 < id) (issued : id < next)
      (low : HEADER_SIZE ≤ pkt.header.size.toNat)
      (high : pkt.header.size.toNat ≤ PACKET_SIZE) :
      Origin past next (clientMsg id pkt)
  | trade (fromSid target : Nat) (positive : 0 < fromSid) (issued : fromSid < next) :
      Origin past next { tradeRequest fromSid with sessionId := target }

theorem Origin.mono {past : List (Service.Label double)} {next next' : Nat}
    {msg : ShardMsg} (h : Origin past next msg) (label : Service.Label double)
    (hnext : next ≤ next') : Origin (past ++ [label]) next' msg := by
  cases h with
  | client id pkt received positive issued low high =>
      exact .client id pkt (List.mem_append_left _ received) positive
        (Nat.lt_of_lt_of_le issued hnext) low high
  | trade fromSid target positive issued =>
      exact .trade fromSid target positive (Nat.lt_of_lt_of_le issued hnext)

/-- The sender of a client message has a positive id that was given out. -/
theorem Origin.sender {past : List (Service.Label double)} {next : Nat}
    {msg : ShardMsg} (h : Origin past next msg) (hclient : msg.type = .client) :
    0 < msg.sessionId ∧ msg.sessionId < next := by
  cases h with
  | client id pkt received positive issued low high => exact ⟨positive, issued⟩
  | trade fromSid target positive issued => cases hclient

/-- A text that can leave the handler of a message. -/
def Uttered (msg : ShardMsg) (data : List UInt8) : Prop :=
  (exists t, data = (errorPacket t).wire) ∨ Utters msg data ∨ data = msg.pkt.wire ∨
    exists id name, data = (nickPacket id name).wire

/-- Every message has an origin, and every text was uttered for a client. -/
structure Sourced (past : List (Service.Label double)) (s : Service pg) : Prop where
  queued : forall k msg, msg ∈ s.waiting k ->
    Origin past s.stores.manager.nextId msg
  handled : forall k w, s.consumers k = some w ->
    Origin past s.stores.manager.nextId w.msg
  sent : forall e, e ∈ s.stores.sent ->
    Origin past s.stores.manager.nextId e.1 ∧ e.1.type = .client ∧
      Uttered e.1 e.2.data
  valid : forall id name, (id, name) ∈ s.stores.named -> validName name = true

/-!
# Targets
-/

theorem data_of_sendToTargets {m : SessionManager} {id : Nat} {text data : List UInt8}
    {slot : Slot} (h : (slot, data) ∈ m.sendToTargets id text) : data = text := by
  unfold SessionManager.sendToTargets at h
  cases hlookup : m.byId.lookup id with
  | none =>
      rw [hlookup] at h
      cases h
  | some found =>
      rw [hlookup] at h
      exact (Prod.mk.inj (List.mem_singleton.mp h)).right

theorem lookup_of_sendToTargets {m : SessionManager} {id : Nat} {text data : List UInt8}
    {slot : Slot} (h : (slot, data) ∈ m.sendToTargets id text) :
    m.byId.lookup id = some slot := by
  unfold SessionManager.sendToTargets at h
  cases hlookup : m.byId.lookup id with
  | none =>
      rw [hlookup] at h
      cases h
  | some found =>
      rw [hlookup] at h
      rw [(Prod.mk.inj (List.mem_singleton.mp h)).left]

theorem data_of_friendTargets {m : SessionManager} {userId : Nat}
    {text data : List UInt8} {slot : Slot}
    (h : (slot, data) ∈ m.friendTargets userId text) : data = text := by
  unfold SessionManager.friendTargets at h
  cases huser : m.slotOfUser userId with
  | none =>
      rw [huser] at h
      cases h
  | some found =>
      rw [huser] at h
      rcases List.mem_map.mp h with ⟨_, _, heq⟩
      exact (Prod.mk.inj heq).right.symm

theorem data_of_rosterTargets {m : SessionManager} {id : Nat} {data : List UInt8}
    {slot : Slot} (h : (slot, data) ∈ m.rosterTargets id) :
    exists other name, data = (nickPacket other name).wire := by
  unfold SessionManager.rosterTargets at h
  cases hlookup : m.byId.lookup id with
  | none =>
      rw [hlookup] at h
      cases h
  | some found =>
      rw [hlookup] at h
      rcases List.mem_map.mp h with ⟨⟨other, place⟩, _, heq⟩
      exact ⟨other, _, (Prod.mk.inj heq).right.symm⟩

/-- A text that is sent goes to the session of its target. -/
theorem Stores.recipient_of_sent {s : Stores pg} {shard : Nat} {msg : ShardMsg}
    {env : Environment double} {o : Op double} {e : ShardMsg × Sending}
    (h : e ∈ (s.perform shard msg env o).2.sent) :
    e ∈ s.sent ∨ (e.1 = msg ∧ exists slot, (slot, e.2.data) ∈ o.targets s.manager ∧
      e.2.sessionId = (s.manager.session slot).id) := by
  rw [Stores.perform_sent] at h
  rcases List.mem_append.mp h with hnew | hold
  · rcases List.mem_map.mp hnew with ⟨d, hd, rfl⟩
    exact Or.inr ⟨rfl, SessionManager.target_of_mem_sendings hd⟩
  · exact Or.inl hold

/-- Only for client messages are texts sent, and only those that may be uttered. -/
theorem uttered_of_target {m : SessionManager} {msg : ShardMsg} {o : Op double}
    {slot : Slot} {data : List UInt8} (hallowed : (utterance msg).allowed () o)
    (h : (slot, data) ∈ o.targets m) : msg.type = .client ∧ Uttered msg data := by
  cases o with
  | sendTo id text =>
      rw [data_of_sendToTargets h]
      rcases hallowed with ⟨hclient, hnotice | hutters⟩
      · exact ⟨hclient, Or.inl hnotice⟩
      · exact ⟨hclient, Or.inr (Or.inl hutters)⟩
  | broadcast text =>
      rcases List.mem_map.mp h with ⟨_, _, heq⟩
      rw [← (Prod.mk.inj heq).right]
      rcases hallowed with ⟨hclient, hchat | ⟨name, hnick⟩⟩
      · exact ⟨hclient, Or.inr (Or.inr (Or.inl hchat))⟩
      · exact ⟨hclient, Or.inr (Or.inr (Or.inr ⟨_, name, hnick⟩))⟩
  | sendToFriends u text =>
      rw [data_of_friendTargets h]
      exact ⟨hallowed.left, Or.inr (Or.inl hallowed.right)⟩
  | sendRosterTo id =>
      exact ⟨hallowed, Or.inr (Or.inr (Or.inr (data_of_rosterTargets h)))⟩
  | _ => cases h

/-!
# Origins over a run
-/

theorem Stores.Registers.nextId {s after : Stores pg} {o : Op double}
    {answer : Answer o} (h : Stores.Registers s o answer after) :
    after.manager.nextId = s.manager.nextId := by
  cases h with
  | same same refused gone => exact same.manager.nextId
  | named slot free live manager named bound =>
      rw [manager]
      rfl
  | bound slot live manager named bound =>
      rw [manager]
      rfl

variable [One double] {s t : Service pg}

/-- A session is given names of the accepted lengths only. -/
theorem Standing.validName_of_setName (h : Standing s) {shard : Nat} {msg : ShardMsg}
    {log : Log double} {id : Nat} {name : List UInt8}
    {next : Bool -> Handler double Unit}
    (hworks : s.consumers shard = some ⟨msg, log, .call (.setName id name) next⟩) :
    validName name = true := by
  have hproper : log.Proper msg := h.proper shard _ hworks
  rcases (h.setName_allowed hworks).right.right.right with ⟨u, hlog⟩
  rw [hlog] at hproper
  have hallows := Log.Proper.allows_of_next hproper.left hproper.right (fun _ hf => hf)
  exact hallows.right.left

namespace Sourced

variable {past : List (Service.Label double)} {label : Service.Label double}

omit [One double] in
theorem start (shards : Nat) (db : Db pg) (friendships : Friendships)
    (ranking : Ranking) :
    Sourced ([] : List (Service.Label double))
      (Service.start (Stores.boot shards db friendships ranking)) where
  queued := fun k msg hmsg => by cases hmsg
  handled := fun k w hw => by cases hw
  sent := fun e he => by cases he
  valid := fun id name hname => by cases hname

omit [One double] in
/-- Nothing but the labels and the ids given out changes. -/
theorem later (h : Sourced past s) (label : Service.Label double) {t : Service pg}
    (hnext : s.stores.manager.nextId ≤ t.stores.manager.nextId)
    (hqueues : t.waiting = s.waiting)
    (hconsumers : t.consumers = s.consumers) (hsent : t.stores.sent = s.stores.sent)
    (hnamed : t.stores.named = s.stores.named) : Sourced (past ++ [label]) t where
  queued := fun k msg hmsg => by
    rw [hqueues] at hmsg
    exact (h.queued k msg hmsg).mono label hnext
  handled := fun k w hw => by
    rw [hconsumers] at hw
    exact (h.handled k w hw).mono label hnext
  sent := fun e he => by
    rw [hsent] at he
    rcases h.sent e he with ⟨horigin, hclient, huttered⟩
    exact ⟨horigin.mono label hnext, hclient, huttered⟩
  valid := fun id name hname => by
    rw [hnamed] at hname
    exact h.valid id name hname

/-- `OnRecv` pushes the packet of a live session under the id of the session. -/
theorem received (h : Sourced past s) (hs : Standing s) {id : Nat} {pkt : Packet}
    (hstep : s.step (.receive id pkt) = some t) : Sourced (past ++ [.receive id pkt]) t := by
  simp only [Service.step] at hstep
  split at hstep
  next => cases hstep
  next slot hlive =>
    split at hstep
    next hsize =>
      cases hstep
      have hpositive : 0 < id := by
        apply Nat.pos_of_ne_zero
        intro hzero
        rw [hzero, show s.stores.manager.byId.lookup 0 = none from
          hs.registry.slots.zero] at hlive
        cases hlive
      have hissued : id < s.stores.manager.nextId := hs.registry.slots.live_lt hlive
      have hsame : Sourced (past ++ [.receive id pkt]) s :=
        h.later (.receive id pkt) (Nat.le_refl _) rfl rfl rfl rfl
      refine ⟨?_, hsame.handled, hsame.sent, hsame.valid⟩
      intro k msg hmsg
      rw [Service.waiting_withQueue] at hmsg
      by_cases hk : k = (s.stores.manager.session slot).handler
      · rw [hk, Function.update_self] at hmsg
        rcases List.mem_append.mp hmsg with hold | hnew
        · exact hsame.queued _ msg hold
        · rw [List.mem_singleton.mp hnew]
          exact .client id pkt (by simp) hpositive hissued hsize.left hsize.right
      · rw [Function.update_of_ne hk] at hmsg
        exact hsame.queued k msg hmsg
    next => cases hstep

theorem taken (h : Sourced past s) {shard : Nat} {msg : ShardMsg}
    {rest : List ShardMsg} (queue : s.waiting shard = msg :: rest) :
    Sourced (past ++ [.pop shard])
      ((s.withWaiting shard rest).goOn shard msg [] (handle msg)) := by
  have hsame : Sourced (past ++ [.pop shard]) s :=
    h.later (.pop shard) (Nat.le_refl _) rfl rfl rfl rfl
  have hmsg := hsame.queued shard msg (by rw [queue]; exact List.mem_cons_self)
  constructor
  · intro k other hother
    rw [Service.goOn_waiting, Service.waiting_withWaiting] at hother
    rw [Service.goOn_stores]
    by_cases hk : k = shard
    · rw [hk, Function.update_self] at hother
      exact hsame.queued shard other (by rw [queue]; exact List.mem_cons_of_mem _ hother)
    · rw [Function.update_of_ne hk] at hother
      exact hsame.queued k other hother
  · intro k w hw
    rw [Service.goOn_stores]
    rcases Service.goOn_consumers hw with ⟨_, rfl⟩ | ⟨_, hold⟩
    · exact hmsg
    · exact hsame.handled k w hold
  · rw [Service.goOn_stores]
    exact hsame.sent
  · rw [Service.goOn_stores]
    exact hsame.valid

theorem acted (h : Sourced past s) (hs : Standing s) (hutters : s.Adheres utterance)
    {shard : Nat} (env : Environment double) {msg : ShardMsg} {log : Log double}
    {o : Op double} {next : Answer o -> Handler double Unit}
    (works : s.consumers shard = some ⟨msg, log, .call o next⟩) :
    Sourced (past ++ [.act shard env])
      ({ s with stores := (s.stores.perform shard msg env o).2 }.goOn shard msg
        (⟨o, (s.stores.perform shard msg env o).1⟩ :: log)
        (next (s.stores.perform shard msg env o).1)) := by
  have hsame : Sourced (past ++ [.act shard env]) s :=
    h.later (.act shard env) (Nat.le_refl _) rfl rfl rfl rfl
  have hallowed : (utterance msg).allowed () o := (hutters shard _ works).left
  have hmsg := hsame.handled shard _ works
  have hregisters := s.stores.perform_registers shard msg env o
  have hnext : (s.stores.perform shard msg env o).2.manager.nextId =
      s.stores.manager.nextId := hregisters.nextId
  constructor
  · intro k other hother
    rw [Service.goOn_waiting, Dispatch.waiting_perform] at hother
    rw [Service.goOn_stores, hnext]
    rcases List.mem_append.mp hother with hold | hnew
    · exact hsame.queued k other hold
    · rw [Dispatch.mem_pushesTo] at hnew
      cases o with
      | post id m =>
          cases List.mem_singleton.mp hnew
          rcases hallowed with ⟨hclient, rfl⟩
          have hsender := hmsg.sender hclient
          exact .trade msg.sessionId id hsender.left hsender.right
      | _ => cases hnew
  · intro k w hw
    rw [Service.goOn_stores, hnext]
    rcases Service.goOn_consumers hw with ⟨_, rfl⟩ | ⟨_, hold⟩
    · exact hmsg
    · exact hsame.handled k w hold
  · intro e he
    rw [Service.goOn_stores] at he ⊢
    rw [hnext]
    rcases Stores.target_of_sent he with hold | ⟨rfl, slot, htarget⟩
    · exact hsame.sent e hold
    · rcases uttered_of_target hallowed htarget with ⟨hclient, huttered⟩
      exact ⟨hmsg, hclient, huttered⟩
  · intro id name hname
    rw [Service.goOn_stores] at hname
    generalize s.stores.perform shard msg env o = out at hregisters hname
    rcases out with ⟨answer, after⟩
    cases hregisters with
    | same same refused gone =>
        rw [same.named] at hname
        exact hsame.valid id name hname
    | named slot free live manager named bound =>
        rw [named] at hname
        rcases List.mem_cons.mp hname with heq | hold
        · cases heq
          exact hs.validName_of_setName works
        · exact hsame.valid id name hold
    | bound slot live manager named bound =>
        rw [named] at hname
        exact hsame.valid id name hname

theorem step (h : Sourced past s) (hs : Standing s) (hutters : s.Adheres utterance)
    (hstep : s.step label = some t) : Sourced (past ++ [label]) t := by
  have heffect := Service.step_effect hstep
  cases heffect with
  | refused socket => exact h.later _ (Nat.le_refl _) rfl rfl rfl rfl
  | connected socket slot manager created shards =>
      refine h.later _ ?_ rfl rfl rfl rfl
      show s.stores.manager.nextId ≤ manager.nextId
      rw [created.nextId]
      exact Nat.le_succ _
  | disconnected id slot live => exact h.later _ (Nat.le_refl _) rfl rfl rfl rfl
  | received id pkt slot shard msg live handler client sender => exact h.received hs hstep
  | completed id bytes result slot live => exact h.later _ (Nat.le_refl _) rfl rfl rfl rfl
  | taken shard msg rest waits queue => exact h.taken queue
  | acted shard env msg log o next works => exact h.acted hs hutters env works

end Sourced

/-- Everything that is known of the texts after these steps. -/
structure Spoken (past : List (Service.Label double)) (s : Service pg) : Prop where
  attested : Attested s
  traced : s.Traced
  mannered : s.Adheres utterance
  sourced : Sourced past s

theorem spoken_run {shards : Nat} {db : Db pg} {friendships : Friendships}
    {ranking : Ranking} {labels : List (Service.Label double)}
    (husers : Numbered db.users)
    (hrun : runFrom Service.step
      (Service.start (Stores.boot shards db friendships ranking)) labels = some t) :
    Spoken labels t := by
  refine run_history (I := Spoken) ?_ ?_ hrun
  · refine ⟨Attested.start shards db friendships ranking husers, ?_, ?_,
      Sourced.start shards db friendships ranking⟩
    · intro e he
      cases he
    · intro k w hw
      cases hw
  · intro past label u v hu hstep
    exact ⟨attested_step u label v hu.attested hstep,
      traced_step hu.attested hu.traced (Service.step_effect hstep),
      adheres_preserved mannered_handle u label v hu.mannered hstep,
      hu.sourced.step hu.attested.toStanding hu.mannered hstep⟩

end Consumers
end ContentServer
