import ContentServer.Consumers.CacheEffects
import ContentServer.Consumers.Roster
import ContentServer.Foundation.Transcripts

/-!
# Logins

`HandleNick` names the session and gives it its user before it reads the friends
of the user.  Only the first call of the database is guarded: an exception of
`GetFriendIds` leaves the handler and ends in the loop of the consumer, with the
session named, but neither cached nor announced, and no way to log in again.
-/

namespace ContentServer
namespace Consumers

open Foundation Protocol Sessions Registry Storage

variable {double : Type}

/-- A request to log in: the client sent `/n` and a name. -/
structure NickRequest (msg : ShardMsg) : Prop where
  client : msg.type = .client
  command : msg.pkt.body.head? = some 47
  nick : (readWord msg.pkt.body).1 = text "/n"

theorem NickRequest.handle [One double] {msg : ShardMsg} (h : NickRequest msg) :
    handle msg = (handleNick msg.sessionId (readWord msg.pkt.body).2 :
      Handler double Unit) := by
  unfold Consumers.handle
  rw [if_neg (not_not.mpr h.client)]
  simp only [h.command, ne_eq, not_true_eq_false, if_false, h.nick, if_true]

/-- The calls of a login that the database cut short, newest first. -/
def cutLogin (id u : Nat) (name : List UInt8) : Log double :=
  [⟨.getFriendIds u, none⟩, ⟨.rankSetName u name, ()⟩, ⟨.setUserId id u, ()⟩,
    ⟨.setName id name, true⟩, ⟨.loginOrRegister name, some u⟩, ⟨.isNamed id, false⟩]

/-- The calls of a complete login. -/
def wholeLogin (id u : Nat) (name : List UInt8) (ids : List Nat) : Log double :=
  [⟨.broadcast (nickPacket id name).wire, ()⟩, ⟨.sendRosterTo id, ()⟩,
    ⟨.loadFriendCache u ids, ()⟩, ⟨.getFriendIds u, some ids⟩,
    ⟨.rankSetName u name, ()⟩, ⟨.setUserId id u, ()⟩, ⟨.setName id name, true⟩,
    ⟨.loginOrRegister name, some u⟩, ⟨.isNamed id, false⟩]

/-- The log of a handler that names no session. -/
def Log.Idle (log : Log double) : Prop :=
  forall id name, ¬ log.Has (.setName id name) true

theorem idle_of_mem {log : Log double}
    (h : forall call, call ∈ log -> nameGiven call.1 call.2 = []) : log.Idle := by
  intro id name hname
  cases h _ hname

theorem reaches_sendError {id : Nat} {t : List UInt8} {log : Log double}
    (h : Program.Reaches (sendError id t : Handler double Unit) log (.done ())) :
    exists sent, log = [⟨.sendTo id (errorPacket t).wire, sent⟩] := by
  rcases Program.Reaches.first_call h with ⟨sent, rest, hlog, hrest⟩
  rw [hrest.of_done] at hlog
  exact ⟨sent, hlog⟩

/-- The logs of the handler of `/n`. -/
theorem nick_logs {id : Nat} {iss : List UInt8} {log : Log double}
    (h : Program.Reaches (handleNick id iss : Handler double Unit) log (.done ())) :
    log.Idle ∨ (exists u name, log = cutLogin id u name) ∨
      exists u name ids, log = wholeLogin id u name ids := by
  unfold handleNick at h
  by_cases hlength : ((readWord iss).1.length < 3 || (readWord iss).1.length ≥ 10) = true
  · simp only [if_pos hlength] at h
    rcases reaches_sendError h with ⟨sent, hlog⟩
    left
    rw [hlog]
    exact idle_of_mem (by simp [nameGiven])
  simp only [if_neg hlength] at h
  rcases Program.Reaches.first_call h with ⟨named, rest, hnamed, h⟩
  cases named with
  | true =>
      rcases reaches_sendError h with ⟨sent, hrest⟩
      left
      rw [hnamed, hrest]
      exact idle_of_mem (by simp [nameGiven])
  | false =>
  rcases Program.Reaches.first_call h with ⟨login, rest, hlogin, h⟩
  cases login with
  | none =>
      rcases reaches_sendError h with ⟨sent, hrest⟩
      left
      rw [hnamed, hlogin, hrest]
      exact idle_of_mem (by simp [nameGiven])
  | some u =>
  rcases Program.Reaches.first_call h with ⟨done, rest, hdone, h⟩
  cases done with
  | false =>
      rcases reaches_sendError h with ⟨sent, hrest⟩
      left
      rw [hnamed, hlogin, hdone, hrest]
      exact idle_of_mem (by simp [nameGiven])
  | true =>
  rcases Program.Reaches.first_call h with ⟨_, rest, hset, h⟩
  rcases Program.Reaches.first_call h with ⟨_, rest, hrank, h⟩
  rcases Program.Reaches.first_call h with ⟨found, rest, hfound, h⟩
  right
  cases found with
  | none =>
      rw [Program.Reaches.of_done h] at hfound
      left
      exact ⟨u, _, by rw [hnamed, hlogin, hdone, hset, hrank, hfound]; rfl⟩
  | some ids =>
      rcases Program.Reaches.first_call h with ⟨_, rest, hload, h⟩
      rcases Program.Reaches.first_call h with ⟨_, rest, hroster, h⟩
      rcases Program.Reaches.first_call h with ⟨_, rest, hbroadcast, h⟩
      rw [Program.Reaches.of_done h] at hbroadcast
      right
      exact ⟨u, _, ids, by
        rw [hnamed, hlogin, hdone, hset, hrank, hfound, hload, hroster, hbroadcast]; rfl⟩

/-- A handler that found its session named gives no name. -/
theorem Log.Proper.idle_of_isNamed [One double] {msg : ShardMsg} {log : Log double}
    (h : log.Proper msg) {id : Nat} (hnamed : log.Has (.isNamed id) true) : log.Idle := by
  intro other name hname
  rcases h.allows_of_has hname (fun _ hf => hf) with ⟨after, before, hlog, _, _, u, hbefore⟩
  have hno : log.Has (.isNamed other) false := by
    rw [hlog, hbefore]
    exact List.mem_append_right _ (by simp)
  have hsame := h.isNamed_unique hnamed hno
  cases hsame

/-- Any other handler asks first whether its session is named. -/
theorem idle_of_ask [One double] {msg : ShardMsg} {log : Log double}
    (hproper : log.Proper msg) {id : Nat} {t : List UInt8}
    {next : Handler double Unit}
    (h : Program.Reaches (Program.call (.isNamed id) (fun named =>
      if named = true then next else sendError id t)) log (.done ())) : log.Idle := by
  rcases Program.Reaches.first_call h with ⟨named, rest, hlog, h⟩
  cases named with
  | true =>
      have hnamed : log.Has (.isNamed id) true := by
        rw [hlog]
        exact List.mem_append_right _ List.mem_cons_self
      exact hproper.idle_of_isNamed hnamed
  | false =>
      rcases reaches_sendError h with ⟨sent, hrest⟩
      rw [hlog, hrest]
      exact idle_of_mem (by simp [nameGiven])

/-- The only handlers that name a session are logins. -/
theorem handle_logs [One double] {msg : ShardMsg} {log : Log double}
    (h : Program.Reaches (handle msg : Handler double Unit) log (.done ()))
    (hproper : log.Proper msg) :
    log.Idle ∨ (exists u name, log = cutLogin msg.sessionId u name) ∨
      exists u name ids, log = wholeLogin msg.sessionId u name ids := by
  unfold handle at h
  by_cases hclient : msg.type = .client
  · rw [if_neg (not_not.mpr hclient)] at h
    by_cases hcommand : msg.pkt.body.head? = some 47
    · simp only [hcommand, ne_eq, not_true_eq_false, if_false] at h
      by_cases hnick : (readWord msg.pkt.body).1 = text "/n"
      · simp only [hnick, if_true] at h
        exact nick_logs h
      · simp only [hnick, if_false] at h
        exact Or.inl (idle_of_ask hproper h)
    · simp only [hcommand, ne_eq, not_false_eq_true, if_true] at h
      exact Or.inl (idle_of_ask hproper h)
  · -- the messages of a trade
    rw [if_pos hclient] at h
    left
    unfold handleInternal at h
    by_cases hnothing : msg.type = .tradeDisconnect ∨ msg.sessionId = msg.fromSid
    · rw [if_pos hnothing] at h
      rw [Program.Reaches.of_done h]
      exact idle_of_mem (by simp)
    · rw [if_neg hnothing] at h
      rcases Program.Reaches.first_call h with ⟨named, rest, hlog, h⟩
      rw [hlog, Program.Reaches.of_done h]
      exact idle_of_mem (by simp [nameGiven])

/-!
# One login for a session
-/

variable [One double] {pg : Postgres double}

/-- All logs are logs of their handlers, and no two of them name one session. -/
structure OneLogin (s : Service pg) : Prop where
  working : forall k w, s.consumers k = some w ->
    Program.Reaches (handle w.msg) w.log w.rest
  replayed : forall m l, (m, l) ∈ s.finished ->
    Program.Reaches (handle m) l (.done ())
  distinct : forall m l m' l' id name name', (m, l) ∈ s.finished ->
    (m', l') ∈ s.finished -> l.Has (.setName id name) true ->
    l'.Has (.setName id name') true -> l = l'
  first : forall k w m l id name name', s.consumers k = some w ->
    (m, l) ∈ s.finished -> w.log.Has (.setName id name) true ->
    ¬ l.Has (.setName id name') true

namespace OneLogin

variable {s t : Service pg}

theorem start (shards : Nat) (db : Db pg) (friendships : Friendships)
    (ranking : Ranking) :
    OneLogin (Service.start (Stores.boot shards db friendships ranking)) where
  working := fun k w hw => by cases hw
  replayed := fun m l hmem => by cases hmem
  distinct := fun m l m' l' id name name' hmem => by cases hmem
  first := fun k w m l id name name' hw => by cases hw

/-- The stores may change. -/
theorem congr (h : OneLogin s) (hconsumers : t.consumers = s.consumers)
    (hfinished : t.finished = s.finished) : OneLogin t where
  working := by
    rw [hconsumers]
    exact h.working
  replayed := by
    rw [hfinished]
    exact h.replayed
  distinct := by
    rw [hfinished]
    exact h.distinct
  first := by
    rw [hconsumers, hfinished]
    exact h.first

/-- A consumer goes on with a log that names no session of another log. -/
theorem goOn (h : OneLogin s) {shard : Nat} {msg : ShardMsg} {log : Log double}
    {x : Handler double Unit} (hreach : Program.Reaches (handle msg) log x)
    (hfinished : forall m l id name name', (m, l) ∈ s.finished ->
      log.Has (.setName id name) true -> ¬ l.Has (.setName id name') true)
    (hothers : forall k w id name name', s.consumers k = some w -> k ≠ shard ->
      log.Has (.setName id name) true -> ¬ w.log.Has (.setName id name') true) :
    OneLogin (s.goOn shard msg log x) where
  working := by
    intro k w hw
    rcases Service.goOn_consumers hw with ⟨_, rfl⟩ | ⟨_, hold⟩
    · exact hreach
    · exact h.working k w hold
  replayed := by
    intro m l hmem
    rcases Service.finished_goOn hmem with hold | ⟨hdone, rfl, rfl⟩
    · exact h.replayed m l hold
    · rw [← hdone]
      exact hreach
  distinct := by
    intro m l m' l' id name name' hmem hmem' hname hname'
    rcases Service.finished_goOn hmem with hold | ⟨_, rfl, rfl⟩
    · rcases Service.finished_goOn hmem' with hold' | ⟨_, rfl, rfl⟩
      · exact h.distinct m l m' l' id name name' hold hold' hname hname'
      · exact absurd hname (hfinished m l id name' name hold hname')
    · rcases Service.finished_goOn hmem' with hold' | ⟨_, rfl, rfl⟩
      · exact absurd hname' (hfinished m' l' id name name' hold' hname)
      · rfl
  first := by
    intro k w m l id name name' hw hmem hname hname'
    rcases Service.goOn_consumers hw with ⟨hk, rfl⟩ | ⟨hk, hold⟩
    · rcases Service.finished_goOn hmem with hold | ⟨hdone, rfl, rfl⟩
      · exact hfinished m l id name name' hold hname hname'
      · -- the handler is at work, so it has not come to its end
        subst hdone
        rw [hk] at hw
        have hwaits : (s.goOn shard m l (.done ())).consumers shard = none :=
          Function.update_self ..
        rw [hwaits] at hw
        cases hw
    · rcases Service.finished_goOn hmem with hmem | ⟨_, rfl, rfl⟩
      · exact h.first k w m l id name name' hold hmem hname hname'
      · exact hothers k w id name' name hold hk hname' hname

end OneLogin

/-- The shard of a session is the only one that names it. -/
theorem Standing.shard_of_setName {s : Service pg} (h : Standing s) {k k' : Nat}
    {w w' : Working double} {id : Nat} {name name' : List UInt8}
    (hw : s.consumers k = some w) (hw' : s.consumers k' = some w')
    (hname : w.log.Has (.setName id name) true)
    (hname' : w'.log.Has (.setName id name') true) : k = k' := by
  rcases (h.proper k w hw).allows_of_has hname (fun _ hf => hf) with ⟨_, _, _, _, hid, _⟩
  rcases (h.proper k' w' hw').allows_of_has hname' (fun _ hf => hf) with
    ⟨_, _, _, _, hid', _⟩
  rw [h.routed k w hw, h.routed k' w' hw', ← hid, ← hid']

theorem OneLogin.acted {s : Service pg} (h : OneLogin s) (hs : Attested s) {shard : Nat}
    {msg : ShardMsg} {log : Log double} {o : Op double}
    {next : Answer o -> Handler double Unit} (env : Environment double)
    (works : s.consumers shard = some ⟨msg, log, .call o next⟩) :
    OneLogin ({ s with stores := (s.stores.perform shard msg env o).2 }.goOn shard msg
      (⟨o, (s.stores.perform shard msg env o).1⟩ :: log)
      (next (s.stores.perform shard msg env o).1)) := by
  -- a new name goes to a live session without one
  have hnew : forall id name name' m (l : Log double),
      (⟨.setName id name, true⟩ : Sigma (@Answer double)) =
        ⟨o, (s.stores.perform shard msg env o).1⟩ ->
      s.stores.Confirms m l -> ¬ l.Has (.setName id name') true := by
    intro id name name' m l heq hconfirms hname'
    generalize hanswer : (s.stores.perform shard msg env o).1 = answer at heq
    cases heq
    have hunnamed := (hs.setName_allowed works).right.right.left
    replace hanswer : (s.stores.manager.setName id name).1 = true := hanswer
    rcases s.stores.manager.setName_cases id name with ⟨hrefused, _⟩ | ⟨slot, _, hlive, _⟩
    · rw [hrefused] at hanswer
      cases hanswer
    · have hold := (hs.registry.named id name' (hconfirms.named id name' hname')).right
        ⟨slot, hlive⟩
      replace hold : s.stores.manager.nameOf id = some name' := hold
      rw [hunnamed] at hold
      cases hold
  refine OneLogin.goOn (s := { s with stores := (s.stores.perform shard msg env o).2 })
    (h.congr rfl rfl) ((h.working shard _ works).call _) ?_ ?_
  · intro m l id name name' hmem hname
    rcases Log.has_cons.mp hname with heq | hold
    · exact hnew id name name' m l heq (hs.ended m l hmem).right.right
    · exact h.first shard _ m l id name name' works hmem hold
  · intro k w id name name' hw hk hname
    rcases Log.has_cons.mp hname with heq | hold
    · exact hnew id name name' w.msg w.log heq (hs.confirms k w hw)
    · exact fun hname' => hk (hs.shard_of_setName hw works hname' hold)

theorem onelogin_step {s t : Service pg} {label : Service.Label double}
    (h : OneLogin s) (hs : Attested s) (heffect : Service.Effect s label t) :
    OneLogin t := by
  cases heffect with
  | taken shard msg rest waits queue =>
      refine OneLogin.goOn (s := s.withWaiting shard rest) (h.congr rfl rfl) .start ?_ ?_
      · intro m l id name name' _ hname
        cases hname
      · intro k w id name name' _ _ hname
        cases hname
  | acted shard env msg log o next works => exact h.acted hs env works
  | _ => exact h.congr rfl rfl

/-- What holds of the service in every run. -/
structure Orderly (s : Service pg) : Prop extends Attested s, OneLogin s where
  blank : Blank s.stores.manager

theorem orderly_step : Preserved (Service.step : Service pg -> _) Orderly := by
  intro s label t h hstep
  have heffect := Service.step_effect hstep
  exact {
    toAttested := attested_step s label t h.toAttested hstep
    toOneLogin := onelogin_step h.toOneLogin h.toAttested heffect
    blank := h.toStanding.blank_step h.blank heffect }

theorem orderly_run {shards : Nat} {db : Db pg} {friendships : Friendships}
    {ranking : Ranking} {labels : List (Service.Label double)} {s : Service pg}
    (husers : Numbered db.users)
    (h : Visits Service.step
      (Service.start (Stores.boot shards db friendships ranking)) labels s) :
    Orderly s :=
  orderly_step.visits {
    toAttested := Attested.start shards db friendships ranking husers
    toOneLogin := OneLogin.start shards db friendships ranking
    blank := Blank.start shards } h

/-!
# A handler by itself
-/

/-- A handler comes to its end while nothing else happens. -/
inductive Alone (shard : Nat) (msg : ShardMsg) :
    Stores pg -> Log double -> Handler double Unit -> Stores pg -> Log double -> Prop where
  | done (s : Stores pg) (log : Log double) : Alone shard msg s log (.done ()) s log
  | call {s t : Stores pg} {log l : Log double} {o : Op double}
      {next : Answer o -> Handler double Unit} (env : Environment double)
      (rest : Alone shard msg (s.perform shard msg env o).2
        (⟨o, (s.perform shard msg env o).1⟩ :: log)
        (next (s.perform shard msg env o).1) t l) :
      Alone shard msg s log (.call o next) t l

section Alone

variable {shard : Nat} {msg : ShardMsg}

omit [One double] in
theorem Alone.first_call {s t : Stores pg} {log l : Log double} {o : Op double}
    {next : Answer o -> Handler double Unit}
    (h : Alone shard msg s log (.call o next) t l) :
    exists env, Alone shard msg (s.perform shard msg env o).2
      (⟨o, (s.perform shard msg env o).1⟩ :: log)
      (next (s.perform shard msg env o).1) t l := by
  cases h with
  | call env rest => exact ⟨env, rest⟩

omit [One double] in
theorem Alone.of_done {s t : Stores pg} {log l : Log double}
    (h : Alone shard msg s log (.done ()) t l) : t = s ∧ l = log := by
  cases h with
  | done => exact ⟨rfl, rfl⟩

/-- The steps of one consumer until its handler is done. -/
theorem alone_of_run {x : Handler double Unit} :
    forall {s t : Service pg} {log : Log double} {envs : List (Environment double)},
      runFrom Service.step (s.goOn shard msg log x) (envs.map (.act shard)) = some t ->
      t.consumers shard = none ->
      exists l, Alone shard msg s.stores log x t.stores l ∧
        t.finished = (msg, l) :: s.finished ∧
        forall k, k ≠ shard -> t.consumers k = s.consumers k := by
  induction x with
  | done a =>
      intro s t log envs hrun hdone
      cases envs with
      | nil =>
          cases hrun
          exact ⟨log, .done _ _, rfl, fun k hk => Function.update_of_ne hk _ _⟩
      | cons env rest =>
          rcases runFrom_cons_some hrun with ⟨u, hstep, _⟩
          have hwaits : (s.goOn shard msg log (.done a)).consumers shard = none :=
            Function.update_self ..
          simp only [Service.step, hwaits] at hstep
          cases hstep
  | call o next ih =>
      intro s t log envs hrun hdone
      have hworks : (s.goOn shard msg log (.call o next)).consumers shard =
          some ⟨msg, log, .call o next⟩ := Function.update_self ..
      cases envs with
      | nil =>
          cases hrun
          rw [hworks] at hdone
          cases hdone
      | cons env rest =>
          rcases runFrom_cons_some hrun with ⟨u, hstep, hrest⟩
          simp only [Service.step, hworks] at hstep
          cases hstep
          rcases ih _ hrest hdone with ⟨l, halone, hfinished, hothers⟩
          refine ⟨l, .call env halone, hfinished, ?_⟩
          intro k hk
          rw [hothers k hk]
          exact Function.update_of_ne hk _ _

/-- Whatever is decided outside, a handler comes to its end. -/
theorem handler_ends {x : Handler double Unit} :
    forall (s : Service pg) (log : Log double) (envs : Nat -> Environment double),
      exists n t, runFrom Service.step (s.goOn shard msg log x)
          ((List.range n).map (fun i => .act shard (envs i))) = some t ∧
        t.consumers shard = none := by
  induction x with
  | done a =>
      intro s log envs
      exact ⟨0, _, rfl, Function.update_self ..⟩
  | call o next ih =>
      intro s log envs
      have hworks : (s.goOn shard msg log (.call o next)).consumers shard =
          some ⟨msg, log, .call o next⟩ := Function.update_self ..
      rcases ih (s.stores.perform shard msg (envs 0) o).1
        { s.goOn shard msg log (.call o next) with
          stores := (s.stores.perform shard msg (envs 0) o).2 }
        (⟨o, (s.stores.perform shard msg (envs 0) o).1⟩ :: log)
        (fun i => envs (i + 1)) with ⟨n, t, hrun, hdone⟩
      refine ⟨n + 1, t, ?_, hdone⟩
      rw [List.range_succ_eq_map, List.map_cons, List.map_map]
      refine (runFrom_cons_of_step _ ?_).trans hrun
      simp only [Service.step, hworks]
      rfl

omit [One double] in
theorem alone_sendError {s t : Stores pg} {log l : Log double} {id : Nat}
    {text : List UInt8} (h : Alone shard msg s log (sendError id text) t l) :
    SameSessions s.manager t.manager ∧
      exists sent, l = ⟨.sendTo id (errorPacket text).wire, sent⟩ :: log := by
  rcases Alone.first_call h with ⟨env, h⟩
  rcases Alone.of_done h with ⟨ht, hl⟩
  rw [ht, hl]
  exact ⟨SameSessions.sendTo s.manager id (errorPacket text).wire (env.posts 0), _, rfl⟩

omit [One double] in
theorem friendIds_setName {m : SessionManager} {id : Nat} {name : List UInt8}
    (h : (m.setName id name).1 = true) (slot : Slot) :
    (m.setName id name).2.byId = m.byId ∧
      ((m.setName id name).2.session slot).friendIds = (m.session slot).friendIds := by
  rcases m.setName_cases id name with ⟨hrefused, _⟩ | ⟨found, _, _, hset⟩
  · rw [hrefused] at h
    cases h
  rw [hset]
  refine ⟨rfl, ?_⟩
  show ((m.put found ((m.session found).setName name)).session slot).friendIds = _
  by_cases hslot : slot = found
  · rw [hslot, SessionManager.session_put_self]
    rfl
  · rw [SessionManager.session_put_of_ne _ _ hslot]

omit [One double] in
theorem loadFriendCache_setUserId_byId (m : SessionManager) (id u : Nat)
    (ids : List Nat) : ((m.setUserId id u).loadFriendCache u ids).byId = m.byId := by
  rw [loadFriendCache_eq, (editCache_same _ u _).byId]
  rcases m.setUserId_cases id u with ⟨hset, _⟩ | ⟨slot, _, _, hset⟩
  · rw [hset]
  · rw [hset]
    rfl

omit [One double] in
/-- The session that is given a user is the one whose cache is loaded. -/
theorem friendIds_load {m : SessionManager} {id u : Nat} {slot : Slot}
    (hlive : m.byId.lookup id = some slot) (ids : List Nat) :
    (((m.setUserId id u).loadFriendCache u ids).session slot).friendIds =
      (m.session slot).friendIds ∪ ids.toFinset := by
  rw [loadFriendCache_eq]
  rcases m.setUserId_cases id u with ⟨_, hgone⟩ | ⟨found, hfound, _, hset⟩
  · rw [AList.lookup_eq_none.mpr hgone] at hlive
    cases hlive
  rw [hlive] at hfound
  cases hfound
  rw [hset]
  have huser : SessionManager.slotOfUser { m.put slot ((m.session slot).setUserId u) with
      byUserId := m.byUserId.insert u id } u = some slot :=
    slotOfUser_of_lookup (AList.lookup_insert _) hlive
  unfold SessionManager.editCache
  rw [huser]
  show ((SessionManager.put _ slot _).session slot).friendIds = _
  rw [SessionManager.session_put_self]
  show ((m.put slot ((m.session slot).setUserId u)).session slot).friendIds ∪ _ = _
  rw [SessionManager.session_put_self]
  rfl

omit [One double] in
/-- What a request to log in does when nothing else happens. -/
theorem alone_nick {s t : Stores pg} {l : Log double} {id : Nat} {iss : List UInt8}
    (h : Alone shard msg s [] (handleNick id iss) t l) :
    (l.Idle ∧ SameSessions s.manager t.manager) ∨ (exists u name, l = cutLogin id u name) ∨
      exists u name ids, l = wholeLogin id u name ids ∧
        s.manager.isNamed id = false ∧ (s.manager.setName id name).1 = true ∧
        SameSessions (((s.manager.setName id name).2.setUserId id u).loadFriendCache u ids)
          t.manager := by
  unfold handleNick at h
  by_cases hlength : ((readWord iss).1.length < 3 || (readWord iss).1.length ≥ 10) = true
  · simp only [if_pos hlength] at h
    rcases alone_sendError h with ⟨hsame, sent, rfl⟩
    exact Or.inl ⟨idle_of_mem (by simp [nameGiven]), hsame⟩
  simp only [if_neg hlength] at h
  rcases Alone.first_call h with ⟨env, h⟩
  have hask : (s.perform shard msg env (.isNamed id)).1 = s.manager.isNamed id := rfl
  have hasked : (s.perform shard msg env (.isNamed id)).2.manager = s.manager := rfl
  generalize (s.perform shard msg env (.isNamed id)).1 = named at h hask
  generalize (s.perform shard msg env (.isNamed id)).2 = asked at h hasked
  rw [← hasked] at hask ⊢
  cases named with
  | true =>
      rcases alone_sendError h with ⟨hsame, sent, rfl⟩
      exact Or.inl ⟨idle_of_mem (by simp [nameGiven]), hsame⟩
  | false =>
  rcases Alone.first_call h with ⟨env, h⟩
  generalize (asked.perform shard msg env (.loginOrRegister (readWord iss).1)).1 = login at h
  have hfound : (asked.perform shard msg env
    (.loginOrRegister (readWord iss).1)).2.manager = asked.manager := rfl
  generalize (asked.perform shard msg env
    (.loginOrRegister (readWord iss).1)).2 = found at h hfound
  rw [← hfound] at hask ⊢
  cases login with
  | none =>
      rcases alone_sendError h with ⟨hsame, sent, rfl⟩
      exact Or.inl ⟨idle_of_mem (by simp [nameGiven]), hsame⟩
  | some u =>
  rcases Alone.first_call h with ⟨env, h⟩
  have hset : (found.perform shard msg env (.setName id (readWord iss).1)).1 =
      (found.manager.setName id (readWord iss).1).1 := rfl
  have hnamed : (found.perform shard msg env (.setName id (readWord iss).1)).2.manager =
      (found.manager.setName id (readWord iss).1).2 := rfl
  generalize (found.perform shard msg env (.setName id (readWord iss).1)).1 = done at h hset
  generalize (found.perform shard msg env
    (.setName id (readWord iss).1)).2 = named at h hnamed
  cases done with
  | false =>
      rcases alone_sendError h with ⟨hsame, sent, rfl⟩
      have hrefused : (found.manager.setName id (readWord iss).1).2 = found.manager := by
        rcases found.manager.setName_cases id (readWord iss).1 with
          ⟨heq, _⟩ | ⟨slot, _, _, heq⟩
        · rw [heq]
        · rw [heq] at hset
          cases hset
      rw [hnamed, hrefused] at hsame
      exact Or.inl ⟨idle_of_mem (by simp [nameGiven]), hsame⟩
  | true =>
  rcases Alone.first_call h with ⟨env, h⟩
  have hbound : (named.perform shard msg env (.setUserId id u)).2.manager =
      named.manager.setUserId id u := rfl
  generalize (named.perform shard msg env (.setUserId id u)).2 = bound at h hbound
  rcases Alone.first_call h with ⟨env, h⟩
  have hranked : (bound.perform shard msg env
    (.rankSetName u (readWord iss).1)).2.manager = bound.manager := rfl
  generalize (bound.perform shard msg env
    (.rankSetName u (readWord iss).1)).2 = ranked at h hranked
  rcases Alone.first_call h with ⟨env, h⟩
  generalize (ranked.perform shard msg env (.getFriendIds u)).1 = friends at h
  have hread : (ranked.perform shard msg env (.getFriendIds u)).2.manager =
    ranked.manager := rfl
  generalize (ranked.perform shard msg env (.getFriendIds u)).2 = read at h hread
  right
  cases friends with
  | none => exact Or.inl ⟨u, _, (Alone.of_done h).right⟩
  | some ids =>
  right
  rcases Alone.first_call h with ⟨env, h⟩
  have hloaded : (read.perform shard msg env (.loadFriendCache u ids)).2.manager =
      read.manager.loadFriendCache u ids := rfl
  generalize (read.perform shard msg env (.loadFriendCache u ids)).2 = loaded at h hloaded
  rcases Alone.first_call h with ⟨env, h⟩
  have hroster := SameSessions.sendRosterTo loaded.manager id env.posts
  rcases Alone.first_call h with ⟨env', h⟩
  have hannounced := SameSessions.broadcast
    (loaded.manager.sendRosterTo id env.posts).manager
    (nickPacket id (readWord iss).1).wire env'.posts
  rcases Alone.of_done h with ⟨ht, hl⟩
  refine ⟨u, _, ids, hl, hask.symm, hset.symm, ?_⟩
  have hlogin : loaded.manager = ((found.manager.setName id (readWord iss).1).2.setUserId
      id u).loadFriendCache u ids := by
    rw [hloaded, hread, hranked, hbound, hnamed]
  rw [ht, ← hlogin]
  exact hroster.trans hannounced

end Alone

/-!
# All or nothing
-/

/-- The session has a name and a user, and is found by both. -/
structure LoggedIn (t : Service pg) (id u : Nat) (name : List UInt8) : Prop where
  named : t.stores.manager.nameOf id = some name
  bound : t.stores.manager.userOf id = some u
  byName : t.stores.manager.byName.lookup name = some id
  byUserId : t.stores.manager.byUserId.lookup u = some id

/-- The session after its request to log in, which was handled between two states. -/
inductive AllOrNothing (s t : Service pg) (msg : ShardMsg) : Prop where
  /-- This request was a complete login. -/
  | complete (u : Nat) (name : List UInt8) (ids : List Nat) (slot : Slot)
      (login : LoggedIn t msg.sessionId u name)
      (calls : t.finished = (msg, wholeLogin msg.sessionId u name ids) :: s.finished)
      (live : t.stores.manager.byId.lookup msg.sessionId = some slot)
      (cache : (t.stores.manager.session slot).friendIds = ids.toFinset)
  /-- An earlier request was, and nothing has changed. -/
  | before (u : Nat) (name : List UInt8) (ids : List Nat) (m : ShardMsg)
      (login : LoggedIn t msg.sessionId u name) (session : m.sessionId = msg.sessionId)
      (calls : (m, wholeLogin msg.sessionId u name ids) ∈ s.finished)
      (same : SameSessions s.stores.manager t.stores.manager)
  /-- The session may try again. -/
  | nothing (slot : Slot)
      (live : t.stores.manager.byId.lookup msg.sessionId = some slot)
      (unnamed : (t.stores.manager.session slot).name = [])
      (noUser : (t.stores.manager.session slot).userId = 0)
      (noFriends : (t.stores.manager.session slot).friendIds = ∅)
      (byName : t.stores.manager.byName = s.stores.manager.byName)
      (byUserId : t.stores.manager.byUserId = s.stores.manager.byUserId)

/-- The database has answered each call of `GetFriendIds` for the session. -/
def FriendsRead (t : Service pg) (id : Nat) : Prop :=
  forall m l u, (m, l) ∈ t.finished -> m.sessionId = id ->
    ¬ Log.Has l (.getFriendIds u) none

section Outcome

variable {s t : Service pg} {msg : ShardMsg}

/-- Whoever names a session logs in. -/
theorem Orderly.login_log (h : Orderly t) {m : ShardMsg} {l : Log double}
    (hmem : (m, l) ∈ t.finished) (hnot : ¬ l.Idle) :
    (exists u name, l = cutLogin m.sessionId u name) ∨
      exists u name ids, l = wholeLogin m.sessionId u name ids := by
  rcases handle_logs (h.replayed m l hmem) (h.ended m l hmem).left with hidle | hlogin
  · exact absurd hidle hnot
  · exact hlogin

/-- A session with a name, whose shard waits, has gone through its login. -/
theorem Orderly.loggedIn (h : Orderly t) {id : Nat} {name : List UInt8}
    (hwaits : forall k w, t.consumers k = some w -> w.msg.sessionId ≠ id)
    (hname : t.stores.manager.nameOf id = some name) :
    exists u m l, LoggedIn t id u name ∧ (m, l) ∈ t.finished ∧ m.sessionId = id ∧
      Log.Has l (.setName id name) true ∧ Log.Has l (.setUserId id u) () := by
  rcases carried_eq_some_iff.mp hname with ⟨slot, hlive, _, _⟩
  cases huser : t.stores.manager.userOf id with
  | none =>
      rcases h.entering id name hname huser with ⟨k, w, _, hw, hid, _⟩
      exact absurd hid (hwaits k w hw)
  | some u =>
      rcases h.entered id u (h.registry.userLogged id u huser) with
        ⟨m, l, name', hlogged, hid, _, _, hset, hbound⟩
      rcases hlogged with ⟨k, rest, hw⟩ | hmem
      · exact absurd hid (hwaits k _ hw)
      · have hsame := (h.registry.named id name'
          ((h.ended m l hmem).right.right.named id name' hset)).right ⟨slot, hlive⟩
        replace hsame : t.stores.manager.nameOf id = some name' := hsame
        rw [hname] at hsame
        cases hsame
        refine ⟨u, m, l, ⟨hname, huser, ?_, ?_⟩, hmem, hid, hset, hbound⟩
        · exact (h.registry.names name id).mpr hname
        · exact (h.registry.users u id).mpr huser

theorem FriendsRead.of_outcome (ht : Orderly t)
    (hkept : forall e, e ∈ s.finished -> e ∈ t.finished) (h : AllOrNothing s t msg) :
    FriendsRead t msg.sessionId := by
  intro m l v hmem hid hfailed
  have hproper := (ht.ended m l hmem).left
  have hset : exists name, Log.Has l (.setName msg.sessionId name) true := by
    rcases hproper.allowed_of_has hfailed with ⟨after, before, hlog, hbefore, hcalled⟩
    rcases hcalled.left with howed | hallows
    · rcases hbefore.explains _ (List.mem_of_mem_head? howed) with ⟨i, name, hname, _⟩
      have hhas : Log.Has l (.setName i name) true := by
        rw [hlog]
        exact List.mem_append_right _ (hname.cons _)
      rcases hproper.allows_of_has hhas (fun _ hf => hf) with ⟨_, _, _, _, hi, _⟩
      rw [hi, hid] at hhas
      exact ⟨name, hhas⟩
    · exact absurd hallows (fun hf => hf)
  rcases hset with ⟨name, hset⟩
  -- the log of a complete login is the only one that names the session
  have hwhole : forall u other ids m', (m', wholeLogin msg.sessionId u other ids) ∈ t.finished ->
      False := by
    intro u other ids m' hmem'
    have hsame := ht.distinct m l m' _ msg.sessionId name other hmem hmem' hset
      (by simp [wholeLogin, Log.Has])
    rw [hsame] at hfailed
    simp [wholeLogin, Log.Has] at hfailed
  cases h with
  | complete u other ids slot login calls live cache =>
      refine hwhole u other ids msg ?_
      rw [calls]
      exact List.mem_cons_self
  | before u other ids m' login session calls same =>
      exact hwhole u other ids m' (hkept _ calls)
  | nothing slot live unnamed noUser noFriends byName byUserId =>
      have hname := (ht.registry.named msg.sessionId name
        ((ht.ended m l hmem).right.right.named _ _ hset)).right ⟨slot, live⟩
      rcases carried_eq_some_iff.mp hname with ⟨found, hfound, hread, hne⟩
      replace hfound : t.stores.manager.byId.lookup msg.sessionId = some found := hfound
      rw [live] at hfound
      cases hfound
      exact hne (hread.symm.trans unnamed)

/-- A live session without a name has nothing else. -/
theorem Orderly.blank_session (h : Orderly t) {id : Nat} {slot : Slot}
    (hlive : t.stores.manager.byId.lookup id = some slot)
    (hname : t.stores.manager.nameOf id = none) :
    (t.stores.manager.session slot).name = [] ∧
      (t.stores.manager.session slot).userId = 0 ∧
      (t.stores.manager.session slot).friendIds = ∅ := by
  have huser : t.stores.manager.userOf id = none := by
    cases huser : t.stores.manager.userOf id with
    | none => rfl
    | some u =>
        rcases h.registry.assigned id u huser with ⟨name, hnamed, _⟩
        replace hnamed : t.stores.manager.nameOf id = some name := hnamed
        rw [hname] at hnamed
        cases hnamed
  refine ⟨?_, ?_, h.blank id slot hlive huser⟩
  · by_contra hne
    have hsome := carried_eq_some_iff.mpr ⟨slot, hlive, rfl, hne⟩
    rw [SessionManager.nameOf, hsome] at hname
    cases hname
  · by_contra hne
    have hsome := carried_eq_some_iff.mpr ⟨slot, hlive, rfl, hne⟩
    rw [SessionManager.userOf, hsome] at huser
    cases huser

theorem AllOrNothing.of_friendsRead (hs : Orderly s) (ht : Orderly t)
    {shard : Nat} {l : Log double} {iss : List UInt8} {d : Stores pg}
    (hmanager : d.manager = s.stores.manager)
    (halone : Alone shard msg d [] (handleNick msg.sessionId iss) t.stores l)
    (hwaits : forall k w, t.consumers k = some w -> w.msg.sessionId ≠ msg.sessionId)
    (hfinished : t.finished = (msg, l) :: s.finished)
    (hlive : msg.sessionId ∈ t.stores.manager.byId)
    (h : FriendsRead t msg.sessionId) : AllOrNothing s t msg := by
  have hself : (msg, l) ∈ t.finished := by
    rw [hfinished]
    exact List.mem_cons_self
  rcases Option.isSome_iff_exists.mp (AList.lookup_isSome.mpr hlive) with ⟨slot, hslot⟩
  have houtcome := alone_nick halone
  rw [hmanager] at houtcome
  rcases houtcome with
    ⟨hidle, hsame⟩ | ⟨u, name, rfl⟩ | ⟨u, name, ids, rfl, hnot, hset, hsame⟩
  · -- the request was refused
    cases hname : t.stores.manager.nameOf msg.sessionId with
    | none =>
        rcases ht.blank_session hslot hname with ⟨hunnamed, huser, hfriends⟩
        exact .nothing slot hslot hunnamed huser hfriends hsame.byName hsame.byUserId
    | some name =>
        rcases ht.loggedIn hwaits hname with ⟨u, m, l', hlogin, hmem, hid, hgiven, hbound⟩
        rcases ht.login_log hmem (fun hno => hno _ _ hgiven) with
          ⟨v, other, rfl⟩ | ⟨v, other, ids, rfl⟩
        · exact absurd (by simp [cutLogin, Log.Has]) (h m _ v hmem hid)
        · have hsame' : name = other ∧ u = v := by
            simp [wholeLogin, Log.Has] at hgiven hbound
            exact ⟨hgiven.right, hbound.right⟩
          rw [← hsame'.left, ← hsame'.right, hid] at hmem
          refine .before u name ids m hlogin hid ?_ hsame
          rw [hfinished] at hmem
          rcases List.mem_cons.mp hmem with heq | hold
          · rw [← (Prod.mk.inj heq).right] at hidle
            exact absurd (by simp [wholeLogin, Log.Has]) (hidle msg.sessionId name)
          · exact hold
  · exact absurd (by simp [cutLogin, Log.Has]) (h msg _ u hself rfl)
  · -- the login is complete
    have hgiven : Log.Has (wholeLogin msg.sessionId u name ids : Log double)
        (.setName msg.sessionId name) true := by
      simp [wholeLogin, Log.Has]
    have hname := (ht.registry.named msg.sessionId name
      ((ht.ended msg _ hself).right.right.named _ _ hgiven)).right ⟨slot, hslot⟩
    rcases ht.loggedIn hwaits hname with ⟨v, m, l', hlogin, hmem, hid, hgiven', hbound⟩
    have hl := ht.distinct m l' msg _ _ _ _ hmem hself hgiven' hgiven
    have huser : v = u := by
      rw [hl] at hbound
      simpa [wholeLogin, Log.Has] using hbound
    rw [huser] at hlogin
    rcases friendIds_setName hset slot with ⟨hbyId, hkept⟩
    have hbefore : s.stores.manager.byId.lookup msg.sessionId = some slot := by
      rw [← hbyId, ← (loadFriendCache_setUserId_byId _ msg.sessionId u ids), ← hsame.byId]
      exact hslot
    have hplace : (s.stores.manager.setName msg.sessionId name).2.byId.lookup
        msg.sessionId = some slot := by
      rw [hbyId]
      exact hbefore
    have hempty := (hs.blank_session hbefore
      (@Consistent.nameOf_eq_none_of_not_named s.stores.directory _ hnot)).right.right
    refine .complete u name ids slot hlogin hfinished hslot ?_
    rw [hsame.friends, friendIds_load hplace ids, hkept, hempty, Finset.empty_union]

/--
Whatever is decided outside, a request to log in comes to its end.  Then the login is
all or nothing as long as no call of `GetFriendIds` for the session has failed; after
such a failure the session keeps a half of its login.
-/
theorem login_all_or_nothing_iff {shards : Nat} {db : Db pg} {friendships : Friendships}
    {ranking : Ranking} {labels : List (Service.Label double)}
    (husers : Numbered db.users)
    (hvisits : Visits Service.step
      (Service.start (Stores.boot shards db friendships ranking)) labels s)
    {shard : Nat} {rest : List ShardMsg}
    (hqueue : s.waiting shard = msg :: rest) (hrequest : NickRequest msg) :
    (s.consumers shard = none -> forall env : Nat -> Environment double, exists n t,
      runFrom Service.step s
        (.pop shard :: (List.range n).map (fun i => .act shard (env i))) = some t ∧
      t.consumers shard = none) ∧
    forall (envs : List (Environment double)) (t : Service pg),
      runFrom Service.step s (.pop shard :: envs.map (.act shard)) = some t ->
      t.consumers shard = none -> msg.sessionId ∈ t.stores.manager.byId ->
      (AllOrNothing s t msg <-> FriendsRead t msg.sessionId) := by
  constructor
  · intro hwaits env
    rcases handler_ends (s.withWaiting shard rest) [] env with ⟨n, t, hrun, hdone⟩
    refine ⟨n, t, ?_, hdone⟩
    rw [runFrom_cons_of_step _ (Service.step_pop hwaits hqueue)]
    exact hrun
  intro envs t hrun hdone hlive
  have hs := orderly_run husers hvisits
  have ht := orderly_step.run hs hrun
  rcases runFrom_cons_some hrun with ⟨v, hpop, hacts⟩
  have hworks : s.consumers shard = none := by
    cases hw : s.consumers shard with
    | none => rfl
    | some w =>
        simp only [Service.step, hw] at hpop
        cases hpop
  rw [Service.step_pop hworks hqueue] at hpop
  cases hpop
  rcases alone_of_run hacts hdone with ⟨l, halone, hfinished, hothers⟩
  rw [hrequest.handle] at halone
  have hothersIdle : forall k w, t.consumers k = some w ->
      w.msg.sessionId ≠ msg.sessionId := by
    intro k w hw hsame
    by_cases hk : k = shard
    · rw [hk, hdone] at hw
      cases hw
    · rw [hothers k hk] at hw
      refine hk ?_
      rw [hs.routed k w hw, hsame]
      refine (hs.queued shard msg ?_).symm
      rw [hqueue]
      exact List.mem_cons_self
  constructor
  · refine FriendsRead.of_outcome ht ?_
    intro e he
    rw [hfinished]
    exact List.mem_cons_of_mem _ he
  · exact AllOrNothing.of_friendsRead (d := (s.withWaiting shard rest).stores) hs ht rfl
      halone hothersIdle hfinished hlive

end Outcome

/-!
# The login of ann
-/

/-- The log has a call of `GetFriendIds` that failed. -/
def Log.cut (log : Log double) : Bool :=
  log.any fun call =>
    match call with
    | ⟨.getFriendIds _, none⟩ => true
    | _ => false

omit [One double] in
theorem Log.cut_iff {log : Log double} :
    log.cut = true <-> exists u, log.Has (.getFriendIds u) none := by
  unfold Log.cut
  rw [List.any_eq_true]
  constructor
  · intro h
    rcases h with ⟨⟨o, answer⟩, hmem, hcut⟩
    cases o with
    | getFriendIds u =>
        cases answer with
        | none => exact ⟨u, hmem⟩
        | some ids => cases hcut
    | _ => cases hcut
  · intro h
    rcases h with ⟨u, hmem⟩
    exact ⟨_, hmem, rfl⟩

namespace Service

/-- Ann has connected and asked to log in. -/
def annAsks : List (Label Nat) :=
  [.connect 10, .receive 1 (makePacket 0 (text "/n ann"))]

/-- What the consumer of her shard takes next. -/
def annNext (s : Service percentServer) : Bool :=
  match s.waiting 1 with
  | [] => false
  | msg :: _ => decide (msg.sessionId = 1 ∧ msg.type = .client ∧
      msg.pkt.body.head? = some 47 ∧ (readWord msg.pkt.body).1 = text "/n")

/-- Whether her handler is done, she is connected, and friends were not read. -/
def annDone (t : Service percentServer) : Bool × Bool × Bool :=
  ((t.consumers 1).isNone, decide (1 ∈ t.stores.manager.byId),
    t.finished.any (fun e => e.2.cut))

/-- The database fails when her friends are read. -/
def cutsAnn : List (Environment Nat) :=
  List.replicate 5 calm ++ [{ calm with faults := fun _ => true }]

theorem annNext_cases {s : Service percentServer} (h : s.annNext = true) :
    exists msg rest, s.waiting 1 = msg :: rest ∧ NickRequest msg ∧
      msg.sessionId = 1 := by
  unfold annNext at h
  split at h
  · cases h
  · rename_i msg rest hqueue
    rcases of_decide_eq_true h with ⟨hid, hclient, hcommand, hnick⟩
    exact ⟨msg, rest, hqueue, ⟨hclient, hcommand, hnick⟩, hid⟩

end Service

/-- A login that is not disturbed is complete. -/
theorem login_all_or_nothing_ann :
    exists s t msg, runFrom Service.step Service.fresh Service.annAsks = some s ∧
      runFrom Service.step s (.pop 1 :: (List.replicate 9 calm).map (.act 1)) = some t ∧
      NickRequest msg ∧ AllOrNothing s t msg := by
  have hrun : (runFrom Service.step Service.fresh Service.annAsks).bind (fun s =>
      (runFrom Service.step s (.pop 1 :: (List.replicate 9 calm).map (.act 1))).map
        (fun t => (s.annNext, t.annDone))) = some (true, true, true, false) := by
    decide +kernel
  rcases Option.bind_eq_some_iff.mp hrun with ⟨s, hs, hrest⟩
  rcases Option.map_eq_some_iff.mp hrest with ⟨t, ht, hholds⟩
  rcases Prod.mk.inj hholds with ⟨hnext, hholds⟩
  rcases Prod.mk.inj hholds with ⟨hdone, hholds⟩
  rcases Prod.mk.inj hholds with ⟨hlive, hread⟩
  rcases Service.annNext_cases hnext with ⟨msg, rest, hqueue, hnick, hid⟩
  refine ⟨s, t, msg, hs, ht, hnick, ?_⟩
  refine ((login_all_or_nothing_iff numbered_empty (visits_last hs) hqueue hnick).right _ t
    ht (Option.isNone_iff_eq_none.mp hdone) ?_).mpr ?_
  · rw [hid]
    exact of_decide_eq_true hlive
  · intro m l u hmem _ hcut
    rw [List.any_eq_false] at hread
    exact hread _ hmem (Log.cut_iff.mpr ⟨u, hcut⟩)

/-- If the friends of ann cannot be read, she is named but not announced. -/
theorem login_cut_ann :
    exists s t msg, runFrom Service.step Service.fresh Service.annAsks = some s ∧
      runFrom Service.step s (.pop 1 :: Service.cutsAnn.map (.act 1)) = some t ∧
      NickRequest msg ∧ t.consumers 1 = none ∧ msg.sessionId ∈ t.stores.manager.byId ∧
      ¬ AllOrNothing s t msg := by
  have hrun : (runFrom Service.step Service.fresh Service.annAsks).bind (fun s =>
      (runFrom Service.step s (.pop 1 :: Service.cutsAnn.map (.act 1))).map
        (fun t => (s.annNext, t.annDone, s.finished.isEmpty,
          t.finished.all (fun e => decide (e.1.sessionId = 1))))) =
      some (true, (true, true, true), true, true) := by
    decide +kernel
  rcases Option.bind_eq_some_iff.mp hrun with ⟨s, hs, hrest⟩
  rcases Option.map_eq_some_iff.mp hrest with ⟨t, ht, hholds⟩
  simp only [Prod.mk.injEq, Service.annDone] at hholds
  rcases hholds with ⟨hnext, ⟨hwaits, hlive, hcut⟩, hnone, hall⟩
  rcases Service.annNext_cases hnext with ⟨msg, rest, hqueue, hnick, hid⟩
  refine ⟨s, t, msg, hs, ht, hnick, Option.isNone_iff_eq_none.mp hwaits, ?_, ?_⟩
  · rw [hid]
    exact of_decide_eq_true hlive
  intro houtcome
  have hread := FriendsRead.of_outcome
    (orderly_step.run (orderly_run numbered_empty (visits_last hs)) ht) (by
      intro e he
      rw [List.isEmpty_iff.mp hnone] at he
      cases he) houtcome
  rcases List.any_eq_true.mp hcut with ⟨⟨m, l⟩, hmem, hl⟩
  rcases Log.cut_iff.mp hl with ⟨u, hfailed⟩
  refine hread m l u hmem ?_ hfailed
  rw [hid]
  exact of_decide_eq_true (List.all_eq_true.mp hall _ hmem)

end Consumers
end ContentServer
