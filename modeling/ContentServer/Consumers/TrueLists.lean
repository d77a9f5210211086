import ContentServer.Consumers.Authority
import ContentServer.Consumers.ListReplies

/-!
# What friend lists say

A friend list is read in one step and sent in a later one, while other consumers
go on.  It is the list of the user of its session in some state that the run has
been in; nobody is sent the list of another.
-/

namespace ContentServer
namespace Consumers

open Foundation Protocol Sessions Registry Storage

variable {double : Type} [One double] {pg : Postgres double}

/-- What is known of a text that was sent for a message. -/
inductive Report (start : Service pg) (past : List (Service.Label double))
    (bound : List (Nat × Nat)) (msg : ShardMsg) (d : Sending) : Prop
  | notice (t : List UInt8) (unlisted : Unlisted t) (data : d.data = (errorPacket t).wire)
  | spoken (t : List UInt8) (data : d.data = (senderPacket msg.sessionId t).wire)
  | chat (data : d.data = msg.pkt.wire)
  | list (u : Nat) (v : Service pg) (own : d.sessionId = msg.sessionId)
      (user : (msg.sessionId, u) ∈ bound) (visited : Visits Service.step start past v)
      (data : d.data = (errorPacket
        (friendListText (Database.friendListOf v.stores.friendDb u))).wire)

/-- What every friend list that is read, or sent, says of an earlier state. -/
structure Reported (start : Service pg) (past : List (Service.Label double))
    (s : Service pg) : Prop where
  lists : s.Keeps listing
  seen : forall msg log u list, s.Logged msg log ->
    log.Has (.getFriendList u) (some list) -> exists v,
      Visits Service.step start past v ∧
        list = Database.friendListOf v.stores.friendDb u
  away : forall msg log, s.Logged msg log -> log.ActsFor msg 0 ->
    msg.sessionId < s.stores.manager.nextId ∧ msg.sessionId ∉ s.stores.manager.byId
  sent : forall msg d, (msg, d) ∈ s.stores.sent ->
    Report start past s.stores.bound msg d

variable {start s t : Service pg} {past : List (Service.Label double)}
  {label : Service.Label double} {msg : ShardMsg} {d : Sending}

theorem Report.mono {bound bound' : List (Nat × Nat)}
    (h : Report start past bound msg d) (label : Service.Label double)
    (hbound : forall e, e ∈ bound -> e ∈ bound') :
    Report start (past ++ [label]) bound' msg d := by
  cases h with
  | notice t unlisted data => exact .notice t unlisted data
  | spoken t data => exact .spoken t data
  | chat data => exact .chat data
  | list u v own user visited data =>
      exact .list u v own (hbound _ user) (visited.append [label]) data

omit [One double] in
/-- The answer to `GetFriendList` is the list that the tables say. -/
theorem Stores.perform_getFriendList (s : Stores pg) (shard : Nat) (msg : ShardMsg)
    (env : Environment double) {u : Nat} {list : FriendList}
    (h : (s.perform shard msg env (.getFriendList u)).1 = some list) :
    list = Database.friendListOf s.friendDb u := by
  replace h : ((Database.getFriendList u).run env.faults s.friendDb).reply = some list := h
  rcases Database.getFriendList_cases s.friendDb u env.faults with ⟨_, hnone, _⟩ | hlist
  · rw [hnone] at h
    cases h
  · rw [hlist] at h
    exact (Option.some.inj h).symm

theorem opens_nickLine (id : Nat) (name : List UInt8) : Opens (nickLine id name) := by
  have hword : Opens (text "NICK ") := opens_of_head rfl (by decide)
  exact ((hword.append _).append _).append _

namespace Reported

theorem begin (shards : Nat) (db : Db pg) (friendships : Friendships)
    (ranking : Ranking) (start : Service pg) :
    Reported start [] (Service.start (Stores.boot shards db friendships ranking)) where
  lists := fun k w hw => by cases hw
  seen := fun msg log u list hlogged => by
    rcases hlogged with ⟨k, rest, hworks⟩ | hfinished
    · cases hworks
    · cases hfinished
  away := fun msg log hlogged => by
    rcases hlogged with ⟨k, rest, hworks⟩ | hfinished
    · cases hworks
    · cases hfinished
  sent := fun msg d hsent => by cases hsent

/-- A handler that reads lists for a live session reads those of its user. -/
theorem bound_of_acts (h : Reported start past s) (hs : Attested s) {log : Log double}
    {u : Nat} (hlogged : s.Logged msg log) (hacts : log.ActsFor msg u)
    (hlive : msg.sessionId ∈ s.stores.manager.byId) :
    (msg.sessionId, u) ∈ s.stores.bound := by
  rcases (hs.confirms_logged hlogged).acts u hacts with hzero | hbound
  · subst hzero
    exact absurd hlive (h.away msg log hlogged hacts).right
  · exact hbound

/-- What a handler sends is as its discipline says. -/
theorem report_of_target (h : Reported start past s) (hs : Attested s) {shard : Nat}
    {log : Log double} {o : Op double} {next : Answer o -> Handler double Unit}
    (works : s.consumers shard = some ⟨msg, log, .call o next⟩) {slot : Slot}
    (htarget : (slot, d.data) ∈ o.targets s.stores.manager)
    (hslot : d.sessionId = (s.stores.manager.session slot).id) :
    Report start past s.stores.bound msg d := by
  have hallowed : (listing msg).allowed log o := (h.lists shard _ works).left
  have hlogged : s.Logged msg log := Or.inl ⟨shard, _, works⟩
  cases o with
  | sendTo id text =>
      have hdata := data_of_sendToTargets htarget
      rcases hallowed with ⟨t, hunlisted, hnotice⟩ | ⟨t, hspoken⟩ |
        ⟨rfl, u, list, hacts, hread, hlist⟩
      · exact .notice t hunlisted (hdata.trans hnotice)
      · exact .spoken t (hdata.trans hspoken)
      · have hlookup := lookup_of_sendToTargets htarget
        have hown := (hs.registry.slots.owner _ _ hlookup).left
        have hlive : msg.sessionId ∈ s.stores.manager.byId := AList.lookup_isSome.mp (by
          rw [hlookup]
          rfl)
        rcases h.seen msg log u list hlogged hread with ⟨v, hvisit, rfl⟩
        exact .list u v (hslot.trans hown) (h.bound_of_acts hs hlogged hacts hlive) hvisit
          (hdata.trans hlist)
  | broadcast text =>
      rcases List.mem_map.mp htarget with ⟨_, _, heq⟩
      have hdata := (Prod.mk.inj heq).right.symm
      rcases hallowed with hchat | ⟨name, hnick⟩
      · exact .chat (hdata.trans hchat)
      · exact .notice _ (opens_nickLine _ name).unlisted (hdata.trans hnick)
  | sendToFriends u text =>
      rcases hallowed with ⟨t, hspoken⟩
      exact .spoken t ((data_of_friendTargets htarget).trans hspoken)
  | sendRosterTo id =>
      rcases data_of_rosterTargets htarget with ⟨other, name, hdata⟩
      exact .notice _ (opens_nickLine other name).unlisted hdata
  | _ => cases htarget

/-- The tables answer for the state that they are in. -/
theorem seen_step (h : Reported start past s) (hrun : runFrom Service.step start past = some s)
    (heffect : Service.Effect s label t) :
    forall msg log u list, t.Logged msg log ->
      log.Has (.getFriendList u) (some list) -> exists v,
        Visits Service.step start (past ++ [label]) v ∧
          list = Database.friendListOf v.stores.friendDb u := by
  intro msg log u list hlogged hread
  have hold : forall before, s.Logged msg before ->
      Log.Has before (.getFriendList u) (some list) -> exists v,
        Visits Service.step start (past ++ [label]) v ∧
          list = Database.friendListOf v.stores.friendDb u := by
    intro before hbefore hread
    rcases h.seen msg before u list hbefore hread with ⟨v, hvisit, hlist⟩
    exact ⟨v, hvisit.append [label], hlist⟩
  rcases Service.logged_step heffect hlogged with
    hbefore | rfl | ⟨shard, env, o, next, before, _, works, rfl⟩
  · exact hold log hbefore hread
  · cases hread
  · rcases Log.has_cons.mp hread with heq | hearlier
    · generalize hanswer : (s.stores.perform shard msg env o).1 = answer at heq
      cases heq
      exact ⟨s, (visits_last hrun).append [label],
        s.stores.perform_getFriendList shard msg env hanswer⟩
    · exact hold before (Or.inl ⟨shard, _, works⟩) hearlier

omit [One double] in
theorem nextId_goOn (s : Service pg) (shard : Nat) (msg : ShardMsg) (log : Log double)
    (x : Handler double Unit) :
    (s.goOn shard msg log x).stores.manager.nextId = s.stores.manager.nextId := by
  rw [Service.goOn_stores]

theorem nextId_step (heffect : Service.Effect s label t) :
    s.stores.manager.nextId ≤ t.stores.manager.nextId := by
  cases heffect with
  | connected socket slot manager created shards =>
      show s.stores.manager.nextId ≤ manager.nextId
      rw [created.nextId]
      exact Nat.le_succ _
  | taken shard msg rest waits queue =>
      rw [nextId_goOn]
      exact Nat.le_refl _
  | acted shard env msg log o next works =>
      rw [nextId_goOn]
      exact Nat.le_of_eq (s.stores.perform_registers shard msg env o).nextId.symm
  | _ => exact Nat.le_refl _

/-- A session that had no user when it was asked for has gone, and stays away. -/
theorem away_step (h : Reported start past s) (hspoken : Spoken past s)
    (heffect : Service.Effect s label t) :
    forall msg log, t.Logged msg log -> log.ActsFor msg 0 ->
      msg.sessionId < t.stores.manager.nextId ∧
        msg.sessionId ∉ t.stores.manager.byId := by
  intro msg log hlogged hacts
  have hstays : msg.sessionId < s.stores.manager.nextId ∧
      msg.sessionId ∉ s.stores.manager.byId ->
        msg.sessionId < t.stores.manager.nextId ∧
          msg.sessionId ∉ t.stores.manager.byId := by
    intro hgone
    exact ⟨Nat.lt_of_lt_of_le hgone.left (nextId_step heffect),
      fun hback => hgone.right (live_step heffect hgone.left hback)⟩
  rcases Service.logged_step heffect hlogged with
    hbefore | rfl | ⟨shard, env, o, next, before, _, works, rfl⟩
  · exact hstays (h.away msg log hbefore hacts)
  · cases hacts
  · rcases Log.has_cons.mp hacts with heq | hearlier
    · generalize hanswer : (s.stores.perform shard msg env o).1 = answer at heq
      cases heq
      have hclient : msg.type = .client := (hspoken.mannered shard _ works).left
      have hsender := (hspoken.sourced.handled shard _ works).sender hclient
      refine hstays ⟨hsender.right, fun hlive => ?_⟩
      exact hspoken.attested.getUserId_ne_zero works hlive hanswer
    · exact hstays (h.away msg before (Or.inl ⟨shard, _, works⟩) hearlier)

theorem sent_step (h : Reported start past s) (hs : Attested s)
    (heffect : Service.Effect s label t) :
    forall msg d, (msg, d) ∈ t.stores.sent ->
      Report start (past ++ [label]) t.stores.bound msg d := by
  intro msg d he
  have hbound : forall e, e ∈ s.stores.bound -> e ∈ t.stores.bound := heffect.grows.bound
  cases heffect with
  | taken shard other rest waits queue =>
      rw [Service.goOn_stores] at he
      exact (h.sent msg d he).mono _ hbound
  | acted shard env other log o next works =>
      rw [Service.goOn_stores] at he
      rcases Stores.recipient_of_sent he with hold | ⟨rfl, slot, htarget, hslot⟩
      · exact (h.sent msg d hold).mono _ hbound
      · exact (h.report_of_target hs works htarget hslot).mono _ hbound
  | _ => exact (h.sent msg d he).mono _ hbound

theorem step (h : Reported start past s) (hspoken : Spoken past s)
    (hrun : runFrom Service.step start past = some s) (hstep : s.step label = some t) :
    Reported start (past ++ [label]) t := by
  have heffect := Service.step_effect hstep
  have hlists := keeps_preserved (fun _ _ _ _ => rfl) lists_handle s label t h.lists hstep
  exact ⟨hlists, h.seen_step hrun heffect, h.away_step hspoken heffect,
    h.sent_step hspoken.attested heffect⟩

end Reported

/-- In every run the texts that were sent are as the reports say. -/
theorem reported_run {shards : Nat} {db : Db pg} {friendships : Friendships}
    {ranking : Ranking} {labels : List (Service.Label double)}
    (husers : Numbered db.users)
    (hrun : runFrom Service.step
      (Service.start (Stores.boot shards db friendships ranking)) labels = some t) :
    Reported (Service.start (Stores.boot shards db friendships ranking)) labels t := by
  refine (run_history (I := fun past s => runFrom Service.step
    (Service.start (Stores.boot shards db friendships ranking)) past = some s ∧
      Reported (Service.start (Stores.boot shards db friendships ranking)) past s)
    ?_ ?_ hrun).right
  · exact ⟨rfl, Reported.begin shards db friendships ranking _⟩
  · intro past label u v hu hstep
    exact ⟨runFrom_snoc_of_run hu.left hstep,
      hu.right.step (spoken_run husers hu.left) hu.left hstep⟩

end Consumers
end ContentServer
