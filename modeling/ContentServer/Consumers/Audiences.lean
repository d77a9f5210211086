import ContentServer.Consumers.Acquaintances
import ContentServer.Consumers.Origins

/-!
# Who hears what

A text that was sent is a message of the server, or it is what a line says and went
to somebody for whom the line was: to everybody, to the one session of a whisper, to
somebody who has been a friend of the speaker, or back to the speaker.
-/

namespace ContentServer
namespace Consumers

open Foundation Protocol Sessions Registry Storage

variable {double : Type} [One double] {pg : Postgres double}

/-- What is known of a text that was sent for a message, and of its recipient. -/
inductive Told (start : Service pg) (past : List (Service.Label double))
    (bound : List (Nat × Nat)) (msg : ShardMsg) (d : Sending) : Prop
  | server (t : List UInt8) (data : d.data = (makePacket 0 t).wire)
  | chat (line : speechOf msg.pkt.body = some (.toAll msg.pkt.body))
      (data : d.data = msg.pkt.wire)
  | echo (sp : Speech) (line : speechOf msg.pkt.body = some sp)
      (own : d.sessionId = msg.sessionId)
      (data : d.data = (senderPacket msg.sessionId sp.words).wire)
  | whisper (words : List UInt8)
      (line : speechOf msg.pkt.body = some (.whisper d.sessionId words))
      (data : d.data = (senderPacket msg.sessionId words).wire)
  | friend (words : List UInt8) (u v : Nat)
      (line : speechOf msg.pkt.body = some (.toFriends words))
      (user : (msg.sessionId, u) ∈ bound) (friend : (d.sessionId, v) ∈ bound)
      (friends : BeenFriends start past u v)
      (data : d.data = (senderPacket msg.sessionId words).wire)

variable {start s t : Service pg} {past : List (Service.Label double)}
  {label : Service.Label double} {msg : ShardMsg} {d : Sending}

theorem Told.mono {bound bound' : List (Nat × Nat)} (h : Told start past bound msg d)
    (label : Service.Label double) (hbound : forall e, e ∈ bound -> e ∈ bound') :
    Told start (past ++ [label]) bound' msg d := by
  cases h with
  | server t data => exact .server t data
  | chat line data => exact .chat line data
  | echo sp line own data => exact .echo sp line own data
  | whisper words line data => exact .whisper words line data
  | friend words u v line user friend friends data =>
      exact .friend words u v line (hbound _ user) (hbound _ friend) (friends.mono label) data

/-- Everything that was sent reached somebody for whom it was. -/
structure Audience (start : Service pg) (past : List (Service.Label double))
    (s : Service pg) : Prop where
  addresses : s.Keeps addressing
  acquainted : Acquainted start past s
  told : forall msg d, (msg, d) ∈ s.stores.sent -> Told start past s.stores.bound msg d

omit [One double] in
/-- A message to the friends of a user goes to sessions of users in its cache. -/
theorem friend_of_friendTargets {m : SessionManager} {u : Nat} {text data : List UInt8}
    {slot : Slot} (h : (slot, data) ∈ m.friendTargets u text) :
    exists friends v, m.cacheOf u = some friends ∧ v ∈ friends ∧
      m.slotOfUser v = some slot := by
  unfold SessionManager.friendTargets at h
  unfold SessionManager.cacheOf
  cases huser : m.slotOfUser u with
  | none =>
      rw [huser] at h
      cases h
  | some place =>
      rw [huser] at h
      rcases List.mem_map.mp h with ⟨other, hother, heq⟩
      rcases List.mem_filterMap.mp hother with ⟨v, hv, hslot⟩
      refine ⟨_, v, rfl, (Finset.mem_sort _).mp hv, ?_⟩
      rw [hslot, (Prod.mk.inj heq).left]

namespace Audience

theorem begin (shards : Nat) (db : Db pg) (friendships : Friendships)
    (ranking : Ranking) (start : Service pg) :
    Audience start [] (Service.start (Stores.boot shards db friendships ranking)) where
  addresses := fun k w hw => by cases hw
  acquainted := .begin shards db friendships ranking start
  told := fun msg d hsent => by cases hsent

/-- Friends hear of each other through the users of their sessions. -/
theorem told_friend (h : Audience start past s) (hs : Attested s) {log : Log double}
    {u : Nat} {words text : List UInt8} (hlogged : s.Logged msg log)
    (hacts : log.ActsFor msg u) (hsaid : speechOf msg.pkt.body = some (.toFriends words))
    (hdata : d.data = (senderPacket msg.sessionId words).wire) {slot : Slot}
    (htarget : (slot, d.data) ∈ s.stores.manager.friendTargets u text)
    (hslot : d.sessionId = (s.stores.manager.session slot).id) :
    Told start past s.stores.bound msg d := by
  rcases friend_of_friendTargets htarget with ⟨friends, v, hcache, hv, hfound⟩
  have hbound : (msg.sessionId, u) ∈ s.stores.bound := by
    refine ((hs.confirms_logged hlogged).acts u hacts).resolve_left fun hzero => ?_
    -- nobody is logged in as the user with id zero
    unfold SessionManager.cacheOf at hcache
    rcases Option.map_eq_some_iff.mp hcache with ⟨place, hplace, _⟩
    rcases hs.registry.slotOfUser_eq_some.mp hplace with ⟨id, huser, _⟩
    rcases carried_eq_some_iff.mp huser with ⟨_, _, _, hne⟩
    exact hne hzero
  rcases hs.registry.slotOfUser_eq_some.mp hfound with ⟨id, huser, hlive⟩
  have hid : d.sessionId = id := hslot.trans (hs.registry.slots.owner id slot hlive).left
  refine .friend words u v hsaid hbound ?_ (h.acquainted.cached u friends v hcache hv) hdata
  rw [hid]
  exact hs.registry.userLogged id v huser

/-- What a handler sends goes to somebody for whom it is. -/
theorem told_of_target (h : Audience start past s) (hs : Attested s) {shard : Nat}
    {log : Log double} {o : Op double} {next : Answer o -> Handler double Unit}
    (works : s.consumers shard = some ⟨msg, log, .call o next⟩) {slot : Slot}
    (htarget : (slot, d.data) ∈ o.targets s.stores.manager)
    (hslot : d.sessionId = (s.stores.manager.session slot).id) :
    Told start past s.stores.bound msg d := by
  have hallowed : (addressing msg).allowed log o := (h.addresses shard _ works).left
  cases o with
  | sendTo id text =>
      have hdata := data_of_sendToTargets htarget
      have hlookup := lookup_of_sendToTargets htarget
      have hid : d.sessionId = id :=
        hslot.trans (hs.registry.slots.owner id slot hlookup).left
      rcases hallowed with
        ⟨_, ⟨hown, ⟨t, hnotice⟩ | ⟨sp, _, hsaid, hwords⟩⟩ | ⟨_, t, hsaid, hwords⟩⟩
      · exact .server t (hdata.trans hnotice)
      · exact .echo sp hsaid (hid.trans hown) (hdata.trans hwords)
      · refine .whisper t ?_ (hdata.trans hwords)
        rw [hid]
        exact hsaid
  | broadcast text =>
      rcases List.mem_map.mp htarget with ⟨_, _, heq⟩
      have hdata := (Prod.mk.inj heq).right.symm
      rcases hallowed with ⟨_, _, ⟨hsaid, hchat⟩ | ⟨name, hnick⟩⟩
      · exact .chat hsaid (hdata.trans hchat)
      · exact .server _ (hdata.trans hnick)
  | sendToFriends u text =>
      rcases hallowed with ⟨_, _, hacts, t, hsaid, hwords⟩
      have hdata := (data_of_friendTargets htarget).trans hwords
      exact h.told_friend hs (Or.inl ⟨shard, _, works⟩) hacts hsaid hdata htarget hslot
  | sendRosterTo id =>
      rcases data_of_rosterTargets htarget with ⟨other, name, hdata⟩
      exact .server _ hdata
  | _ => cases htarget

theorem told_step (h : Audience start past s) (hs : Attested s)
    (heffect : Service.Effect s label t) :
    forall msg d, (msg, d) ∈ t.stores.sent ->
      Told start (past ++ [label]) t.stores.bound msg d := by
  intro msg d he
  have hbound : forall e, e ∈ s.stores.bound -> e ∈ t.stores.bound := heffect.grows.bound
  cases heffect with
  | taken shard other rest waits queue =>
      rw [Service.goOn_stores] at he
      exact (h.told msg d he).mono _ hbound
  | acted shard env other log o next works =>
      rw [Service.goOn_stores] at he
      rcases Stores.recipient_of_sent he with hold | ⟨rfl, slot, htarget, hslot⟩
      · exact (h.told msg d hold).mono _ hbound
      · exact (h.told_of_target hs works htarget hslot).mono _ hbound
  | _ => exact (h.told msg d he).mono _ hbound

theorem step (h : Audience start past s) (hs : Attested s)
    (hrun : runFrom Service.step start past = some s) (hstep : s.step label = some t) :
    Audience start (past ++ [label]) t where
  addresses := keeps_preserved (fun _ _ _ _ => rfl) addresses_handle s label t h.addresses
    hstep
  acquainted := h.acquainted.step hs.toStanding hrun hstep
  told := h.told_step hs (Service.step_effect hstep)

end Audience

/-- In every run all texts reached somebody for whom they were. -/
theorem audience_run {shards : Nat} {db : Db pg} {friendships : Friendships}
    {ranking : Ranking} {labels : List (Service.Label double)}
    (husers : Numbered db.users)
    (hrun : runFrom Service.step
      (Service.start (Stores.boot shards db friendships ranking)) labels = some t) :
    Audience (Service.start (Stores.boot shards db friendships ranking)) labels t := by
  refine (run_history (I := fun past s => runFrom Service.step
    (Service.start (Stores.boot shards db friendships ranking)) past = some s ∧
      Audience (Service.start (Stores.boot shards db friendships ranking)) past s)
    ?_ ?_ hrun).right
  · exact ⟨rfl, .begin shards db friendships ranking _⟩
  · intro past label u v hu hstep
    exact ⟨runFrom_snoc_of_run hu.left hstep,
      hu.right.step (spoken_run husers hu.left).attested hu.left hstep⟩

end Consumers
end ContentServer
