import ContentServer.Clients.Speech
import ContentServer.Clients.BotSpeech
import ContentServer.Consumers.TrueLists

/-!
# Requests from the table to the answer

A request goes from the table of friendships into a friend list, through the send
buffer of a session and the socket of a bot into the pending requests of the bot,
and comes back as a command.  A bot that no name misleads answers nothing but
requests that its user really had.
-/

namespace ContentServer
namespace Clients

open Consumers Foundation Protocol Sessions Registry Storage

variable {double : Type} [One double] {pg : Postgres double}

/-!
# Friend lists on the wire
-/

section Lists

variable {start s t : Service pg} {past labels : List (Service.Label double)}
  {bound : List (Nat × Nat)} {msg : ShardMsg} {d : Sending}

/-- A packet of the server that begins as a friend list does is a friend list. -/
theorem list_of_frame {next : Nat} (h : Report start past bound msg d)
    (horigin : Origin labels next msg) (hclient : msg.type = .client)
    (hfew : next ≤ 65536) {body : List UInt8} (hfits : body.length ≤ MESSAGE_SIZE)
    (hdata : d.data = (⟨0, body⟩ : Frame).encode) (hlist : text "Blocked" <+: body) :
    exists u v, d.sessionId = msg.sessionId ∧ (msg.sessionId, u) ∈ bound ∧
      Visits Service.step start past v ∧
      body = (friendListText (Database.friendListOf v.stores.friendDb u)).take
        MESSAGE_SIZE := by
  have hlegal : (⟨0, body⟩ : Frame).Legal := hfits
  have hsender := horigin.sender hclient
  have hid := ofNat_ne_zero hsender.left (Nat.lt_of_lt_of_le hsender.right hfew)
  -- a packet that was made has the bytes of this one only if it is the same
  have hmade : forall id t, d.data = (makePacket id t).wire ->
      id = 0 ∧ t.take MESSAGE_SIZE = body := by
    intro id t hwire
    have hencode := encode_makePacket id t
    have hsame := frame_encode_injective hencode.left hlegal
      (hencode.right.symm.trans (hwire.symm.trans hdata))
    cases hsame
    exact ⟨rfl, rfl⟩
  cases h with
  | notice t unlisted data =>
      rcases hmade 0 t data with ⟨_, rfl⟩
      exact absurd (hlist.trans (List.take_prefix _ t)) unlisted
  | spoken t data => exact absurd (hmade _ t data).left hid
  | chat data =>
      cases horigin with
      | trade fromSid target positive issued => cases hclient
      | client id pkt received positive issued low high =>
          have hchat := wire_eq_encode (p := (clientMsg id pkt).pkt) low high
          have hsame := frame_encode_injective hchat.left hlegal
            (hchat.right.symm.trans (data.symm.trans hdata))
          exact absurd (congrArg Frame.id hsame) hid
  | list u v own user visited data =>
      exact ⟨u, v, own, user, visited, (hmade 0 _ data).right.symm⟩

/-- Where a friend list in a run comes from. -/
theorem list_of_sent {shards : Nat} {db : Db pg} {friendships : Friendships}
    {ranking : Ranking} (husers : Numbered db.users)
    (hrun : runFrom Service.step
      (Service.start (Stores.boot shards db friendships ranking)) labels = some t)
    (hfew : t.stores.created.length < 65536) (he : (msg, d) ∈ t.stores.sent)
    {body : List UInt8} (hfits : body.length ≤ MESSAGE_SIZE)
    (hdata : d.data = (⟨0, body⟩ : Frame).encode) (hlist : text "Blocked" <+: body) :
    exists u v, (d.sessionId, u) ∈ t.stores.bound ∧
      Visits Service.step (Service.start (Stores.boot shards db friendships ranking))
        labels v ∧
      body = (friendListText (Database.friendListOf v.stores.friendDb u)).take
        MESSAGE_SIZE := by
  have hspoken := spoken_run husers hrun
  have hnext : t.stores.manager.nextId ≤ 65536 := by
    have hcount := hspoken.attested.registry.count
    show t.stores.directory.manager.nextId ≤ 65536
    rw [hcount]
    exact hfew
  rcases hspoken.sourced.sent _ he with ⟨horigin, hclient, _⟩
  rcases list_of_frame ((reported_run husers hrun).sent msg d he) horigin hclient hnext hfits
    hdata hlist with ⟨u, v, hown, huser, hvisit, hbody⟩
  exact ⟨u, v, by rw [hown]; exact huser, hvisit, hbody⟩

/--
A friend list that a session is sent was true.  Whoever calls what in between, it
is what the tables said of the one user of this session, and of no other, in some
state of the run, up to the length of a packet.
-/
theorem friend_lists_are_true {shards : Nat} {db : Db pg} {friendships : Friendships}
    {ranking : Ranking} (husers : Numbered db.users)
    (hrun : runFrom Service.step
      (Service.start (Stores.boot shards db friendships ranking)) labels = some t)
    (hfew : t.stores.created.length < 65536) (he : (msg, d) ∈ t.stores.sent)
    {body : List UInt8} (hfits : body.length ≤ MESSAGE_SIZE)
    (hdata : d.data = (⟨0, body⟩ : Frame).encode) (hlist : text "Blocked" <+: body) :
    exists u v, (forall other, (d.sessionId, other) ∈ t.stores.bound <-> other = u) ∧
      Visits Service.step (Service.start (Stores.boot shards db friendships ranking))
        labels v ∧
      body = (friendListText (Database.friendListOf v.stores.friendDb u)).take
        MESSAGE_SIZE := by
  rcases list_of_sent husers hrun hfew he hfits hdata hlist with
    ⟨u, v, huser, hvisit, hbody⟩
  have hattested := (spoken_run husers hrun).attested
  refine ⟨u, v, fun other => ?_, hvisit, hbody⟩
  constructor
  · exact fun hother => hattested.once _ u other huser hother
  · rintro rfl
    exact huser

end Lists

/-!
# Names that can be read
-/

/-- A name that the bot tells from the other lines of a friend list. -/
def Telling (name : List UInt8) : Prop :=
  Readable name ∧ 10 ∉ name

instance (name : List UInt8) : Decidable (Telling name) :=
  inferInstanceAs (Decidable (_ ∧ _))

/-- What the bot reads off a list of such names as requests are requests. -/
theorem pending_of_list {list : FriendList}
    (hnames : forall name, name ∈ list.blocked ++ list.pending ++ list.friends ->
      Telling name) {name : List UInt8}
    (h : name ∈ (parseFriendList ((friendListText list).take MESSAGE_SIZE)).1) :
    name ∈ list.pending := by
  have hblocked : forall other, other ∈ (shown list).blocked -> Readable other := by
    intro other hother
    have hmem := List.mem_of_mem_take hother
    exact (hnames other (by simp [hmem])).left
  have hpending : forall other, other ∈ (shown list).pending -> Readable other := by
    intro other hother
    have hmem := List.mem_of_mem_take hother
    exact (hnames other (by simp [hmem])).left
  have hfriends : forall other, other ∈ (shown list).friends -> Readable other := by
    intro other hother
    have hmem := List.mem_of_mem_take hother
    exact (hnames other (by simp [hmem])).left
  rw [parseFriendList_take fun other hother => (hnames other hother).right] at h
  unfold filedOf at h
  rw [(filed_readable .blocked hblocked).right.right .pending nofun,
    (filed_readable .pending hpending).left,
    (filed_readable .friends hfriends).right.right .pending nofun, List.append_nil,
    List.nil_append] at h
  exact List.mem_of_mem_take h

/-- This user has a request from a user of this name. -/
def Requested (s : Service pg) (u : Nat) (name : List UInt8) : Prop :=
  exists requester, s.stores.friendships.lookup (requester, u) = some .pending ∧
    userNames s.stores.db.users requester = some name

/-- In some state of a run to `t`, the user of the session had this request. -/
def OnceRequested (start : Service pg) (labels : List (Service.Label double))
    (t : Service pg) (sessionId : Nat) (name : List UInt8) : Prop :=
  exists u v, (sessionId, u) ∈ t.stores.bound ∧ Visits Service.step start labels v ∧
    Requested v u name

omit [One double] in
theorem requested_of_pending {s : Service pg} {u : Nat} {name : List UInt8}
    (h : name ∈ (Database.friendListOf s.stores.friendDb u).pending) :
    Requested s u name := by
  rcases List.mem_filterMap.mp h with ⟨requester, hmem, hname⟩
  exact ⟨requester, Database.mem_pendingFor.mp hmem, hname⟩

/-!
# What the bot knows
-/

theorem receiver_friendAction {b c : Bot} {out : List Sight} {choice : Choice}
    {draws : List Nat} (h : b.friendAction choice draws = some (c, out)) :
    c.receiver = b.receiver := by
  cases choice with
  | add =>
      rcases Option.map_eq_some_iff.mp h with ⟨target, _, htarget⟩
      split at htarget <;> cases htarget <;> rfl
  | chat =>
      rcases Option.map_eq_some_iff.mp h with ⟨words, _, hwords⟩
      cases hwords
      rfl
  | _ =>
      cases h
      rfl

theorem receiver_takePending {b rest : Bot} {i : Nat} {name : List UInt8}
    (h : b.takePending i = some (rest, name)) : rest.receiver = b.receiver := by
  unfold Bot.takePending at h
  split at h
  · cases h
    rfl
  · rcases Option.map_eq_some_iff.mp h with ⟨drawn, _, hpair⟩
    cases hpair
    rfl

/-- Only a packet that is read makes the receiver hold one. -/
theorem read_of_received {b c : Bot} {out : List Sight} {event : BotEvent} {id : UInt16}
    {payload : List UInt8} (h : b.step event = some (c, out))
    (hc : c.receiver = .received id payload) :
    b.receiver = .received id payload ∨ event = .read id payload := by
  cases event with
  | read other found =>
      simp only [Bot.step] at h
      split at h
      · cases h
        cases hc
        exact Or.inr rfl
      · cases h
  | pick n draws =>
      simp only [Bot.step] at h
      split at h
      · split at h
        · rcases Option.bind_eq_some_iff.mp h with ⟨choice, _, hchoice⟩
          rw [receiver_friendAction hchoice] at hc
          exact Or.inl hc
        · cases h
      · cases h
  | take i =>
      simp only [Bot.step] at h
      split at h
      · rcases Option.map_eq_some_iff.mp h with ⟨⟨rest, name⟩, htake, hpair⟩
        have hrest := receiver_takePending htake
        simp only at hpair
        split at hpair <;> cases hpair <;> exact Or.inl (hrest.symm.trans hc)
      · cases h
  | control =>
      simp only [Bot.step] at h
      split at h
      · split at h
        · cases h
          cases hc
        · have hpair := Option.some.inj h
          unfold Bot.onControl at hpair
          split at hpair
          · cases hpair
            cases hc
          · split at hpair <;> cases hpair <;> cases hc
      · cases h
  | dial ok =>
      simp only [Bot.step] at h
      split at h
      · cases ok <;> cases h
        · exact Or.inl hc
        · cases hc
      · cases h
  | write ok =>
      simp only [Bot.step] at h
      split at h
      · cases ok <;> cases h <;> exact Or.inl hc
      · cases h
  | chat draws =>
      simp only [Bot.step] at h
      split at h
      · rcases Option.map_eq_some_iff.mp h with ⟨words, _, hwords⟩
        cases hwords
        exact Or.inl hc
      · cases h
  | answer =>
      simp only [Bot.step] at h
      split at h
      · split at h <;> cases h <;> exact Or.inl hc
      · cases h
  | apply | hangUp =>
      simp only [Bot.step] at h
      split at h
      · cases h
        cases hc
      · cases h
  | login | command | look | leave =>
      simp only [Bot.step] at h
      split at h
      · cases h
        exact Or.inl hc
      · cases h

/-- The names in a friend list that begins as one should. -/
def Receiver.Knows (P : List UInt8 -> Prop) : Receiver -> Prop
  | .received id payload => id = 0 -> (text "Blocked").isPrefixOf payload = true ->
      forall request, request ∈ (parseFriendList payload).1 -> P request
  | .applying payload =>
      forall request, request ∈ (parseFriendList payload).1 -> P request
  | _ => True

def Stage.Knows (P : List UInt8 -> Prop) : Stage -> Prop
  | .taken _ request => P request
  | .sending (.accept request) => P request
  | .sending (.reject request) => P request
  | _ => True

/-- All that the bot takes for requests is so. -/
structure Bot.Knows (P : List UInt8 -> Prop) (b : Bot) : Prop where
  pending : forall request, request ∈ b.pending -> P request
  stage : b.stage.Knows P
  receiver : b.receiver.Knows P

variable {P : List UInt8 -> Prop}

theorem knows_of_speaks {stage : Stage} {saying : Saying} (h : stage.Knows P)
    (hspeaks : Bot.Speaks stage saying) : (Stage.sending saying).Knows P := by
  cases hspeaks with
  | accept request => exact h
  | reject request => exact h
  | _ => trivial

theorem Bot.Knows.step {b c : Bot} {event : BotEvent} {out : List Sight} (h : b.Knows P)
    (hread : forall id payload, event = .read id payload ->
      payload.length ≤ maxPayloadSize -> (Receiver.received id payload).Knows P)
    (hstep : b.step event = some (c, out)) : c.Knows P := by
  rcases h with ⟨hpending, hstage, hreceiver⟩
  have heffect := Bot.step_effect hstep
  cases heffect with
  | speaks saying speaks drawn =>
      exact ⟨hpending, knows_of_speaks hstage speaks, hreceiver⟩
  | nameless accepts i taking drawn =>
      exact ⟨fun request hmem => hpending request (List.mem_of_mem_eraseIdx hmem), trivial,
        hreceiver⟩
  | took accepts i request taking drawn =>
      exact ⟨fun other hmem => hpending other (List.mem_of_mem_eraseIdx hmem),
        hpending request (List.mem_of_getElem? drawn), hreceiver⟩
  | read id payload waiting fits =>
      refine ⟨hpending, hstage, ?_⟩
      rcases read_of_received hstep rfl with hheld | hevent
      · rw [waiting] at hheld
        cases hheld
      · exact hread id payload hevent fits
  | heard id payload counter received hears => exact ⟨hpending, hstage, trivial⟩
  | list payload received heading =>
      rw [received] at hreceiver
      exact ⟨hpending, hstage, hreceiver rfl heading⟩
  | applied payload applying =>
      rw [applying] at hreceiver
      exact ⟨hreceiver, hstage, trivial⟩
  | hungUp waiting => exact ⟨hpending, hstage, trivial⟩
  | dialed dialing off => exact ⟨hpending, trivial, trivial⟩
  | _ => exact ⟨hpending, trivial, hreceiver⟩

theorem Bot.Knows.wrote {b c : Bot} {out : List Sight} {saying : Saying} (h : b.Knows P)
    (heffect : b.Effect c out) (hwrote : .wrote saying ∈ out) :
    (Stage.sending saying).Knows P := by
  cases heffect with
  | wrote other sending =>
      have hstage := h.stage
      rw [sending] at hstage
      rcases List.mem_cons.mp hwrote with hsame | hlater
      · cases hsame
        exact hstage
      · rcases List.mem_cons.mp hlater with hsame | hnil
        · cases hsame
        · cases hnil
  | _ => simp at hwrote

/-- Whatever the bot answers, it has read. -/
theorem knows_trace {events : List BotEvent} {b c : Bot} {out : List Sight}
    {saying : Saying} (h : b.Knows P)
    (hread : forall id payload, .read id payload ∈ events ->
      payload.length ≤ maxPayloadSize -> (Receiver.received id payload).Knows P)
    (htrace : bot.trace b events = some (c, out)) (hwrote : .wrote saying ∈ out) :
    (Stage.sending saying).Knows P := by
  induction events generalizing b out with
  | nil =>
      cases htrace
      cases hwrote
  | cons event rest ih =>
      rcases Machine.trace_cons_some htrace with ⟨next, first, more, hstep, hrest, rfl⟩
      rcases List.mem_append.mp hwrote with hfirst | hmore
      · exact h.wrote (Bot.step_effect hstep) hfirst
      · refine ih (h.step ?_ hstep)
          (fun id payload hmem => hread id payload (List.mem_cons_of_mem event hmem))
          hrest hmore
        intro id payload hevent
        exact hread id payload (by rw [hevent]; exact List.mem_cons_self)

/-!
# From the table to the answer
-/

/-- Names stay for the rest of a run. -/
theorem userNames_of_visited {start v t : Service pg} {labels : List (Service.Label double)}
    (hvisit : Visits Service.step start labels v)
    (hrun : runFrom Service.step start labels = some t) {u : Nat} {name : List UInt8}
    (h : userNames v.stores.db.users u = some name) :
    userNames t.stores.db.users u = some name := by
  rcases hvisit.rest hrun with ⟨rest, hrest⟩
  have hkeeps : Preserved (Service.step : Service pg -> _)
      (fun s => userNames s.stores.db.users u = some name) := by
    intro s label s' hs hstep
    exact (Service.step_effect hstep).grows.names.mono hs
  exact hkeeps.run h hrest

omit [One double] in
/-- All names in a friend list are names of users. -/
theorem userNames_of_friendList {db : FriendDb pg} {u : Nat} {name : List UInt8}
    (h : name ∈ (Database.friendListOf db u).blocked ++
      (Database.friendListOf db u).pending ++ (Database.friendListOf db u).friends) :
    exists other, userNames db.users other = some name := by
  have hjoin : forall ids, name ∈ db.joinNames ids ->
      exists other, userNames db.users other = some name := by
    intro ids hmem
    rcases List.mem_filterMap.mp hmem with ⟨other, _, hname⟩
    exact ⟨other, hname⟩
  rcases List.mem_append.mp h with h | h
  · rcases List.mem_append.mp h with h | h
    · exact hjoin _ h
    · exact hjoin _ h
  · exact hjoin _ h

/--
A bot only answers requests that were made.  Let a bot read what the server sent to
one session, in any order and as much of it as it likes, and let no user have a name
that reads like another line of a friend list.  Then every request that the bot
accepts or rejects, in any interleaving of its loops, stood as pending in the table
of friendships, for the user of this session, in some state of the server.
-/
theorem answered_requests_are_real {shards : Nat} {db : Db pg} {friendships : Friendships}
    {ranking : Ranking} {labels : List (Service.Label double)} {t : Service pg}
    (husers : Numbered db.users)
    (hrun : runFrom Service.step
      (Service.start (Stores.boot shards db friendships ranking)) labels = some t)
    (hfew : t.stores.created.length < 65536)
    (hnames : forall u name, userNames t.stores.db.users u = some name -> Telling name)
    {sessionId : Nat} {name : List UInt8} {pool : List (List UInt8)}
    {events : List BotEvent} {c : Bot} {out : List Sight}
    (hreads : forall id payload, .read id payload ∈ events ->
      exists msg d, (msg, d) ∈ t.stores.sent ∧ d.sessionId = sessionId ∧
        d.data = (⟨id, payload⟩ : Frame).encode)
    (htrace : bot.trace (Bot.new name pool) events = some (c, out))
    {request : List UInt8}
    (hwrote : .wrote (.accept request) ∈ out ∨ .wrote (.reject request) ∈ out) :
    OnceRequested (Service.start (Stores.boot shards db friendships ranking)) labels t
      sessionId request := by
  have htrue : forall id payload, .read id payload ∈ events ->
      payload.length ≤ maxPayloadSize -> (Receiver.received id payload).Knows
        (OnceRequested (Service.start (Stores.boot shards db friendships ranking)) labels t
          sessionId) := by
    intro id payload hmem hfits hzero hheading request hrequest
    subst hzero
    rcases hreads 0 payload hmem with ⟨msg, d, he, rfl, hdata⟩
    rcases list_of_sent husers hrun hfew he hfits hdata
      (List.isPrefixOf_iff_prefix.mp hheading) with ⟨u, v, huser, hvisit, rfl⟩
    refine ⟨u, v, huser, hvisit, requested_of_pending (pending_of_list ?_ hrequest)⟩
    intro other hother
    rcases userNames_of_friendList hother with ⟨owner, howner⟩
    exact hnames owner other (userNames_of_visited hvisit hrun howner)
  have hstart : (Bot.new name pool).Knows (OnceRequested
      (Service.start (Stores.boot shards db friendships ranking)) labels t sessionId) :=
    ⟨fun _ hnone => (by cases hnone), trivial, trivial⟩
  rcases hwrote with haccept | hreject
  · exact knows_trace hstart htrue htrace haccept
  · exact knows_trace hstart htrue htrace hreject

/-!
# Ann asks bob
-/

/-- Ann asks bob to be friends, and bob looks at his list. -/
def asksBob : List (Service.Label Nat) :=
  List.flatten [Service.twoLogins, Service.say 1 "/f add bob", Service.acts 1 4,
    Service.say 2 "/f list", Service.acts 2 4]

/-- Two sessions were given out, the users are ann and bob, and bob was sent his
list. -/
theorem asksBob_run :
    exists t, runFrom Service.step Service.fresh asksBob = some t ∧
      t.stores.created.length = 2 ∧
      (forall e, e ∈ t.stores.db.users.entries -> Telling e.2.userName) ∧
      exists msg d, (msg, d) ∈ t.stores.sent ∧ d.sessionId = 2 ∧
        d.data = (⟨0, Bot.annAsks⟩ : Frame).encode := by
  have hall : (runFrom Service.step Service.fresh asksBob).map
      (fun t => decide (t.stores.created.length = 2 ∧
        (forall e, e ∈ t.stores.db.users.entries -> Telling e.2.userName) ∧
        exists e, e ∈ t.stores.sent ∧ e.2.sessionId = 2 ∧
          e.2.data = (⟨0, Bot.annAsks⟩ : Frame).encode)) = some true := by
    decide +kernel
  rcases Option.map_eq_some_iff.mp hall with ⟨t, hrun, hholds⟩
  rcases of_decide_eq_true hholds with ⟨htwo, hnames, ⟨msg, d⟩, he, hsession, hdata⟩
  exact ⟨t, hrun, htwo, hnames, msg, d, he, hsession, hdata⟩

theorem friend_lists_are_true_ann :
    exists t u v, runFrom Service.step Service.fresh asksBob = some t ∧
      (forall other, (2, other) ∈ t.stores.bound <-> other = u) ∧
      Visits Service.step Service.fresh asksBob v ∧
      Bot.annAsks = (friendListText (Database.friendListOf v.stores.friendDb u)).take
        MESSAGE_SIZE := by
  rcases asksBob_run with ⟨t, hrun, htwo, _, msg, d, he, hsession, hdata⟩
  rcases friend_lists_are_true numbered_empty hrun (by omega) he (by decide +kernel) hdata
    (by decide +kernel) with ⟨u, v, honly, hvisit, hbody⟩
  rw [hsession] at honly
  exact ⟨t, u, v, hrun, honly, hvisit, hbody⟩

/-- Bob answers a request that ann made. -/
theorem answered_requests_are_real_ann :
    exists t, runFrom Service.step Service.fresh asksBob = some t ∧
      OnceRequested Service.fresh asksBob t 2 (text "ann") := by
  rcases asksBob_run with ⟨t, hrun, htwo, hnames, msg, d, he, hsession, hdata⟩
  have haccepts : (bot.trace (Bot.new (text "bob") []) Bot.acceptsAnn).map
      (fun run => decide (Sight.wrote (.accept (text "ann")) ∈ run.2)) = some true := by
    decide +kernel
  rcases Option.map_eq_some_iff.mp haccepts with ⟨⟨c, out⟩, htrace, haccept⟩
  refine ⟨t, hrun, answered_requests_are_real numbered_empty hrun (by omega) ?_ ?_ htrace
    (Or.inl (of_decide_eq_true haccept))⟩
  · intro u name hname
    rcases userNames_eq_some.mp hname with ⟨user, huser, rfl⟩
    exact hnames ⟨u, user⟩ (AList.mem_lookup_iff.mp huser)
  · intro id payload hread
    have hlist : id = 0 ∧ payload = Bot.annAsks := by
      simpa [Bot.acceptsAnn] using hread
    rcases hlist with ⟨rfl, rfl⟩
    exact ⟨msg, d, he, hsession, hdata⟩

end Clients
end ContentServer
