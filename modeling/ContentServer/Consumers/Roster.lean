import ContentServer.Consumers.Authority

/-!
# Who is told which name

A login names its session, later sends it the names of all other named sessions
and last of all announces the new name to everybody.  Of two logins the one that
named its session first is in the roster of the other, or it hears of the other
by the announcement.
-/

namespace ContentServer
namespace Consumers

open Foundation Protocol Sessions Registry Storage

variable {double : Type} {pg : Postgres double}

namespace Service

/-- The bytes were handed to the session. -/
def Sent (s : Service pg) (id : Nat) (data : List UInt8) : Prop :=
  exists e, e ∈ s.stores.sent ∧ e.2.sessionId = id ∧ e.2.data = data

/-- The session was sent its roster. -/
def Rostered (s : Service pg) (id : Nat) : Prop :=
  exists msg log, s.Logged msg log ∧ log.Has (.sendRosterTo id) ()

/-- The session was given the name and everybody was told. -/
def Announced (s : Service pg) (id : Nat) (name : List UInt8) : Prop :=
  exists msg log, s.Logged msg log ∧ log.Has (.setName id name) true ∧
    log.Has (.broadcast (nickPacket id name).wire) ()

/-- A handler of `/n` came to its end that gave the name to the session and was
not stopped by the database. -/
def NickDone (s : Service pg) (id : Nat) (name : List UInt8) : Prop :=
  exists msg log u ids, (msg, log) ∈ s.finished ∧ log.Has (.setName id name) true ∧
    log.Has (.getFriendIds u) (some ids)

end Service

/-- A line of chat as it came from the client, or a text under its own id. -/
def Relayed (msg : ShardMsg) (data : List UInt8) : Prop :=
  (IsChat msg ∧ data = msg.pkt.wire) ∨ Signed msg data

/-- A packet that the server made itself and that begins with `NICK`. -/
def ServerNick (msg : ShardMsg) (data : List UInt8) : Prop :=
  ¬ Relayed msg data ∧ exists rest, data = (makePacket 0 (text "NICK " ++ rest)).wire

/-!
# Targets
-/

/-- Whoever an operation sends to has been sent to afterwards. -/
theorem Stores.sent_of_target (shard : Nat) (msg : ShardMsg) (env : Environment double)
    (s : Stores pg) (o : Op double) {slot : Slot} {data : List UInt8}
    (h : (slot, data) ∈ o.targets s.manager) :
    exists e, e ∈ (s.perform shard msg env o).2.sent ∧
      e.2.sessionId = (s.manager.session slot).id ∧ e.2.data = data := by
  rcases SessionManager.mem_sendings env.posts h with ⟨d, hd, hid, hdata⟩
  rw [Stores.perform_sent]
  exact ⟨(msg, d), List.mem_append_left _ (List.mem_map.mpr ⟨d, hd, rfl⟩), hid, hdata⟩

theorem Stores.sent_mono (shard : Nat) (msg : ShardMsg) (env : Environment double)
    (s : Stores pg) (o : Op double) {e : ShardMsg × Sending} (h : e ∈ s.sent) :
    e ∈ (s.perform shard msg env o).2.sent :=
  List.mem_append_right _ h

/-- What an operation newly sends goes to one of its targets. -/
theorem Stores.target_of_sent {shard : Nat} {msg : ShardMsg} {env : Environment double}
    {s : Stores pg} {o : Op double} {e : ShardMsg × Sending}
    (h : e ∈ (s.perform shard msg env o).2.sent) :
    e ∈ s.sent ∨ (e.1 = msg ∧ exists slot, (slot, e.2.data) ∈ o.targets s.manager) := by
  rw [Stores.perform_sent] at h
  rcases List.mem_append.mp h with hnew | hold
  · rcases List.mem_map.mp hnew with ⟨d, hd, heq⟩
    subst heq
    rcases SessionManager.target_of_mem_sendings hd with ⟨slot, hslot, _⟩
    exact Or.inr ⟨rfl, slot, hslot⟩
  · exact Or.inl hold

/-- A live session that has a name is listed with it. -/
theorem mem_namedSlots_of_nameOf {m : SessionManager} {id : Nat} {name : List UInt8}
    (h : m.nameOf id = some name) :
    exists slot, (id, slot) ∈ m.namedSlots ∧ (m.session slot).name = name := by
  rcases carried_eq_some_iff.mp h with ⟨slot, hlookup, hname, hne⟩
  refine ⟨slot, SessionManager.mem_namedSlots.mpr ⟨hlookup, ?_⟩, hname⟩
  rw [← hname] at hne
  simpa [Session.isNamed] using hne

variable [One double] {s t : Service pg} {label : Service.Label double}

theorem Service.Sent.step {id : Nat} {data : List UInt8} (h : s.Sent id data)
    (heffect : Service.Effect s label t) : t.Sent id data := by
  rcases h with ⟨e, he, hid, hdata⟩
  refine ⟨e, ?_, hid, hdata⟩
  cases heffect with
  | taken shard msg rest waits queue =>
      rw [Service.goOn_stores]
      exact he
  | acted shard env msg log o next works =>
      rw [Service.goOn_stores]
      exact s.stores.sent_mono shard msg env o he
  | _ => exact he

/-!
# What a step adds
-/

theorem rostered_step (heffect : Service.Effect s label t) {id : Nat}
    (h : t.Rostered id) : s.Rostered id ∨ exists shard env msg log next,
      label = .act shard env ∧
      s.consumers shard = some ⟨msg, log, .call (.sendRosterTo id) next⟩ := by
  rcases h with ⟨msg, log, hlogged, hroster⟩
  rcases Service.logged_step heffect hlogged with
    hold | hnil | ⟨shard, env, o, next, before, hlabel, hworks, hlog⟩
  · exact Or.inl ⟨msg, log, hold, hroster⟩
  · rw [hnil] at hroster
    cases hroster
  · rw [hlog] at hroster
    rcases Log.has_cons.mp hroster with heq | hbefore
    · generalize (s.stores.perform shard msg env o).1 = answer at heq
      cases heq
      exact Or.inr ⟨shard, env, msg, before, next, hlabel, hworks⟩
    · exact Or.inl ⟨msg, before, Or.inl ⟨shard, _, hworks⟩, hbefore⟩

theorem announced_step (hs : Attested s) (heffect : Service.Effect s label t)
    {id : Nat} {name : List UInt8} (h : t.Announced id name) :
    s.Announced id name ∨ exists shard env msg log next,
      label = .act shard env ∧ log.Has (.setName id name) true ∧
      s.consumers shard =
        some ⟨msg, log, .call (.broadcast (nickPacket id name).wire) next⟩ := by
  rcases h with ⟨msg, log, hlogged, hname, hbroadcast⟩
  rcases Service.logged_step heffect hlogged with
    hold | hnil | ⟨shard, env, o, next, before, hlabel, hworks, hlog⟩
  · exact Or.inl ⟨msg, log, hold, hname, hbroadcast⟩
  · rw [hnil] at hname
    cases hname
  rw [hlog] at hname hbroadcast
  rcases Log.has_cons.mp hbroadcast with heq | hearlier
  · generalize (s.stores.perform shard msg env o).1 = answer at heq hname
    cases heq
    rcases Log.has_cons.mp hname with heq | hgiven
    · cases heq
    · exact Or.inr ⟨shard, env, msg, before, next, hlabel, hgiven, hworks⟩
  · rcases Log.has_cons.mp hname with heq | hgiven
    · generalize (s.stores.perform shard msg env o).1 = answer at heq
      cases heq
      -- Nothing is sent before the session has its name.
      rcases (hs.setName_allowed hworks).right.right.right with ⟨u, hbefore⟩
      rw [hbefore] at hearlier
      rcases Log.has_cons.mp hearlier with heq | hearlier
      · cases heq
      rcases Log.has_cons.mp hearlier with heq | hearlier
      · cases heq
      · cases hearlier
    · exact Or.inl ⟨msg, before, Or.inl ⟨shard, _, hworks⟩, hgiven, hearlier⟩

/-- Old sessions do not come back. -/
theorem live_step (heffect : Service.Effect s label t) {id : Nat}
    (hid : id < s.stores.manager.nextId) (h : id ∈ t.stores.manager.byId) :
    id ∈ s.stores.manager.byId := by
  cases heffect with
  | connected socket slot manager created shards =>
      replace h : id ∈ manager.byId := h
      rw [created.byId, AList.mem_insert] at h
      rcases h with hsame | hold
      · omega
      · exact hold
  | disconnected id' slot live => exact (AList.mem_erase.mp h).right
  | taken shard msg rest waits queue =>
      rw [Service.goOn_stores] at h
      exact h
  | acted shard env msg log o next works =>
      rw [Service.goOn_stores] at h
      replace h : id ∈ (s.stores.perform shard msg env o).2.manager.byId := h
      rw [(s.stores.perform_registers shard msg env o).places.left] at h
      exact h
  | _ => exact h

/-- A session that was sent its roster or announced has been given a name. -/
theorem Service.Rostered.named (h : Attested s) {id : Nat} (hroster : s.Rostered id) :
    exists name, (id, name) ∈ s.stores.named := by
  rcases hroster with ⟨msg, log, hlogged, hhas⟩
  rcases (h.proper_logged hlogged).allowed_of_has hhas with
    ⟨after, before, hlog, hproper, howed | hallows, _⟩
  · rcases hproper.explains _ (List.mem_of_mem_head? howed) with ⟨name, hname⟩
    refine ⟨name, (h.confirms_logged hlogged).named id name ?_⟩
    rw [hlog]
    exact List.mem_append_right _ (hname.cons _)
  · exact absurd hallows (fun hf => hf)

theorem Service.Announced.named (h : Attested s) {id : Nat} {name : List UInt8}
    (hannounced : s.Announced id name) : (id, name) ∈ s.stores.named := by
  rcases hannounced with ⟨msg, log, hlogged, hname, _⟩
  exact (h.confirms_logged hlogged).named id name hname

/-!
# Nobody is missed
-/

/-- Of two sessions that got this far, each has heard of the other. -/
def Service.Heard (s : Service pg) : Prop :=
  forall id other name, id ≠ other -> id ∈ s.stores.manager.byId ->
    other ∈ s.stores.manager.byId -> s.Rostered id -> s.Announced other name ->
    s.Sent id (nickPacket other name).wire

/-- A live session still has the name that it was given. -/
theorem Standing.nameOf_of_named (h : Standing s) {id : Nat} {name : List UInt8}
    (hid : id ∈ s.stores.manager.byId) (hnamed : (id, name) ∈ s.stores.named) :
    s.stores.manager.nameOf id = some name := by
  rcases Option.isSome_iff_exists.mp (AList.lookup_isSome.mpr hid) with ⟨slot, hlive⟩
  exact (h.registry.named id name hnamed).right ⟨slot, hlive⟩

/-- An announcement goes to every session that has a name. -/
theorem sent_broadcast (hs : Standing s) (shard : Nat) (msg : ShardMsg)
    (env : Environment double) (data : List UInt8) {id : Nat} {name : List UInt8}
    (hid : id ∈ s.stores.manager.byId) (hnamed : (id, name) ∈ s.stores.named) :
    exists e, e ∈ (s.stores.perform shard msg env (.broadcast data)).2.sent ∧
      e.2.sessionId = id ∧ e.2.data = data := by
  rcases mem_namedSlots_of_nameOf (hs.nameOf_of_named hid hnamed) with ⟨slot, hslot, _⟩
  have htarget : (slot, data) ∈
      (Op.broadcast data : Op double).targets s.stores.manager :=
    List.mem_map.mpr ⟨(id, slot), hslot, rfl⟩
  have howner := hs.registry.slots.owner id slot (SessionManager.mem_namedSlots.mp hslot).left
  rcases s.stores.sent_of_target shard msg env _ htarget with ⟨e, he, hsession, hdata⟩
  exact ⟨e, he, hsession.trans howner.left, hdata⟩

/-- A roster lists every other session that has a name. -/
theorem sent_roster (hs : Standing s) (shard : Nat) (msg : ShardMsg)
    (env : Environment double) {id other : Nat} {name : List UInt8} (hne : id ≠ other)
    (hid : id ∈ s.stores.manager.byId) (hother : other ∈ s.stores.manager.byId)
    (hnamed : (other, name) ∈ s.stores.named) :
    exists e, e ∈ (s.stores.perform shard msg env (.sendRosterTo id)).2.sent ∧
      e.2.sessionId = id ∧ e.2.data = (nickPacket other name).wire := by
  rcases mem_namedSlots_of_nameOf (hs.nameOf_of_named hother hnamed) with
    ⟨slot, hslot, hname⟩
  rcases Option.isSome_iff_exists.mp (AList.lookup_isSome.mpr hid) with ⟨target, hlive⟩
  have htarget : (target, (nickPacket other name).wire) ∈
      (Op.sendRosterTo id : Op double).targets s.stores.manager := by
    show _ ∈ s.stores.manager.rosterTargets id
    unfold SessionManager.rosterTargets
    rw [hlive]
    refine List.mem_map.mpr ⟨(other, slot), List.mem_filter.mpr ⟨hslot, ?_⟩, ?_⟩
    · simpa using hne.symm
    · simp only [hname]
  rcases s.stores.sent_of_target shard msg env _ htarget with ⟨e, he, hsession, hdata⟩
  exact ⟨e, he, hsession.trans (hs.registry.slots.owner id target hlive).left, hdata⟩

theorem heard_step (hs : Attested s) (h : s.Heard)
    (heffect : Service.Effect s label t) : t.Heard := by
  intro id other name hne hid hother hroster hannounced
  have hlive : forall {id name}, (id, name) ∈ s.stores.named ->
      id ∈ t.stores.manager.byId -> id ∈ s.stores.manager.byId :=
    fun hnamed => live_step heffect (hs.registry.named _ _ hnamed).left
  rcases rostered_step heffect hroster with
    hroster | ⟨shard, env, msg, log, next, hlabel, hworks⟩
  · rcases hroster.named hs with ⟨own, hown⟩
    rcases announced_step hs heffect hannounced with
      hannounced | ⟨shard, env, msg, log, next, hlabel, hname, hworks⟩
    · have hthere := hlive (hannounced.named hs) hother
      exact (h id other name hne (hlive hown hid) hthere hroster hannounced).step heffect
    · subst hlabel
      cases heffect with
      | acted shard env msg' log' o next' works =>
          rw [hworks] at works
          cases works
          unfold Service.Sent
          rw [Service.goOn_stores]
          exact sent_broadcast hs.toStanding shard msg env _ (hlive hown hid) hown
  · rcases announced_step hs heffect hannounced with
      hold | ⟨shard', env', msg', log', next', hlabel', _, hworks'⟩
    · have hotherlive := hlive (hold.named hs) hother
      subst hlabel
      cases heffect with
      | acted shard env msg' log' o next' works =>
          rw [hworks] at works
          cases works
          rw [Service.goOn_stores] at hid
          replace hid : id ∈ (s.stores.perform shard msg env
            (.sendRosterTo id)).2.manager.byId := hid
          rw [(s.stores.perform_registers shard msg env _).places.left] at hid
          unfold Service.Sent
          rw [Service.goOn_stores]
          exact sent_roster hs.toStanding shard msg env hne hid hotherlive (hold.named hs)
    · -- One step is not two different calls.
      rw [hlabel] at hlabel'
      cases hlabel'
      rw [hworks] at hworks'
      cases hworks'

/-!
# No other names
-/

/-- Every packet has one of three origins. -/
def Service.Traced (s : Service pg) : Prop :=
  forall e, e ∈ s.stores.sent ->
    (exists t, Plain t ∧ e.2.data = (errorPacket t).wire) ∨ Relayed e.1 e.2.data ∨
    exists id name, (id, name) ∈ s.stores.named ∧ e.2.data = (nickPacket id name).wire

/-- The texts that a handler may send. -/
theorem traced_targets (hs : Attested s) {shard : Nat} {msg : ShardMsg}
    {log : Log double} {o : Op double} {next : Answer o -> Handler double Unit}
    (hworks : s.consumers shard = some ⟨msg, log, .call o next⟩) {slot : Slot}
    {data : List UInt8} (h : (slot, data) ∈ o.targets s.stores.manager) :
    (exists t, Plain t ∧ data = (errorPacket t).wire) ∨ Relayed msg data ∨
    exists id name, (id, name) ∈ s.stores.named ∧ data = (nickPacket id name).wire := by
  have hproper : log.Proper msg := hs.proper shard _ hworks
  have hallowed := hs.allowed hworks
  cases o with
  | sendTo id text =>
      have hdata : data = text := by
        replace h : (slot, data) ∈ s.stores.manager.sendToTargets id text := h
        unfold SessionManager.sendToTargets at h
        cases hlookup : s.stores.manager.byId.lookup id with
        | none =>
            rw [hlookup] at h
            cases h
        | some found =>
            rw [hlookup] at h
            exact (Prod.mk.inj (List.mem_singleton.mp h)).right
      subst hdata
      rcases hproper.allows_of_next hallowed (fun _ hf => hf) with hplain | hown
      · exact Or.inl hplain
      · exact Or.inr (Or.inl (Or.inr hown))
  | broadcast text =>
      rcases List.mem_map.mp h with ⟨_, _, heq⟩
      have hdata := (Prod.mk.inj heq).right
      subst hdata
      rcases hallowed.left with howed | hallows
      · rcases hproper.explains _ (List.mem_of_mem_head? howed) with
          ⟨id, name, hname, hdata⟩
        have hnamed := (hs.confirms shard _ hworks).named id name hname
        exact Or.inr (Or.inr ⟨id, name, hnamed, hdata⟩)
      · exact Or.inr (Or.inl (Or.inl ⟨hallows.left, hallows.right.left⟩))
  | sendToFriends u text =>
      have hdata : data = text := by
        replace h : (slot, data) ∈ s.stores.manager.friendTargets u text := h
        unfold SessionManager.friendTargets at h
        cases huser : s.stores.manager.slotOfUser u with
        | none =>
            rw [huser] at h
            cases h
        | some found =>
            rw [huser] at h
            rcases List.mem_map.mp h with ⟨_, _, heq⟩
            exact (Prod.mk.inj heq).right.symm
      subst hdata
      have hallows := hproper.allows_of_next hallowed (fun _ hf => hf)
      exact Or.inr (Or.inl (Or.inr hallows.right))
  | sendRosterTo id =>
      replace h : (slot, data) ∈ s.stores.manager.rosterTargets id := h
      unfold SessionManager.rosterTargets at h
      cases hlookup : s.stores.manager.byId.lookup id with
      | none =>
          rw [hlookup] at h
          cases h
      | some found =>
          rw [hlookup] at h
          rcases List.mem_map.mp h with ⟨⟨other, place⟩, hlisted, heq⟩
          rcases SessionManager.mem_namedSlots.mp (List.mem_filter.mp hlisted).left with
            ⟨hplace, hnamed⟩
          have hname : s.stores.manager.nameOf other =
              some (s.stores.manager.session place).name :=
            carried_eq_some_iff.mpr ⟨place, hplace, rfl, by
              simpa [Session.isNamed] using hnamed⟩
          exact Or.inr (Or.inr ⟨other, _, hs.registry.nameLogged _ _ hname,
            (Prod.mk.inj heq).right.symm⟩)
  | _ => cases h

theorem traced_step (hs : Attested s) (h : s.Traced)
    (heffect : Service.Effect s label t) : t.Traced := by
  have hgrows := heffect.grows
  have hold : forall e, e ∈ s.stores.sent ->
      (exists t, Plain t ∧ e.2.data = (errorPacket t).wire) ∨ Relayed e.1 e.2.data ∨
      exists id name, (id, name) ∈ t.stores.named ∧
        e.2.data = (nickPacket id name).wire := by
    intro e he
    rcases h e he with hplain | hrelayed | ⟨id, name, hnamed, hdata⟩
    · exact Or.inl hplain
    · exact Or.inr (Or.inl hrelayed)
    · exact Or.inr (Or.inr ⟨id, name, hgrows.named _ hnamed, hdata⟩)
  intro e he
  cases heffect with
  | taken shard msg rest waits queue =>
      rw [Service.goOn_stores] at he
      exact hold e he
  | acted shard env msg log o next works =>
      rw [Service.goOn_stores] at he
      rcases Stores.target_of_sent he with hbefore | ⟨hmsg, slot, htarget⟩
      · exact hold e hbefore
      · rw [hmsg]
        rcases traced_targets hs works htarget with
          hplain | hrelayed | ⟨id, name, hnamed, hdata⟩
        · exact Or.inl hplain
        · exact Or.inr (Or.inl hrelayed)
        · exact Or.inr (Or.inr ⟨id, name, hgrows.named _ hnamed, hdata⟩)
  | _ => exact hold e he

/-- No error message reads `NICK`. -/
theorem Plain.wire_ne {t rest : List UInt8} (h : Plain t) :
    (errorPacket t).wire ≠ (makePacket 0 (text "NICK " ++ rest)).wire := by
  intro hsame
  have htake := wire_makePacket_inj hsame
  rcases t with _ | ⟨c, t⟩
  · exact h.notEmpty rfl
  · have hhead := congrArg List.head? htake
    replace hhead : some c = some 78 := hhead
    exact h.head hhead

/-- A login that came to its end has sent the roster and told everybody. -/
theorem Service.NickDone.announced (hs : Attested s) {id : Nat} {name : List UInt8}
    (h : s.NickDone id name) : s.Rostered id ∧ s.Announced id name := by
  rcases h with ⟨msg, log, u, ids, hfinished, hname, hfriends⟩
  rcases hs.ended msg log hfinished with ⟨hproper, howed, _⟩
  rcases hproper.announces howed hname hfriends with ⟨hroster, hbroadcast⟩
  exact ⟨⟨msg, log, Or.inr hfinished, hroster⟩,
    ⟨msg, log, Or.inr hfinished, hname, hbroadcast⟩⟩

/--
While no send is dropped, two sessions whose logins are done have each been sent
the name of the other, and the names that the server sends were given to the
sessions that it names.
-/
theorem names_announced {shards : Nat} {db : Db pg} {friendships : Friendships}
    {ranking : Ranking} {labels : List (Service.Label double)}
    (husers : Numbered db.users)
    (ht : Visits Service.step
      (Service.start (Stores.boot shards db friendships ranking)) labels t)
    (hroom : forall e, e ∈ t.stores.sent -> e.2.accepted = true) :
    (forall id other own name, id ≠ other -> id ∈ t.stores.manager.byId ->
      other ∈ t.stores.manager.byId -> t.NickDone id own -> t.NickDone other name ->
      exists msg, (msg, ⟨id, (nickPacket other name).wire, true⟩) ∈ t.stores.sent) ∧
    forall msg d, (msg, d) ∈ t.stores.sent -> ServerNick msg d.data ->
      exists id name, (id, name) ∈ t.stores.named ∧
        d.data = (nickPacket id name).wire := by
  have hattested : Attested t :=
    attested_step.visits (Attested.start shards db friendships ranking husers) ht
  have hboth : t.Heard ∧ t.Traced := by
    refine (Preserved.visits (I := fun s => Attested s ∧ s.Heard ∧ s.Traced) ?_
      ⟨Attested.start shards db friendships ranking husers, ?_, ?_⟩ ht).right
    · intro s label t h hstep
      have heffect := Service.step_effect hstep
      exact ⟨attested_step s label t h.left hstep,
        heard_step h.left h.right.left heffect, traced_step h.left h.right.right heffect⟩
    · intro id other name _ hid
      exact absurd hid (AList.notMem_empty id)
    · intro e he
      cases he
  constructor
  · intro id other own name hne hid hother hdone hdone'
    have hroster := (hdone.announced hattested).left
    have hannounced := (hdone'.announced hattested).right
    rcases hboth.left id other name hne hid hother hroster hannounced with
      ⟨⟨msg, d⟩, he, hsession, hdata⟩
    have haccepted := hroom _ he
    rcases d with ⟨session, data, accepted⟩
    cases hsession
    cases hdata
    cases haccepted
    exact ⟨msg, he⟩
  · intro msg d he hnick
    rcases hnick with ⟨hown, rest, hrest⟩
    rcases hboth.right (msg, d) he with ⟨text', hplain, hdata⟩ | hrelayed | hgiven
    · exact absurd (hdata.symm.trans hrest) hplain.wire_ne
    · exact absurd hrelayed hown
    · exact hgiven

/-!
# Two logins at once

The logins of ann and bob overlap: bob is named before ann gets her roster, and
ann hears of bob in it; bob gets his roster later and hears of ann twice.
-/

/-- The names that a log gives. -/
def Log.given (log : Log double) : List (Nat × List UInt8) :=
  log.flatMap (fun call => nameGiven call.1 call.2)

/-- The log has an answer to `GetFriendIds`. -/
def Log.readFriends (log : Log double) : Bool :=
  log.any fun call =>
    match call with
    | ⟨.getFriendIds _, some _⟩ => true
    | _ => false

omit [One double] in
theorem Log.mem_given {log : Log double} {id : Nat} {name : List UInt8} :
    (id, name) ∈ log.given <-> log.Has (.setName id name) true := by
  constructor
  · intro h
    rcases List.mem_flatMap.mp h with ⟨⟨o, answer⟩, hmem, hgiven⟩
    cases o with
    | setName id' name' =>
        cases answer with
        | false => cases hgiven
        | true =>
            cases List.mem_singleton.mp hgiven
            exact hmem
    | _ => cases hgiven
  · intro h
    exact List.mem_flatMap.mpr ⟨_, h, List.mem_singleton_self _⟩

omit [One double] in
theorem Log.readFriends_iff {log : Log double} :
    log.readFriends = true <-> exists u ids, log.Has (.getFriendIds u) (some ids) := by
  unfold Log.readFriends
  rw [List.any_eq_true]
  constructor
  · intro h
    rcases h with ⟨⟨o, answer⟩, hmem, hread⟩
    cases o with
    | getFriendIds u =>
        cases answer with
        | none => cases hread
        | some ids => exact ⟨u, ids, hmem⟩
    | _ => cases hread
  · intro h
    rcases h with ⟨u, ids, hmem⟩
    exact ⟨_, hmem, rfl⟩

instance (s : Service pg) (id : Nat) (name : List UInt8) :
    Decidable (s.NickDone id name) :=
  decidable_of_iff (exists e, e ∈ s.finished ∧ (id, name) ∈ e.2.given ∧
      e.2.readFriends = true) (by
    constructor
    · intro h
      rcases h with ⟨⟨msg, log⟩, hmem, hgiven, hread⟩
      rcases Log.readFriends_iff.mp hread with ⟨u, ids, hfriends⟩
      exact ⟨msg, log, u, ids, hmem, Log.mem_given.mp hgiven, hfriends⟩
    · intro h
      rcases h with ⟨msg, log, u, ids, hmem, hname, hfriends⟩
      exact ⟨(msg, log), hmem, Log.mem_given.mpr hname,
        Log.readFriends_iff.mpr ⟨u, ids, hfriends⟩⟩)

def Service.twoLogins : List (Service.Label Nat) :=
  List.flatten [[.connect 10, .connect 11], Service.say 1 "/n ann",
    Service.say 2 "/n bob", Service.acts 1 4, Service.acts 2 4, Service.acts 1 5,
    Service.acts 2 5]

theorem names_announced_twoLogins :
    exists t, runFrom Service.step Service.fresh Service.twoLogins = some t ∧
      (exists msg, (msg, ⟨1, (nickPacket 2 (text "bob")).wire, true⟩) ∈
        t.stores.sent) ∧
      exists msg, (msg, ⟨2, (nickPacket 1 (text "ann")).wire, true⟩) ∈
        t.stores.sent := by
  have hall : (runFrom Service.step Service.fresh Service.twoLogins).map
      (fun t => decide ((forall e, e ∈ t.stores.sent -> e.2.accepted = true) ∧
        1 ∈ t.stores.manager.byId ∧ 2 ∈ t.stores.manager.byId ∧
        t.NickDone 1 (text "ann") ∧ t.NickDone 2 (text "bob"))) = some true := by
    decide +kernel
  rcases Option.map_eq_some_iff.mp hall with ⟨t, hrun, hholds⟩
  rcases of_decide_eq_true hholds with ⟨hroom, hann, hbob, hdone, hdone'⟩
  have hnames := names_announced numbered_empty (visits_last hrun) hroom
  exact ⟨t, hrun,
    hnames.left 1 2 _ _ (by decide) hann hbob hdone hdone',
    hnames.left 2 1 _ _ (by decide) hbob hann hdone' hdone⟩

end Consumers
end ContentServer
