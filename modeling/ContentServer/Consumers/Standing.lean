import ContentServer.Consumers.Logs
import ContentServer.Consumers.StoreEffects

/-!
# The standing of every session

The invariant behind the results on whole runs.  All messages of a session are
handled by the consumer of its shard, one after another, so what a handler saw
about the name of its session stays true until the handler changes it itself.
Names and user ids are therefore set once, in order, and the registry stays
consistent with the users of the database.
-/

namespace ContentServer
namespace Consumers

open Foundation Protocol Sessions Registry Storage

variable {double : Type} [One double] {pg : Postgres double}

/-- What the log says is true of the stores, and stays true. -/
structure Stores.Confirms (s : Stores pg) (msg : ShardMsg) (log : Log double) :
    Prop where
  login : forall name u, log.Has (.loginOrRegister name) (some u) ->
    userNames s.db.users u = some name
  named : forall id name, log.Has (.setName id name) true -> (id, name) ∈ s.named
  sawName : log.SawName msg -> exists name, (msg.sessionId, name) ∈ s.named
  acts : forall u, log.ActsFor msg u -> u = 0 ∨ (msg.sessionId, u) ∈ s.bound

/-- The session was unnamed at first, and was not given a name since. -/
def Log.SawNoName (log : Log double) (msg : ShardMsg) : Prop :=
  log.Has (.isNamed msg.sessionId) false ∧
    forall name, ¬ log.Has (.setName msg.sessionId name) true

structure Standing (s : Service pg) : Prop where
  conducts : forall k w, s.consumers k = some w -> Conducts w.msg w.log w.rest
  proper : forall k w, s.consumers k = some w -> w.log.Proper w.msg
  handlers : forall id slot, s.stores.manager.byId.lookup id = some slot ->
    (s.stores.manager.session slot).handler = id % s.stores.manager.shardCount
  queued : forall k msg, msg ∈ s.waiting k ->
    k = msg.sessionId % s.stores.manager.shardCount
  routed : forall k w, s.consumers k = some w ->
    k = w.msg.sessionId % s.stores.manager.shardCount
  users : Numbered s.stores.db.users
  registry : Consistent (nameNumbering s.stores.db.users) s.stores.directory
  registered : forall id name, (id, name) ∈ s.stores.named ->
    exists u, userNames s.stores.db.users u = some name
  confirms : forall k w, s.consumers k = some w -> s.stores.Confirms w.msg w.log
  unnamed : forall k w, s.consumers k = some w -> w.log.SawNoName w.msg ->
    s.stores.manager.nameOf w.msg.sessionId = none
  entering : forall id name, s.stores.manager.nameOf id = some name ->
    s.stores.manager.userOf id = none ->
    exists k w u, s.consumers k = some w ∧ w.msg.sessionId = id ∧
      w.log.owed.head? = some (.setUserId id u)

/-!
# Stores that only grow
-/

/-- Names, users and their histories are only added to. -/
structure Stores.Grows (s t : Stores pg) : Prop where
  names : NamesAfter s.db.users t.db.users
  named : forall e, e ∈ s.named -> e ∈ t.named
  bound : forall e, e ∈ s.bound -> e ∈ t.bound

omit [One double] in
theorem Stores.Confirms.mono {s t : Stores pg} {msg : ShardMsg} {log : Log double}
    (h : s.Confirms msg log) (hgrows : s.Grows t) : t.Confirms msg log where
  login := fun name u hlogin => hgrows.names.mono (h.login name u hlogin)
  named := fun id name hname => hgrows.named _ (h.named id name hname)
  sawName := fun hsaw => by
    rcases h.sawName hsaw with ⟨name, hname⟩
    exact ⟨name, hgrows.named _ hname⟩
  acts := fun u hacts => (h.acts u hacts).imp_right (hgrows.bound _)

omit [One double] in
theorem Registers.grows {s after : Stores pg} {o : Op double} {answer : Answer o}
    (h : Stores.Registers s o answer after) :
    (forall e, e ∈ s.named -> e ∈ after.named) ∧
      forall e, e ∈ s.bound -> e ∈ after.bound := by
  cases h with
  | same same refused gone =>
      rw [same.named, same.bound]
      exact ⟨fun _ he => he, fun _ he => he⟩
  | named slot free live manager named bound =>
      rw [named, bound]
      exact ⟨fun _ he => List.mem_cons_of_mem _ he, fun _ he => he⟩
  | bound slot live manager named bound =>
      rw [named, bound]
      exact ⟨fun _ he => he, fun _ he => List.mem_cons_of_mem _ he⟩

omit [One double] in
theorem Stores.perform_grows (shard : Nat) (msg : ShardMsg) (e : Environment double)
    (s : Stores pg) (o : Op double) : s.Grows (s.perform shard msg e o).2 := by
  rcases Registers.grows (s.perform_registers shard msg e o) with ⟨hnamed, hbound⟩
  exact ⟨s.perform_names shard msg e o, hnamed, hbound⟩

omit [One double] in
/-- The numbering of the names in use is not affected by new users. -/
theorem Consistent.renumber {users after : Table Nat (UserRow pg)} {d : Directory}
    (h : Consistent (nameNumbering users) d) (husers : Numbered users)
    (hnames : NamesAfter users after)
    (hregistered : forall id name, (id, name) ∈ d.named ->
      exists u, userNames users u = some name) :
    Consistent (nameNumbering after) d := by
  refine { h with assigned := ?_ }
  intro id u hu
  rcases h.assigned id u hu with ⟨name, hname, hnumber⟩
  rcases hregistered id name (h.nameLogged id name hname) with ⟨v, hv⟩
  rw [nameNumbering_of_user husers hv] at hnumber
  refine ⟨name, hname, ?_⟩
  rw [nameNumbering_of_user (hnames.numbered husers) (hnames.mono hv), hnumber]

namespace Standing

variable {s : Service pg}

theorem start (shards : Nat) (db : Db pg) (friendships : Friendships)
    (ranking : Ranking) (hdb : Numbered db.users) :
    Standing (Service.start (Stores.boot shards db friendships ranking)) where
  conducts := fun k w hw => by cases hw
  proper := fun k w hw => by cases hw
  handlers := fun id slot hslot => by cases hslot
  queued := fun k msg hmsg => by cases hmsg
  routed := fun k w hw => by cases hw
  users := hdb
  registry := Consistent.start shards
  registered := fun id name hmem => by cases hmem
  confirms := fun k w hw => by cases hw
  unnamed := fun k w hw => by cases hw
  entering := fun id name hname => by
    rw [show (Service.start (Stores.boot shards db friendships
      ranking)).stores.manager.nameOf id = none from carried_of_lookup_none rfl]
      at hname
    cases hname

/-!
# Connections and completions
-/

/-- Sessions come and go, but none gets another name. -/
theorem withManager (h : Standing s) {m : SessionManager} {created : List Nat}
    (hshards : m.shardCount = s.stores.manager.shardCount)
    (hhandlers : forall id slot, m.byId.lookup id = some slot ->
      (m.session slot).handler = id % s.stores.manager.shardCount)
    (hregistry : Consistent (nameNumbering s.stores.db.users)
      { s.stores.directory with manager := m, created := created })
    (hnames : forall id name, m.nameOf id = some name ->
      s.stores.manager.nameOf id = some name)
    (husers : forall id name, m.nameOf id = some name -> m.userOf id = none ->
      s.stores.manager.userOf id = none) :
    Standing { s with stores := { s.stores with
      world := { s.stores.world with manager := m }, created := created } } where
  conducts := h.conducts
  proper := h.proper
  handlers := fun id slot hslot => by
    show (m.session slot).handler = id % m.shardCount
    rw [hshards]
    exact hhandlers id slot hslot
  queued := fun k msg hmsg => by
    show k = msg.sessionId % m.shardCount
    rw [hshards]
    exact h.queued k msg hmsg
  routed := fun k w hw => by
    show k = w.msg.sessionId % m.shardCount
    rw [hshards]
    exact h.routed k w hw
  users := h.users
  registry := hregistry
  registered := h.registered
  confirms := fun k w hw =>
    (h.confirms k w hw).mono ⟨.same rfl, fun _ he => he, fun _ he => he⟩
  unnamed := fun k w hw hsaw => by
    show m.nameOf w.msg.sessionId = none
    cases hname : m.nameOf w.msg.sessionId with
    | none => rfl
    | some name =>
        have hold := h.unnamed k w hw hsaw
        rw [hnames _ _ hname] at hold
        cases hold
  entering := fun id name hname huser =>
    h.entering id name (hnames id name hname) (husers id name hname huser)

theorem connected (h : Standing s) {socket : Nat} {slot : Slot} {m : SessionManager}
    (hc : SessionManager.Created s.stores.manager socket slot m)
    (hshards : m.shardCount = s.stores.manager.shardCount) :
    Standing { s with stores := { s.stores with
      world := { s.stores.world with manager := m }
      created := s.stores.manager.nextId :: s.stores.created } } := by
  have hname : m.nameOf = s.stores.manager.nameOf := by
    funext id
    refine carried_create h.registry.slots hc ?_ id
    rw [hc.occupant]
    rfl
  have huser : m.userOf = s.stores.manager.userOf := by
    funext id
    refine carried_create h.registry.slots hc ?_ id
    rw [hc.occupant]
    rfl
  refine h.withManager hshards ?_ (h.registry.create hc) ?_ ?_
  · intro id found hfound
    rcases h.registry.slots.lookup_create hc hfound with
      ⟨rfl, rfl⟩ | ⟨hbefore, hsession⟩
    · rw [hc.occupant]
      rfl
    · rw [hsession]
      exact h.handlers id found hbefore
  · intro id name
    rw [hname]
    exact fun hold => hold
  · intro id name _
    rw [huser]
    exact fun hold => hold

theorem disconnected (h : Standing s) {id : Nat} {slot : Slot}
    (hlive : s.stores.manager.byId.lookup id = some slot) :
    Standing (s.withManager (s.stores.manager.destroy slot)) := by
  have hname : (s.stores.manager.destroy slot).nameOf =
      Function.update s.stores.manager.nameOf id none :=
    carried_destroy h.registry.slots hlive
  have huser : (s.stores.manager.destroy slot).userOf =
      Function.update s.stores.manager.userOf id none :=
    carried_destroy h.registry.slots hlive
  refine h.withManager rfl ?_ (h.registry.destroy hlive) ?_ ?_
  · intro other found hfound
    have hbefore := (h.registry.toIssued.live_of_destroy hlive hfound).right
    exact h.handlers other found hbefore
  · intro other name hother
    rw [hname] at hother
    by_cases hsame : other = id
    · rw [hsame, Function.update_self] at hother
      cases hother
    · rw [Function.update_of_ne hsame] at hother
      exact hother
  · intro other name hother hnone
    rw [hname] at hother
    rw [huser] at hnone
    by_cases hsame : other = id
    · rw [hsame, Function.update_self] at hother
      cases hother
    · rw [Function.update_of_ne hsame] at hnone
      exact hnone

theorem completed (h : Standing s) {m : SessionManager}
    (hsame : SameIdentities s.stores.manager m) : Standing (s.withManager m) := by
  refine h.withManager hsame.shardCount ?_ (h.registry.congr hsame) ?_ ?_
  · intro id slot hslot
    rw [hsame.byId] at hslot
    rw [(hsame.sessions slot).handler]
    exact h.handlers id slot hslot
  · intro id name
    rw [hsame.nameOf]
    exact fun hold => hold
  · intro id name _
    rw [hsame.userOf]
    exact fun hold => hold

/-!
# Messages
-/

/-- The queues change, and every message stays with its shard. -/
theorem withWaiting (h : Standing s) {k : Nat} {queue : List ShardMsg}
    (hqueue : forall msg, msg ∈ queue ->
      k = msg.sessionId % s.stores.manager.shardCount) :
    Standing (s.withWaiting k queue) where
  conducts := h.conducts
  proper := h.proper
  handlers := h.handlers
  queued := fun other msg hmsg => by
    rw [Service.waiting_withWaiting] at hmsg
    by_cases hother : other = k
    · subst hother
      rw [Function.update_self] at hmsg
      exact hqueue msg hmsg
    · rw [Function.update_of_ne hother] at hmsg
      exact h.queued other msg hmsg
  routed := h.routed
  users := h.users
  registry := h.registry
  registered := h.registered
  confirms := fun k w hw =>
    (h.confirms k w hw).mono ⟨.same rfl, fun _ he => he, fun _ he => he⟩
  unnamed := h.unnamed
  entering := h.entering

end Standing

end Consumers
end ContentServer
