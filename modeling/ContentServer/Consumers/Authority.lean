import ContentServer.Consumers.EnhancePrice
import ContentServer.Consumers.Histories

/-!
# For whom the handlers write

A handler asks for the user of its session in another lock section than the one
in which it saw that the session has a name.  While the session stays, the
answer is the user that its own login bound to it, and all writes of the handler
are for this user.  When the session goes away in between, the answer is zero,
and the handlers of chat and of the commands on friends go on with it.
-/

namespace ContentServer
namespace Consumers

open Foundation Protocol Sessions Registry Storage

variable {double : Type} {pg : Postgres double}

/-- The user that a call of the database writes for. -/
def Op.writer : Op double -> Option Nat
  | .addGold u _ | .dropItem u | .enhanceItem u _ _ _ _ => some u
  | .addFriend u _ | .acceptFriend u _ | .rejectFriend u _ | .blockFriend u _ => some u
  | _ => none

/-- A message whose handler writes without looking anything up first. -/
def WritesAtOnce (msg : ShardMsg) : Prop :=
  IsChat msg ∨ IsFriendCommand msg

instance (msg : ShardMsg) : Decidable (WritesAtOnce msg) :=
  inferInstanceAs (Decidable (_ ≠ _ ∨ _ ∧ _ ∧ _ ≠ _))

namespace Service

/-- The user id was bound to the session by its own `/n`, and no other was. -/
structure OwnUser (s : Service pg) (sessionId userId : Nat) : Prop where
  positive : userId ≠ 0
  bound : (sessionId, userId) ∈ s.stores.bound
  only : forall other, (sessionId, other) ∈ s.stores.bound -> other = userId
  entered : s.Entered sessionId userId

/-- All writes of all handlers are for the users of their sessions. -/
def WritesAsOwner (s : Service pg) : Prop :=
  forall msg log o answer userId, s.Logged msg log -> log.Has o answer ->
    o.writer = some userId -> s.OwnUser msg.sessionId userId

/-- The message and the session whose user the consumer of a shard asks for next. -/
def asking (s : Service pg) (shard : Nat) : Option (ShardMsg × Nat) :=
  match s.consumers shard with
  | some ⟨msg, _, .call (.getUserId id) _⟩ => some (msg, id)
  | _ => none

/-- When such a handler asks for its user, the session is still there. -/
def StillThere (s : Service pg) : Label double -> Prop
  | .act shard _ =>
      forall c, c ∈ s.asking shard -> WritesAtOnce c.1 -> c.2 ∈ s.stores.manager.byId
  | _ => True

instance (s : Service pg) : (label : Label double) -> Decidable (s.StillThere label)
  | .act shard _ => inferInstanceAs (Decidable (forall c, c ∈ s.asking shard -> _))
  | .connect _ | .disconnect _ | .receive _ _ | .sendDone _ _ _ | .pop _ =>
      isTrue trivial

end Service

variable [One double]

/-!
# Nobody acts as user zero
-/

/-- The registered session of a handler has its user id. -/
theorem Standing.getUserId_ne_zero {s : Service pg} (h : Standing s) {shard : Nat}
    {msg : ShardMsg} {log : Log double} {id : Nat}
    {next : Nat -> Handler double Unit}
    (hworks : s.consumers shard = some ⟨msg, log, .call (.getUserId id) next⟩)
    (hthere : id ∈ s.stores.manager.byId) : s.stores.manager.getUserId id ≠ 0 := by
  have hproper : log.Proper msg := h.proper shard _ hworks
  have hallowed := h.allowed hworks
  rcases hproper.allows_of_next hallowed (fun _ hf => hf) with ⟨hid, hsaw⟩
  subst hid
  rcases Option.isSome_iff_exists.mp (AList.lookup_isSome.mpr hthere) with ⟨slot, hlive⟩
  rcases (h.confirms shard _ hworks).sawName hsaw with ⟨name, hnamed⟩
  have hname := (h.registry.named _ name hnamed).right ⟨slot, hlive⟩
  cases huser : s.stores.manager.userOf msg.sessionId with
  | none =>
      -- The consumer that owes the user id would be this one.
      rcases h.entering _ name hname huser with ⟨k, w, u, hw, hsession, howed⟩
      have hk : k = shard := by
        rw [h.routed k w hw, hsession]
        exact (h.routed shard _ hworks).symm
      subst hk
      rw [hworks] at hw
      cases hw
      have hturn : log.InTurn (.getUserId msg.sessionId) := hallowed.right
      unfold Log.InTurn at hturn
      cases hpromised : log.owed with
      | nil =>
          replace howed : log.owed.head? = _ := howed
          rw [hpromised] at howed
          cases howed
      | cons first rest =>
          replace howed : log.owed.head? = _ := howed
          rw [hpromised] at howed hturn
          cases howed
          rcases hturn with heq | ⟨target, data, heq⟩ <;> cases heq
  | some u =>
      rcases carried_eq_some_iff.mp huser with ⟨found, hfound, hu, hpositive⟩
      unfold SessionManager.getUserId
      rw [hfound]
      show (s.stores.manager.session found).userId ≠ 0
      rw [hu]
      exact hpositive

structure Authorized (s : Service pg) : Prop where
  owners : forall itemId item, s.stores.db.items.lookup itemId = some item ->
    item.ownerId ≠ 0
  users : forall msg log userId, s.Logged msg log -> WritesAtOnce msg ->
    log.ActsFor msg userId -> userId ≠ 0
  items : forall msg log userId itemId item, s.Logged msg log ->
    log.Has (.getItem userId itemId) (some (some item)) -> userId ≠ 0

namespace Authorized

variable {s t : Service pg} {label : Service.Label double}

omit [One double] in
theorem start (shards : Nat) (db : Db pg) (friendships : Friendships)
    (ranking : Ranking) (howners : forall itemId item,
      db.items.lookup itemId = some item -> item.ownerId ≠ 0) :
    Authorized (Service.start (Stores.boot shards db friendships ranking)) := by
  have hnone : forall msg log, ¬ (Service.start
      (Stores.boot shards db friendships ranking)).Logged msg log := by
    intro msg log hlogged
    rcases hlogged with ⟨k, rest, hworks⟩ | hfinished
    · cases hworks
    · cases hfinished
  exact ⟨howners, fun msg log u hlogged => absurd hlogged (hnone msg log),
    fun msg log u i item hlogged => absurd hlogged (hnone msg log)⟩

/-- No item is given to user zero. -/
theorem owners_step (h : Authorized s) (hs : Attested s)
    (heffect : Service.Effect s label t) :
    forall itemId item, t.stores.db.items.lookup itemId = some item ->
      item.ownerId ≠ 0 := by
  cases heffect with
  | taken shard msg rest waits queue =>
      rw [Service.goOn_stores]
      exact h.owners
  | acted shard env msg log o next works =>
      rw [Service.goOn_stores]
      intro itemId item hitem
      have hafter := s.stores.perform_items shard msg env o
      generalize (s.stores.perform shard msg env o).2 = after at hafter hitem
      replace hitem : after.db.items.lookup itemId = some item := hitem
      cases hafter with
      | same items =>
          rw [items] at hitem
          exact h.owners itemId item hitem
      | @dropped u newId after fresh items =>
          rw [items] at hitem
          rcases Table.lookup_insert_cases s.stores.db.items newId itemId
            ⟨u, pg.defaultLevel, pg.defaultPower⟩ with ⟨_, hnew⟩ | ⟨_, hold⟩
          · rw [hnew] at hitem
            cases hitem
            have hproper : log.Proper msg := hs.proper shard _ works
            have hallows := hproper.allows_of_next (hs.allowed works) (fun _ hf => hf)
            exact h.users msg log u (Or.inl ⟨shard, _, works⟩) (Or.inl hallows.left)
              hallows.right.left
          · rw [hold] at hitem
            exact h.owners itemId item hitem
      | @enhanced u changed cost success mult after old new found owner owner' power
          items =>
          rw [items] at hitem
          rcases Table.lookup_insert_cases s.stores.db.items changed itemId new with
            ⟨_, hnew⟩ | ⟨_, hold⟩
          · rw [hnew] at hitem
            cases hitem
            rw [owner', ← owner]
            exact h.owners changed old found
          · rw [hold] at hitem
            exact h.owners itemId item hitem
  | _ => exact h.owners

theorem step (h : Authorized s) (hs : Attested s)
    (heffect : Service.Effect s label t) (hthere : s.StillThere label) :
    Authorized t := by
  refine ⟨h.owners_step hs heffect, ?_, ?_⟩
  · intro msg log u hlogged hwrites hacts
    rcases Service.logged_step heffect hlogged with
      hold | hnil | ⟨shard, env, o, next, before, hlabel, hworks, hlog⟩
    · exact h.users msg log u hold hwrites hacts
    · rw [hnil] at hacts
      cases hacts
    · rw [hlog] at hacts
      rcases Log.has_cons.mp hacts with heq | hbefore
      · generalize hanswer : (s.stores.perform shard msg env o).1 = answer at heq
        cases heq
        replace hanswer : s.stores.manager.getUserId msg.sessionId = u := hanswer
        subst hlabel
        rw [← hanswer]
        refine hs.getUserId_ne_zero hworks (hthere (msg, msg.sessionId) ?_ hwrites)
        unfold Service.asking
        rw [hworks]
        rfl
      · exact h.users msg before u (Or.inl ⟨shard, _, hworks⟩) hwrites hbefore
  · intro msg log u itemId item hlogged hread
    rcases Service.logged_step heffect hlogged with
      hold | hnil | ⟨shard, env, o, next, before, _, hworks, hlog⟩
    · exact h.items msg log u itemId item hold hread
    · rw [hnil] at hread
      cases hread
    · rw [hlog] at hread
      rcases Log.has_cons.mp hread with heq | hbefore
      · generalize hanswer : (s.stores.perform shard msg env o).1 = answer at heq
        cases heq
        rcases s.stores.perform_getItem shard msg env hanswer with ⟨row, hrow, howner⟩
        rw [← howner]
        exact h.owners itemId row hrow
      · exact h.items msg before u itemId item (Or.inl ⟨shard, _, hworks⟩) hbefore

/-- A call that writes was allowed for the user of its session. -/
theorem writer_ne_zero (h : Authorized s) (hs : Attested s) {msg : ShardMsg}
    {log : Log double} {o : Op double} {answer : Answer o} {u : Nat}
    (hlogged : s.Logged msg log) (hhas : log.Has o answer)
    (hwriter : o.writer = some u) : u ≠ 0 ∧ log.ActsFor msg u := by
  have hproper := hs.proper_logged hlogged
  have hearlier : forall (after before : Log double) (call : Sigma (@Answer double)),
      log = after ++ call :: before -> forall o answer, before.Has o answer ->
      log.Has o answer := by
    intro after before call hlog o answer hbefore
    rw [hlog]
    exact List.mem_append_right _ (List.mem_cons_of_mem _ hbefore)
  cases o with
  | addGold v amount =>
      cases hwriter
      rcases hproper.allows_of_has hhas (fun _ hf => hf) with
        ⟨after, before, hlog, _, hchat, hacts⟩
      have hnow := hearlier _ _ _ hlog _ _ hacts
      exact ⟨h.users msg log u hlogged (Or.inl hchat) hnow, hnow⟩
  | dropItem v =>
      cases hwriter
      rcases hproper.allows_of_has hhas (fun _ hf => hf) with
        ⟨after, before, hlog, _, hchat, hacts, _⟩
      have hnow := hearlier _ _ _ hlog _ _ hacts
      exact ⟨h.users msg log u hlogged (Or.inl hchat) hnow, hnow⟩
  | addFriend v name | acceptFriend v name | rejectFriend v name | blockFriend v name =>
      cases hwriter
      rcases hproper.allows_of_has hhas (fun _ hf => hf) with
        ⟨after, before, hlog, _, hfriend, hacts⟩
      have hnow := hearlier _ _ _ hlog _ _ hacts
      exact ⟨h.users msg log u hlogged (Or.inr hfriend) hnow, hnow⟩
  | enhanceItem v itemId cost success mult =>
      cases hwriter
      rcases hproper.allows_of_has hhas (fun _ hf => hf) with
        ⟨after, before, hlog, _, hacts, ⟨item, hread⟩, _⟩
      have hnow := hearlier _ _ _ hlog _ _ hread
      exact ⟨h.items msg log u itemId item hlogged hnow, hearlier _ _ _ hlog _ _ hacts⟩
  | _ => cases hwriter

theorem writesAsOwner (h : Authorized s) (hs : Attested s) : s.WritesAsOwner := by
  intro msg log o answer u hlogged hhas hwriter
  rcases h.writer_ne_zero hs hlogged hhas hwriter with ⟨hpositive, hacts⟩
  have hbound : (msg.sessionId, u) ∈ s.stores.bound := by
    rcases (hs.confirms_logged hlogged).acts u hacts with hzero | hbound
    · exact absurd hzero hpositive
    · exact hbound
  exact ⟨hpositive, hbound, fun other hother => hs.once _ u other hbound hother,
    hs.entered _ u hbound⟩

end Authorized

/-- In every run in which the sessions of such handlers are still there when they
ask for their users, all writes are for the users of the sessions. -/
theorem writes_as_owner {shards : Nat} {db : Db pg} {friendships : Friendships}
    {ranking : Ranking} {labels : List (Service.Label double)}
    (husers : Numbered db.users)
    (howners : forall itemId item, db.items.lookup itemId = some item ->
      item.ownerId ≠ 0)
    (hthere : EveryStep Service.step Service.StillThere
      (Service.start (Stores.boot shards db friendships ranking)) labels) :
    forall t, Visits Service.step
      (Service.start (Stores.boot shards db friendships ranking)) labels t ->
      t.WritesAsOwner := by
  intro t ht
  have hattested : Attested t :=
    attested_step.visits (Attested.start shards db friendships ranking husers) ht
  have hauthorized : Authorized t := by
    refine hthere.visits attested_step ?_
      (Attested.start shards db friendships ranking husers)
      (Authorized.start shards db friendships ranking howners) t ht
    intro s label t hs h hstep hthere
    exact h.step hs (Service.step_effect hstep) hthere
  exact hauthorized.writesAsOwner hattested

/-!
# A disconnect in the middle of a chat

The session of ann goes away after its line was sent to everybody and before the
reward.  The gold is then added for user zero.
-/

omit [One double] in
theorem mem_writers {log : Log double} {userId : Nat}
    (h : userId ∈ log.filterMap (fun call => call.1.writer)) :
    exists (o : Op double) (answer : Answer o),
      log.Has o answer ∧ o.writer = some userId := by
  rcases List.mem_filterMap.mp h with ⟨⟨o, answer⟩, hmem, hwriter⟩
  exact ⟨o, answer, hmem, hwriter⟩

namespace Service

/-- A client sends a line, and the consumer of its shard takes it. -/
def say (sessionId : Nat) (line : String) : List (Label Nat) :=
  [.receive sessionId (makePacket 0 (text line)), .pop (sessionId % 8)]

/-- The consumer of a shard runs some operations; a new user has its number. -/
def acts (shard n : Nat) : List (Label Nat) :=
  List.replicate n (.act shard { calm with newId := shard - 1 })

/-- A server with eight shards over an empty database. -/
def fresh : Service percentServer :=
  .start (.boot 8 ⟨∅, ∅⟩ ∅ ⟨∅, ∅⟩)

def chatsAndLeaves : List (Label Nat) :=
  List.flatten [[.connect 10], say 1 "/n ann", acts 1 9, say 1 "hi", acts 1 2,
    [.disconnect 1], acts 1 3]

def chatsAndStays : List (Label Nat) :=
  List.flatten [[.connect 10], say 1 "/n ann", acts 1 9, say 1 "hi", acts 1 9,
    [.disconnect 1]]

/-- The users that the handlers wrote for, newest first. -/
def writers (s : Service percentServer) : List Nat :=
  s.finished.flatMap (fun e => e.2.filterMap (fun call => call.1.writer))

end Service

theorem numbered_empty : Numbered (∅ : Table Nat (UserRow percentServer)) :=
  ⟨rfl, fun u v name hu => by cases hu⟩

theorem writes_as_nobody :
    exists t, runFrom Service.step Service.fresh Service.chatsAndLeaves = some t ∧
      ¬ t.WritesAsOwner := by
  have hzero : (runFrom Service.step Service.fresh Service.chatsAndLeaves).map
      (fun t => t.writers) = some [0] := by
    decide +kernel
  rcases Option.map_eq_some_iff.mp hzero with ⟨t, hrun, hwriters⟩
  refine ⟨t, hrun, fun hall => ?_⟩
  have hmem : 0 ∈ t.writers := by
    rw [hwriters]
    exact List.mem_singleton_self 0
  rcases List.mem_flatMap.mp hmem with ⟨⟨msg, log⟩, hfinished, hlog⟩
  rcases mem_writers hlog with ⟨o, answer, hhas, hwriter⟩
  exact (hall msg log o answer 0 (Or.inr hfinished) hhas hwriter).positive rfl

theorem writes_as_owner_chat :
    exists t, runFrom Service.step Service.fresh Service.chatsAndStays = some t ∧
      t.writers = [1, 1] ∧ t.WritesAsOwner := by
  have hones : (runFrom Service.step Service.fresh Service.chatsAndStays).map
      (fun t => t.writers) = some [1, 1] := by
    decide +kernel
  rcases Option.map_eq_some_iff.mp hones with ⟨t, hrun, hwriters⟩
  refine ⟨t, hrun, hwriters, ?_⟩
  refine writes_as_owner numbered_empty ?_ (by decide +kernel) t (visits_last hrun)
  intro itemId item hitem
  cases hitem

end Consumers
end ContentServer
