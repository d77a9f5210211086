import ContentServer.Consumers.Scoring
import ContentServer.Consumers.Steps

/-!
# The ranking follows the database

The ranking is told the new score of a user after the transaction that changed
it, and other handlers run in between.  While the handlers of one user do not
overlap, the score that a handler still has to tell is the one in the database,
and the ranking is right about every user that no handler works for.
-/

namespace ContentServer
namespace Consumers

open Foundation Protocol Sessions Registry Storage

variable {double : Type} {pg : Postgres double}

/-- The user that an answer says a handler works for. -/
def userAnswer : (o : Op double) -> Answer o -> Option Nat
  | .getUserId _, u => if u = 0 then none else some u
  | _, _ => none

/-- The users that a handler works for. -/
def Working.users (w : Working double) : List Nat :=
  w.log.filterMap (fun call => userAnswer call.1 call.2)

theorem Working.mem_users {w : Working double} {id u : Nat}
    (h : w.log.Has (.getUserId id) u) (hpositive : u ≠ 0) : u ∈ w.users :=
  List.mem_filterMap.mpr ⟨_, h, if_neg hpositive⟩

namespace Service

/-- The users that the consumer of a shard works for. -/
def usersAt (s : Service pg) (shard : Nat) : List Nat :=
  match s.consumers shard with
  | some w => w.users
  | none => []

/-- A handler is working for the user. -/
def Busy (s : Service pg) (userId : Nat) : Prop :=
  exists k, userId ∈ s.usersAt k

/-- No user has two handlers at a time. -/
def Serial (s : Service pg) : Prop :=
  forall k, k < s.stores.manager.shardCount ->
    forall other, other < s.stores.manager.shardCount ->
      forall u, u ∈ s.usersAt k -> u ∈ s.usersAt other -> k = other

/-- The operation that the consumer of a shard calls next. -/
def calling (s : Service pg) (shard : Nat) : Option (Op double) :=
  match s.consumers shard with
  | some ⟨_, _, .call o _⟩ => some o
  | _ => none

/-- The operation of this step succeeds. -/
def Succeeds (s : Service pg) : Label double -> Prop
  | .act shard env => forall o, o ∈ s.calling shard -> o.Succeeds env s.stores.db
  | _ => True

instance (s : Service pg) : Decidable s.Serial :=
  inferInstanceAs (Decidable (forall k, k < s.stores.manager.shardCount ->
    forall other, other < s.stores.manager.shardCount -> _))

instance (s : Service pg) : (label : Label double) -> Decidable (s.Succeeds label)
  | .act shard _ => inferInstanceAs (Decidable (forall o, o ∈ s.calling shard -> _))
  | .connect _ | .disconnect _ | .receive _ _ | .sendDone _ _ _ | .pop _ =>
      isTrue trivial

end Service

/-- Scores that still have to be told are current, and all others are told. -/
structure Ranked (s : Service pg) : Prop where
  shards : 0 < s.stores.manager.shardCount
  owners : forall itemId item, s.stores.db.items.lookup itemId = some item ->
    exists name, userNames s.stores.db.users item.ownerId = some name
  notEmpty : forall u name, userNames s.stores.db.users u = some name -> name ≠ []
  paid : forall k w u amount total, s.consumers k = some w ->
    w.log.Has (.addGold u amount) (some total) ->
    exists name, userNames s.stores.db.users u = some name
  keys : forall key, key ∈ s.stores.ranking.power ->
    exists u, key = decimal u ∧ s.stores.ranking.Names s.stores.db u
  naming : forall id u, (id, u) ∈ s.stores.bound ->
    s.stores.ranking.Names s.stores.db u ∨
    exists k w name, s.consumers k = some w ∧ w.msg.sessionId = id ∧
      .rankSetName u name ∈ w.log.owed
  due : forall k w u (total : Nat), s.consumers k = some w -> .rankUpdate u total ∈ w.log.owed ->
    s.stores.db.owns u = true ∧ (total : Int) = s.stores.db.powerSum u
  settled : forall u,
    (forall k w total, s.consumers k = some w -> .rankUpdate u total ∉ w.log.owed) ->
    s.stores.ranking.Mirrors s.stores.db u

theorem Mirrors.congr {r after : Ranking} {db db' : Db pg} {u : Nat} (h : r.Mirrors db u)
    (hpower : after.power.lookup (decimal u) = r.power.lookup (decimal u))
    (hscore : SameScore db db' u) : after.Mirrors db' u := by
  constructor
  · rw [Ranking.mem_iff_lookup, hpower, ← Ranking.mem_iff_lookup, hscore.owns]
    exact h.member
  · intro score
    rw [hpower, hscore.powerSum]
    exact h.score score

namespace Ranked

variable {s t : Service pg}

/-- The boot state. -/
theorem start {shards : Nat} {db : Db pg} {friendships : Friendships} {r : Ranking}
    {all : List RankEntry} (hshards : 0 < shards)
    (hnames : forall u name, userNames db.users u = some name -> name ≠ [])
    (howners : forall itemId item, db.items.lookup itemId = some item ->
      exists name, userNames db.users item.ownerId = some name)
    (hall : Database.AllScored db all) :
    Ranked (Service.start (Stores.boot shards db friendships (r.rebuild all 4))) where
  shards := hshards
  owners := howners
  notEmpty := hnames
  paid := fun k w u amount total hw => by cases hw
  keys := fun key hkey => Ranking.rebuild_named hall hkey
  naming := fun id u hmem => by cases hmem
  due := fun k w u total hw => by cases hw
  settled := fun u _ => Ranking.rebuild_mirrors hall (fun userId howns => by
    rcases Db.owns_iff.mp howns with ⟨itemId, item, hitem, howner⟩
    rw [← howner]
    exact howners itemId item hitem) u

/-- Sessions and queues change. -/
theorem congr (h : Ranked s) (hshards : t.stores.manager.shardCount =
      s.stores.manager.shardCount) (hdb : t.stores.db = s.stores.db)
    (hranking : t.stores.ranking = s.stores.ranking)
    (hbound : t.stores.bound = s.stores.bound) (hconsumers : t.consumers = s.consumers) :
    Ranked t := by
  constructor
  · rw [hshards]
    exact h.shards
  · rw [hdb]
    exact h.owners
  · rw [hdb]
    exact h.notEmpty
  · rw [hdb, hconsumers]
    exact h.paid
  · rw [hdb, hranking]
    exact h.keys
  · rw [hdb, hranking, hbound, hconsumers]
    exact h.naming
  · rw [hdb, hconsumers]
    exact h.due
  · rw [hdb, hranking, hconsumers]
    exact h.settled

/-- A consumer that starts a handler owes nothing yet. -/
theorem taken (h : Ranked s) [One double] {shard : Nat} {msg : ShardMsg}
    {rest : List ShardMsg} (hwaits : s.consumers shard = none) :
    Ranked ((s.withWaiting shard rest).goOn shard msg [] (handle msg)) := by
  have hothers : forall k w, s.consumers k = some w ->
      ((s.withWaiting shard rest).goOn shard msg [] (handle msg)).consumers k = some w := by
    intro k w hw
    have hk : k ≠ shard := by
      intro hsame
      rw [hsame, hwaits] at hw
      cases hw
    rw [Service.goOn_consumers_of_ne hk]
    exact hw
  constructor
  · rw [Service.goOn_stores]
    exact h.shards
  · rw [Service.goOn_stores]
    exact h.owners
  · rw [Service.goOn_stores]
    exact h.notEmpty
  · intro k w u amount total hw hhas
    rw [Service.goOn_stores]
    rcases Service.goOn_consumers hw with ⟨_, rfl⟩ | ⟨_, hold⟩
    · cases hhas
    · exact h.paid k w u amount total hold hhas
  · rw [Service.goOn_stores]
    exact h.keys
  · intro id u hmem
    rw [Service.goOn_stores] at hmem ⊢
    rcases h.naming id u hmem with hnamed | ⟨k, w, name, hw, hsession, howed⟩
    · exact Or.inl hnamed
    · exact Or.inr ⟨k, w, name, hothers k w hw, hsession, howed⟩
  · intro k w u total hw howed
    rw [Service.goOn_stores]
    rcases Service.goOn_consumers hw with ⟨_, rfl⟩ | ⟨_, hold⟩
    · cases howed
    · exact h.due k w u total hold howed
  · intro u hnobody
    rw [Service.goOn_stores]
    exact h.settled u fun k w total hw => hnobody k w total (hothers k w hw)

/-!
# One operation of one handler
-/

section Acted

variable [One double] {shard : Nat} {msg : ShardMsg} {log : Log double} {o : Op double}
variable {next : Answer o -> Handler double Unit} {answer : Answer o} {after : Stores pg}

/-- Whoever has a score to tell works for its user. -/
theorem acts_of_due (hs : Standing s) {k u total : Nat} {w : Working double}
    (hw : s.consumers k = some w) (howed : .rankUpdate u total ∈ w.log.owed) :
    w.log.ActsFor w.msg u := by
  have hproper := hs.proper k w hw
  have hacts : forall (o : Op double) (answer : Answer o), w.log.Has o answer ->
      (o = .dropItem u ∨
        exists itemId cost success mult, o = .enhanceItem u itemId cost success mult) ->
      w.log.ActsFor w.msg u := by
    intro o answer hhas hwrites
    rcases hwrites with heq | ⟨itemId, cost, success, mult, heq⟩
    · subst heq
      rcases hproper.allows_of_has hhas (fun _ hf => hf) with
        ⟨after, before, hlog, _, _, hbefore, _⟩
      unfold Log.ActsFor
      rw [hlog]
      exact List.mem_append_right _ (hbefore.cons _)
    · subst heq
      rcases hproper.allows_of_has hhas (fun _ hf => hf) with
        ⟨after, before, hlog, _, hbefore, _⟩
      unfold Log.ActsFor
      rw [hlog]
      exact List.mem_append_right _ (hbefore.cons _)
  rcases hproper.explains _ howed with
    ⟨r, hdrop, _⟩ | ⟨itemId, cost, success, mult, r, henhance, _⟩
  · exact hacts _ _ hdrop (Or.inl rfl)
  · exact hacts _ _ henhance (Or.inr ⟨itemId, cost, success, mult, rfl⟩)

omit [One double] in
theorem mem_usersAt {k u : Nat} {w : Working double} (hw : s.consumers k = some w)
    (hacts : w.log.ActsFor w.msg u) (hpositive : u ≠ 0) : u ∈ s.usersAt k := by
  unfold Service.usersAt
  rw [hw]
  exact Working.mem_users hacts hpositive

theorem owner_positive (h : Ranked s) (hs : Standing s) {u : Nat}
    (howns : s.stores.db.owns u = true) : u ≠ 0 := by
  rcases Db.owns_iff.mp howns with ⟨itemId, item, hitem, howner⟩
  rcases h.owners itemId item hitem with ⟨name, hname⟩
  intro hzero
  rw [howner, hzero, hs.users.zero] at hname
  cases hname

/-- While a handler works for a user, no other one has a score of hers to tell. -/
theorem alone (h : Ranked s) (hs : Standing s) (hserial : s.Serial) {u : Nat}
    (hu : u ∈ s.usersAt shard) (hshard : shard < s.stores.manager.shardCount)
    {k total : Nat} {w : Working double} (hw : s.consumers k = some w)
    (howed : .rankUpdate u total ∈ w.log.owed) : k = shard := by
  have hpositive := h.owner_positive hs (h.due k w u total hw howed).left
  have hk : k < s.stores.manager.shardCount := by
    rw [hs.routed k w hw]
    exact Nat.mod_lt _ h.shards
  exact hserial k hk shard hshard u
    (mem_usersAt hw (acts_of_due hs hw howed) hpositive) hu

/-- A promise stays with the consumer until it is kept. -/
theorem owed_goOn (hs : Standing s)
    (works : s.consumers shard = some ⟨msg, log, .call o next⟩) (env : Environment double)
    {p : Op double} {k : Nat} {w : Working double} (hw : s.consumers k = some w)
    (howed : p ∈ w.log.owed) (hother : p ≠ o ∨ k ≠ shard) :
    exists w', ({ s with stores := (s.stores.perform shard msg env o).2 }.goOn shard msg
        (⟨o, (s.stores.perform shard msg env o).1⟩ :: log)
        (next (s.stores.perform shard msg env o).1)).consumers k = some w' ∧
      w'.msg = w.msg ∧ p ∈ w'.log.owed := by
  by_cases hk : k = shard
  · subst hk
    rw [works] at hw
    cases hw
    have hproper : Log.Proper msg (⟨o, (s.stores.perform k msg env o).1⟩ :: log) :=
      ⟨hs.proper k _ works, hs.allowed works⟩
    have hconducts : Conducts msg (⟨o, (s.stores.perform k msg env o).1⟩ :: log)
        (next (s.stores.perform k msg env o).1) := (hs.conducts k _ works).right _
    rcases hproper.keeps howed with heq | hstill
    · rcases hother with hne | hne
      · exact absurd heq hne
      · exact absurd rfl hne
    · refine ⟨_, Service.goOn_works hconducts ?_, rfl, hstill⟩
      intro hnil
      rw [hnil] at hstill
      cases hstill
  · refine ⟨w, ?_, rfl, howed⟩
    rw [Service.goOn_consumers_of_ne hk]
    exact hw

/-- A name that is set belongs to the user. -/
theorem name_allowed (hs : Standing s)
    (works : s.consumers shard = some ⟨msg, log, .call o next⟩) {u : Nat}
    {name : List UInt8} (ho : o = .rankSetName u name) :
    userNames s.stores.db.users u = some name := by
  subst ho
  rcases (hs.allowed works).left with howed | hallows
  · rcases (hs.proper shard _ works).explains _ (List.mem_of_mem_head? howed) with
      ⟨_, _, hlogin⟩
    exact (hs.confirms shard _ works).login name u hlogin
  · exact absurd hallows (fun hf => hf)

/-- A score is told from the head of the promises. -/
theorem update_owed (hs : Standing s)
    (works : s.consumers shard = some ⟨msg, log, .call o next⟩) {u total : Nat}
    (ho : o = .rankUpdate u total) : .rankUpdate u total ∈ log.owed := by
  subst ho
  rcases (hs.allowed works).left with howed | hallows
  · exact List.mem_of_mem_head? howed
  · exact absurd hallows (fun hf => hf)

/-- Whoever works for a user has told the ranking the name. -/
theorem named_of_acts (h : Ranked s) (hs : Standing s) {k u : Nat} {w : Working double}
    (hw : s.consumers k = some w) (hacts : w.log.ActsFor w.msg u) (hpositive : u ≠ 0) :
    s.stores.ranking.Names s.stores.db u := by
  rcases (hs.confirms k w hw).acts u hacts with hzero | hbound
  · exact absurd hzero hpositive
  rcases h.naming _ u hbound with hnamed | ⟨other, v, name, hv, hsession, howed⟩
  · exact hnamed
  · -- The consumer of the session is this one, and it is past its login.
    have hsame : other = k := by
      rw [hs.routed other v hv, hsession]
      exact (hs.routed k w hw).symm
    subst hsame
    rw [hw] at hv
    cases hv
    have hproper := hs.proper other w hw
    rcases hproper.explains _ howed with ⟨id, hname, _⟩
    exact absurd hacts (hproper.not_actsFor hname)

/-- Items belong to users. -/
theorem owners_perform (h : Ranked s) (hs : Standing s)
    (works : s.consumers shard = some ⟨msg, log, .call o next⟩)
    (hitems : Stores.ItemsAfter s.stores.db o after.db)
    (hnames : NamesAfter s.stores.db.users after.db.users) :
    forall itemId item, after.db.items.lookup itemId = some item ->
      exists name, userNames after.db.users item.ownerId = some name := by
  have hold : forall itemId item, s.stores.db.items.lookup itemId = some item ->
      exists name, userNames after.db.users item.ownerId = some name := by
    intro itemId item hitem
    rcases h.owners itemId item hitem with ⟨name, hname⟩
    exact ⟨name, hnames.mono hname⟩
  intro itemId item hitem
  cases hitems with
  | same items =>
      rw [items] at hitem
      exact hold itemId item hitem
  | @dropped u newId _ fresh items =>
      rw [items] at hitem
      rcases Table.lookup_insert_cases s.stores.db.items newId itemId
        ⟨u, pg.defaultLevel, pg.defaultPower⟩ with ⟨_, hnew⟩ | ⟨_, hother⟩
      · rw [hnew] at hitem
        cases hitem
        have hproper : log.Proper msg := hs.proper shard _ works
        rcases hproper.allows_of_next (hs.allowed works) (fun _ hf => hf) with
          ⟨_, _, amount, total, hpaid⟩
        rcases h.paid shard _ u amount total works hpaid with ⟨name, hname⟩
        exact ⟨name, hnames.mono hname⟩
      · rw [hother] at hitem
        exact hold itemId item hitem
  | @enhanced u changed cost success mult _ old new found owner owner' power items =>
      rw [items] at hitem
      rcases Table.lookup_insert_cases s.stores.db.items changed itemId new with
        ⟨_, hnew⟩ | ⟨_, hother⟩
      · rw [hnew] at hitem
        cases hitem
        rw [owner', ← owner]
        exact hold changed old found
      · rw [hother] at hitem
        exact hold itemId item hitem

omit [One double] in
/-- Gold is only added to users. -/
theorem paid_perform (h : Ranked s) (works : s.consumers shard = some ⟨msg, log, .call o next⟩)
    (env : Environment double) {u amount total : Nat}
    (hhas : Log.Has (⟨o, (s.stores.perform shard msg env o).1⟩ :: log)
      (.addGold u amount) (some total)) :
    exists name, userNames s.stores.db.users u = some name := by
  rcases Log.has_cons.mp hhas with heq | hhas
  · generalize hanswer : (s.stores.perform shard msg env o).1 = answer at heq
    cases heq
    exact Database.addGold_user s.stores.db u amount env.faults hanswer
  · exact h.paid shard _ u amount total works hhas

/-- Whoever gets a score has a name in the ranking. -/
theorem keys_perform (h : Ranked s) (hs : Standing s)
    (works : s.consumers shard = some ⟨msg, log, .call o next⟩)
    (hranking : RankingAfter s.stores.ranking o after.ranking)
    (hnames : NamesAfter s.stores.db.users after.db.users) :
    forall key, key ∈ after.ranking.power ->
      exists u, key = decimal u ∧ after.ranking.Names after.db u := by
  have hkept : forall u, s.stores.ranking.Names s.stores.db u ->
      after.ranking.Names after.db u := fun u hu =>
    Names.mono (hranking.names (fun v name ho => name_allowed hs works ho) hu) hnames
  have hold : forall key, key ∈ s.stores.ranking.power ->
      exists u, key = decimal u ∧ after.ranking.Names after.db u := by
    intro key hkey
    rcases h.keys key hkey with ⟨u, hu, hnamed⟩
    exact ⟨u, hu, hkept u hnamed⟩
  intro key hkey
  generalize after.ranking = r at hranking hkept hold hkey ⊢
  cases hranking with
  | same notName notUpdate => exact hold key hkey
  | named u name => exact hold key hkey
  | scored u total =>
      rcases AList.mem_insert s.stores.ranking.power |>.mp hkey with heq | hother
      · have howed : .rankUpdate u total ∈ log.owed := update_owed hs works rfl
        have hacts := acts_of_due hs works howed
        have hpositive := h.owner_positive hs (h.due shard _ u total works howed).left
        exact ⟨u, heq, hkept u (h.named_of_acts hs works hacts hpositive)⟩
      · exact hold key hother

/-- A session that has a user has told the ranking the name, or is about to. -/
theorem naming_perform (h : Ranked s) (hs : Standing s)
    (works : s.consumers shard = some ⟨msg, log, .call o next⟩) (env : Environment double)
    (hranking : RankingAfter s.stores.ranking o
      (s.stores.perform shard msg env o).2.ranking) :
    forall id u, (id, u) ∈ (s.stores.perform shard msg env o).2.bound ->
      (s.stores.perform shard msg env o).2.ranking.Names
        (s.stores.perform shard msg env o).2.db u ∨
      exists k w name, ({ s with stores := (s.stores.perform shard msg env o).2 }.goOn
          shard msg (⟨o, (s.stores.perform shard msg env o).1⟩ :: log)
          (next (s.stores.perform shard msg env o).1)).consumers k = some w ∧
        w.msg.sessionId = id ∧ .rankSetName u name ∈ w.log.owed := by
  have hnames := s.stores.perform_names shard msg env o
  have hold : forall id u, (id, u) ∈ s.stores.bound ->
      (s.stores.perform shard msg env o).2.ranking.Names
        (s.stores.perform shard msg env o).2.db u ∨
      exists k w name, ({ s with stores := (s.stores.perform shard msg env o).2 }.goOn
          shard msg (⟨o, (s.stores.perform shard msg env o).1⟩ :: log)
          (next (s.stores.perform shard msg env o).1)).consumers k = some w ∧
        w.msg.sessionId = id ∧ .rankSetName u name ∈ w.log.owed := by
    intro id u hmem
    rcases h.naming id u hmem with hnamed | ⟨k, w, name, hw, hsession, howed⟩
    · left
      exact Names.mono (hranking.names (fun v name ho => name_allowed hs works ho) hnamed)
        hnames
    · by_cases hkept : .rankSetName u name = o ∧ k = shard
      · -- This is the step that tells the name.
        left
        rcases hkept with ⟨ho, _⟩
        have huser := name_allowed hs works ho.symm
        refine ⟨name, hnames.mono huser, ?_⟩
        generalize (s.stores.perform shard msg env o).2.ranking = r at hranking
        subst ho
        cases hranking with
        | same notName notUpdate => exact absurd rfl (notName u name)
        | named => exact AList.lookup_insert s.stores.ranking.names
      · right
        rcases owed_goOn hs works env hw howed (by tauto) with ⟨w', hw', hmsg, howed'⟩
        exact ⟨k, w', name, hw', by rw [hmsg]; exact hsession, howed'⟩
  intro id u hmem
  have hreg := s.stores.perform_registers shard msg env o
  have hconducts : Conducts msg (⟨o, (s.stores.perform shard msg env o).1⟩ :: log)
      (next (s.stores.perform shard msg env o).1) := (hs.conducts shard _ works).right _
  generalize hout : s.stores.perform shard msg env o = out at hmem hold hreg hconducts ⊢
  rcases out with ⟨answer, after⟩
  cases hreg with
  | same same refused gone =>
      replace hmem : (id, u) ∈ after.bound := hmem
      rw [same.bound] at hmem
      exact hold id u hmem
  | named slot free live manager named bound =>
      replace hmem : (id, u) ∈ after.bound := hmem
      rw [bound] at hmem
      exact hold id u hmem
  | @bound id' v _ slot live manager named bound =>
      replace hmem : (id, u) ∈ after.bound := hmem
      rw [bound] at hmem
      rcases List.mem_cons.mp hmem with heq | hmem
      · cases heq
        right
        rcases (hs.allowed works).left with howed | hallows
        · rcases log.owed_of_setUserId (List.mem_of_mem_head? howed) with ⟨name, hpromised⟩
          have hnext : Log.owed (⟨.setUserId id u, ()⟩ :: log) =
              [.rankSetName u name, .getFriendIds u] := by
            show log.owed.tail = _
            rw [hpromised]
            rfl
          refine ⟨shard, _, name, Service.goOn_works hconducts ?_,
            (hs.setUserId_allowed works).left.symm, ?_⟩
          · rw [hnext]
            exact List.cons_ne_nil _ _
          · show _ ∈ Log.owed (⟨.setUserId id u, ()⟩ :: log)
            rw [hnext]
            exact List.mem_cons_self
        · exact absurd hallows (fun hf => hf)
      · exact hold id u hmem

/-- The user of a new score is one that the handler works for. -/
theorem raised_acts (hs : Standing s)
    (works : s.consumers shard = some ⟨msg, log, .call o next⟩) {u : Nat}
    (hwrites : o = .dropItem u ∨
      exists itemId cost success mult, o = .enhanceItem u itemId cost success mult) :
    log.ActsFor msg u := by
  have hproper : log.Proper msg := hs.proper shard _ works
  rcases hwrites with heq | ⟨itemId, cost, success, mult, heq⟩
  · subst heq
    exact (hproper.allows_of_next (hs.allowed works) (fun _ hf => hf)).right.left
  · subst heq
    exact (hproper.allows_of_next (hs.allowed works) (fun _ hf => hf)).left

/-- Whoever owns an item after an operation is a user. -/
theorem raised_positive (h : Ranked s) (hs : Standing s)
    (works : s.consumers shard = some ⟨msg, log, .call o next⟩)
    (hitems : Stores.ItemsAfter s.stores.db o after.db)
    (hnames : NamesAfter s.stores.db.users after.db.users) {u : Nat}
    (howns : after.db.owns u = true) : u ≠ 0 := by
  rcases Db.owns_iff.mp howns with ⟨itemId, item, hitem, howner⟩
  rcases h.owners_perform hs works hitems hnames itemId item hitem with ⟨name, hname⟩
  intro hzero
  rw [howner, hzero, (hnames.numbered hs.users).zero] at hname
  cases hname

/-- The scores that are still to be told stay current. -/
theorem due_perform (h : Ranked s) (hs : Standing s) (hserial : s.Serial)
    (works : s.consumers shard = some ⟨msg, log, .call o next⟩)
    (hscores : ScoresAfter s.stores.db after.db o answer)
    (hitems : Stores.ItemsAfter s.stores.db o after.db)
    (hnames : NamesAfter s.stores.db.users after.db.users)
    {k u total : Nat} {w : Working double}
    (hw : k ≠ shard ∧ s.consumers k = some w ∧ .rankUpdate u total ∈ w.log.owed ∨
      .rankUpdate u total ∈ promises log log.owed o answer) :
    after.db.owns u = true ∧ (total : Int) = after.db.powerSum u := by
  have hshard : shard < s.stores.manager.shardCount := by
    rw [hs.routed shard _ works]
    exact Nat.mod_lt _ h.shards
  cases hscores with
  | same same quiet =>
      rw [(same u).owns, (same u).powerSum]
      rcases hw with ⟨_, hw, howed⟩ | howed
      · exact h.due k w u total hw howed
      · exact h.due shard _ u total works (quiet log log.owed u total howed)
  | raised v sum promised writes owns score others =>
      rcases hw with ⟨hk, hw, howed⟩ | howed
      · have hother : u ≠ v := by
          intro heq
          subst heq
          have hacts := raised_acts hs works writes
          have hpositive := h.raised_positive hs works hitems hnames owns
          exact hk (h.alone hs hserial (mem_usersAt works hacts hpositive) hshard hw howed)
        rw [(others u hother).owns, (others u hother).powerSum]
        exact h.due k w u total hw howed
      · rw [promised, List.mem_singleton] at howed
        cases howed
        exact ⟨owns, score⟩

/-- A score that nobody has to tell is the one in the ranking. -/
theorem settled_perform (h : Ranked s) (hs : Standing s)
    (works : s.consumers shard = some ⟨msg, log, .call o next⟩) (env : Environment double)
    (hranking : RankingAfter s.stores.ranking o
      (s.stores.perform shard msg env o).2.ranking)
    (hscores : ScoresAfter s.stores.db (s.stores.perform shard msg env o).2.db o
      (s.stores.perform shard msg env o).1) {u : Nat}
    (hnobody : forall k w total,
      ({ s with stores := (s.stores.perform shard msg env o).2 }.goOn shard msg
        (⟨o, (s.stores.perform shard msg env o).1⟩ :: log)
        (next (s.stores.perform shard msg env o).1)).consumers k = some w ->
      .rankUpdate u total ∉ w.log.owed) :
    (s.stores.perform shard msg env o).2.ranking.Mirrors
      (s.stores.perform shard msg env o).2.db u := by
  -- Unless this step tells it, the score was told before.
  have hbefore : (forall total, o ≠ .rankUpdate u total) ->
      s.stores.ranking.Mirrors s.stores.db u := by
    intro hother
    refine h.settled u fun k w total hw howed => ?_
    rcases owed_goOn hs works env hw howed (Or.inl (hother total).symm) with
      ⟨w', hw', _, howed'⟩
    exact hnobody k w' total hw' howed'
  have hraised : forall (v sum : Nat),
      (forall before owed, promises before owed o (s.stores.perform shard msg env o).1 =
        [.rankUpdate v sum]) -> u ≠ v := by
    intro v sum hpromised heq
    subst heq
    have howed : Log.owed (⟨o, (s.stores.perform shard msg env o).1⟩ :: log) =
        [.rankUpdate u sum] := hpromised log log.owed
    have hconducts : Conducts msg (⟨o, (s.stores.perform shard msg env o).1⟩ :: log)
        (next (s.stores.perform shard msg env o).1) := (hs.conducts shard _ works).right _
    refine hnobody shard _ sum (Service.goOn_works hconducts ?_) ?_
    · rw [howed]
      exact List.cons_ne_nil _ _
    · rw [howed]
      exact List.mem_cons_self
  have hscore : SameScore s.stores.db (s.stores.perform shard msg env o).2.db u := by
    cases hscores with
    | same same quiet => exact same u
    | raised v sum promised writes owns score others => exact others u (hraised v sum promised)
  generalize (s.stores.perform shard msg env o).2.ranking = r at hranking ⊢
  cases hranking with
  | same notName notUpdate =>
      exact Mirrors.congr (hbefore fun total => notUpdate u total) rfl hscore
  | named v name => exact Mirrors.congr (hbefore fun total hcontra => by cases hcontra) rfl hscore
  | scored v total =>
      by_cases hsame : u = v
      · subst hsame
        rcases h.due shard _ u total works (update_owed hs works rfl) with ⟨howns, hsum⟩
        constructor
        · rw [hscore.owns, howns]
          exact iff_of_true (AList.mem_insert _ |>.mpr (Or.inl rfl)) rfl
        · intro score hlookup
          replace hlookup : AList.lookup (decimal u)
            (AList.insert (decimal u) total s.stores.ranking.power) = some score := hlookup
          rw [AList.lookup_insert] at hlookup
          rw [hscore.powerSum, ← hsum, Option.some.inj hlookup]
      · refine Mirrors.congr (hbefore fun other hcontra => ?_) ?_ hscore
        · cases hcontra
          exact hsame rfl
        · exact AList.lookup_insert_ne fun hkey => hsame (decimal_injective hkey)

/-- A handler runs one operation. -/
theorem acted (h : Ranked s) (hs : Standing s) (hserial : s.Serial)
    (hround : forall power, pg.roundProduct power 1 = some power)
    (works : s.consumers shard = some ⟨msg, log, .call o next⟩) (env : Environment double)
    (hsucceeds : o.Succeeds env s.stores.db) :
    Ranked ({ s with stores := (s.stores.perform shard msg env o).2 }.goOn shard msg
      (⟨o, (s.stores.perform shard msg env o).1⟩ :: log)
      (next (s.stores.perform shard msg env o).1)) := by
  have hproper : log.Proper msg := hs.proper shard _ works
  have hnames := s.stores.perform_names shard msg env o
  have hitems := s.stores.perform_items shard msg env o
  have hranking := s.stores.perform_ranking shard msg env hsucceeds
  have hscores := s.stores.perform_scores shard msg env hround (by
    intro u itemId cost mult ho
    subst ho
    exact (hproper.allows_of_next (hs.allowed works) (fun _ hf => hf)).right.right rfl)
    hsucceeds
  constructor
  · rw [Service.shardCount_acted o env]
    exact h.shards
  · rw [Service.goOn_stores]
    exact h.owners_perform hs works hitems hnames
  · rw [Service.goOn_stores]
    intro u name hname
    rcases s.stores.perform_newNames shard msg env o hname with hold | hlogin
    · exact h.notEmpty u name hold
    · subst hlogin
      have hallows := hproper.allows_of_next (hs.allowed works) (fun _ hf => hf)
      have hlength := validName_length hallows.right.left
      intro hnil
      rw [hnil] at hlength
      exact absurd hlength.left (by decide)
  · intro k w u amount total hw hhas
    rw [Service.goOn_stores]
    have hold : exists name, userNames s.stores.db.users u = some name := by
      rcases Service.goOn_consumers hw with ⟨_, rfl⟩ | ⟨_, hold⟩
      · exact h.paid_perform works env hhas
      · exact h.paid k w u amount total hold hhas
    rcases hold with ⟨name, hname⟩
    exact ⟨name, hnames.mono hname⟩
  · rw [Service.goOn_stores]
    exact h.keys_perform hs works hranking hnames
  · intro id u hmem
    rw [Service.goOn_stores] at hmem ⊢
    exact h.naming_perform hs works env hranking id u hmem
  · intro k w u total hw howed
    rw [Service.goOn_stores]
    refine h.due_perform hs hserial works hscores hitems hnames (k := k) (w := w) ?_
    rcases Service.goOn_consumers hw with ⟨_, rfl⟩ | ⟨hk, hold⟩
    · exact Or.inr howed
    · exact Or.inl ⟨hk, hold, howed⟩
  · intro u hnobody
    rw [Service.goOn_stores]
    exact h.settled_perform hs works env hranking hscores hnobody

end Acted

theorem step [One double] {label : Service.Label double} (h : Ranked s) (hs : Standing s)
    (hround : forall power, pg.roundProduct power 1 = some power)
    (heffect : Service.Effect s label t) (hserial : s.Serial)
    (hsucceeds : s.Succeeds label) : Ranked t := by
  cases heffect with
  | refused socket => exact h
  | connected socket slot manager created shards => exact h.congr shards rfl rfl rfl rfl
  | disconnected id slot live => exact h.congr rfl rfl rfl rfl rfl
  | received id pkt slot shard msg live handler client sender =>
      exact h.congr rfl rfl rfl rfl rfl
  | completed id bytes result slot live => exact h.congr rfl rfl rfl rfl rfl
  | taken shard msg rest waits queue => exact h.taken waits
  | acted shard env msg log o next works =>
      refine h.acted hs hserial hround works env (hsucceeds o ?_)
      unfold Service.calling
      rw [works]
      rfl

/-- The ranking is right about everybody that no handler works for. -/
theorem mirrors [One double] (h : Ranked s) (hs : Standing s) {u : Nat}
    (hidle : ¬ s.Busy u) : s.stores.ranking.Mirrors s.stores.db u := by
  refine h.settled u fun k w total hw howed => hidle ⟨k, ?_⟩
  exact mem_usersAt hw (acts_of_due hs hw howed)
    (h.owner_positive hs (h.due k w u total hw howed).left)

/-- A ranking that is right about everybody holds what a rebuilt one would. -/
theorem rebuilt (h : Ranked s)
    (hmirrors : forall u, s.stores.ranking.Mirrors s.stores.db u)
    {all : List RankEntry} (hall : Database.AllScored s.stores.db all) (key : List UInt8) :
    s.stores.ranking.power.lookup key =
      (s.stores.ranking.rebuild all 4).power.lookup key := by
  have hrebuilt : forall u, (s.stores.ranking.rebuild all 4).Mirrors s.stores.db u := by
    refine Ranking.rebuild_mirrors hall fun u howns => ?_
    rcases Db.owns_iff.mp howns with ⟨itemId, item, hitem, howner⟩
    rw [← howner]
    exact h.owners itemId item hitem
  by_cases hkey : exists u, key = decimal u
  · rcases hkey with ⟨u, hkey⟩
    rw [hkey]
    exact (hmirrors u).unique (hrebuilt u)
  · have hnone : s.stores.ranking.power.lookup key = none := by
      refine AList.lookup_eq_none.mpr fun hmem => hkey ?_
      rcases h.keys key hmem with ⟨u, hu, _⟩
      exact ⟨u, hu⟩
    have hnone' : (s.stores.ranking.rebuild all 4).power.lookup key = none := by
      refine AList.lookup_eq_none.mpr fun hmem => hkey ?_
      rcases Ranking.rebuild_named hall hmem with ⟨u, hu, _⟩
      exact ⟨u, hu⟩
    rw [hnone, hnone']

end Ranked

/-- The ranking that is kept up to date is the one that would be rebuilt. -/
theorem ranking_as_rebuilt [One double] {shards : Nat} {db : Db pg}
    {friendships : Friendships} {ranking : Ranking} {all : List RankEntry}
    {faults : Nat -> Bool} {labels : List (Service.Label double)}
    (hshards : 0 < shards) (husers : Numbered db.users)
    (hnames : forall u name, userNames db.users u = some name -> name ≠ [])
    (howners : forall itemId item, db.items.lookup itemId = some item ->
      exists name, userNames db.users item.ownerId = some name)
    (hround : forall power, pg.roundProduct power 1 = some power)
    (hall : (Database.getAllPower.run faults db).reply = some all)
    (hevery : EveryStep Service.step (fun s label => s.Serial ∧ s.Succeeds label)
      (Service.start (Stores.boot shards db friendships (ranking.rebuild all 4))) labels) :
    forall t, Visits Service.step
        (Service.start (Stores.boot shards db friendships (ranking.rebuild all 4)))
        labels t ->
      (forall u, ¬ t.Busy u -> t.stores.ranking.Mirrors t.stores.db u ∧
        (decimal u ∈ t.stores.ranking.power ->
          t.stores.ranking.Names t.stores.db u)) ∧
      ((forall k, t.consumers k = none) ->
        (forall faults all, (Database.getAllPower.run faults t.stores.db).reply = some all ->
          (forall key, t.stores.ranking.power.lookup key =
            (t.stores.ranking.rebuild all 4).power.lookup key) ∧
          t.stores.ranking.byRank = (t.stores.ranking.rebuild all 4).byRank) ∧
        forall start stop fails e, e ∈ t.stores.ranking.top start stop fails ->
          userNames t.stores.db.users e.userId = some e.name ∧ e.name ≠ []) := by
  intro t ht
  have hstanding : Standing t := standing_run husers ht
  have hranked : Ranked t := by
    refine EveryStep.visits standing_step ?_
      (Standing.start shards db friendships (ranking.rebuild all 4) husers)
      (Ranked.start hshards hnames howners (Database.getAllPower_reply hall)) hevery t ht
    intro s label t hs h hstep hcond
    exact h.step hs hround (Service.step_effect hstep) hcond.left hcond.right
  refine ⟨fun u hidle => ⟨hranked.mirrors hstanding hidle, fun hmember => ?_⟩,
    fun hwaits => ⟨fun faults all hall => ?_, fun start stop fails e he => ?_⟩⟩
  · rcases hranked.keys _ hmember with ⟨v, hkey, hnamed⟩
    rw [decimal_injective hkey]
    exact hnamed
  · have hmirrors : forall u, t.stores.ranking.Mirrors t.stores.db u := by
      intro u
      refine hranked.mirrors hstanding fun hbusy => ?_
      rcases hbusy with ⟨k, hu⟩
      unfold Service.usersAt at hu
      rw [hwaits k] at hu
      cases hu
    have hpower := hranked.rebuilt hmirrors (Database.getAllPower_reply hall)
    exact ⟨hpower, Ranking.byRank_congr hpower⟩
  · have hname := (Ranking.top_shows hranked.keys he).right
    exact ⟨hname, hranked.notEmpty _ _ hname⟩

/-!
# Two users at a time

Bob owns an item at boot.  Ann and bob chat and both find an item, and ann's score
is told after bob's.  Then she enhances her item.
-/

/-- A multiplier in percent. -/
structure Percent where
  value : Nat
deriving Inhabited

instance : One Percent :=
  ⟨⟨100⟩⟩

def wholeServer : Postgres Percent :=
  { percentServer with
    roundProduct := fun power mult => percentServer.roundProduct power mult.value
    nonNegative := fun _ => True
    roundProduct_nonneg := fun power mult result hpower _ h =>
      percentServer.roundProduct_nonneg power mult.value result hpower trivial h }

theorem wholeServer_one (power : Int) : wholeServer.roundProduct power 1 = some power := by
  show some ((power * 100 + 50) / 100) = some power
  congr 1
  omega

def bobsItem : Db wholeServer where
  users := AList.insert 1 ⟨text "ann", ⟨500, rfl⟩⟩
    (AList.insert 2 ⟨text "bob", ⟨500, rfl⟩⟩ ∅)
  items := AList.insert 7 ⟨2, ⟨0, rfl⟩, ⟨10, rfl⟩⟩ ∅

theorem userNames_bobsItem {u : Nat} {name : List UInt8}
    (h : userNames bobsItem.users u = some name) :
    (u = 1 ∧ name = text "ann") ∨ (u = 2 ∧ name = text "bob") := by
  unfold bobsItem at h
  rw [userNames_insert, userNames_insert] at h
  by_cases hann : u = 1
  · rw [hann, Function.update_self] at h
    exact Or.inl ⟨hann, (Option.some.inj h).symm⟩
  · rw [Function.update_of_ne hann] at h
    by_cases hbob : u = 2
    · rw [hbob, Function.update_self] at h
      exact Or.inr ⟨hbob, (Option.some.inj h).symm⟩
    · rw [Function.update_of_ne hbob] at h
      cases h

theorem numbered_bobsItem : Numbered bobsItem.users := by
  constructor
  · rfl
  · intro u v name hu hv
    rcases userNames_bobsItem hu with ⟨hu, hname⟩ | ⟨hu, hname⟩
    · rcases userNames_bobsItem hv with ⟨hv, _⟩ | ⟨_, hother⟩
      · rw [hu, hv]
      · rw [hname] at hother
        exact absurd hother (by decide)
    · rcases userNames_bobsItem hv with ⟨_, hother⟩ | ⟨hv, _⟩
      · rw [hname] at hother
        exact absurd hother (by decide)
      · rw [hu, hv]

namespace Service

def anyAnswer (o : Op Percent) : Answer o := by
  cases o <;> exact default

/-- Everything succeeds, and every draw is the lowest. -/
def luckyFor (shard : Nat) : Environment Percent where
  faults := fun _ => false
  newId := shard
  posts := fun _ => .started
  draw := 0
  real := ⟨120⟩
  answers := anyAnswer

def twoChats : List (Label Percent) :=
  let line (id : Nat) (t : String) : List (Label Percent) :=
    [.receive id (makePacket 0 (text t)), .pop id]
  let acts (shard n : Nat) : List (Label Percent) :=
    List.replicate n (.act shard (luckyFor shard))
  List.flatten [[.connect 10, .connect 11], line 1 "/n ann", acts 1 9, line 2 "/n bob",
    acts 2 9, line 1 "hi", line 2 "hi", acts 1 7, acts 2 9, acts 1 2,
    line 1 "/i enh 1", acts 1 8]

/-- The boot state over these tables. -/
def withBobsItem : Service wholeServer :=
  .start (.boot 3 bobsItem ∅ (Ranking.rebuild ⟨∅, ∅⟩ [⟨2, 10, text "bob"⟩] 4))

end Service

theorem ranking_as_rebuilt_twoChats :
    exists t, runFrom Service.step Service.withBobsItem Service.twoChats = some t ∧
      t.stores.ranking.power.lookup (text "1") = some 12 ∧
      t.stores.ranking.power.lookup (text "2") = some 20 ∧
      forall u, ¬ t.Busy u -> t.stores.ranking.Mirrors t.stores.db u := by
  have hrun : (runFrom Service.step Service.withBobsItem Service.twoChats).map
      (fun t => (t.stores.ranking.power.lookup (text "1"),
        t.stores.ranking.power.lookup (text "2"))) = some (some 12, some 20) := by
    decide +kernel
  rcases Option.map_eq_some_iff.mp hrun with ⟨t, hrun, hscores⟩
  rcases Prod.mk.inj hscores with ⟨hann, hbob⟩
  have hall : ((Database.getAllPower : Query wholeServer (List RankEntry)).run
      (fun _ => false) bobsItem).reply = some [⟨2, 10, text "bob"⟩] := by
    rfl
  have hranking := ranking_as_rebuilt (by decide) numbered_bobsItem
    (fun u name h => by
      rcases userNames_bobsItem h with ⟨_, hname⟩ | ⟨_, hname⟩ <;> rw [hname] <;> decide)
    (fun itemId item h => by
      rcases Table.lookup_insert_cases ∅ 7 itemId (⟨2, ⟨0, rfl⟩, ⟨10, rfl⟩⟩ :
        ItemRow wholeServer) with ⟨_, hnew⟩ | ⟨_, hnone⟩
      · cases hnew.symm.trans h
        exact ⟨text "bob", rfl⟩
      · cases hnone.symm.trans h)
    wholeServer_one hall (by decide +kernel) t (visits_last hrun)
  exact ⟨t, hrun, hann, hbob, fun u hidle => (hranking.left u hidle).left⟩

end Consumers
end ContentServer
