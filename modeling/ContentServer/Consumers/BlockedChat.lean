import ContentServer.Consumers.Authority
import ContentServer.Consumers.CacheEffects

/-!
# No chat across a block

A handler changes the database first and the two caches later.  Whoever is in
the cache of a user is a friend in the database, or a handler still has to
remove him, as long as nobody is added to a cache on the word of an old answer.
-/

namespace ContentServer
namespace Consumers

open Foundation Protocol Sessions Registry Storage

variable {double : Type} {pg : Postgres double}

/-- The entry of a cache that an operation removes. -/
def Op.removal : Op double -> Option (Nat × Nat)
  | .cacheRemoveFriend u v => some (u, v)
  | _ => none

/-- The entries of caches that a handler still has to remove. -/
def Log.removals (log : Log double) : List (Nat × Nat) :=
  log.owed.filterMap Op.removal

theorem Log.mem_removals {log : Log double} {u v : Nat} :
    (u, v) ∈ log.removals <-> .cacheRemoveFriend u v ∈ log.owed := by
  unfold Log.removals
  rw [List.mem_filterMap]
  constructor
  · intro h
    rcases h with ⟨o, ho, hremoval⟩
    cases o with
    | cacheRemoveFriend a b =>
        cases hremoval
        exact ho
    | _ => cases hremoval
  · intro h
    exact ⟨_, h, rfl⟩

namespace Service

/-- A handler at work still has to remove the second user from the cache of the
first. -/
def Removing (s : Service pg) (u v : Nat) : Prop :=
  exists k, k < s.stores.manager.shardCount ∧
    exists w, w ∈ s.consumers k ∧ (u, v) ∈ w.log.removals

/-- The user and the friends that the consumer of a shard adds next to a cache. -/
def adding (s : Service pg) (shard : Nat) : Option (Nat × List Nat) :=
  match s.consumers shard with
  | some ⟨_, _, .call o _⟩ => o.adds
  | _ => none

/-- Whoever a step adds to a cache is still a friend, or a handler still has to
remove him.  Nobody is added for a user whose session is gone. -/
def AddsFriends (s : Service pg) : Label double -> Prop
  | .act shard _ =>
      forall c, c ∈ s.adding shard ->
        forall friends, friends ∈ s.stores.manager.cacheOf c.1 ->
          forall v, v ∈ c.2 -> v ∉ friends ->
            v ∈ s.stores.friendDb.acceptedBy c.1 ∨ s.Removing c.1 v
  | _ => True

instance (s : Service pg) (u v : Nat) : Decidable (s.Removing u v) :=
  inferInstanceAs (Decidable (exists k, k < s.stores.manager.shardCount ∧
    exists w, w ∈ s.consumers k ∧ (u, v) ∈ w.log.removals))

instance (s : Service pg) : (label : Label double) -> Decidable (s.AddsFriends label)
  | .act shard _ => inferInstanceAs (Decidable (forall c, c ∈ s.adding shard -> _))
  | .connect _ | .disconnect _ | .receive _ _ | .sendDone _ _ _ | .pop _ =>
      isTrue trivial

/-- While no handler acts for one of two users who are not friends, neither the
cache of the first nor a message to his friends reaches the second. -/
def KeptApart (s : Service pg) : Prop :=
  forall u v, (forall k w, s.consumers k = some w ->
      ¬ w.log.ActsFor w.msg u ∧ ¬ w.log.ActsFor w.msg v) ->
    v ∉ s.stores.friendDb.acceptedBy u ->
    (forall friends, s.stores.manager.cacheOf u = some friends -> v ∉ friends) ∧
    forall data target, target ∈ s.stores.manager.friendTargets u data ->
      s.stores.manager.slotOfUser v ≠ some target.1

end Service

variable [One double] {s t : Service pg} {label : Service.Label double}

structure Cached (s : Service pg) : Prop where
  shards : 0 < s.stores.manager.shardCount
  blank : Blank s.stores.manager
  current : forall u v friends, s.stores.manager.cacheOf u = some friends ->
    v ∈ friends -> v ∈ s.stores.friendDb.acceptedBy u ∨ s.Removing u v

namespace Cached

omit [One double] in
theorem start {shards : Nat} (hshards : 0 < shards) (db : Db pg)
    (friendships : Friendships) (ranking : Ranking) :
    Cached (Service.start (Stores.boot shards db friendships ranking)) where
  shards := hshards
  blank := Blank.start shards
  current := fun u v friends hcache => by cases hcache

/-- The handlers that still have to remove somebody, after one of them went on. -/
theorem removing_goOn (hs : Attested s) (hshards : 0 < s.stores.manager.shardCount)
    {shard : Nat} {msg : ShardMsg} {log : Log double} {o : Op double}
    {next : Answer o -> Handler double Unit} (env : Environment double)
    (works : s.consumers shard = some ⟨msg, log, .call o next⟩) {u v : Nat} :
    let t := { s with stores := (s.stores.perform shard msg env o).2 }.goOn shard msg
      (⟨o, (s.stores.perform shard msg env o).1⟩ :: log)
      (next (s.stores.perform shard msg env o).1)
    (s.Removing u v -> o ≠ .cacheRemoveFriend u v -> t.Removing u v) ∧
    (.cacheRemoveFriend u v ∈
      Log.owed (⟨o, (s.stores.perform shard msg env o).1⟩ :: log) -> t.Removing u v) := by
  intro t
  have hcount : t.stores.manager.shardCount = s.stores.manager.shardCount :=
    Service.shardCount_acted o env
  have howes : .cacheRemoveFriend u v ∈
      Log.owed (⟨o, (s.stores.perform shard msg env o).1⟩ :: log) ->
      t.Removing u v := by
    intro howed
    have hconducts : Conducts msg (⟨o, (s.stores.perform shard msg env o).1⟩ :: log)
        (next (s.stores.perform shard msg env o).1) :=
      (hs.conducts shard _ works).right _
    refine ⟨shard, ?_, _, Service.goOn_works hconducts ?_, Log.mem_removals.mpr howed⟩
    · rw [hcount]
      have hroute : shard = msg.sessionId % s.stores.manager.shardCount :=
        hs.routed shard _ works
      rw [hroute]
      exact Nat.mod_lt _ hshards
    · intro hnil
      rw [hnil] at howed
      cases howed
  refine ⟨fun hremoving hother => ?_, howes⟩
  rcases hremoving with ⟨k, hk, w, hw, howed⟩
  by_cases hsame : k = shard
  · subst hsame
    rw [works] at hw
    cases hw
    have hproper : Log.Proper msg (⟨o, (s.stores.perform k msg env o).1⟩ :: log) :=
      ⟨hs.proper k _ works, hs.allowed works⟩
    rcases hproper.keeps (Log.mem_removals.mp howed) with heq | hstill
    · exact absurd heq.symm hother
    · exact howes hstill
  · refine ⟨k, by rw [hcount]; exact hk, w, ?_, howed⟩
    show (Service.goOn _ _ _ _ _).consumers k = some w
    rw [Service.goOn_consumers_of_ne hsame]
    exact hw

/-- A handler runs one operation. -/
theorem acted (h : Cached s) (hs : Attested s) {shard : Nat} {msg : ShardMsg}
    {log : Log double} {o : Op double} {next : Answer o -> Handler double Unit}
    (env : Environment double)
    (works : s.consumers shard = some ⟨msg, log, .call o next⟩)
    (hadds : s.AddsFriends (.act shard env)) :
    Cached ({ s with stores := (s.stores.perform shard msg env o).2 }.goOn shard msg
      (⟨o, (s.stores.perform shard msg env o).1⟩ :: log)
      (next (s.stores.perform shard msg env o).1)) := by
  have hrows := s.stores.perform_rows shard msg env hs.users o
  constructor
  · rw [Service.shardCount_acted o env]
    exact h.shards
  · rw [Service.goOn_stores]
    exact hs.blank_perform h.blank works env
  · intro u v friends hcache hv
    have hremoving := removing_goOn hs h.shards env works (u := u) (v := v)
    rw [Service.goOn_stores] at hcache ⊢
    -- The cache had him before, or the step adds him.
    have hbefore : o ≠ .cacheRemoveFriend u v ∧
        (v ∈ s.stores.friendDb.acceptedBy u ∨ s.Removing u v) := by
      rcases hs.cached_before h.blank works env hcache hv with
        ⟨hother, old, hold, hmem⟩ | ⟨ids, old, hadd, hmem, hold, hnew⟩
      · exact ⟨hother, h.current u v old hold hmem⟩
      · refine ⟨fun hsame => ?_, hadds (u, ids) ?_ old hold v hmem hnew⟩
        · rw [hsame] at hadd
          cases hadd
        · unfold Service.adding
          rw [works]
          exact hadd
    rcases hbefore with ⟨hother, hfriends | hstill⟩
    · rcases hrows.befriended (mem_acceptedBy_iff.mp hfriends) with
        hnow | ⟨a, b, name, heq, hpair⟩
      · exact Or.inl (mem_acceptedBy_iff.mpr hnow)
      · -- A block promises to remove both users from the caches.
        refine Or.inr (hremoving.right ?_)
        rw [heq]
        show _ ∈ [Op.cacheRemoveFriend a (b + 1), .cacheRemoveFriend (b + 1) a]
        rcases hpair with ⟨hu, hv⟩ | ⟨hu, hv⟩
        · rw [hu, hv]
          exact List.mem_cons_self
        · rw [hu, hv]
          exact List.mem_cons_of_mem _ List.mem_cons_self
    · exact Or.inr (hremoving.left hstill hother)

omit [One double] in
/-- Sessions come and go while the handlers and the friendships stay. -/
theorem withManager (h : Cached s) {m : SessionManager} {created : List Nat}
    (hshards : m.shardCount = s.stores.manager.shardCount) (hblank : Blank m)
    (hcaches : forall u friends, m.cacheOf u = some friends ->
      s.stores.manager.cacheOf u = some friends) :
    Cached { s with stores := { s.stores with
      world := { s.stores.world with manager := m }, created := created } } where
  shards := by
    show 0 < m.shardCount
    rw [hshards]
    exact h.shards
  blank := hblank
  current := fun u v friends hcache hv => by
    rcases h.current u v friends (hcaches u friends hcache) hv with
      hfriends | ⟨k, hk, w, hw, howed⟩
    · exact Or.inl hfriends
    · refine Or.inr ⟨k, ?_, w, hw, howed⟩
      show k < m.shardCount
      rw [hshards]
      exact hk

theorem step (h : Cached s) (hs : Attested s) (heffect : Service.Effect s label t)
    (hadds : s.AddsFriends label) : Cached t := by
  have hblank : Blank t.stores.manager := hs.blank_step h.blank heffect
  have hcaches := hs.cacheOf_effect heffect
  cases heffect with
  | refused socket => exact h
  | connected socket slot manager created shards =>
      exact h.withManager shards hblank fun _ _ => hcaches nofun
  | disconnected id slot live =>
      exact h.withManager rfl hblank fun _ _ => hcaches nofun
  | received id pkt slot shard msg live handler client sender =>
      exact ⟨h.shards, h.blank, h.current⟩
  | completed id bytes result slot live =>
      exact h.withManager rfl hblank fun _ _ => hcaches nofun
  | taken shard msg rest waits queue =>
      refine ⟨?_, ?_, ?_⟩
      · rw [Service.goOn_stores]
        exact h.shards
      · rw [Service.goOn_stores]
        exact h.blank
      · intro u v friends hcache hv
        rw [Service.goOn_stores] at hcache ⊢
        rcases h.current u v friends hcache hv with hfriends | ⟨k, hk, w, hw, howed⟩
        · exact Or.inl hfriends
        · have hne : k ≠ shard := by
            intro hsame
            rw [hsame, waits] at hw
            cases hw
          refine Or.inr ⟨k, ?_, w, ?_, howed⟩
          · rw [Service.goOn_stores]
            exact hk
          · rw [Service.goOn_consumers_of_ne hne]
            exact hw
  | acted shard env msg log o next works => exact h.acted hs env works hadds

/-- A handler that still has to remove somebody acts for one of the two. -/
theorem acts_of_removing (hs : Attested s) {k u v : Nat} {w : Working double}
    (hw : s.consumers k = some w) (hremoval : (u, v) ∈ w.log.removals) :
    w.log.ActsFor w.msg u ∨ w.log.ActsFor w.msg v := by
  have hproper := hs.proper k w hw
  have hacts : forall a name b, w.log.Has (.blockFriend a name) (some b) ->
      w.log.ActsFor w.msg a := by
    intro a name b hblock
    rcases hproper.allows_of_has hblock (fun _ hf => hf) with
      ⟨after, before, hlog, _, _, hbefore⟩
    unfold Log.ActsFor
    rw [hlog]
    exact List.mem_append_right _ (hbefore.cons _)
  rcases hproper.explains _ (Log.mem_removals.mp hremoval) with
    ⟨name, hblock⟩ | ⟨name, hblock⟩
  · exact Or.inl (hacts u name v hblock)
  · exact Or.inr (hacts v name u hblock)

theorem keptApart (h : Cached s) (hs : Attested s) : s.KeptApart := by
  intro u v hnobody hnot
  have hcache : forall friends, s.stores.manager.cacheOf u = some friends ->
      v ∉ friends := by
    intro friends hfriends hv
    rcases h.current u v friends hfriends hv with hstill | ⟨k, _, w, hw, howed⟩
    · exact hnot hstill
    · rcases acts_of_removing hs hw howed with hacts | hacts
      · exact (hnobody k w hw).left hacts
      · exact (hnobody k w hw).right hacts
  refine ⟨hcache, ?_⟩
  intro data target htarget hslot
  unfold SessionManager.friendTargets at htarget
  cases hown : s.stores.manager.slotOfUser u with
  | none =>
      rw [hown] at htarget
      cases htarget
  | some slot =>
      rw [hown] at htarget
      rcases List.mem_map.mp htarget with ⟨place, hplace, heq⟩
      subst heq
      rcases List.mem_filterMap.mp hplace with ⟨w, hw, hfound⟩
      have hsame : w = v := hs.registry.slotOfUser_injective hfound hslot
      subst hsame
      refine hcache (s.stores.manager.session slot).friendIds ?_
        ((Finset.mem_sort _).mp hw)
      unfold SessionManager.cacheOf
      rw [hown]
      rfl

end Cached

/-- In every run in which nobody is added to a cache after a block has removed him,
users who are not friends are kept apart. -/
theorem chat_kept_apart {shards : Nat} (hshards : 0 < shards) {db : Db pg}
    {friendships : Friendships} {ranking : Ranking}
    {labels : List (Service.Label double)} (husers : Numbered db.users)
    (hadds : EveryStep Service.step Service.AddsFriends
      (Service.start (Stores.boot shards db friendships ranking)) labels) :
    forall t, Visits Service.step
      (Service.start (Stores.boot shards db friendships ranking)) labels t ->
      t.KeptApart := by
  intro t ht
  have hattested : Attested t :=
    attested_step.visits (Attested.start shards db friendships ranking husers) ht
  have hcached : Cached t := by
    refine hadds.visits attested_step ?_
      (Attested.start shards db friendships ranking husers)
      (Cached.start hshards db friendships ranking) t ht
    intro s label t hs h hstep hadds
    exact h.step hs (Service.step_effect hstep) hadds
  exact hcached.keptApart hattested

/-!
# An acceptance that overtakes a block

Bob accepts the request of ann, and before his handler has changed the caches ann
blocks him.  His handler then puts both users into the caches again.
-/

namespace Service

def acceptsAndBlocks : List (Label Nat) :=
  List.flatten [[.connect 10, .connect 11], say 1 "/n ann", say 2 "/n bob", acts 1 9,
    acts 2 9, say 1 "/f add bob", acts 1 4, say 2 "/f accept ann", acts 2 3,
    say 1 "/f block bob", acts 1 6, acts 2 3]

def acceptsThenBlocks : List (Label Nat) :=
  List.flatten [[.connect 10, .connect 11], say 1 "/n ann", say 2 "/n bob", acts 1 9,
    acts 2 9, say 1 "/f add bob", acts 1 4, say 2 "/f accept ann", acts 2 6,
    say 1 "/f block bob", acts 1 6]

/-- Whether all consumers wait, whether ann and bob, who are users 1 and 2, are
friends, and whether bob is in the cache of ann. -/
def annAndBob (s : Service percentServer) : Bool × Bool × Option Bool :=
  ((List.range s.stores.manager.shardCount).all (fun k => (s.consumers k).isNone),
    decide (2 ∈ s.stores.friendDb.acceptedBy 1),
    (s.stores.manager.cacheOf 1).map (fun friends => decide (2 ∈ friends)))

end Service

theorem chat_across_block :
    exists t, runFrom Service.step Service.fresh Service.acceptsAndBlocks = some t ∧
      (forall k, t.consumers k = none) ∧ ¬ t.KeptApart := by
  have hrun : (runFrom Service.step Service.fresh Service.acceptsAndBlocks).map
      (fun t => (t.stores.manager.shardCount, t.annAndBob)) =
        some (8, true, false, some true) := by
    decide +kernel
  rcases Option.map_eq_some_iff.mp hrun with ⟨t, hrun, hholds⟩
  rcases Prod.mk.inj hholds with ⟨hshards, hrest⟩
  rcases Prod.mk.inj hrest with ⟨hall, hrest⟩
  rcases Prod.mk.inj hrest with ⟨hfriends, hcache⟩
  have hstanding : Standing t := standing_run numbered_empty (visits_last hrun)
  have hwaits : forall k, t.consumers k = none :=
    hstanding.waits (by rw [hshards]; decide)
      fun k hk => List.all_eq_true.mp hall k (List.mem_range.mpr hk)
  refine ⟨t, hrun, hwaits, fun hapart => ?_⟩
  rcases Option.map_eq_some_iff.mp hcache with ⟨friends, hcache, hmem⟩
  refine (hapart 1 2 ?_ (of_decide_eq_false hfriends)).left friends hcache
    (of_decide_eq_true hmem)
  intro k w hw
  rw [hwaits k] at hw
  cases hw

theorem chat_kept_apart_accepted :
    exists t, runFrom Service.step Service.fresh Service.acceptsThenBlocks = some t ∧
      t.annAndBob = (true, false, some false) ∧ t.KeptApart := by
  have hrun : (runFrom Service.step Service.fresh Service.acceptsThenBlocks).map
      (fun t => t.annAndBob) = some (true, false, some false) := by
    decide +kernel
  rcases Option.map_eq_some_iff.mp hrun with ⟨t, hrun, hholds⟩
  exact ⟨t, hrun, hholds, chat_kept_apart (by decide) numbered_empty (by decide +kernel)
    t (visits_last hrun)⟩

end Consumers
end ContentServer
