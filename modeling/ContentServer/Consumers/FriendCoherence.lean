import ContentServer.Consumers.Authority
import ContentServer.Consumers.CacheEffects

/-!
# Friend caches while handlers take turns

A login fills the cache of its user from the database, and an accepted request
or a block changes the two caches after the rows.  While handlers take turns,
every cache is what the rows say once the handler at work has kept its promises,
and so in between handlers it is just what the rows say.
-/

namespace ContentServer
namespace Consumers

open Foundation Protocol Sessions Registry Storage

variable {double : Type} {pg : Postgres double}

/-- What an operation does to the cache of a user. -/
def Op.editFor (o : Op double) (u : Nat) (friends : Finset Nat) : Finset Nat :=
  match o.cacheEdit with
  | some (v, edit) => if u = v then edit friends else friends
  | none => friends

/-- The cache of a user when these calls have been made. -/
def afterCalls (owed : List (Op double)) (u : Nat) (friends : Finset Nat) : Finset Nat :=
  owed.foldl (fun friends o => o.editFor u friends) friends

theorem Op.editFor_of_some {o : Op double} {v : Nat} {edit : Finset Nat -> Finset Nat}
    (h : o.cacheEdit = some (v, edit)) (u : Nat) (friends : Finset Nat) :
    o.editFor u friends = if u = v then edit friends else friends := by
  unfold Op.editFor
  rw [h]

theorem Op.editFor_of_none {o : Op double} (h : o.cacheEdit = none) (u : Nat)
    (friends : Finset Nat) : o.editFor u friends = friends := by
  unfold Op.editFor
  rw [h]

theorem mem_afterCalls_add {a b u v : Nat} {friends : Finset Nat} :
    v ∈ afterCalls ([.cacheAddFriend a b, .cacheAddFriend b a] : List (Op double)) u
        friends <->
      v ∈ friends ∨ (u = a ∧ v = b) ∨ (u = b ∧ v = a) := by
  show v ∈ (if u = b then insert a (if u = a then insert b friends else friends)
    else if u = a then insert b friends else friends) <-> _
  split_ifs <;> (try rw [Finset.mem_insert]) <;> (try rw [Finset.mem_insert]) <;> tauto

theorem mem_afterCalls_remove {a b u v : Nat} {friends : Finset Nat} :
    v ∈ afterCalls ([.cacheRemoveFriend a b, .cacheRemoveFriend b a] : List (Op double)) u
        friends <->
      v ∈ friends ∧ ¬ ((u = a ∧ v = b) ∨ (u = b ∧ v = a)) := by
  show v ∈ (if u = b then (if u = a then friends.erase b else friends).erase a
    else if u = a then friends.erase b else friends) <-> _
  split_ifs <;> (try rw [Finset.mem_erase]) <;> (try rw [Finset.mem_erase]) <;> tauto

/-- The rows and the calls that are still owed explain the cache of a user; before the
friends are read it is empty. -/
def Current (row : Nat × Nat -> Option FriendStatus) (owed : List (Op double)) (u : Nat)
    (friends : Finset Nat) : Prop :=
  (.getFriendIds u ∈ owed ∧ friends = ∅) ∨
    forall v, v ∈ afterCalls owed u friends <-> Befriended row u v

theorem Current.idle {row : Nat × Nat -> Option FriendStatus} {u : Nat}
    {friends : Finset Nat} (h : Current row ([] : List (Op double)) u friends) (v : Nat) :
    v ∈ friends <-> Befriended row u v := by
  rcases h with ⟨howed, _⟩ | hfriends
  · cases howed
  · exact hfriends v

/-!
# Friendships after an operation
-/

theorem Befriended.symm {row : Nat × Nat -> Option FriendStatus} {u v : Nat}
    (h : Befriended row u v) : Befriended row v u :=
  Or.symm h

/-- A row that is not accepted becomes another such row. -/
theorem befriended_update {row : Nat × Nat -> Option FriendStatus} {key : Nat × Nat}
    {status : Option FriendStatus} (hold : row key ≠ some .accepted)
    (hnew : status ≠ some .accepted) (u v : Nat) :
    Befriended (Function.update row key status) u v <-> Befriended row u v := by
  have hsame : forall other, Function.update row key status other = some .accepted <->
      row other = some .accepted := by
    intro other
    by_cases hother : other = key
    · rw [hother, Function.update_self]
      exact iff_of_false hnew hold
    · rw [Function.update_of_ne hother]
  unfold Befriended
  rw [hsame, hsame]

variable {row after : Nat × Nat -> Option FriendStatus}

/-- Requests and rejections make and end no friendship. -/
theorem RowsAfter.befriended_same {o : Op double} {answer : Answer o}
    (h : RowsAfter row o answer after)
    (haccept : forall a name, o ≠ .acceptFriend a name)
    (hblock : forall a name, o ≠ .blockFriend a name) (u v : Nat) :
    Befriended after u v <-> Befriended row u v := by
  cases h with
  | kept noAccept noBlock => exact Iff.rfl
  | requested other free => exact befriended_update (by rw [free]; simp) (by simp) u v
  | accepted request => exact absurd rfl (haccept _ _)
  | rejected request => exact befriended_update (by rw [request]; simp) (by simp) u v
  | blocked other => exact absurd rfl (hblock _ _)

/-- An accepted request makes two users friends. -/
theorem befriended_accept {a b : Nat} (u v : Nat) :
    Befriended (Function.update row (b, a) (some .accepted)) u v <->
      Befriended row u v ∨ (u = a ∧ v = b) ∨ (u = b ∧ v = a) := by
  have hrow : forall x y, Function.update row (b, a) (some .accepted) (x, y) =
      some .accepted <-> row (x, y) = some .accepted ∨ (x = b ∧ y = a) := by
    intro x y
    by_cases hkey : (x, y) = (b, a)
    · rw [hkey, Function.update_self]
      exact iff_of_true rfl (Or.inr (Prod.mk.inj hkey))
    · rw [Function.update_of_ne hkey]
      have hother : ¬ (x = b ∧ y = a) := fun h => hkey (by rw [h.left, h.right])
      exact (or_iff_left hother).symm
  unfold Befriended
  rw [hrow, hrow]
  tauto

/-- A block ends a friendship in both directions. -/
theorem befriended_block {a b : Nat} (u v : Nat) :
    Befriended (Function.update (Function.update row (b, a) none) (a, b) (some .blocked))
        u v <->
      Befriended row u v ∧ ¬ ((u = a ∧ v = b) ∨ (u = b ∧ v = a)) := by
  have hrow : forall x y, Function.update (Function.update row (b, a) none) (a, b)
      (some .blocked) (x, y) = some .accepted <->
      row (x, y) = some .accepted ∧ ¬ (x = a ∧ y = b) ∧ ¬ (x = b ∧ y = a) := by
    intro x y
    by_cases hkey : (x, y) = (a, b)
    · rw [hkey, Function.update_self]
      exact iff_of_false (by simp) (fun h => h.right.left (Prod.mk.inj hkey))
    · have hother : ¬ (x = a ∧ y = b) := fun h => hkey (by rw [h.left, h.right])
      rw [Function.update_of_ne hkey]
      by_cases hback : (x, y) = (b, a)
      · rw [hback, Function.update_self]
        exact iff_of_false (by simp) (fun h => h.right.right (Prod.mk.inj hback))
      · rw [Function.update_of_ne hback]
        have hother' : ¬ (x = b ∧ y = a) := fun h => hback (by rw [h.left, h.right])
        exact ⟨fun h => ⟨h, hother, hother'⟩, fun h => h.left⟩
  unfold Befriended
  rw [hrow, hrow]
  tauto

/-- Nobody is his own friend. -/
theorem RowsAfter.noSelf {o : Op double} {answer : Answer o}
    (h : RowsAfter row o answer after) (hself : forall u, row (u, u) = none) :
    forall u, after (u, u) = none := by
  have hkeep : forall (key : Nat × Nat) (status : Option FriendStatus),
      key.1 ≠ key.2 -> forall u, Function.update row key status (u, u) = row (u, u) := by
    intro key status hkey u
    refine Function.update_of_ne (fun heq => hkey ?_) _ _
    rw [← heq]
  intro u
  cases h with
  | kept noAccept noBlock => exact hself u
  | requested other free =>
      rw [hkeep _ _ (Ne.symm other), hself]
  | @accepted a b name request =>
      have hother : b + 1 ≠ a := by
        intro heq
        rw [heq, hself] at request
        cases request
      rw [hkeep _ _ hother, hself]
  | @rejected a b name answer request =>
      have hother : b ≠ a := by
        intro heq
        rw [heq, hself] at request
        cases request
      rw [hkeep _ _ hother, hself]
  | @blocked a b name other =>
      rw [Function.update_of_ne (fun heq => other (by
        rcases Prod.mk.inj heq with ⟨hu, hv⟩
        rw [← hu, hv])), hkeep _ _ other, hself]

/-!
# Handlers that take turns
-/

namespace Service

/-- The promises of the handler at work; there are none when all consumers wait. -/
inductive Owes (s : Service pg) : List (Op double) -> Prop where
  | waits (waits : forall k, s.consumers k = none) : Owes s []
  | works (k : Nat) (w : Working double) (works : s.consumers k = some w) :
      Owes s w.log.owed

/-- A handler starts only when no other one is at work. -/
def TakesTurns (s : Service pg) : Label double -> Prop
  | .pop _ => forall k, k < s.stores.manager.shardCount -> (s.consumers k).isNone = true
  | _ => True

/-- The user whose friends the consumer of a shard reads next. -/
def reading (s : Service pg) (shard : Nat) : Option Nat :=
  match s.consumers shard with
  | some ⟨_, _, .call (.getFriendIds u) _⟩ => some u
  | _ => none

/-- The friends of a user are read without a failure. -/
def ReadsFriends (s : Service pg) : Label double -> Prop
  | .act shard env => forall u, u ∈ s.reading shard ->
      ((Database.getFriendIds u).run env.faults s.stores.friendDb).reply.isSome = true
  | _ => True

instance (s : Service pg) : (label : Label double) -> Decidable (s.TakesTurns label)
  | .pop _ => inferInstanceAs (Decidable (forall k, k < s.stores.manager.shardCount -> _))
  | .connect _ | .disconnect _ | .receive _ _ | .sendDone _ _ _ | .act _ _ =>
      isTrue trivial

instance (s : Service pg) : (label : Label double) -> Decidable (s.ReadsFriends label)
  | .act shard _ => inferInstanceAs (Decidable (forall u, u ∈ s.reading shard -> _))
  | .connect _ | .disconnect _ | .receive _ _ | .sendDone _ _ _ | .pop _ =>
      isTrue trivial

section Alone

variable {s : Service pg} {shard : Nat} {msg : ShardMsg} {log : Log double}
variable {x : Handler double Unit}

/-- The consumer that went on is the only one at work. -/
theorem goOn_alone (hothers : forall k, k ≠ shard -> s.consumers k = none) {k : Nat}
    {w : Working double} (h : (s.goOn shard msg log x).consumers k = some w) :
    k = shard ∧ w = ⟨msg, log, x⟩ := by
  rcases goOn_consumers h with hself | ⟨hne, hw⟩
  · exact hself
  · rw [hothers k hne] at hw
    cases hw

/-- What it owes is all that is owed. -/
theorem owes_goOn [One double] (hothers : forall k, k ≠ shard -> s.consumers k = none)
    (hconducts : Conducts msg log x) {owed : List (Op double)}
    (h : (s.goOn shard msg log x).Owes owed) : owed = log.owed := by
  cases h with
  | waits waits =>
      by_contra hne
      have hworks : (s.goOn shard msg log x).consumers shard = some ⟨msg, log, x⟩ :=
        goOn_works hconducts (Ne.symm hne)
      rw [waits shard] at hworks
      cases hworks
  | works k w works => rw [(goOn_alone hothers works).right]

end Alone

end Service

structure Coherent (s : Service pg) : Prop where
  shards : 0 < s.stores.manager.shardCount
  blank : Blank s.stores.manager
  noSelf : forall u, s.stores.friendDb.row (u, u) = none
  alone : forall k w other w', s.consumers k = some w -> s.consumers other = some w' ->
    k = other
  current : forall owed u friends, s.Owes owed ->
    s.stores.manager.cacheOf u = some friends ->
    Current s.stores.friendDb.row owed u friends

namespace Coherent

variable {s t : Service pg}

theorem start {shards : Nat} {db : Db pg} {friendships : Friendships} {ranking : Ranking}
    (hshards : 0 < shards) (hself : forall u, friendships.lookup (u, u) = none) :
    Coherent (Service.start (Stores.boot shards db friendships ranking)) where
  shards := hshards
  blank := Blank.start shards
  noSelf := hself
  alone := fun k w other w' hw => by cases hw
  current := fun owed u friends howes hcache => by cases hcache

/-- Sessions come and go, and no cache changes. -/
theorem withManager (h : Coherent s) {m : SessionManager} {created : List Nat}
    (hshards : m.shardCount = s.stores.manager.shardCount) (hblank : Blank m)
    (hcaches : forall u friends, m.cacheOf u = some friends ->
      s.stores.manager.cacheOf u = some friends) :
    Coherent { s with stores := { s.stores with
      world := { s.stores.world with manager := m }, created := created } } where
  shards := by
    show 0 < m.shardCount
    rw [hshards]
    exact h.shards
  blank := hblank
  noSelf := h.noSelf
  alone := h.alone
  current := fun owed u friends howes hcache => by
    refine h.current owed u friends ?_ (hcaches u friends hcache)
    cases howes with
    | waits waits => exact .waits waits
    | works k w works => exact .works k w works

section Acted

variable [One double] {shard : Nat} {msg : ShardMsg} {log : Log double} {o : Op double}
variable {next : Answer o -> Handler double Unit}

/-- A call that was promised and leaves rows and other caches alone. -/
theorem current_edit (h : Coherent s) (hs : Standing s)
    (works : s.consumers shard = some ⟨msg, log, .call o next⟩) (env : Environment double)
    {rest : List (Op double)} {w : Nat} {edit : Finset Nat -> Finset Nat}
    (howed : log.owed = o :: rest) (hedit : o.cacheEdit = some (w, edit))
    (hrow : (s.stores.perform shard msg env o).2.friendDb.row = s.stores.friendDb.row)
    {u : Nat} {friends : Finset Nat}
    (hcache : (s.stores.perform shard msg env o).2.manager.cacheOf u = some friends) :
    Current (s.stores.perform shard msg env o).2.friendDb.row rest u friends := by
  rw [hrow]
  have hbefore : exists old, s.stores.manager.cacheOf u = some old ∧
      friends = o.editFor u old := by
    rw [hs.cacheOf_edit env hedit] at hcache
    by_cases hu : u = w
    · rw [if_pos hu] at hcache
      rcases Option.map_eq_some_iff.mp hcache with ⟨old, hold, hfriends⟩
      refine ⟨old, hold, ?_⟩
      rw [Op.editFor_of_some hedit, if_pos hu]
      exact hfriends.symm
    · rw [if_neg hu] at hcache
      refine ⟨friends, hcache, ?_⟩
      rw [Op.editFor_of_some hedit, if_neg hu]
  rcases hbefore with ⟨old, hold, hfriends⟩
  have hcurrent := h.current log.owed u old (.works shard _ works) hold
  rw [howed] at hcurrent
  rcases hcurrent with ⟨hread, _⟩ | hcurrent
  · -- Before the friends are read, nothing else is owed to a cache.
    have hmem : .getFriendIds u ∈ log.owed := by
      rw [howed]
      exact hread
    rcases log.owed_of_getFriendIds hmem with ⟨id, name, heq | heq | heq⟩ <;>
      · cases howed.symm.trans heq
        cases hedit
  · right
    intro v
    rw [hfriends]
    exact hcurrent v

omit [One double] in
/-- A call that changes neither a cache nor a friendship. -/
theorem current_same (h : Coherent s)
    (works : s.consumers shard = some ⟨msg, log, .call o next⟩)
    {after : Stores pg} {owed : List (Op double)}
    (hrow : forall u v, Befriended after.friendDb.row u v <->
      Befriended s.stores.friendDb.row u v) {u : Nat} {friends : Finset Nat}
    (hcache : s.stores.manager.cacheOf u = some friends)
    (hread : .getFriendIds u ∈ log.owed -> .getFriendIds u ∈ owed)
    (hedits : afterCalls owed u friends = afterCalls log.owed u friends) :
    Current after.friendDb.row owed u friends := by
  rcases h.current log.owed u friends (.works shard _ works) hcache with
    ⟨howed, hempty⟩ | hcurrent
  · exact Or.inl ⟨hread howed, hempty⟩
  · right
    intro v
    rw [hedits, hrow]
    exact hcurrent v

omit [One double] in
/-- The next promise, when it leaves caches and friendships alone. -/
theorem current_rest (h : Coherent s)
    (works : s.consumers shard = some ⟨msg, log, .call o next⟩) {after : Stores pg}
    {rest : List (Op double)} (howed : log.owed = o :: rest) (hedit : o.cacheEdit = none)
    (hread : forall u, o ≠ .getFriendIds u)
    (hrow : forall u v, Befriended after.friendDb.row u v <->
      Befriended s.stores.friendDb.row u v) {u : Nat} {friends : Finset Nat}
    (hcache : s.stores.manager.cacheOf u = some friends) :
    Current after.friendDb.row rest u friends := by
  refine h.current_same works hrow hcache ?_ ?_
  · intro hmem
    rw [howed] at hmem
    rcases List.mem_cons.mp hmem with heq | hrest
    · exact absurd heq.symm (hread u)
    · exact hrest
  · rw [howed]
    show _ = afterCalls rest u (o.editFor u friends)
    rw [Op.editFor_of_none hedit]

omit [One double] in
/-- Nothing is owed, and the call promises nothing to a cache. -/
theorem current_quiet (h : Coherent s)
    (works : s.consumers shard = some ⟨msg, log, .call o next⟩) {after : Stores pg}
    {owed : List (Op double)} (howed : log.owed = [])
    (hrow : forall u v, Befriended after.friendDb.row u v <->
      Befriended s.stores.friendDb.row u v)
    (hedits : forall p, p ∈ owed -> p.cacheEdit = none) {u : Nat} {friends : Finset Nat}
    (hcache : s.stores.manager.cacheOf u = some friends) :
    Current after.friendDb.row owed u friends := by
  refine h.current_same works hrow hcache ?_ ?_
  · intro hmem
    rw [howed] at hmem
    cases hmem
  · rw [howed]
    show afterCalls owed u friends = friends
    induction owed with
    | nil => rfl
    | cons p rest ih =>
        show afterCalls rest u (p.editFor u friends) = friends
        rw [Op.editFor_of_none (hedits p List.mem_cons_self)]
        exact ih fun q hq => hedits q (List.mem_cons_of_mem p hq)

omit [One double] in
/-- Two users become friends, and both caches are to be told. -/
theorem current_accepted (h : Coherent s)
    (works : s.consumers shard = some ⟨msg, log, .call o next⟩) {after : Stores pg}
    (howed : log.owed = []) {a b : Nat}
    (hrow : after.friendDb.row =
      Function.update s.stores.friendDb.row (b, a) (some .accepted)) {u : Nat}
    {friends : Finset Nat} (hcache : s.stores.manager.cacheOf u = some friends) :
    Current after.friendDb.row
      ([.cacheAddFriend a b, .cacheAddFriend b a] : List (Op double)) u friends := by
  have hbefore := h.current log.owed u friends (.works shard _ works) hcache
  rw [howed] at hbefore
  right
  intro v
  rw [hrow, befriended_accept, ← hbefore.idle v, mem_afterCalls_add]

omit [One double] in
/-- A friendship ends, and both caches are to be told. -/
theorem current_blocked (h : Coherent s)
    (works : s.consumers shard = some ⟨msg, log, .call o next⟩) {after : Stores pg}
    (howed : log.owed = []) {a b : Nat}
    (hrow : after.friendDb.row = Function.update
      (Function.update s.stores.friendDb.row (b, a) none) (a, b) (some .blocked))
    {u : Nat} {friends : Finset Nat}
    (hcache : s.stores.manager.cacheOf u = some friends) :
    Current after.friendDb.row
      ([.cacheRemoveFriend a b, .cacheRemoveFriend b a] : List (Op double)) u friends := by
  have hbefore := h.current log.owed u friends (.works shard _ works) hcache
  rw [howed] at hbefore
  right
  intro v
  rw [hrow, befriended_block, ← hbefore.idle v, mem_afterCalls_remove]

omit [One double] in
/-- The friends of a user are read, and the cache is to be filled with them. -/
theorem current_read (h : Coherent s)
    (works : s.consumers shard = some ⟨msg, log, .call o next⟩) {after : Stores pg}
    {a id : Nat} {data : List UInt8} {ids : List Nat}
    (howed : log.owed = [.getFriendIds a])
    (hrow : after.friendDb.row = s.stores.friendDb.row)
    (hids : forall v, v ∈ ids <-> Befriended s.stores.friendDb.row a v) {u : Nat}
    {friends : Finset Nat} (hcache : s.stores.manager.cacheOf u = some friends) :
    Current after.friendDb.row
      ([.loadFriendCache a ids, .sendRosterTo id, .broadcast data] : List (Op double))
      u friends := by
  have hbefore := h.current log.owed u friends (.works shard _ works) hcache
  rw [howed] at hbefore
  right
  intro v
  rw [hrow]
  show v ∈ (if u = a then friends ∪ ids.toFinset else friends) <-> _
  by_cases hu : u = a
  · subst hu
    rw [if_pos rfl, Finset.mem_union, List.mem_toFinset, hids v]
    rcases hbefore with ⟨_, hempty⟩ | hcurrent
    · rw [hempty]
      exact or_iff_right (Finset.notMem_empty v)
    · exact (or_congr_left (hcurrent v)).trans or_self_iff
  · rw [if_neg hu]
    rcases hbefore with ⟨hmem, _⟩ | hcurrent
    · rw [List.mem_singleton] at hmem
      cases hmem
      exact absurd rfl hu
    · exact hcurrent v

omit [One double] in
/-- What a call promises to no cache. -/
theorem promises_cacheEdit {before : Log double} {answer : Answer o}
    (haccept : forall a name, o ≠ .acceptFriend a name)
    (hblock : forall a name, o ≠ .blockFriend a name)
    (hread : forall a, o ≠ .getFriendIds a) :
    forall p, p ∈ promises before [] o answer -> p.cacheEdit = none := by
  intro p hp
  cases o with
  | setName id name =>
      cases answer with
      | false => cases hp
      | true =>
          cases hlogin : before.login with
          | none =>
              simp only [promises, hlogin] at hp
              cases hp
          | some v =>
              simp only [promises, hlogin, List.mem_cons, List.not_mem_nil, or_false] at hp
              rcases hp with heq | heq | heq <;> rw [heq] <;> rfl
  | dropItem v =>
      cases answer with
      | none => cases hp
      | some r =>
          rw [List.mem_singleton.mp hp]
          rfl
  | enhanceItem v itemId cost success mult =>
      rcases answer with _ | ⟨status, level, power, gold, total⟩
      · cases hp
      · cases status with
        | success =>
            rw [List.mem_singleton.mp hp]
            rfl
        | failed => cases hp
        | notOwned => cases hp
        | noGold => cases hp
  | getFriendIds a => exact absurd rfl (hread a)
  | acceptFriend a name => exact absurd rfl (haccept a name)
  | blockFriend a name => exact absurd rfl (hblock a name)
  | _ => cases hp

/-- A call that was promised, apart from the changes of caches. -/
theorem current_promised (h : Coherent s) (hs : Standing s)
    (works : s.consumers shard = some ⟨msg, log, .call o next⟩) (env : Environment double)
    (hreads : forall a, o = .getFriendIds a ->
      ((Database.getFriendIds a).run env.faults s.stores.friendDb).reply.isSome = true)
    {rest : List (Op double)} (howed : log.owed = o :: rest)
    (hexplains : log.Explains msg o) {u : Nat} {friends : Finset Nat}
    (hcache : (s.stores.perform shard msg env o).2.manager.cacheOf u = some friends) :
    Current (s.stores.perform shard msg env o).2.friendDb.row
      (Log.owed (⟨o, (s.stores.perform shard msg env o).1⟩ :: log)) u friends := by
  have hrows := s.stores.perform_rows shard msg env hs.users o
  have htail : log.owed.tail = rest := by
    rw [howed]
    rfl
  have hrest : o.cacheEdit = none -> (forall id v, o ≠ .setUserId id v) ->
      (forall a, o ≠ .getFriendIds a) -> (forall a name, o ≠ .acceptFriend a name) ->
      (forall a name, o ≠ .blockFriend a name) ->
      Current (s.stores.perform shard msg env o).2.friendDb.row rest u friends := by
    intro hedit hlogin hread haccept hblock
    refine h.current_rest works howed hedit hread (hrows.befriended_same haccept hblock) ?_
    rcases hs.cacheOf_other h.blank works env hedit u with hsame | ⟨⟨id, hu⟩, _⟩
    · rw [← hsame, hcache]
    · exact absurd hu (hlogin id u)
  cases o with
  | setUserId id a =>
      show Current _ log.owed.tail u friends
      rcases hs.cacheOf_other h.blank works env rfl u with hold | ⟨⟨id', hu⟩, hempty⟩
      · rw [htail]
        refine h.current_rest works howed rfl (fun _ hc => by cases hc)
          (hrows.befriended_same (fun _ _ hc => by cases hc) (fun _ _ hc => by cases hc)) ?_
        rw [← hold, hcache]
      · left
        cases hu
        have hmem : .setUserId id u ∈ log.owed := by
          rw [howed]
          exact List.mem_cons_self
        rcases log.owed_of_setUserId hmem with ⟨name, hpromised⟩
        refine ⟨by rw [hpromised]; simp, ?_⟩
        rw [hcache] at hempty
        exact Option.some.inj hempty
  | getFriendIds a =>
      have hmem : .getFriendIds a ∈ log.owed := by
        rw [howed]
        exact List.mem_cons_self
      have hlast : log.owed = [.getFriendIds a] := by
        rcases log.owed_of_getFriendIds hmem with ⟨id, name, heq | heq | heq⟩
        · cases howed.symm.trans heq
        · cases howed.symm.trans heq
        · exact heq
      rcases hexplains with ⟨id, name, hname, _⟩
      rcases Log.nick_isSome hname with ⟨⟨id', name'⟩, hnick⟩
      have hanswer : (s.stores.perform shard msg env (.getFriendIds a)).1 =
          some (s.stores.friendDb.acceptedBy a) := by
        have hread := hreads a rfl
        show ((Database.getFriendIds a).run env.faults s.stores.friendDb).reply = _
        rcases Database.getFriendIds_cases s.stores.friendDb a env.faults with
          ⟨_, hnone, _⟩ | hall
        · rw [hnone] at hread
          cases hread
        · rw [hall]
      rw [hanswer]
      have hpromised : Log.owed (⟨.getFriendIds a, some (s.stores.friendDb.acceptedBy a)⟩ ::
          log) = [.loadFriendCache a (s.stores.friendDb.acceptedBy a), .sendRosterTo id',
            .broadcast (nickPacket id' name').wire] := by
        show promises log log.owed (.getFriendIds a) _ = _
        simp only [promises, hnick]
      rw [hpromised]
      exact h.current_read works hlast rfl (fun v => mem_acceptedBy_iff) hcache
  | loadFriendCache _ _ | cacheAddFriend _ _ | cacheRemoveFriend _ _ =>
      show Current _ log.owed.tail u friends
      rw [htail]
      exact h.current_edit hs works env howed rfl rfl hcache
  | rankSetName _ _ | rankUpdate _ _ | sendRosterTo _ | broadcast _ =>
      show Current _ log.owed.tail u friends
      rw [htail]
      exact hrest rfl (fun _ _ hc => by cases hc) (fun _ hc => by cases hc)
        (fun _ _ hc => by cases hc) (fun _ _ hc => by cases hc)
  | _ => exact absurd hexplains (fun hf => hf)

/-- A call while nothing is owed. -/
theorem current_first (h : Coherent s) (hs : Standing s)
    (works : s.consumers shard = some ⟨msg, log, .call o next⟩) (env : Environment double)
    (howed : log.owed = []) (hallows : log.Allows msg o) {u : Nat} {friends : Finset Nat}
    (hcache : (s.stores.perform shard msg env o).2.manager.cacheOf u = some friends) :
    Current (s.stores.perform shard msg env o).2.friendDb.row
      (Log.owed (⟨o, (s.stores.perform shard msg env o).1⟩ :: log)) u friends := by
  have hrows := s.stores.perform_rows shard msg env hs.users o
  have hedit : o.cacheEdit = none := by
    cases o with
    | loadFriendCache a ids => exact absurd hallows (fun hf => hf)
    | cacheAddFriend a b => exact absurd hallows (fun hf => hf)
    | cacheRemoveFriend a b => exact absurd hallows (fun hf => hf)
    | _ => rfl
  have hbefore : s.stores.manager.cacheOf u = some friends := by
    rcases hs.cacheOf_other h.blank works env hedit u with hsame | ⟨⟨id, hu⟩, _⟩
    · rw [← hsame, hcache]
    · rw [hu] at hallows
      exact absurd hallows (fun hf => hf)
  show Current _ (promises log log.owed o _) u friends
  rw [howed]
  by_cases hfriend : (exists a name, o = .acceptFriend a name) ∨
      exists a name, o = .blockFriend a name
  · generalize hout : s.stores.perform shard msg env o = out at hrows ⊢
    rcases out with ⟨answer, after⟩
    have hsomehow : exists row', after.friendDb.row = row' := ⟨_, rfl⟩
    rcases hsomehow with ⟨row', hrow⟩
    replace hrows : RowsAfter s.stores.friendDb.row o answer after.friendDb.row := hrows
    rw [hrow] at hrows
    show Current after.friendDb.row (promises log [] o answer) u friends
    rcases hfriend with ⟨a, name, heq⟩ | ⟨a, name, heq⟩ <;> subst heq
    · cases hrows with
      | kept noAccept noBlock =>
          have hnothing : promises log [] (.acceptFriend a name) answer = [] := by
            rcases answer with _ | _ | v
            · rfl
            · rfl
            · exact absurd rfl (noAccept a name v)
          rw [hnothing]
          refine h.current_quiet works howed (fun x y => ?_) (fun p hp => by cases hp) hbefore
          rw [hrow]
      | @accepted _ v _ request => exact h.current_accepted works howed hrow hbefore
    · cases hrows with
      | kept noAccept noBlock =>
          have hnothing : promises log [] (.blockFriend a name) answer = [] := by
            rcases answer with _ | _ | v
            · rfl
            · rfl
            · exact absurd rfl (noBlock a name v)
          rw [hnothing]
          refine h.current_quiet works howed (fun x y => ?_) (fun p hp => by cases hp) hbefore
          rw [hrow]
      | @blocked _ v _ other => exact h.current_blocked works howed hrow hbefore
  · have haccept : forall a name, o ≠ .acceptFriend a name :=
      fun a name heq => hfriend (Or.inl ⟨a, name, heq⟩)
    have hblock : forall a name, o ≠ .blockFriend a name :=
      fun a name heq => hfriend (Or.inr ⟨a, name, heq⟩)
    refine h.current_quiet works howed (hrows.befriended_same haccept hblock)
      (promises_cacheEdit haccept hblock fun a heq => ?_) hbefore
    rw [heq] at hallows
    exact hallows

/-- The caches after an operation are explained by what is owed then. -/
theorem current_perform (h : Coherent s) (hs : Standing s)
    (works : s.consumers shard = some ⟨msg, log, .call o next⟩) (env : Environment double)
    (hreads : forall a, o = .getFriendIds a ->
      ((Database.getFriendIds a).run env.faults s.stores.friendDb).reply.isSome = true)
    {u : Nat} {friends : Finset Nat}
    (hcache : (s.stores.perform shard msg env o).2.manager.cacheOf u = some friends) :
    Current (s.stores.perform shard msg env o).2.friendDb.row
      (Log.owed (⟨o, (s.stores.perform shard msg env o).1⟩ :: log)) u friends := by
  have hproper : log.Proper msg := hs.proper shard _ works
  rcases hproper.turn_cases (hs.allowed works) with
    ⟨rest, howed, hexplains⟩ | ⟨id, data, ho⟩ | ⟨howed, hallows⟩
  · exact h.current_promised hs works env hreads howed hexplains hcache
  · subst ho
    show Current _ log.owed u friends
    refine h.current_same works (fun x y => Iff.rfl) ?_ (fun hmem => hmem) rfl
    rcases hs.cacheOf_other h.blank works env rfl u with hsame | ⟨⟨id', hu⟩, _⟩
    · rw [← hsame, hcache]
    · cases hu
  · exact h.current_first hs works env howed hallows hcache

/-- A handler runs one operation. -/
theorem acted (h : Coherent s) (hs : Standing s) (env : Environment double)
    (works : s.consumers shard = some ⟨msg, log, .call o next⟩)
    (hreads : s.ReadsFriends (.act shard env)) :
    Coherent ({ s with stores := (s.stores.perform shard msg env o).2 }.goOn shard msg
      (⟨o, (s.stores.perform shard msg env o).1⟩ :: log)
      (next (s.stores.perform shard msg env o).1)) := by
  have hothers : forall k, k ≠ shard -> Service.consumers
      { s with stores := (s.stores.perform shard msg env o).2 } k = none := by
    intro k hk
    show s.consumers k = none
    cases hw : s.consumers k with
    | none => rfl
    | some w => exact absurd (h.alone k w shard _ hw works) hk
  have hconducts : Conducts msg (⟨o, (s.stores.perform shard msg env o).1⟩ :: log)
      (next (s.stores.perform shard msg env o).1) :=
    (hs.conducts shard _ works).right _
  constructor
  · rw [Service.shardCount_acted o env]
    exact h.shards
  · rw [Service.goOn_stores]
    exact hs.blank_perform h.blank works env
  · rw [Service.goOn_stores]
    exact (s.stores.perform_rows shard msg env hs.users o).noSelf h.noSelf
  · intro k w other w' hw hw'
    rw [(Service.goOn_alone hothers hw).left, (Service.goOn_alone hothers hw').left]
  · intro owed u friends howes hcache
    rw [Service.owes_goOn hothers hconducts howes]
    rw [Service.goOn_stores] at hcache ⊢
    refine h.current_perform hs works env (fun a ho => ?_) hcache
    subst ho
    refine hreads a ?_
    unfold Service.reading
    rw [works]
    rfl

/-- A handler starts while no other one is at work. -/
theorem taken (h : Coherent s) (hs : Standing s) {rest : List ShardMsg}
    (hturns : s.TakesTurns (.pop shard)) :
    Coherent ((s.withWaiting shard rest).goOn shard msg [] (handle msg)) := by
  have hnone := hs.waits h.shards hturns
  have hothers : forall k, k ≠ shard -> (s.withWaiting shard rest).consumers k = none :=
    fun k _ => hnone k
  refine ⟨?_, ?_, ?_, ?_, ?_⟩
  · rw [Service.goOn_stores]
    exact h.shards
  · rw [Service.goOn_stores]
    exact h.blank
  · rw [Service.goOn_stores]
    exact h.noSelf
  · intro k w other w' hw hw'
    rw [(Service.goOn_alone hothers hw).left, (Service.goOn_alone hothers hw').left]
  · intro owed u friends howes hcache
    rw [Service.owes_goOn hothers (conducts_handle msg) howes]
    rw [Service.goOn_stores] at hcache ⊢
    exact h.current [] u friends (.waits hnone) hcache

end Acted

theorem step [One double] {label : Service.Label double} (h : Coherent s)
    (hs : Standing s) (heffect : Service.Effect s label t) (hturns : s.TakesTurns label)
    (hreads : s.ReadsFriends label) : Coherent t := by
  have hblank : Blank t.stores.manager := hs.blank_step h.blank heffect
  have hcaches := hs.cacheOf_effect heffect
  cases heffect with
  | refused socket => exact h
  | connected socket slot manager created shards =>
      exact h.withManager shards hblank fun _ _ => hcaches nofun
  | disconnected id slot live =>
      exact h.withManager rfl hblank fun _ _ => hcaches nofun
  | received id pkt slot shard msg live handler client sender =>
      refine ⟨h.shards, h.blank, h.noSelf, h.alone, fun owed u friends howes hcache => ?_⟩
      refine h.current owed u friends ?_ hcache
      cases howes with
      | waits waits => exact .waits waits
      | works k w works => exact .works k w works
  | completed id bytes result slot live =>
      exact h.withManager rfl hblank fun _ _ => hcaches nofun
  | taken shard msg rest waits queue => exact h.taken hs hturns
  | acted shard env msg log o next works => exact h.acted hs env works hreads

/-- The caches of the users who are logged in, while all handlers wait. -/
theorem cache_eq (h : Coherent s) (hwaits : forall k, s.consumers k = none) {u : Nat}
    {friends : Finset Nat} (hcache : s.stores.manager.cacheOf u = some friends) (v : Nat) :
    v ∈ friends <-> Befriended s.stores.friendDb.row u v :=
  (h.current [] u friends (.waits hwaits) hcache).idle v

end Coherent

/-!
# Messages to friends
-/

section Broadcast

variable [One double] {s : Service pg} {shard : Nat} {msg : ShardMsg} {log : Log double}

/-- A handler at work runs its next call. -/
theorem Service.step_goOn {o : Op double} {next : Answer o -> Handler double Unit}
    (env : Environment double) :
    (s.goOn shard msg log (.call o next)).step (.act shard env) =
      some ({ s with stores := (s.stores.perform shard msg env o).2 }.goOn shard msg
        (⟨o, (s.stores.perform shard msg env o).1⟩ :: log)
        (next (s.stores.perform shard msg env o).1)) := by
  have hworks : (s.goOn shard msg log (.call o next)).consumers shard =
      some ⟨msg, log, .call o next⟩ := Function.update_self ..
  simp only [Service.step, hworks]
  refine congrArg some ?_
  show Service.goOn _ shard msg _ (next (s.stores.perform shard msg env o).1) = _
  cases next (s.stores.perform shard msg env o).1 with
  | done a => simp only [Service.goOn, Function.update_idem]
  | call p rest => simp only [Service.goOn, Function.update_idem]

/-- The texts that a message to friends hands to sessions, and no others. -/
theorem Standing.broadcast_run (hs : Standing s) (shard : Nat) (msg : ShardMsg)
    (log : Log double) {id u : Nat} {slot : Slot}
    (hlive : s.stores.manager.byId.lookup id = some slot)
    (huser : s.stores.manager.userOf id = some u) {t : List UInt8} (ht : t ≠ [])
    (env : Nat -> Environment double) :
    exists after : Service pg, exists sendings : List Sending,
      runFrom Service.step (s.goOn shard msg log (handleFriendBroadcast id t))
        [.act shard (env 0), .act shard (env 1), .act shard (env 2)] = some after ∧
      after.consumers = Function.update s.consumers shard none ∧
      after.stores.sent = sendings.map (fun d => (msg, d)) ++ s.stores.sent ∧
      sendings.map (fun d => (d.sessionId, d.data)) =
        (id, (senderPacket id t).wire) ::
          (s.stores.manager.friendTargets u (senderPacket id t).wire).map
            (fun d => ((s.stores.manager.session d.1).id, d.2)) := by
  have hhandler : handleFriendBroadcast id t = (.call (.getUserId id) fun v =>
      .call (.sendToFriends v (senderPacket id t).wire) fun _ =>
        .call (.sendTo id (senderPacket id t).wire) fun _ => .done () :
      Handler double Unit) := by
    unfold handleFriendBroadcast
    rw [if_neg ht]
    rfl
  have hown : s.stores.manager.getUserId id = u := by
    rcases carried_eq_some_iff.mp huser with ⟨place, hplace, hu, _⟩
    rw [hlive] at hplace
    cases hplace
    unfold SessionManager.getUserId
    rw [hlive]
    exact hu
  -- The sender finds itself where it was when its friends were sent the text.
  have hsame : SameSessions s.stores.manager
      (s.stores.manager.sendToFriends u (senderPacket id t).wire
        (env 1).posts).manager :=
    SameSessions.sendToFriends _ u _ _
  rw [hhandler, runFrom_cons_of_step _ (Service.step_goOn (env 0))]
  show exists after : Service pg, exists sendings : List Sending,
    runFrom Service.step (Service.goOn { s with stores := (s.stores.perform shard msg (env 0)
      (.getUserId id)).2 } shard msg _ (.call (.sendToFriends
        (s.stores.manager.getUserId id) (senderPacket id t).wire) _)) _ = some after ∧ _
  rw [hown, runFrom_cons_of_step _ (Service.step_goOn (env 1)),
    runFrom_cons_of_step _ (Service.step_goOn (env 2))]
  generalize hm : (s.stores.manager.sendToFriends u (senderPacket id t).wire
    (env 1).posts).manager = m at hsame
  have htargets : m.sendToTargets id (senderPacket id t).wire =
      [(slot, (senderPacket id t).wire)] := by
    unfold SessionManager.sendToTargets
    rw [hsame.byId, hlive]
  refine ⟨_, (m.sendTo id (senderPacket id t).wire ((env 2).posts 0)).2.sendings ++
    (s.stores.manager.sendToFriends u (senderPacket id t).wire (env 1).posts).sendings,
    rfl, rfl, ?_, ?_⟩
  · rw [List.map_append, List.append_assoc, ← hm]
    rfl
  · rw [SessionManager.sendTo_eq, SessionManager.sendToFriends_eq, List.map_append,
      SessionManager.map_sendings, SessionManager.map_sendings, htargets]
    have howner : (s.stores.manager.session slot).id = id :=
      (hs.registry.slots.owner id slot hlive).left
    show ((m.session slot).id, _) :: _ = _
    rw [(hsame.sessions slot).id, howner]
    rfl

end Broadcast

/-- Friendships, caches and the sessions that a message to friends reaches are in
agreement. -/
structure Service.FriendsAgree [One double] (s : Service pg) : Prop where
  cached : forall id slot u, s.stores.manager.byId.lookup id = some slot ->
    s.stores.manager.userOf id = some u -> forall v,
    v ∈ (s.stores.manager.session slot).friendIds <->
      Befriended s.stores.friendDb.row u v
  answered : forall id slot u faults ids, s.stores.manager.byId.lookup id = some slot ->
    s.stores.manager.userOf id = some u ->
    ((Database.getFriendIds u).run faults s.stores.friendDb).reply = some ids ->
    (s.stores.manager.session slot).friendIds = ids.toFinset
  symmetric : forall id slot u other place v,
    s.stores.manager.byId.lookup id = some slot -> s.stores.manager.userOf id = some u ->
    s.stores.manager.byId.lookup other = some place ->
    s.stores.manager.userOf other = some v ->
    (v ∈ (s.stores.manager.session slot).friendIds <->
      u ∈ (s.stores.manager.session place).friendIds)
  delivered : forall id slot u, s.stores.manager.byId.lookup id = some slot ->
    s.stores.manager.userOf id = some u -> forall t, t ≠ [] ->
    forall shard msg log (env : Nat -> Environment double),
      exists after : Service pg, exists sendings : List Sending,
      runFrom Service.step (s.goOn shard msg log (handleFriendBroadcast id t))
        [.act shard (env 0), .act shard (env 1), .act shard (env 2)] = some after ∧
      after.consumers = Function.update s.consumers shard none ∧
      after.stores.sent = sendings.map (fun d => (msg, d)) ++ s.stores.sent ∧
      (forall d, d ∈ sendings -> d.data = (senderPacket id t).wire) ∧
      (sendings.map (fun d => d.sessionId)).Nodup ∧
      forall i, i ∈ sendings.map (fun d => d.sessionId) <->
        i = id ∨ exists v, Befriended s.stores.friendDb.row u v ∧
          s.stores.manager.userOf i = some v

section Agreement

variable [One double] {s : Service pg}

/-- The cache of a live session, while all handlers wait. -/
theorem Coherent.friendIds_eq (h : Coherent s) (hs : Standing s)
    (hwaits : forall k, s.consumers k = none) {id u : Nat} {slot : Slot}
    (hlive : s.stores.manager.byId.lookup id = some slot)
    (huser : s.stores.manager.userOf id = some u) (v : Nat) :
    v ∈ (s.stores.manager.session slot).friendIds <->
      Befriended s.stores.friendDb.row u v :=
  h.cache_eq hwaits (hs.registry.cacheOf_of_userOf hlive huser) v

theorem Coherent.delivered (h : Coherent s) (hs : Standing s)
    (hwaits : forall k, s.consumers k = none) {id u : Nat} {slot : Slot}
    (hlive : s.stores.manager.byId.lookup id = some slot)
    (huser : s.stores.manager.userOf id = some u) {data : List UInt8}
    {sendings : List Sending}
    (hsent : sendings.map (fun d => (d.sessionId, d.data)) = (id, data) ::
      (s.stores.manager.friendTargets u data).map
        (fun d => ((s.stores.manager.session d.1).id, d.2))) :
    (forall d, d ∈ sendings -> d.data = data) ∧
      (sendings.map (fun d => d.sessionId)).Nodup ∧
      forall i, i ∈ sendings.map (fun d => d.sessionId) <->
        i = id ∨ exists v, Befriended s.stores.friendDb.row u v ∧
          s.stores.manager.userOf i = some v := by
  have hregistry := hs.registry
  generalize hd : s.stores.directory = d at hregistry
  have hmanager : d.manager = s.stores.manager := by
    rw [← hd]
    rfl
  rw [← hmanager] at hlive huser hsent
  rw [hregistry.friendTargets_eq hlive huser] at hsent
  generalize hfriends : (d.manager.session slot).friendIds = friends at hsent
  have hmem : forall i, i ∈ ((friends.sort (· ≤ ·)).filterMap
      d.manager.slotOfUser).map (fun other => (d.manager.session other).id) <->
      exists v, Befriended s.stores.friendDb.row u v ∧
        s.stores.manager.userOf i = some v := by
    intro i
    rw [hregistry.mem_friendTargets, hmanager]
    refine exists_congr fun v => and_congr_left fun _ => ?_
    rw [← hfriends, hmanager]
    rw [hmanager] at hlive huser
    exact h.friendIds_eq hs hwaits hlive huser v
  have hids : sendings.map (fun d => d.sessionId) = id ::
      ((friends.sort (· ≤ ·)).filterMap d.manager.slotOfUser).map
        (fun other => (d.manager.session other).id) := by
    have hfst := congrArg (List.map Prod.fst) hsent
    rw [List.map_map, List.map_cons, List.map_map] at hfst
    exact hfst
  refine ⟨?_, ?_, ?_⟩
  · intro sending hsending
    have hpair : (sending.sessionId, sending.data) ∈
        sendings.map (fun d => (d.sessionId, d.data)) :=
      List.mem_map.mpr ⟨sending, hsending, rfl⟩
    rw [hsent] at hpair
    rcases List.mem_cons.mp hpair with heq | hrest
    · exact (Prod.mk.inj heq).right
    · rcases List.mem_map.mp hrest with ⟨other, _, heq⟩
      exact (Prod.mk.inj heq).right.symm
  · -- Nobody is his own friend, so the sender is not among the friends.
    rw [hids, List.nodup_cons]
    refine ⟨fun hself => ?_, hregistry.friendTargets_nodup friends⟩
    rcases (hmem id).mp hself with ⟨v, hfriend, hv⟩
    rw [← hmanager, huser] at hv
    cases hv
    rcases hfriend with hrow | hrow <;>
      · rw [h.noSelf] at hrow
        cases hrow
  · intro i
    rw [hids, List.mem_cons, hmem]

theorem Coherent.friendsAgree (h : Coherent s) (hs : Standing s)
    (hwaits : forall k, s.consumers k = none) : s.FriendsAgree where
  cached := fun id slot u hlive huser => h.friendIds_eq hs hwaits hlive huser
  answered := fun id slot u faults ids hlive huser hids => by
    ext v
    rw [h.friendIds_eq hs hwaits hlive huser v, List.mem_toFinset]
    rcases Database.getFriendIds_cases s.stores.friendDb u faults with
      ⟨_, hnone, _⟩ | hall
    · rw [hnone] at hids
      cases hids
    · rw [hall] at hids
      rw [← Option.some.inj hids]
      exact mem_acceptedBy_iff.symm
  symmetric := fun id slot u other place v hlive huser hlive' huser' => by
    rw [h.friendIds_eq hs hwaits hlive huser v, h.friendIds_eq hs hwaits hlive' huser' u]
    exact ⟨Befriended.symm, Befriended.symm⟩
  delivered := fun id slot u hlive huser t ht shard msg log env => by
    rcases hs.broadcast_run shard msg log hlive huser ht env with
      ⟨after, sendings, hrun, hconsumers, hsent, htargets⟩
    exact ⟨after, sendings, hrun, hconsumers, hsent,
      h.delivered hs hwaits hlive huser htargets⟩

end Agreement

/-- In every run in which handlers take turns and friends are read at a login, the
caches agree with the friendships whenever all handlers wait. -/
theorem friend_caches_coherent [One double] {shards : Nat} (hshards : 0 < shards)
    {db : Db pg} {friendships : Friendships} {ranking : Ranking}
    {labels : List (Service.Label double)} (husers : Numbered db.users)
    (hself : forall u, friendships.lookup (u, u) = none)
    (hturns : EveryStep Service.step
      (fun s label => s.TakesTurns label ∧ s.ReadsFriends label)
      (Service.start (Stores.boot shards db friendships ranking)) labels) :
    forall t, Visits Service.step
      (Service.start (Stores.boot shards db friendships ranking)) labels t ->
      (forall k, t.consumers k = none) -> t.FriendsAgree := by
  intro t ht hwaits
  have hstanding : Standing t :=
    standing_step.visits (Standing.start shards db friendships ranking husers) ht
  have hcoherent : Coherent t := by
    refine hturns.visits standing_step ?_
      (Standing.start shards db friendships ranking husers)
      (Coherent.start hshards hself) t ht
    intro s label t hs h hstep hcond
    exact h.step hs (Service.step_effect hstep) hcond.left hcond.right
  exact hcoherent.friendsAgree hstanding hwaits

/-!
# Two friends
-/

namespace Service

def befriends : List (Label Nat) :=
  List.flatten [[.connect 10, .connect 11], say 1 "/n ann", acts 1 9, say 2 "/n bob",
    acts 2 9, say 1 "/f add bob", acts 1 4, say 2 "/f accept ann", acts 2 6]

/-- Whether all consumers wait, and whether users 1 and 2 are in each other's cache. -/
def cachesMeet (s : Service percentServer) : Bool × Option Bool × Option Bool :=
  ((List.range s.stores.manager.shardCount).all (fun k => (s.consumers k).isNone),
    (s.stores.manager.cacheOf 1).map (fun friends => decide (2 ∈ friends)),
    (s.stores.manager.cacheOf 2).map (fun friends => decide (1 ∈ friends)))

end Service

theorem friend_caches_coherent_befriended :
    exists t, runFrom Service.step Service.fresh Service.befriends = some t ∧
      t.cachesMeet = (true, some true, some true) ∧ t.FriendsAgree := by
  have hrun : (runFrom Service.step Service.fresh Service.befriends).map
      (fun t => (t.stores.manager.shardCount, t.cachesMeet)) =
        some (8, true, some true, some true) := by
    decide +kernel
  rcases Option.map_eq_some_iff.mp hrun with ⟨t, hrun, hholds⟩
  rcases Prod.mk.inj hholds with ⟨hshards, hmeet⟩
  have hstanding : Standing t := standing_run numbered_empty (visits_last hrun)
  have hwaits : forall k, t.consumers k = none := by
    refine hstanding.waits (by rw [hshards]; decide) fun k hk => ?_
    exact List.all_eq_true.mp (Prod.mk.inj hmeet).left k (List.mem_range.mpr hk)
  exact ⟨t, hrun, hmeet, friend_caches_coherent (by decide) numbered_empty (fun _ => rfl)
    (by decide +kernel) t (visits_last hrun) hwaits⟩

end Consumers
end ContentServer
