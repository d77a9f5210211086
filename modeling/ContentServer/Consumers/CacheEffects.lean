import ContentServer.Consumers.Histories
import ContentServer.Registry.FriendCaches
import ContentServer.Storage.FriendCalls

/-!
# What an operation does to friendships and caches

Four operations change rows of friendships, and only a block ends a friendship.
Three operations change the cache of one user, and a login gives a user a cache.
-/

namespace ContentServer
namespace Consumers

open Foundation Protocol Sessions Registry Storage

variable {double : Type} {pg : Postgres double}

/-!
# Friendships
-/

/-- The rows after an operation, with its answer. -/
inductive RowsAfter (row : Nat × Nat -> Option FriendStatus) :
    (o : Op double) -> Answer o -> (Nat × Nat -> Option FriendStatus) -> Prop where
  | kept {o : Op double} {answer : Answer o}
      (noAccept : forall u name v, (⟨o, answer⟩ : Sigma (@Answer double)) ≠
        ⟨.acceptFriend u name, some (v + 1)⟩)
      (noBlock : forall u name v, (⟨o, answer⟩ : Sigma (@Answer double)) ≠
        ⟨.blockFriend u name, some (v + 1)⟩) :
      RowsAfter row o answer row
  | requested {u v : Nat} {name : List UInt8} {answer : Option Bool}
      (other : v ≠ u) (free : row (u, v) = none) :
      RowsAfter row (.addFriend u name) answer
        (Function.update row (u, v) (some .pending))
  | accepted {u v : Nat} {name : List UInt8}
      (request : row (v + 1, u) = some .pending) :
      RowsAfter row (.acceptFriend u name) (some (v + 1))
        (Function.update row (v + 1, u) (some .accepted))
  | rejected {u v : Nat} {name : List UInt8} {answer : Option Bool}
      (request : row (v, u) = some .pending) :
      RowsAfter row (.rejectFriend u name) answer
        (Function.update row (v, u) none)
  | blocked {u v : Nat} {name : List UInt8} (other : v + 1 ≠ u) :
      RowsAfter row (.blockFriend u name) (some (v + 1))
        (Function.update (Function.update row (v + 1, u) none) (u, v + 1)
          (some .blocked))

section Rows

variable {db : FriendDb pg}

/-- Users that are found by name have ids from one on. -/
theorem userNamed_succ (h : Numbered db.users) {name : List UInt8} {v : Nat}
    (hnamed : Database.userNamed db name = some v) : exists w, v = w + 1 := by
  rcases Database.row_of_userNamed hnamed with ⟨user, huser, hname⟩
  cases v with
  | zero =>
      have hzero := h.zero
      rw [userNames_eq_some.mpr ⟨user, huser, hname⟩] at hzero
      cases hzero
  | succ w => exact ⟨w, rfl⟩

variable (db)

theorem rows_addFriend (u : Nat) (name : List UInt8) (faults : Nat -> Bool) :
    RowsAfter db.row (.addFriend u name : Op double)
      ((Database.addFriend u name).run faults db).reply
      (db.afterCall faults (.addFriend u name)).row := by
  have hchange := (db.afterCall_change faults (.addFriend u name)).right
  generalize (db.afterCall faults (.addFriend u name)).row = after at hchange
  cases hchange with
  | kept => exact .kept (fun _ _ _ h => by cases h) (fun _ _ _ h => by cases h)
  | added named other succeed free => exact .requested other free

theorem rows_rejectFriend (u : Nat) (name : List UInt8) (faults : Nat -> Bool) :
    RowsAfter db.row (.rejectFriend u name : Op double)
      ((Database.rejectFriend u name).run faults db).reply
      (db.afterCall faults (.rejectFriend u name)).row := by
  have hchange := (db.afterCall_change faults (.rejectFriend u name)).right
  generalize (db.afterCall faults (.rejectFriend u name)).row = after at hchange
  cases hchange with
  | kept => exact .kept (fun _ _ _ h => by cases h) (fun _ _ _ h => by cases h)
  | rejected named request => exact .rejected request

theorem rows_acceptFriend (h : Numbered db.users) (u : Nat) (name : List UInt8)
    (faults : Nat -> Bool) :
    RowsAfter db.row (.acceptFriend u name : Op double)
      ((Database.acceptFriend u name).run faults db).reply
      (db.afterCall faults (.acceptFriend u name)).row := by
  simp only [FriendDb.afterCall]
  rcases Database.acceptFriend_cases db u name faults with
    ⟨hkept, hreply⟩ | ⟨v, haccepted⟩
  · rw [hkept]
    rcases hreply with hnone | hzero
    · rw [hnone]
      exact .kept (fun _ _ _ h => by cases h) (fun _ _ _ h => by cases h)
    · rw [hzero]
      exact .kept (fun _ _ _ h => by cases h) (fun _ _ _ h => by cases h)
  · rcases userNamed_succ h haccepted.named with ⟨w, rfl⟩
    rw [haccepted.reply, haccepted.store, FriendDb.row_insert]
    exact .accepted haccepted.request

theorem rows_blockFriend (h : Numbered db.users) (u : Nat) (name : List UInt8)
    (faults : Nat -> Bool) :
    RowsAfter db.row (.blockFriend u name : Op double)
      ((Database.blockFriend u name).run faults db).reply
      (db.afterCall faults (.blockFriend u name)).row := by
  simp only [FriendDb.afterCall]
  rcases Database.blockFriend_cases db u name faults with
    ⟨hkept, _, hreply⟩ | ⟨v, hblocked⟩
  · rw [hkept.store]
    rcases hreply with hnone | hzero
    · rw [hnone]
      exact .kept (fun _ _ _ h => by cases h) (fun _ _ _ h => by cases h)
    · rw [hzero]
      exact .kept (fun _ _ _ h => by cases h) (fun _ _ _ h => by cases h)
  · rcases userNamed_succ h hblocked.named with ⟨w, rfl⟩
    rw [hblocked.reply, hblocked.store, FriendDb.row_block]
    exact .blocked hblocked.other

end Rows

theorem Stores.perform_rows (shard : Nat) (msg : ShardMsg) (e : Environment double)
    (s : Stores pg) (h : Numbered s.db.users) (o : Op double) :
    RowsAfter s.friendDb.row o (s.perform shard msg e o).1
      (s.perform shard msg e o).2.friendDb.row := by
  cases o with
  | addFriend u name => exact rows_addFriend s.friendDb u name e.faults
  | acceptFriend u name => exact rows_acceptFriend s.friendDb h u name e.faults
  | rejectFriend u name => exact rows_rejectFriend s.friendDb u name e.faults
  | blockFriend u name => exact rows_blockFriend s.friendDb h u name e.faults
  | _ => exact .kept (fun _ _ _ h => by cases h) (fun _ _ _ h => by cases h)

/-- There is an accepted friendship in one of the directions. -/
def Befriended (row : Nat × Nat -> Option FriendStatus) (u v : Nat) : Prop :=
  row (u, v) = some .accepted ∨ row (v, u) = some .accepted

theorem mem_acceptedBy_iff {db : FriendDb pg} {u v : Nat} :
    v ∈ db.acceptedBy u <-> Befriended db.row u v :=
  Database.mem_acceptedBy

theorem row_update_of_accepted {row : Nat × Nat -> Option FriendStatus}
    {key other : Nat × Nat} {status : Option FriendStatus}
    (h : row other = some .accepted) (hkey : row key ≠ some .accepted) :
    Function.update row key status other = some .accepted := by
  rw [Function.update_of_ne, h]
  intro hsame
  exact hkey (by rw [← hsame, h])

/-- Only a block ends a friendship. -/
theorem RowsAfter.befriended {row after : Nat × Nat -> Option FriendStatus}
    {o : Op double} {answer : Answer o} (h : RowsAfter row o answer after) {u v : Nat}
    (hfriends : Befriended row u v) :
    Befriended after u v ∨ exists a b name,
      (⟨o, answer⟩ : Sigma (@Answer double)) = ⟨.blockFriend a name, some (b + 1)⟩ ∧
      (u = a ∧ v = b + 1 ∨ u = b + 1 ∧ v = a) := by
  cases h with
  | kept noAccept noBlock => exact Or.inl hfriends
  | @requested a b name answer other free =>
      have hfree : row (a, b) ≠ some .accepted := by
        rw [free]
        simp
      exact Or.inl (hfriends.imp (fun h => row_update_of_accepted h hfree)
        (fun h => row_update_of_accepted h hfree))
  | @accepted a b name request =>
      have hpending : row (b + 1, a) ≠ some .accepted := by
        rw [request]
        simp
      exact Or.inl (hfriends.imp (fun h => row_update_of_accepted h hpending)
        (fun h => row_update_of_accepted h hpending))
  | @rejected a b name answer request =>
      have hpending : row (b, a) ≠ some .accepted := by
        rw [request]
        simp
      exact Or.inl (hfriends.imp (fun h => row_update_of_accepted h hpending)
        (fun h => row_update_of_accepted h hpending))
  | @blocked a b name other =>
      by_cases hpair : u = a ∧ v = b + 1 ∨ u = b + 1 ∧ v = a
      · exact Or.inr ⟨a, b, name, rfl, hpair⟩
      · left
        have hfst : (u, v) ≠ (a, b + 1) ∧ (u, v) ≠ (b + 1, a) := by
          simp only [ne_eq, Prod.mk.injEq]
          tauto
        have hsnd : (v, u) ≠ (a, b + 1) ∧ (v, u) ≠ (b + 1, a) := by
          simp only [ne_eq, Prod.mk.injEq]
          tauto
        unfold Befriended
        rw [Function.update_of_ne hfst.left, Function.update_of_ne hfst.right,
          Function.update_of_ne hsnd.left, Function.update_of_ne hsnd.right]
        exact hfriends

/-!
# Caches
-/

/-- The cache that an operation changes, and how. -/
def Op.cacheEdit : Op double -> Option (Nat × (Finset Nat -> Finset Nat))
  | .loadFriendCache u ids => some (u, (· ∪ ids.toFinset))
  | .cacheAddFriend u v => some (u, insert v)
  | .cacheRemoveFriend u v => some (u, (·.erase v))
  | _ => none

section Caches

variable (shard : Nat) (msg : ShardMsg) (e : Environment double) (s : Stores pg)

theorem Stores.perform_edit {o : Op double} {u : Nat} {edit : Finset Nat -> Finset Nat}
    (h : o.cacheEdit = some (u, edit)) :
    (s.perform shard msg e o).2.manager = s.manager.editCache u edit := by
  cases o with
  | loadFriendCache v ids =>
      cases h
      exact loadFriendCache_eq s.manager u ids
  | cacheAddFriend v w =>
      cases h
      rfl
  | cacheRemoveFriend v w =>
      cases h
      rfl
  | _ => cases h

/-- The other operations leave the sessions of users alone, a login apart. -/
theorem Stores.perform_sessions {o : Op double} (h : o.cacheEdit = none) :
    SameSessions s.manager (s.perform shard msg e o).2.manager ∨
    (exists id name slot, o = .setName id name ∧
      (s.perform shard msg e o).2.manager =
        { s.manager.put slot ((s.manager.session slot).setName name) with
          byName := s.manager.byName.insert name id }) ∨
    (exists id u slot, o = .setUserId id u ∧ s.manager.byId.lookup id = some slot ∧
      (s.perform shard msg e o).2.manager =
        { s.manager.put slot ((s.manager.session slot).setUserId u) with
          byUserId := s.manager.byUserId.insert u id }) := by
  cases o with
  | sendTo id data => exact Or.inl (SameSessions.sendTo _ id data (e.posts 0))
  | broadcast data => exact Or.inl (SameSessions.broadcast _ data e.posts)
  | sendToFriends u data => exact Or.inl (SameSessions.sendToFriends _ u data e.posts)
  | sendRosterTo id => exact Or.inl (SameSessions.sendRosterTo _ id e.posts)
  | setName id name =>
      have hmanager : (s.perform shard msg e (.setName id name)).2.manager =
          (s.manager.setName id name).2 := rfl
      rw [hmanager]
      rcases SessionManager.setName_cases s.manager id name with
        ⟨heq, _⟩ | ⟨slot, _, _, heq⟩
      · rw [heq]
        exact Or.inl (SameSessions.refl _)
      · rw [heq]
        exact Or.inr (Or.inl ⟨id, name, slot, rfl, rfl⟩)
  | setUserId id u =>
      have hmanager : (s.perform shard msg e (.setUserId id u)).2.manager =
          s.manager.setUserId id u := rfl
      rw [hmanager]
      rcases SessionManager.setUserId_cases s.manager id u with
        ⟨heq, _⟩ | ⟨slot, hlive, _, heq⟩
      · rw [heq]
        exact Or.inl (SameSessions.refl _)
      · rw [heq]
        exact Or.inr (Or.inr ⟨id, u, slot, rfl, hlive, rfl⟩)
  | loadFriendCache v ids => cases h
  | cacheAddFriend v w => cases h
  | cacheRemoveFriend v w => cases h
  | _ => exact Or.inl (SameSessions.refl _)

end Caches

/-- The friends that an operation adds to the cache of a user. -/
def Op.adds : Op double -> Option (Nat × List Nat)
  | .loadFriendCache u ids => some (u, ids)
  | .cacheAddFriend u v => some (u, [v])
  | _ => none

theorem Op.cacheEdit_cases {o : Op double} {u : Nat} {edit : Finset Nat -> Finset Nat}
    (h : o.cacheEdit = some (u, edit)) :
    (exists ids, o.adds = some (u, ids) ∧ edit = (· ∪ ids.toFinset)) ∨
    exists v, o = .cacheRemoveFriend u v ∧ edit = (·.erase v) := by
  cases o with
  | loadFriendCache v ids =>
      cases h
      exact Or.inl ⟨ids, rfl, rfl⟩
  | cacheAddFriend v w =>
      cases h
      refine Or.inl ⟨[w], rfl, ?_⟩
      funext friends
      rw [List.toFinset_cons, List.toFinset_nil, Finset.union_insert,
        Finset.union_empty]
  | cacheRemoveFriend v w =>
      cases h
      exact Or.inr ⟨w, rfl, rfl⟩
  | _ => cases h

section Standing

variable [One double] {s : Service pg} {shard : Nat} {msg : ShardMsg}
variable {log : Log double} {o : Op double} {next : Answer o -> Handler double Unit}

/-- The cache of a user after an operation. -/
theorem Standing.cacheOf_edit (h : Standing s) (e : Environment double) {u : Nat}
    {edit : Finset Nat -> Finset Nat} (hedit : o.cacheEdit = some (u, edit)) (v : Nat) :
    (s.stores.perform shard msg e o).2.manager.cacheOf v =
      if v = u then (s.stores.manager.cacheOf v).map edit
      else s.stores.manager.cacheOf v := by
  rw [s.stores.perform_edit shard msg e hedit]
  exact cacheOf_editCache _ (fun u v slot => h.registry.slotOfUser_injective) u edit v

/-- A login gives its user an empty cache, or the one it has. -/
theorem Standing.cacheOf_setUserId (h : Standing s) (hblank : Blank s.stores.manager)
    {id u : Nat} {slot : Slot} {next : Unit -> Handler double Unit}
    {after : Stores pg}
    (hworks : s.consumers shard = some ⟨msg, log, .call (.setUserId id u) next⟩)
    (live : s.stores.manager.byId.lookup id = some slot)
    (manager : after.manager = { s.stores.manager.put slot
      ((s.stores.manager.session slot).setUserId u)
      with byUserId := s.stores.manager.byUserId.insert u id }) (v : Nat) :
    after.manager.cacheOf v = s.stores.manager.cacheOf v ∨
      (v = u ∧ after.manager.cacheOf v = some ∅) := by
  rw [manager, Registry.cacheOf_setUserId s.stores.manager live u v]
  by_cases hv : v = u
  · rw [if_pos hv]
    cases huser : s.stores.manager.userOf id with
    | none => exact Or.inr ⟨hv, by rw [hblank id slot live huser]⟩
    | some w =>
        have hbound := h.registry.userLogged id w huser
        have hsame := h.bound_once hworks live hbound
        left
        unfold SessionManager.cacheOf
        have hslot := h.registry.slotOfUser_eq_some.mpr ⟨id, huser, live⟩
        rw [hv, ← hsame]
        replace hslot : s.stores.manager.slotOfUser w = some slot := hslot
        rw [hslot]
        rfl
  · rw [if_neg hv]
    exact Or.inl rfl

/-- The other operations leave the caches alone. -/
theorem Standing.cacheOf_other (h : Standing s) (hblank : Blank s.stores.manager)
    (hworks : s.consumers shard = some ⟨msg, log, .call o next⟩)
    (e : Environment double) (hedit : o.cacheEdit = none) (v : Nat) :
    (s.stores.perform shard msg e o).2.manager.cacheOf v = s.stores.manager.cacheOf v ∨
      ((exists id, o = .setUserId id v) ∧
        (s.stores.perform shard msg e o).2.manager.cacheOf v = some ∅) := by
  rcases s.stores.perform_sessions shard msg e hedit with
    hsame | ⟨id, name, slot, rfl, hmanager⟩ | ⟨id, u, slot, rfl, hlive, hmanager⟩
  · rw [hsame.cacheOf]
    exact Or.inl rfl
  · rw [hmanager]
    exact Or.inl (congrFun (cacheOf_setName s.stores.manager slot id name) v)
  · rcases h.cacheOf_setUserId hblank hworks hlive hmanager v with
      hsame | ⟨hu, hempty⟩
    · exact Or.inl hsame
    · exact Or.inr ⟨⟨id, by rw [hu]⟩, hempty⟩

/-- Whoever is in a cache was there before, or is added to it. -/
theorem Standing.cached_before (h : Standing s) (hblank : Blank s.stores.manager)
    (hworks : s.consumers shard = some ⟨msg, log, .call o next⟩)
    (e : Environment double) {u v : Nat} {friends : Finset Nat}
    (hcache : (s.stores.perform shard msg e o).2.manager.cacheOf u = some friends)
    (hv : v ∈ friends) :
    (o ≠ .cacheRemoveFriend u v ∧
      exists old, s.stores.manager.cacheOf u = some old ∧ v ∈ old) ∨
    exists ids old, o.adds = some (u, ids) ∧ v ∈ ids ∧
      s.stores.manager.cacheOf u = some old ∧ v ∉ old := by
  cases hedit : o.cacheEdit with
  | none =>
      have hother : o ≠ .cacheRemoveFriend u v := by
        intro hsame
        rw [hsame] at hedit
        cases hedit
      rcases h.cacheOf_other hblank hworks e hedit u with hsame | ⟨_, hempty⟩
      · rw [hsame] at hcache
        exact Or.inl ⟨hother, friends, hcache, hv⟩
      · rw [hempty] at hcache
        cases hcache
        exact absurd hv (Finset.notMem_empty v)
  | some change =>
      rcases change with ⟨w, edit⟩
      rw [h.cacheOf_edit e hedit] at hcache
      by_cases hw : u = w
      · subst hw
        rw [if_pos rfl] at hcache
        rcases Option.map_eq_some_iff.mp hcache with ⟨old, hold, hfriends⟩
        subst hfriends
        rcases Op.cacheEdit_cases hedit with ⟨ids, hadds, hunion⟩ | ⟨x, hremove, herase⟩
        · rw [hunion] at hv
          by_cases hbefore : v ∈ old
          · refine Or.inl ⟨fun hsame => ?_, old, hold, hbefore⟩
            rw [hsame] at hadds
            cases hadds
          · have hnew := (Finset.mem_union.mp hv).resolve_left hbefore
            exact Or.inr ⟨ids, old, hadds, List.mem_toFinset.mp hnew, hold, hbefore⟩
        · rw [herase] at hv
          rcases Finset.mem_erase.mp hv with ⟨hne, hbefore⟩
          refine Or.inl ⟨fun hsame => ?_, old, hold, hbefore⟩
          rw [hremove] at hsame
          cases hsame
          exact hne rfl
      · rw [if_neg hw] at hcache
        refine Or.inl ⟨fun hsame => ?_, friends, hcache, hv⟩
        rw [hsame] at hedit
        cases hedit
        exact hw rfl

/-- A session without a user still has an empty cache. -/
theorem Standing.blank_perform (h : Standing s) (hblank : Blank s.stores.manager)
    (hworks : s.consumers shard = some ⟨msg, log, .call o next⟩)
    (e : Environment double) : Blank (s.stores.perform shard msg e o).2.manager := by
  replace hblank : Blank s.stores.directory.manager := hblank
  cases hedit : o.cacheEdit with
  | some change =>
      rcases change with ⟨u, edit⟩
      rw [s.stores.perform_edit shard msg e hedit]
      exact hblank.editCache h.registry u edit
  | none =>
      rcases s.stores.perform_sessions shard msg e hedit with
        hsame | ⟨id, name, slot, rfl, hmanager⟩ | ⟨id, u, slot, rfl, hlive, hmanager⟩
      · exact hblank.same hsame
      · rw [hmanager]
        exact Blank.setName hblank slot id name
      · rw [hmanager]
        refine Blank.setUserId hblank h.registry.slots hlive ?_
        rcases h.setUserId_allowed hworks with ⟨_, name, _, hu⟩
        intro hzero
        rw [hzero, h.users.zero] at hu
        cases hu

omit [One double] log o next msg shard in
/-- A completed send leaves the owner of the session as it is. -/
theorem Service.sameSessions_onSend (slot : Slot) (bytes : Nat) (result : PostResult) :
    SameSessions s.stores.manager (s.stores.manager.put slot
      ((s.stores.manager.session slot).onSend bytes result).session) :=
  SameSessions.put (onSend_sendCall (s.stores.manager.session slot) bytes result).owner

omit log o next msg shard in
theorem Standing.blank_step {t : Service pg} {label : Service.Label double}
    (h : Standing s) (hblank : Blank s.stores.manager)
    (heffect : Service.Effect s label t) : Blank t.stores.manager := by
  replace hblank : Blank s.stores.directory.manager := hblank
  cases heffect with
  | refused socket => exact hblank
  | connected socket slot manager created shards =>
      exact hblank.create h.registry created
  | disconnected id slot live => exact hblank.destroy h.registry live
  | received id pkt slot shard msg live handler client sender => exact hblank
  | completed id bytes result slot live =>
      exact hblank.same (s.sameSessions_onSend slot bytes result)
  | taken shard msg rest waits queue =>
      rw [Service.goOn_stores]
      exact hblank
  | acted shard env msg log o next works =>
      rw [Service.goOn_stores]
      exact h.blank_perform hblank works env

omit log o next msg shard in
/-- Outside the handlers, no user gets another cache. -/
theorem Standing.cacheOf_effect {t : Service pg} {label : Service.Label double}
    (h : Standing s) (heffect : Service.Effect s label t)
    (hother : forall shard env, label ≠ .act shard env) {u : Nat}
    {friends : Finset Nat} (hcache : t.stores.manager.cacheOf u = some friends) :
    s.stores.manager.cacheOf u = some friends := by
  cases heffect with
  | refused socket => exact hcache
  | connected socket slot manager created shards =>
      replace hcache : manager.cacheOf u = some friends := hcache
      rw [h.registry.cacheOf_create created] at hcache
      exact hcache
  | disconnected id slot live => exact (h.registry.cacheOf_destroy live hcache).right
  | received id pkt slot shard msg live handler client sender => exact hcache
  | completed id bytes result slot live =>
      have hsame := s.sameSessions_onSend slot bytes result
      replace hcache : (s.stores.manager.put slot ((s.stores.manager.session slot).onSend
        bytes result).session).cacheOf u = some friends := hcache
      rw [hsame.cacheOf] at hcache
      exact hcache
  | taken shard msg rest waits queue =>
      rw [Service.goOn_stores] at hcache
      exact hcache
  | acted shard env msg log o next works => exact absurd rfl (hother shard env)

end Standing

end Consumers
end ContentServer
