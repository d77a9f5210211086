import ContentServer.Consumers.Stores
import ContentServer.Storage.UserNames

/-!
# What an operation does to the stores

Each operation touches one store.  Two of them change who a session is; all
others leave the registry as it is, up to buffers and friend caches.
-/

namespace ContentServer
namespace Consumers

open Foundation Protocol Sessions Registry Storage

variable {double : Type} {pg : Postgres double}

/-- The sessions that an operation sends to, and the texts. -/
def Op.targets (m : SessionManager) : Op double -> List (Slot × List UInt8)
  | .sendTo id data => m.sendToTargets id data
  | .broadcast data => m.broadcastTargets data
  | .sendToFriends userId data => m.friendTargets userId data
  | .sendRosterTo id => m.rosterTargets id
  | _ => []

namespace Stores

variable (shard : Nat) (msg : ShardMsg) (e : Environment double) (s : Stores pg)

/-- Neither the sessions nor the histories of names and users change. -/
structure SameRegistry (s after : Stores pg) : Prop where
  manager : SameIdentities s.manager after.manager
  named : after.named = s.named
  bound : after.bound = s.bound

/-- The change of the registry by an operation. -/
inductive Registers (s : Stores pg) :
    (o : Op double) -> Answer o -> Stores pg -> Prop where
  | same {o : Op double} {answer : Answer o} {after : Stores pg}
      (same : SameRegistry s after)
      (refused : forall id name, o = .setName id name -> HEq answer false)
      (gone : forall id u, o = .setUserId id u -> s.manager.byId.lookup id = none) :
      Registers s o answer after
  | named {id : Nat} {name : List UInt8} {after : Stores pg} (slot : Slot)
      (free : s.manager.byName.lookup name = none)
      (live : s.manager.byId.lookup id = some slot)
      (manager : after.manager =
        { s.manager.put slot ((s.manager.session slot).setName name)
          with byName := s.manager.byName.insert name id })
      (named : after.named = (id, name) :: s.named)
      (bound : after.bound = s.bound) :
      Registers s (.setName id name) true after
  | bound {id u : Nat} {after : Stores pg} (slot : Slot)
      (live : s.manager.byId.lookup id = some slot)
      (manager : after.manager =
        { s.manager.put slot ((s.manager.session slot).setUserId u)
          with byUserId := s.manager.byUserId.insert u id })
      (named : after.named = s.named)
      (bound : after.bound = (id, u) :: s.bound) :
      Registers s (.setUserId id u) () after

/-- An operation that is none of the two. -/
theorem Registers.of_same {o : Op double} {answer : Answer o} {after : Stores pg}
    (h : SameRegistry s after) (hname : forall id name, o ≠ .setName id name)
    (huser : forall id u, o ≠ .setUserId id u) : Registers s o answer after :=
  .same h (fun id name ho => absurd ho (hname id name))
    (fun id u ho => absurd ho (huser id u))

theorem perform_registers (o : Op double) :
    Registers s o (s.perform shard msg e o).1 (s.perform shard msg e o).2 := by
  cases o with
  | setName id name =>
      rcases SessionManager.setName_cases s.world.manager id name with
        ⟨heq, _⟩ | ⟨slot, hfree, hlive, heq⟩
      · have hanswer : (s.perform shard msg e (.setName id name)).1 = false := by
          simp only [perform, apply, Consumers.perform, heq]
        refine .same ⟨?_, ?_, ?_⟩ (fun _ _ _ => heq_of_eq hanswer) ?_
        · simp only [perform, apply, Consumers.perform, heq, manager]
          exact SameIdentities.refl _
        · simp only [perform, apply, Consumers.perform, heq, nameGiven]
          rfl
        · rfl
        · intro id' u hcontra
          cases hcontra
      · have hanswer : (s.perform shard msg e (.setName id name)).1 = true := by
          simp only [perform, apply, Consumers.perform, heq]
        rw [hanswer]
        refine .named slot hfree hlive ?_ ?_ rfl
        · simp only [perform, apply, Consumers.perform, heq, manager]
        · simp only [perform, apply, Consumers.perform, heq, nameGiven]
          rfl
  | setUserId id u =>
      have hmanager : (s.perform shard msg e (.setUserId id u)).2.manager =
          s.manager.setUserId id u := rfl
      have hbound : (s.perform shard msg e (.setUserId id u)).2.bound =
          (if id ∈ s.manager.byId then [(id, u)] else []) ++ s.bound := rfl
      rcases SessionManager.setUserId_cases s.manager id u with
        ⟨heq, hgone⟩ | ⟨slot, hlive, hpresent, heq⟩
      · rw [heq] at hmanager
        rw [if_neg hgone] at hbound
        refine .same ⟨?_, rfl, hbound⟩ (fun _ _ hcontra => by cases hcontra) ?_
        · rw [hmanager]
          exact SameIdentities.refl _
        · intro id' u' ho
          cases ho
          exact AList.lookup_eq_none.mpr hgone
      · rw [if_pos hpresent] at hbound
        exact .bound slot hlive (hmanager.trans heq) rfl hbound
  | sendTo id data =>
      exact .of_same s ⟨(SameSessions.sendTo _ id data (e.posts 0)).toSameIdentities,
        rfl, rfl⟩ (fun _ _ h => by cases h) (fun _ _ h => by cases h)
  | broadcast data =>
      exact .of_same s ⟨(SameSessions.broadcast _ data e.posts).toSameIdentities,
        rfl, rfl⟩ (fun _ _ h => by cases h) (fun _ _ h => by cases h)
  | sendToFriends u data =>
      exact .of_same s
        ⟨(SameSessions.sendToFriends _ u data e.posts).toSameIdentities, rfl, rfl⟩
        (fun _ _ h => by cases h) (fun _ _ h => by cases h)
  | sendRosterTo id =>
      exact .of_same s ⟨(SameSessions.sendRosterTo _ id e.posts).toSameIdentities,
        rfl, rfl⟩ (fun _ _ h => by cases h) (fun _ _ h => by cases h)
  | loadFriendCache u ids =>
      refine .of_same s ⟨?_, rfl, rfl⟩ (fun _ _ h => by cases h)
        (fun _ _ h => by cases h)
      simp only [perform, apply, Consumers.perform, manager, loadFriendCache_eq]
      exact editCache_same _ _ _
  | cacheAddFriend u v =>
      exact .of_same s ⟨editCache_same _ _ _, rfl, rfl⟩ (fun _ _ h => by cases h)
        (fun _ _ h => by cases h)
  | cacheRemoveFriend u v =>
      exact .of_same s ⟨editCache_same s.world.manager u (·.erase v), rfl, rfl⟩
        (fun _ _ h => by cases h) (fun _ _ h => by cases h)
  | _ =>
      exact .of_same s ⟨SameIdentities.refl _, rfl, rfl⟩ (fun _ _ h => by cases h)
        (fun _ _ h => by cases h)

/-- What an operation sends goes to its targets. -/
theorem perform_sent (o : Op double) :
    (s.perform shard msg e o).2.sent =
      (s.manager.sendAll (o.targets s.manager) e.posts).sendings.map
        (fun d => (msg, d)) ++ s.sent := by
  cases o with
  | sendTo id data =>
      show (s.manager.sendTo id data (e.posts 0)).2.sendings.map _ ++ s.sent = _
      rw [SessionManager.sendTo_eq]
      rfl
  | broadcast data =>
      show (s.manager.broadcast data e.posts).sendings.map _ ++ s.sent = _
      rw [SessionManager.broadcast_eq]
      rfl
  | sendToFriends userId data =>
      show (s.manager.sendToFriends userId data e.posts).sendings.map _ ++ s.sent = _
      rw [SessionManager.sendToFriends_eq]
      rfl
  | sendRosterTo id =>
      show (s.manager.sendRosterTo id e.posts).sendings.map _ ++ s.sent = _
      rw [SessionManager.sendRosterTo_eq]
      rfl
  | _ => rfl

theorem perform_created (o : Op double) :
    (s.perform shard msg e o).2.created = s.created := by
  cases o <;> rfl

/-- Only a login changes the names of the users. -/
theorem perform_userNames (o : Op double) (hlogin : forall name, o ≠ .loginOrRegister name) :
    userNames (s.perform shard msg e o).2.db.users = userNames s.db.users := by
  cases o with
  | loginOrRegister name => exact absurd rfl (hlogin name)
  | addGold u amount => exact Database.addGold_names s.db u amount e.faults
  | dropItem u => exact congrArg userNames (Database.dropItem_users s.db u e.newId e.faults)
  | enhanceItem u itemId cost success mult =>
      exact Database.enhanceItem_names s.db u itemId cost success mult e.faults
  | getGold u =>
      exact congrArg (fun db : Db pg => userNames db.users)
        (Database.getGold_store s.db u e.faults)
  | getItems u =>
      exact congrArg (fun db : Db pg => userNames db.users)
        (Database.getItems_store s.db u e.faults)
  | getItem u itemId =>
      exact congrArg (fun db : Db pg => userNames db.users)
        (Database.getItem_cases s.db u itemId e.faults).left
  | _ => rfl

/-- The names of the users, and what a login answers. -/
theorem perform_names (o : Op double) :
    NamesAfter s.db.users (s.perform shard msg e o).2.db.users := by
  cases o with
  | loginOrRegister name =>
      exact (Database.loginOrRegister_names s.db name (Nat.succ_ne_zero _)
        e.faults).left
  | _ => exact .same (s.perform_userNames shard msg e _ fun _ h => by cases h)

theorem perform_login {name : List UInt8} {u : Nat}
    (h : (s.perform shard msg e (.loginOrRegister name)).1 = some u) :
    userNames (s.perform shard msg e (.loginOrRegister name)).2.db.users u =
      some name :=
  (Database.loginOrRegister_names s.db name (Nat.succ_ne_zero _) e.faults).right u h

/-- New names come from logins under them. -/
theorem perform_newNames (o : Op double) {u : Nat} {name : List UInt8}
    (h : userNames (s.perform shard msg e o).2.db.users u = some name) :
    userNames s.db.users u = some name ∨ o = .loginOrRegister name := by
  cases o with
  | loginOrRegister found =>
      rcases Database.loginOrRegister_newNames s.db found (e.newId + 1) e.faults h with
        hold | hnew
      · exact Or.inl hold
      · exact Or.inr (by rw [hnew])
  | _ =>
      left
      rw [← h, s.perform_userNames shard msg e _ fun _ h => by cases h]

/-- What an operation does to the items. -/
inductive ItemsAfter (db : Db pg) : Op double -> Db pg -> Prop where
  | same {o : Op double} {after : Db pg} (items : after.items = db.items) :
      ItemsAfter db o after
  | dropped {userId itemId : Nat} {after : Db pg}
      (fresh : db.items.lookup itemId = none)
      (items : after.items = AList.insert itemId
        ⟨userId, pg.defaultLevel, pg.defaultPower⟩ db.items) :
      ItemsAfter db (.dropItem userId) after
  | enhanced {userId itemId cost : Nat} {success : Bool} {mult : double}
      {after : Db pg} (item item' : ItemRow pg)
      (found : db.items.lookup itemId = some item)
      (owner : item.ownerId = userId) (owner' : item'.ownerId = userId)
      (power : pg.roundProduct item.power.val mult = some item'.power.val)
      (items : after.items = AList.insert itemId item' db.items) :
      ItemsAfter db (.enhanceItem userId itemId cost success mult) after

theorem perform_items (o : Op double) :
    ItemsAfter s.db o (s.perform shard msg e o).2.db := by
  cases o with
  | loginOrRegister name =>
      exact .same (Database.loginOrRegister_items s.db name (e.newId + 1) e.faults)
  | addGold u amount =>
      refine .same ?_
      rcases Database.addGold_cases s.db u amount e.faults with hkept | hadded
      · exact congrArg (fun out => out.store.items) hkept
      · rcases hadded.change with ⟨_, _, _, _, _, hstore⟩
        exact congrArg (fun db => db.items) hstore
  | dropItem u =>
      rcases Database.dropItem_cases s.db u e.newId e.faults with hkept | hdropped
      · exact .same (congrArg (fun out => out.store.items) hkept)
      · exact .dropped hdropped.fresh (congrArg (fun db => db.items) hdropped.change)
  | enhanceItem u itemId cost success mult =>
      rcases Database.enhanceItem_commits s.db u itemId cost success mult e.faults with
        ⟨_, hkept⟩ | hdone
      · exact .same (congrArg (fun db => db.items) hkept)
      · rcases hdone.change with ⟨_, _, item, item', _, _, _, _, hfound, howner,
          howner', _, hpower, hstore, _⟩
        exact .enhanced item item' hfound howner howner' hpower
          (congrArg (fun db => db.items) hstore)
  | getGold u =>
      refine .same ?_
      exact congrArg (fun db : Db pg => db.items)
        (Database.getGold_store s.db u e.faults)
  | getItems u =>
      refine .same ?_
      exact congrArg (fun db : Db pg => db.items)
        (Database.getItems_store s.db u e.faults)
  | getItem u itemId =>
      refine .same ?_
      exact congrArg (fun db : Db pg => db.items)
        (Database.getItem_cases s.db u itemId e.faults).left
  | _ => exact .same rfl

/-- An item that was found belongs to the user. -/
theorem perform_getItem {userId itemId : Nat} {found : Item}
    (h : (s.perform shard msg e (.getItem userId itemId)).1 = some (some found)) :
    exists item, s.db.items.lookup itemId = some item ∧ item.ownerId = userId := by
  rcases (Database.getItem_cases s.db userId itemId e.faults).right found h with
    ⟨item, hitem, howner, _⟩
  exact ⟨item, hitem, howner⟩

/-- Messages are only added to queues, and only by `Post`. -/
theorem perform_queues (o : Op double) (k : Nat) (other : ShardMsg)
    (h : other ∈ ((s.perform shard msg e o).2.world.queues k).queue) :
    other ∈ (s.world.queues k).queue ∨ k = other.sessionId % s.manager.shardCount := by
  cases o with
  | post id m =>
      by_cases hk : k = id % s.manager.shardCount
      · subst hk
        simp only [perform, apply, Consumers.perform] at h
        rw [show s.world.manager = s.manager from rfl, Function.update_self] at h
        rcases List.mem_append.mp h with hold | hnew
        · exact Or.inl hold
        · right
          rw [List.mem_singleton.mp hnew]
      · simp only [perform, apply, Consumers.perform] at h
        rw [show s.world.manager = s.manager from rfl, Function.update_of_ne hk] at h
        exact Or.inl h
  | _ => exact Or.inl h

end Stores

end Consumers
end ContentServer
