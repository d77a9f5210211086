import ContentServer.Registry.Consistency
import ContentServer.Registry.Deliveries

/-!
# What an operation leaves alone

Sends change buffers and counters of sessions, and the friend caches are sets
inside of the sessions.  Neither changes who a session is or where it is found,
so the indexes and the owners of the slots stay as they are.  The second part
says what the operations on friend caches do to the cache of each user.
-/

namespace ContentServer
namespace Registry

open Foundation Protocol Sessions SessionManager

/-- The session keeps its place, its id, its queue and its user. -/
structure SameIdentity (s t : Session) : Prop where
  id : t.id = s.id
  index : t.index = s.index
  handler : t.handler = s.handler
  userId : t.userId = s.userId
  name : t.name = s.name

theorem SameIdentity.refl (s : Session) : SameIdentity s s :=
  ⟨rfl, rfl, rfl, rfl, rfl⟩

theorem SameIdentity.of_owner {s t : Session} (h : SameOwner s t) :
    SameIdentity s t :=
  ⟨h.id, h.index, h.handler, h.userId, h.name⟩

/-- All sessions do, and they are found as before. -/
structure SameIdentities (m m' : SessionManager) : Prop where
  byId : m'.byId = m.byId
  byName : m'.byName = m.byName
  byUserId : m'.byUserId = m.byUserId
  nextId : m'.nextId = m.nextId
  shardCount : m'.shardCount = m.shardCount
  freeList : m'.pool.freeList = m.pool.freeList
  sessions : forall slot, SameIdentity (m.session slot) (m'.session slot)

namespace SameIdentities

variable {m m' m'' : SessionManager}

theorem refl (m : SessionManager) : SameIdentities m m :=
  ⟨rfl, rfl, rfl, rfl, rfl, rfl, fun _ => SameIdentity.refl _⟩

theorem trans (h : SameIdentities m m') (h' : SameIdentities m' m'') :
    SameIdentities m m'' where
  byId := h'.byId.trans h.byId
  byName := h'.byName.trans h.byName
  byUserId := h'.byUserId.trans h.byUserId
  nextId := h'.nextId.trans h.nextId
  shardCount := h'.shardCount.trans h.shardCount
  freeList := h'.freeList.trans h.freeList
  sessions := fun slot =>
    { id := (h'.sessions slot).id.trans (h.sessions slot).id
      index := (h'.sessions slot).index.trans (h.sessions slot).index
      handler := (h'.sessions slot).handler.trans (h.sessions slot).handler
      userId := (h'.sessions slot).userId.trans (h.sessions slot).userId
      name := (h'.sessions slot).name.trans (h.sessions slot).name }

theorem put {slot : Slot} {s : Session} (h : SameIdentity (m.session slot) s) :
    SameIdentities m (m.put slot s) := by
  refine ⟨rfl, rfl, rfl, rfl, rfl, rfl, ?_⟩
  intro other
  by_cases hother : other = slot
  · subst hother
    rw [session_put_self]
    exact h
  · rw [session_put_of_ne m s hother]
    exact SameIdentity.refl _

theorem carried {key : Type} [DecidableEq key] (h : SameIdentities m m')
    {read : Session -> key}
    (hread : forall slot, read (m'.session slot) = read (m.session slot))
    (blank : key) : m'.carried read blank = m.carried read blank := by
  funext id
  unfold SessionManager.carried
  rw [h.byId]
  cases m.byId.lookup id with
  | none => rfl
  | some slot => simp only [hread]

theorem nameOf (h : SameIdentities m m') : m'.nameOf = m.nameOf :=
  h.carried (fun slot => (h.sessions slot).name) []

theorem userOf (h : SameIdentities m m') : m'.userOf = m.userOf :=
  h.carried (fun slot => (h.sessions slot).userId) 0

theorem slotOfUser (h : SameIdentities m m') : m'.slotOfUser = m.slotOfUser := by
  funext userId
  unfold SessionManager.slotOfUser
  rw [h.byUserId, h.byId]

theorem occupied (h : SameIdentities m m') (hslots : Occupied m) : Occupied m' :=
  hslots.congr h.byId h.nextId h.freeList (fun slot => (h.sessions slot).id)
    (fun slot => (h.sessions slot).index)

end SameIdentities

/-- The directory stays consistent. -/
theorem Consistent.congr {userIdOf : List UInt8 -> Nat} {d : Directory}
    (h : Consistent userIdOf d) {m : SessionManager}
    (hsame : SameIdentities d.manager m) :
    Consistent userIdOf { d with manager := m } := by
  have hlive : forall id, Directory.Live { d with manager := m } id -> d.Live id := by
    intro id hid
    rcases hid with ⟨slot, hslot⟩
    exact ⟨slot, by rw [← hsame.byId]; exact hslot⟩
  refine Consistent.of_recorded
    (h.toIssued.congr (hsame.occupied h.slots) hsame.byId hsame.nextId rfl)
    ?_ ?_ ?_ ?_ ?_
  · show Indexes m.byName m.nameOf
    rw [hsame.byName, hsame.nameOf]
    exact h.names
  · show Indexes m.byUserId m.userOf
    rw [hsame.byUserId, hsame.userOf]
    exact h.users
  · show forall id u, m.userOf id = some u ->
      exists name, m.nameOf id = some name ∧ userIdOf name = u
    rw [hsame.nameOf, hsame.userOf]
    exact h.assigned
  · show Recorded (· < m.nextId) _ d.named m.nameOf
    rw [hsame.nameOf, hsame.nextId]
    exact h.recordedNames.mono (fun _ hx => hx) (fun id _ hid => hlive id hid)
  · show Recorded (· < m.nextId) _ d.bound m.userOf
    rw [hsame.userOf, hsame.nextId]
    exact h.recordedUsers.mono (fun _ hx => hx) (fun id _ hid => hlive id hid)

theorem shardCount_of_create {m m' : SessionManager} {socket : Nat} {slot : Slot}
    (h : m.create socket = some (slot, m')) : m'.shardCount = m.shardCount := by
  unfold SessionManager.create at h
  cases halloc : m.pool.alloc with
  | none =>
      rw [halloc] at h
      cases h
  | some found =>
      rw [halloc] at h
      cases h
      rfl

/-!
# Sends
-/

/-- The friend caches are also the same. -/
structure SameSessions (m m' : SessionManager) : Prop
    extends SameIdentities m m' where
  friends : forall slot, (m'.session slot).friendIds = (m.session slot).friendIds

namespace SameSessions

variable {m m' m'' : SessionManager}

theorem refl (m : SessionManager) : SameSessions m m :=
  ⟨SameIdentities.refl m, fun _ => rfl⟩

theorem trans (h : SameSessions m m') (h' : SameSessions m' m'') :
    SameSessions m m'' :=
  ⟨h.toSameIdentities.trans h'.toSameIdentities,
    fun slot => (h'.friends slot).trans (h.friends slot)⟩

theorem put {slot : Slot} {s : Session} (h : SameOwner (m.session slot) s) :
    SameSessions m (m.put slot s) := by
  refine ⟨SameIdentities.put (SameIdentity.of_owner h), ?_⟩
  intro other
  by_cases hother : other = slot
  · subst hother
    rw [session_put_self]
    exact h.friendIds
  · rw [session_put_of_ne m s hother]

theorem sendAll (m : SessionManager) (targets : List (Slot × List UInt8))
    (results : Nat -> PostResult) : SameSessions m (m.sendAll targets results).manager := by
  induction targets generalizing m results with
  | nil => exact SameSessions.refl m
  | cons target rest ih =>
      rcases target with ⟨slot, data⟩
      have hsend := (send_sendCall (m.session slot) data (results 0)).owner
      exact (SameSessions.put hsend).trans (ih _ _)

theorem broadcast (m : SessionManager) (data : List UInt8)
    (results : Nat -> PostResult) : SameSessions m (m.broadcast data results).manager :=
  sendAll m _ results

theorem sendToFriends (m : SessionManager) (userId : Nat) (data : List UInt8)
    (results : Nat -> PostResult) :
    SameSessions m (m.sendToFriends userId data results).manager := by
  unfold SessionManager.sendToFriends
  cases m.slotOfUser userId with
  | none => exact SameSessions.refl m
  | some slot => exact sendAll m _ results

theorem sendRosterTo (m : SessionManager) (id : Nat) (results : Nat -> PostResult) :
    SameSessions m (m.sendRosterTo id results).manager := by
  unfold SessionManager.sendRosterTo
  cases m.byId.lookup id with
  | none => exact SameSessions.refl m
  | some slot => exact sendAll m _ results

theorem sendTo (m : SessionManager) (id : Nat) (data : List UInt8)
    (result : PostResult) : SameSessions m (m.sendTo id data result).2.manager := by
  unfold SessionManager.sendTo
  cases m.byId.lookup id with
  | none => exact SameSessions.refl m
  | some slot =>
      exact SameSessions.put (send_sendCall (m.session slot) data result).owner

end SameSessions

/-!
# Friend caches
-/

/-- The friend cache of the session that is logged in as a user. -/
def SessionManager.cacheOf (m : SessionManager) (userId : Nat) :
    Option (Finset Nat) :=
  (m.slotOfUser userId).map (fun slot => (m.session slot).friendIds)

variable {m m' : SessionManager}

theorem SameSessions.cacheOf (h : SameSessions m m') : m'.cacheOf = m.cacheOf := by
  funext userId
  unfold SessionManager.cacheOf
  rw [h.slotOfUser]
  cases m.slotOfUser userId with
  | none => rfl
  | some slot => simp only [Option.map_some, h.friends]

/-- A change of one friend cache. -/
def SessionManager.editCache (m : SessionManager) (userId : Nat)
    (edit : Finset Nat -> Finset Nat) : SessionManager :=
  match m.slotOfUser userId with
  | none => m
  | some slot =>
      m.put slot { m.session slot with friendIds := edit (m.session slot).friendIds }

theorem foldl_addFriend (ids : List Nat) (s : Session) :
    ids.foldl (fun s id => s.addFriend id) s =
      { s with friendIds := s.friendIds ∪ ids.toFinset } := by
  induction ids generalizing s with
  | nil => simp
  | cons id rest ih =>
      rw [List.foldl_cons, ih, List.toFinset_cons]
      simp only [Session.addFriend, Finset.insert_union, Finset.union_insert]

theorem loadFriendCache_eq (m : SessionManager) (userId : Nat) (ids : List Nat) :
    m.loadFriendCache userId ids = m.editCache userId (· ∪ ids.toFinset) := by
  unfold SessionManager.loadFriendCache SessionManager.editCache
  cases m.slotOfUser userId with
  | none => rfl
  | some slot => simp only [foldl_addFriend]

theorem editCache_same (m : SessionManager) (userId : Nat)
    (edit : Finset Nat -> Finset Nat) :
    SameIdentities m (m.editCache userId edit) := by
  unfold SessionManager.editCache
  cases m.slotOfUser userId with
  | none => exact SameIdentities.refl m
  | some slot => exact SameIdentities.put ⟨rfl, rfl, rfl, rfl, rfl⟩

/-- Only the cache of this user changes. -/
theorem cacheOf_editCache (m : SessionManager)
    (hinj : forall u v slot, m.slotOfUser u = some slot ->
      m.slotOfUser v = some slot -> u = v)
    (userId : Nat) (edit : Finset Nat -> Finset Nat) (other : Nat) :
    (m.editCache userId edit).cacheOf other =
      if other = userId then (m.cacheOf other).map edit else m.cacheOf other := by
  unfold SessionManager.cacheOf
  rw [(editCache_same m userId edit).slotOfUser]
  unfold SessionManager.editCache
  cases huser : m.slotOfUser userId with
  | none =>
      by_cases hother : other = userId
      · subst hother
        simp [huser]
      · simp [hother]
  | some slot =>
      by_cases hother : other = userId
      · subst hother
        simp [huser]
      · simp only [if_neg hother]
        cases hslot : m.slotOfUser other with
        | none => rfl
        | some found =>
            have hne : found ≠ slot := by
              intro hsame
              subst hsame
              exact hother (hinj other userId found hslot huser)
            simp only [Option.map_some, session_put_of_ne m _ hne]

end Registry
end ContentServer
