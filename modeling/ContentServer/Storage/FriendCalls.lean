import ContentServer.Foundation.Runs
import ContentServer.Protocol.Packet
import ContentServer.Storage.FriendEffects

/-!
# Runs of calls on friendships

Users call the four operations that change friendships in any order, and any
statement of theirs may fail.  Seen as a partial function from directed pairs to
states, the table changes in at most the two rows between the caller and the
user that the call names.
-/

namespace ContentServer
namespace Storage

open Foundation Transaction

inductive FriendCall where
  | addFriend (userId : Nat) (friendName : List UInt8)
  | acceptFriend (userId : Nat) (friendName : List UInt8)
  | rejectFriend (userId : Nat) (friendName : List UInt8)
  | blockFriend (userId : Nat) (friendName : List UInt8)

/-- The user that makes the call. -/
def FriendCall.userId : FriendCall -> Nat
  | .addFriend userId _ | .acceptFriend userId _ | .rejectFriend userId _
  | .blockFriend userId _ => userId

variable {double : Type} {pg : Postgres double}

namespace FriendDb

/-- The state that one call leaves behind. -/
def afterCall (db : FriendDb pg) (faults : Nat -> Bool) : FriendCall -> FriendDb pg
  | .addFriend userId name => ((Database.addFriend userId name).run faults db).store
  | .acceptFriend userId name =>
      ((Database.acceptFriend userId name).run faults db).store
  | .rejectFriend userId name =>
      ((Database.rejectFriend userId name).run faults db).store
  | .blockFriend userId name =>
      ((Database.blockFriend userId name).run faults db).store

/-- A call, with the statements that fail. -/
def step : StepFunction (FriendDb pg) (FriendCall × (Nat -> Bool)) :=
  fun db label => some (db.afterCall label.2 label.1)

/-- The rows as a function. -/
def row (db : FriendDb pg) (key : Nat × Nat) : Option FriendStatus :=
  db.friendships.lookup key

/-- All that a call can do to the rows. -/
inductive Change (db : FriendDb pg) (faults : Nat -> Bool) :
    FriendCall -> (Nat × Nat -> Option FriendStatus) -> Prop where
  | kept (call : FriendCall) : Change db faults call db.row
  | added {userId friendId : Nat} {name : List UInt8}
      (named : Database.userNamed db name = some friendId)
      (other : friendId ≠ userId) (succeed : Succeed faults 3)
      (free : db.row (userId, friendId) = none) :
      Change db faults (.addFriend userId name)
        (Function.update db.row (userId, friendId) (some .pending))
  | accepted {userId friendId : Nat} {name : List UInt8}
      (named : Database.userNamed db name = some friendId)
      (request : db.row (friendId, userId) = some .pending) :
      Change db faults (.acceptFriend userId name)
        (Function.update db.row (friendId, userId) (some .accepted))
  | rejected {userId friendId : Nat} {name : List UInt8}
      (named : Database.userNamed db name = some friendId)
      (request : db.row (friendId, userId) = some .pending) :
      Change db faults (.rejectFriend userId name)
        (Function.update db.row (friendId, userId) none)
  | blocked {userId friendId : Nat} {name : List UInt8}
      (named : Database.userNamed db name = some friendId)
      (other : friendId ≠ userId) (succeed : Succeed faults 4) :
      Change db faults (.blockFriend userId name)
        (Function.update (Function.update db.row (friendId, userId) none)
          (userId, friendId) (some .blocked))

theorem row_insert (db : FriendDb pg) (key : Nat × Nat) (status : FriendStatus) :
    row { db with friendships := AList.insert key status db.friendships } =
      Function.update db.row key (some status) := by
  funext other
  unfold row
  rcases Table.lookup_insert_cases db.friendships key other status with
    ⟨hkey, hlookup⟩ | ⟨hkey, hlookup⟩
  · rw [hlookup, hkey, Function.update_self]
  · rw [hlookup, Function.update_of_ne hkey]

theorem row_insertNew (db : FriendDb pg) (key : Nat × Nat) :
    (db.row key = none ∧
      row { db with friendships := (db.friendships.insertNew key .pending).1 } =
        Function.update db.row key (some .pending)) ∨
    { db with friendships := (db.friendships.insertNew key .pending).1 } = db := by
  cases hrow : db.friendships.lookup key with
  | none =>
      rw [Table.insertNew_of_lookup_none hrow]
      exact Or.inl ⟨hrow, row_insert db key .pending⟩
  | some status =>
      rw [Table.insertNew_of_lookup hrow]
      exact Or.inr rfl

theorem row_deletePending (db : FriendDb pg) (userId friendId : Nat) :
    (db.row (userId, friendId) = some .pending ∧
      row { db with friendships :=
          (db.friendships.delete (isPending userId friendId)).1 } =
        Function.update db.row (userId, friendId) none) ∨
    row { db with friendships :=
        (db.friendships.delete (isPending userId friendId)).1 } = db.row := by
  have hothers : forall key, key ≠ (userId, friendId) ->
      (db.friendships.delete (isPending userId friendId)).1.lookup key =
        db.friendships.lookup key := by
    intro key hkey
    refine Table.lookup_delete_of_not fun status _ => ?_
    by_contra htrue
    exact hkey (Database.onlyKey_pending userId friendId key status
      (by simpa using htrue))
  by_cases hpending : db.row (userId, friendId) = some .pending
  · refine Or.inl ⟨hpending, ?_⟩
    funext key
    by_cases hkey : key = (userId, friendId)
    · rw [hkey, Function.update_self]
      exact Table.lookup_delete_eq_none hpending
        (by rw [Database.isPending_self]; rfl)
    · rw [Function.update_of_ne hkey]
      exact hothers key hkey
  · right
    funext key
    by_cases hkey : key = (userId, friendId)
    · subst hkey
      refine Table.lookup_delete_of_not fun status hstatus => ?_
      rw [Database.isPending_self, decide_eq_false_iff_not]
      intro hcontra
      rw [hcontra] at hstatus
      exact hpending hstatus
    · exact hothers key hkey

theorem row_block (db : FriendDb pg) (userId friendId : Nat) :
    row { db with
        friendships := AList.insert (userId, friendId) .blocked
          (db.friendships.delete (isBetween userId friendId)).1 } =
      Function.update (Function.update db.row (friendId, userId) none)
        (userId, friendId) (some .blocked) := by
  funext key
  by_cases hkey : key = (userId, friendId)
  · rw [hkey, Function.update_self]
    exact AList.lookup_insert _
  · rw [Function.update_of_ne hkey]
    change (AList.insert (userId, friendId) _ _).lookup key = _
    rw [AList.lookup_insert_ne hkey]
    by_cases hback : key = (friendId, userId)
    · rw [hback, Function.update_self]
      cases hrow : db.friendships.lookup (friendId, userId) with
      | some status =>
          exact Table.lookup_delete_eq_none hrow
            ((Database.isBetween_iff userId friendId _ status).mpr (Or.inr rfl))
      | none =>
          rw [Table.lookup_delete_of_not, hrow]
          intro status hstatus
          rw [hrow] at hstatus
          cases hstatus
    · rw [Function.update_of_ne hback]
      refine Table.lookup_delete_of_not fun status _ => ?_
      by_contra htrue
      rcases (Database.isBetween_iff userId friendId key status).mp
        (by simpa using htrue) with hcontra | hcontra
      · exact hkey hcontra
      · exact hback hcontra

/-- A call changes no user, and the rows as listed. -/
theorem afterCall_change (db : FriendDb pg) (faults : Nat -> Bool)
    (call : FriendCall) :
    (db.afterCall faults call).users = db.users ∧
      Change db faults call (db.afterCall faults call).row := by
  cases call with
  | addFriend userId name =>
      rcases Database.addFriend_cases db userId name faults with
        ⟨hkept, _⟩ | ⟨friendId, hadded⟩
      · simp only [afterCall, hkept.store, true_and]
        exact .kept _
      · simp only [afterCall, hadded.store, true_and]
        rcases row_insertNew db (userId, friendId) with ⟨hfree, hrow⟩ | hsame
        · rw [hrow]
          exact .added hadded.named hadded.other hadded.succeed hfree
        · rw [hsame]
          exact .kept _
  | acceptFriend userId name =>
      rcases Database.acceptFriend_cases db userId name faults with
        ⟨hkept, _⟩ | ⟨requesterId, haccepted⟩
      · simp only [afterCall, hkept, true_and]
        exact .kept _
      · simp only [afterCall, haccepted.store, true_and]
        rw [row_insert]
        exact .accepted haccepted.named haccepted.request
  | rejectFriend userId name =>
      rcases Database.rejectFriend_cases db userId name faults with
        hkept | ⟨requesterId, hrejected⟩
      · simp only [afterCall, hkept, true_and]
        exact .kept _
      · simp only [afterCall, hrejected.store, true_and]
        rcases row_deletePending db requesterId userId with ⟨hrow, hdone⟩ | hsame
        · rw [hdone]
          exact .rejected hrejected.named hrow
        · rw [hsame]
          exact .kept _
  | blockFriend userId name =>
      rcases Database.blockFriend_cases db userId name faults with
        ⟨hkept, _⟩ | ⟨targetId, hblocked⟩
      · simp only [afterCall, hkept.store, true_and]
        exact .kept _
      · simp only [afterCall, hblocked.store, true_and]
        rw [row_block]
        exact .blocked hblocked.named hblocked.other hblocked.succeed

/-- A request that meets no failure is stored. -/
theorem afterCall_addFriend {db : FriendDb pg} {faults : Nat -> Bool}
    {userId friendId : Nat} {name : List UInt8}
    (hnamed : Database.userNamed db name = some friendId)
    (hother : friendId ≠ userId) (hfaults : Succeed faults 3)
    (hfree : db.row (userId, friendId) = none) :
    (db.afterCall faults (.addFriend userId name)).row =
      Function.update db.row (userId, friendId) (some .pending) := by
  rcases Database.addFriend_cases db userId name faults with
    ⟨_, hrefused⟩ | ⟨friendId', hadded⟩
  · exact absurd hfaults (hrefused friendId hnamed hother)
  · cases hnamed.symm.trans hadded.named
    simp only [afterCall, hadded.store]
    rw [Table.insertNew_of_lookup_none hfree]
    exact row_insert db (userId, friendId) .pending

/-- So is a block. -/
theorem afterCall_blockFriend {db : FriendDb pg} {faults : Nat -> Bool}
    {userId friendId : Nat} {name : List UInt8}
    (hnamed : Database.userNamed db name = some friendId)
    (hother : friendId ≠ userId) (hfaults : Succeed faults 4) :
    (db.afterCall faults (.blockFriend userId name)).row =
      Function.update (Function.update db.row (friendId, userId) none)
        (userId, friendId) (some .blocked) := by
  rcases Database.blockFriend_cases db userId name faults with
    ⟨_, hrefused, _⟩ | ⟨targetId, hblocked⟩
  · exact absurd hfaults (hrefused friendId hnamed hother)
  · cases hnamed.symm.trans hblocked.named
    simp only [afterCall, hblocked.store]
    exact row_block db userId friendId

/-!
# What users are shown
-/

open Database

/-- What `GetFriendList` answers when no statement fails. -/
def shownList (db : FriendDb pg) (userId : Nat) : Option FriendList :=
  ((getFriendList userId).run (fun _ => false) db).reply

/-- What `GetFriendIds` answers when no statement fails. -/
def shownIds (db : FriendDb pg) (userId : Nat) : Option (List Nat) :=
  ((getFriendIds userId).run (fun _ => false) db).reply

theorem shownList_eq (db : FriendDb pg) (userId : Nat) :
    db.shownList userId = some (friendListOf db userId) := by
  unfold shownList
  rcases getFriendList_cases db userId (fun _ => false) with ⟨_, _, hfault⟩ | hlist
  · exact absurd (fun _ _ => rfl) hfault
  · rw [hlist]

theorem shownIds_eq (db : FriendDb pg) (userId : Nat) :
    db.shownIds userId = some (db.acceptedBy userId) := by
  unfold shownIds
  rcases getFriendIds_cases db userId (fun _ => false) with ⟨_, _, hfault⟩ | hids
  · exact absurd (fun _ _ => rfl) hfault
  · rw [hids]

/-!
# Facts about every reachable table
-/

/-- No two users block each other, and no row leads from a user to itself. -/
structure Sound (db : FriendDb pg) : Prop where
  names : UniqueNames db.users
  oneBlock : forall a b, db.row (a, b) = some .blocked ->
    db.row (b, a) ≠ some .blocked
  noSelf : forall a, db.row (a, a) = none

theorem sound_start {users : Table Nat (UserRow pg)} (hnames : UniqueNames users) :
    Sound { users := users, friendships := ∅ } where
  names := hnames
  oneBlock := by
    intro a b h
    cases h
  noSelf := fun a => rfl

/-- A row is stored with another status than `BLOCKED`, or deleted. -/
theorem oneBlock_update {row : Nat × Nat -> Option FriendStatus}
    (h : forall a b, row (a, b) = some .blocked -> row (b, a) ≠ some .blocked)
    (key : Nat × Nat) (status : Option FriendStatus)
    (hstatus : status ≠ some .blocked) (a b : Nat)
    (hblocked : Function.update row key status (a, b) = some .blocked) :
    Function.update row key status (b, a) ≠ some .blocked := by
  have hold : forall other, Function.update row key status other = some .blocked ->
      row other = some .blocked := by
    intro other hother
    by_cases hkey : other = key
    · rw [hkey, Function.update_self] at hother
      exact absurd hother hstatus
    · rw [Function.update_of_ne hkey] at hother
      exact hother
  intro hback
  exact h a b (hold _ hblocked) (hold _ hback)

variable {db : FriendDb pg} {faults : Nat -> Bool} {call : FriendCall}
variable {row : Nat × Nat -> Option FriendStatus}

theorem Change.oneBlock (hchange : Change db faults call row) (h : Sound db) (a b : Nat)
    (hab : row (a, b) = some .blocked) : row (b, a) ≠ some .blocked := by
  cases hchange with
  | kept => exact h.oneBlock a b hab
  | added named other succeed free =>
      exact oneBlock_update h.oneBlock _ _ (by simp) a b hab
  | accepted named request =>
      exact oneBlock_update h.oneBlock _ _ (by simp) a b hab
  | rejected named request =>
      exact oneBlock_update h.oneBlock _ _ (by simp) a b hab
  | @blocked userId friendId name named other succeed =>
      have hcleared := oneBlock_update h.oneBlock (friendId, userId) none (by simp)
      intro hba
      by_cases hkey : (a, b) = (userId, friendId)
      · cases hkey
        rw [Function.update_of_ne (by simp [other]), Function.update_self] at hba
        cases hba
      · rw [Function.update_of_ne hkey] at hab
        by_cases hback : (b, a) = (userId, friendId)
        · cases hback
          rw [Function.update_self] at hab
          cases hab
        · rw [Function.update_of_ne hback] at hba
          exact hcleared a b hab hba

theorem Change.noSelf (hchange : Change db faults call row) (h : Sound db) (a : Nat) :
    row (a, a) = none := by
  have hfree := h.noSelf a
  cases hchange with
  | kept => exact hfree
  | added named other succeed free =>
      rw [Function.update_of_ne (by simp; omega)]
      exact hfree
  | accepted named request =>
      rw [Function.update_of_ne, hfree]
      intro hself
      rw [← hself, hfree] at request
      cases request
  | rejected named request =>
      rw [Function.update_of_ne, hfree]
      intro hself
      rw [← hself, hfree] at request
      cases request
  | blocked named other succeed =>
      rw [Function.update_of_ne (by simp; omega),
        Function.update_of_ne (by simp; omega)]
      exact hfree

theorem sound_afterCall (h : Sound db) (faults : Nat -> Bool) (call : FriendCall) :
    Sound (db.afterCall faults call) := by
  rcases afterCall_change db faults call with ⟨husers, hchange⟩
  exact ⟨by rw [husers]; exact h.names, hchange.oneBlock h, hchange.noSelf h⟩

theorem sound_step : Preserved (step : StepFunction (FriendDb pg) _) Sound := by
  intro db label db' h hstep
  cases hstep
  exact sound_afterCall h label.2 label.1

/-!
# Two users
-/

open Protocol

def annAndBob : Table Nat (UserRow percentServer) :=
  AList.insert 1 ⟨text "ann", percentServer.defaultGold⟩
    (AList.insert 2 ⟨text "bob", percentServer.defaultGold⟩ ∅)

theorem uniqueNames_annAndBob : UniqueNames annAndBob :=
  uniqueNames_of_nodup (by decide)

end FriendDb
end Storage
end ContentServer
