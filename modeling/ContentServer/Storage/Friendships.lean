import ContentServer.Storage.Database

/-!
# Friendships

The table of friendships and the transactions of `Database` on it.  A row is
directed, from `user_id` to `friend_id`, and these two columns are its primary
key.  A new row has the status `PENDING`.  Users are found by name.
-/

namespace ContentServer
namespace Storage

open Foundation

inductive FriendStatus where
  | pending
  | accepted
  | blocked
deriving DecidableEq

/-- The rows by `user_id` and `friend_id`. -/
abbrev Friendships : Type :=
  Table (Nat × Nat) FriendStatus

variable {double : Type}

/-- The tables that the transactions on friendships use. -/
structure FriendDb (pg : Postgres double) where
  users : Table Nat (UserRow pg)
  friendships : Friendships

structure FriendList where
  blocked : List (List UInt8)
  pending : List (List UInt8)
  friends : List (List UInt8)

variable {pg : Postgres double}

abbrev FriendQuery (pg : Postgres double) (α : Type) : Type :=
  Transaction (FriendDb pg) α

namespace FriendDb

/-- `SELECT user_id FROM users WHERE user_name = $1`. -/
def usersNamed (db : FriendDb pg) (name : List UInt8) : List Nat :=
  (db.users.select (fun _ user => user.userName == name)).map (fun e => e.1)

def selectUser (name : List UInt8) (db : FriendDb pg) :
    Option (FriendDb pg × List Nat) :=
  some (db, db.usersNamed name)

/-- Insert a row with the default status; the result lists it. -/
def insertPending (userId friendId : Nat) (db : FriendDb pg) :
    Option (FriendDb pg × List Nat) :=
  let (friendships, inserted) :=
    db.friendships.insertNew (userId, friendId) .pending
  some ({ db with friendships := friendships }, if inserted then [userId] else [])

/-- The clause of `AcceptFriend` and `RejectFriend`. -/
def isPending (userId friendId : Nat) (key : Nat × Nat) (status : FriendStatus) :
    Bool :=
  key.1 == userId && key.2 == friendId && status == .pending

def accept (userId friendId : Nat) (db : FriendDb pg) :
    Option (FriendDb pg × List FriendStatus) :=
  (db.friendships.update (isPending userId friendId) fun _ => some .accepted).map
    fun done => ({ db with friendships := done.1 }, done.2)

def reject (userId friendId : Nat) (db : FriendDb pg) :
    Option (FriendDb pg × List (Sigma fun _ : Nat × Nat => FriendStatus)) :=
  let (friendships, rows) := db.friendships.delete (isPending userId friendId)
  some ({ db with friendships := friendships }, rows)

/-- The clause of the `DELETE` in `BlockFriend`. -/
def isBetween (userId friendId : Nat) (key : Nat × Nat) (_ : FriendStatus) :
    Bool :=
  (key.1 == userId && key.2 == friendId) || (key.1 == friendId && key.2 == userId)

def deleteBetween (userId friendId : Nat) (db : FriendDb pg) :
    Option (FriendDb pg × Unit) :=
  some ({ db with
    friendships := (db.friendships.delete (isBetween userId friendId)).1 }, ())

def insertBlocked (userId friendId : Nat) (db : FriendDb pg) :
    Option (FriendDb pg × Unit) :=
  (db.friendships.insertRow (userId, friendId) .blocked).map fun friendships =>
    ({ db with friendships := friendships }, ())

/-- The name of each user, if there is such a user: `JOIN users`. -/
def joinNames (db : FriendDb pg) (ids : List Nat) : List (List UInt8) :=
  ids.filterMap (fun id => (db.users.lookup id).map (fun user => user.userName))

/-- `CASE WHEN user_id = $1 THEN friend_id ELSE user_id END`. -/
def otherSide (userId : Nat) (key : Nat × Nat) : Nat :=
  if key.1 = userId then key.2 else key.1

def blockedBy (db : FriendDb pg) (userId : Nat) : List Nat :=
  (db.friendships.select (fun key status =>
    key.1 == userId && status == .blocked)).map (fun e => e.1.2)

def pendingFor (db : FriendDb pg) (userId : Nat) : List Nat :=
  (db.friendships.select (fun key status =>
    key.2 == userId && status == .pending)).map (fun e => e.1.1)

def acceptedBy (db : FriendDb pg) (userId : Nat) : List Nat :=
  (db.friendships.select (fun key status =>
    (key.1 == userId || key.2 == userId) && status == .accepted)).map
      (fun e => otherSide userId e.1)

/-- The rows of the query in `GetFriendIds`. -/
def friendIds (userId : Nat) (db : FriendDb pg) :
    Option (FriendDb pg × List Nat) :=
  some (db, db.acceptedBy userId)

/-- The rows of the query in `GetFriendList`, each with its kind. -/
def friendRows (userId : Nat) (db : FriendDb pg) :
    Option (FriendDb pg × List (UInt8 × List UInt8)) :=
  some (db,
    (db.joinNames (db.blockedBy userId)).map (fun name => (66, name)) ++
    (db.joinNames (db.pendingFor userId)).map (fun name => (80, name)) ++
    (db.joinNames (db.acceptedBy userId)).map (fun name => (70, name)))

end FriendDb

/-- The loop of `GetFriendList`, with `B`, `P` and any other kind. -/
def FriendList.ofRows (rows : List (UInt8 × List UInt8)) : FriendList :=
  rows.foldl (fun out row =>
    if row.1 = 66 then { out with blocked := out.blocked ++ [row.2] }
    else if row.1 = 80 then { out with pending := out.pending ++ [row.2] }
    else { out with friends := out.friends ++ [row.2] }) ⟨[], [], []⟩

namespace Database

def addFriend (userId : Nat) (friendName : List UInt8) : FriendQuery pg Bool := do
  let found ← .exec (FriendDb.selectUser friendName)
  match found with
  | [] => return false
  | friendId :: _ =>
      if friendId = userId then return false
      let ins ← .exec (FriendDb.insertPending userId friendId)
      .commit
      return !ins.isEmpty

def acceptFriend (userId : Nat) (friendName : List UInt8) :
    FriendQuery pg Nat := do
  let found ← .exec (FriendDb.selectUser friendName)
  match found with
  | [] => return 0
  | requesterId :: _ =>
      let upd ← .exec (FriendDb.accept requesterId userId)
      .commit
      if upd.isEmpty then return 0
      return requesterId

def rejectFriend (userId : Nat) (friendName : List UInt8) :
    FriendQuery pg Bool := do
  let found ← .exec (FriendDb.selectUser friendName)
  match found with
  | [] => return false
  | requesterId :: _ =>
      let del ← .exec (FriendDb.reject requesterId userId)
      .commit
      return !del.isEmpty

def blockFriend (userId : Nat) (friendName : List UInt8) :
    FriendQuery pg Nat := do
  let found ← .exec (FriendDb.selectUser friendName)
  match found with
  | [] => return 0
  | targetId :: _ =>
      if targetId = userId then return 0
      .exec (FriendDb.deleteBetween userId targetId)
      .exec (FriendDb.insertBlocked userId targetId)
      .commit
      return targetId

def getFriendList (userId : Nat) : FriendQuery pg FriendList := do
  let r ← .exec (FriendDb.friendRows userId)
  .commit
  return .ofRows r

def getFriendIds (userId : Nat) : FriendQuery pg (List Nat) := do
  let r ← .exec (FriendDb.friendIds userId)
  .commit
  return r

end Database

end Storage
end ContentServer
