import ContentServer.Consumers.Handlers
import ContentServer.Registry.Recipients

/-!
# The stores behind the operations

Everything that the consumers share: the session manager, the database with its
friendships, the ranking and the queues.  The histories record, newest first,
the ids that `Create` gave out, the calls of `SetName` and `SetUserId` that had
an effect, and the calls of `Session::Send` that the operations made, each with
the message that was being handled.

The ids of new users are counted from one.
-/

namespace ContentServer
namespace Consumers

open Foundation Protocol Sessions Registry Storage

variable {double : Type}

structure Stores (pg : Postgres double) where
  world : World pg
  friendships : Friendships
  ranking : Ranking
  created : List Nat
  named : List (Nat × List UInt8)
  bound : List (Nat × Nat)
  sent : List (ShardMsg × Sending)

/-- The name that a call gave to a session. -/
def nameGiven : (o : Op double) -> Answer o -> List (Nat × List UInt8)
  | .setName id name, true => [(id, name)]
  | _, _ => []

/-- The user id that a call gave to a session, if there is such a session. -/
def userGiven (m : SessionManager) : Op double -> List (Nat × Nat)
  | .setUserId id userId => if id ∈ m.byId then [(id, userId)] else []
  | _ => []

variable {pg : Postgres double}

namespace Stores

def manager (s : Stores pg) : SessionManager :=
  s.world.manager

def db (s : Stores pg) : Db pg :=
  s.world.db

def friendDb (s : Stores pg) : FriendDb pg where
  users := s.world.db.users
  friendships := s.friendships

/-- The registry with its histories. -/
def directory (s : Stores pg) : Directory where
  manager := s.world.manager
  created := s.created
  named := s.named
  bound := s.bound

/-- How many of the commands of one call reach the ranking. -/
def arrived (e : Environment double) : Nat :=
  if e.faults 1 then 0 else 1

/-- The answer, the stores without the histories, and the calls of `Session::Send`. -/
def apply (shard : Nat) (e : Environment double) (s : Stores pg) :
    (o : Op double) -> Answer o × Stores pg × List Sending
  | .loginOrRegister name =>
      let out := (Database.loginOrRegister name (e.newId + 1)).run e.faults s.db
      (out.reply, { s with world := { s.world with db := out.store } }, [])
  | .addFriend userId name =>
      let out := (Database.addFriend userId name).run e.faults s.friendDb
      (out.reply, { s with friendships := out.store.friendships }, [])
  | .acceptFriend userId name =>
      let out := (Database.acceptFriend userId name).run e.faults s.friendDb
      (out.reply, { s with friendships := out.store.friendships }, [])
  | .rejectFriend userId name =>
      let out := (Database.rejectFriend userId name).run e.faults s.friendDb
      (out.reply, { s with friendships := out.store.friendships }, [])
  | .blockFriend userId name =>
      let out := (Database.blockFriend userId name).run e.faults s.friendDb
      (out.reply, { s with friendships := out.store.friendships }, [])
  | .getFriendList userId =>
      (((Database.getFriendList userId).run e.faults s.friendDb).reply, s, [])
  | .getFriendIds userId =>
      (((Database.getFriendIds userId).run e.faults s.friendDb).reply, s, [])
  | .rankSetName userId name =>
      ((), { s with ranking := s.ranking.setName userId name (arrived e) }, [])
  | .rankUpdate userId totalPower =>
      ((), { s with ranking := s.ranking.update userId totalPower (arrived e) }, [])
  | .rankTop start stop => (s.ranking.top start stop (e.faults 1), s, [])
  | .rankOf userId => (s.ranking.rankOf userId (e.faults 1), s, [])
  | o =>
      let (answer, world, sendings) := Consumers.perform shard e s.world o
      (answer, { s with world := world }, sendings)

/-- Run an operation for the handler of a message. -/
def perform (shard : Nat) (msg : ShardMsg) (e : Environment double) (s : Stores pg)
    (o : Op double) : Answer o × Stores pg :=
  let (answer, after, sendings) := s.apply shard e o
  (answer, { after with
    named := nameGiven o answer ++ s.named
    bound := userGiven s.manager o ++ s.bound
    sent := sendings.map (fun d => (msg, d)) ++ s.sent })

/-- Boot: the ranking is rebuilt from the database before anybody connects. -/
def boot (shards : Nat) (db : Db pg) (friendships : Friendships)
    (ranking : Ranking) : Stores pg where
  world := {
    manager := .initShards shards
    db := db
    queues := fun _ => .empty
    history := [] }
  friendships := friendships
  ranking := ranking
  created := []
  named := []
  bound := []
  sent := []

end Stores

end Consumers
end ContentServer
