import ContentServer.Consumers.Queues
import ContentServer.Foundation.Programs
import ContentServer.Registry.Deliveries
import ContentServer.Storage.Effects
import ContentServer.Storage.Friendships
import ContentServer.Storage.Ranking

/-!
# The operations of the handlers

What a handler of a consumer calls: the session manager, whose operations each
hold its lock, the database, whose operations are transactions, the ranking and
the random engine.  Each operation is atomic.  The friendship tables and the
ranking are no part of the world, so any answer of theirs is possible here.

The history records, newest first, the calls of `GetItem` and the commits of
`EnhanceItem`.
-/

namespace ContentServer
namespace Consumers

open Foundation Protocol Sessions Registry Storage

inductive Op (double : Type) where
  | isNamed (sessionId : Nat)
  | setName (sessionId : Nat) (name : List UInt8)
  | setUserId (sessionId userId : Nat)
  | getUserId (sessionId : Nat)
  | findByName (name : List UInt8)
  | sendTo (sessionId : Nat) (data : List UInt8)
  | broadcast (data : List UInt8)
  | sendToFriends (userId : Nat) (data : List UInt8)
  | sendRosterTo (sessionId : Nat)
  | loadFriendCache (userId : Nat) (ids : List Nat)
  | cacheAddFriend (userId friendId : Nat)
  | cacheRemoveFriend (userId friendId : Nat)
  | post (sessionId : Nat) (msg : ShardMsg)
  | loginOrRegister (name : List UInt8)
  | getGold (userId : Nat)
  | addGold (userId amount : Nat)
  | dropItem (userId : Nat)
  | getItems (userId : Nat)
  | getItem (userId itemId : Nat)
  | enhanceItem (userId itemId cost : Nat) (success : Bool) (mult : double)
  | addFriend (userId : Nat) (friendName : List UInt8)
  | acceptFriend (userId : Nat) (friendName : List UInt8)
  | rejectFriend (userId : Nat) (friendName : List UInt8)
  | blockFriend (userId : Nat) (friendName : List UInt8)
  | getFriendList (userId : Nat)
  | getFriendIds (userId : Nat)
  | rankSetName (userId : Nat) (name : List UInt8)
  | rankUpdate (userId totalPower : Nat)
  | rankTop (start stop : Int)
  | rankOf (userId : Nat)
  | uniformInt (low high : Int)
  | uniformReal (low high : ℚ)

/-- The result type of an operation; `none` is an exception of the database. -/
@[reducible] def Answer {double : Type} : Op double -> Type
  | .isNamed _ => Bool
  | .setName _ _ => Bool
  | .getUserId _ => Nat
  | .findByName _ => Nat
  | .sendTo _ _ => Bool
  | .setUserId _ _ | .broadcast _ | .sendToFriends _ _ | .sendRosterTo _
  | .loadFriendCache _ _ | .cacheAddFriend _ _ | .cacheRemoveFriend _ _
  | .post _ _ | .rankSetName _ _ | .rankUpdate _ _ => Unit
  | .loginOrRegister _ => Option Nat
  | .getGold _ => Option Nat
  | .addGold _ _ => Option Nat
  | .dropItem _ => Option DropResult
  | .getItems _ => Option (List Item)
  | .getItem _ _ => Option (Option Item)
  | .enhanceItem _ _ _ _ _ => Option EnhanceResult
  | .addFriend _ _ => Option Bool
  | .acceptFriend _ _ => Option Nat
  | .rejectFriend _ _ => Option Bool
  | .blockFriend _ _ => Option Nat
  | .getFriendList _ => Option FriendList
  | .getFriendIds _ => Option (List Nat)
  | .rankTop _ _ => List RankEntry
  | .rankOf _ => Option Int
  | .uniformInt _ _ => Int
  | .uniformReal _ _ => double

variable {double : Type}

/-- A call of `GetItem` or a commit of `EnhanceItem` by the consumer of a shard. -/
inductive Event (pg : Postgres double) where
  | read (shard itemId : Nat)
  | paid (shard userId itemId : Nat) (success : Bool) (before after : Db pg)

/-- What the consumers share. -/
structure World (pg : Postgres double) where
  manager : SessionManager
  db : Db pg
  queues : Nat -> MPMCQueue ShardMsg
  history : List (Event pg)

/-- What is decided outside the code when an operation runs. -/
structure Environment (double : Type) where
  /-- The statements of the transaction that fail. -/
  faults : Nat -> Bool
  /-- The id of a new row. -/
  newId : Nat
  /-- The results of the sends that are started. -/
  posts : Nat -> PostResult
  draw : Nat
  real : double
  /-- The answers of the friendship tables and of the ranking. -/
  answers : (o : Op double) -> Answer o

variable {pg : Postgres double}

/-- The answer, the world afterwards, and the calls of `Session::Send` that were made. -/
def perform (shard : Nat) (e : Environment double) (w : World pg) :
    (o : Op double) -> Answer o × World pg × List Sending
  | .isNamed id => (w.manager.isNamed id, w, [])
  | .setName id name =>
      let (done, manager) := w.manager.setName id name
      (done, { w with manager := manager }, [])
  | .setUserId id userId =>
      ((), { w with manager := w.manager.setUserId id userId }, [])
  | .getUserId id => (w.manager.getUserId id, w, [])
  | .findByName name => (w.manager.findByName name, w, [])
  | .sendTo id data =>
      let (found, delivery) := w.manager.sendTo id data (e.posts 0)
      (found, { w with manager := delivery.manager }, delivery.sendings)
  | .broadcast data =>
      let delivery := w.manager.broadcast data e.posts
      ((), { w with manager := delivery.manager }, delivery.sendings)
  | .sendToFriends userId data =>
      let delivery := w.manager.sendToFriends userId data e.posts
      ((), { w with manager := delivery.manager }, delivery.sendings)
  | .sendRosterTo id =>
      let delivery := w.manager.sendRosterTo id e.posts
      ((), { w with manager := delivery.manager }, delivery.sendings)
  | .loadFriendCache userId ids =>
      ((), { w with manager := w.manager.loadFriendCache userId ids }, [])
  | .cacheAddFriend userId friendId =>
      ((), { w with manager := w.manager.cacheAddFriend userId friendId }, [])
  | .cacheRemoveFriend userId friendId =>
      ((), { w with manager := w.manager.cacheRemoveFriend userId friendId }, [])
  | .post id msg =>
      let shard := id % w.manager.shardCount
      ((), { w with
        queues := Function.update w.queues shard
          ((w.queues shard).push { msg with sessionId := id }) }, [])
  | .loginOrRegister name =>
      let out := (Database.loginOrRegister name e.newId).run e.faults w.db
      (out.reply, { w with db := out.store }, [])
  | .getGold userId =>
      let out := (Database.getGold userId).run e.faults w.db
      (out.reply, { w with db := out.store }, [])
  | .addGold userId amount =>
      let out := (Database.addGold userId amount).run e.faults w.db
      (out.reply, { w with db := out.store }, [])
  | .dropItem userId =>
      let out := (Database.dropItem userId e.newId).run e.faults w.db
      (out.reply, { w with db := out.store }, [])
  | .getItems userId =>
      let out := (Database.getItems userId).run e.faults w.db
      (out.reply, { w with db := out.store }, [])
  | .getItem userId itemId =>
      let out := (Database.getItem userId itemId).run e.faults w.db
      (out.reply, { w with
        db := out.store
        history := .read shard itemId :: w.history }, [])
  | .enhanceItem userId itemId cost success mult =>
      let out :=
        (Database.enhanceItem userId itemId cost success mult).run e.faults w.db
      (out.reply, { w with
        db := out.store
        history := if out.committed
          then .paid shard userId itemId success w.db out.store :: w.history
          else w.history }, [])
  | .uniformInt low high =>
      (low + (e.draw % (high - low + 1).toNat : Nat), w, [])
  | .uniformReal _ _ => (e.real, w, [])
  | o => (e.answers o, w, [])

end Consumers
end ContentServer
