import ContentServer.Foundation.Text
import ContentServer.Storage.Database

/-!
# The ranking

The sorted set of scores and the hash of names that `Ranking` keeps in Redis,
both keyed by the user id in decimal, and the query that they are rebuilt from.
Scores are exact integers.  A command whose connection fails is logged and
otherwise ignored, so the number of commands that reach the server is given as
an argument.
-/

namespace ContentServer
namespace Storage

open Foundation

structure RankEntry where
  userId : Nat
  totalPower : Nat
  name : List UInt8

/-- What the server stores under `lb:power` and `user:name`. -/
structure Ranking where
  power : Table (List UInt8) Nat
  names : Table (List UInt8) (List UInt8)

namespace Ranking

inductive Command where
  | delPower
  | delNames
  | zadd (scores : List (List UInt8 × Nat))
  | hset (names : List (List UInt8 × List UInt8))

/-- Store all pairs, the last one for each key. -/
def insertAll {value : Type} (t : Table (List UInt8) value)
    (pairs : List (List UInt8 × value)) : Table (List UInt8) value :=
  pairs.foldl (fun t pair => AList.insert pair.1 pair.2 t) t

def execute (r : Ranking) : Command -> Ranking
  | .delPower => { r with power := ∅ }
  | .delNames => { r with names := ∅ }
  | .zadd scores => { r with power := insertAll r.power scores }
  | .hset names => { r with names := insertAll r.names names }

/-- Send commands, of which the first `arrived` reach the server. -/
def send (r : Ranking) (commands : List Command) (arrived : Nat) : Ranking :=
  (commands.take arrived).foldl execute r

def update (r : Ranking) (userId totalPower arrived : Nat) : Ranking :=
  r.send [.zadd [(decimal userId, totalPower)]] arrived

def setName (r : Ranking) (userId : Nat) (name : List UInt8) (arrived : Nat) :
    Ranking :=
  r.send [.hset [(decimal userId, name)]] arrived

def rebuild (r : Ranking) (all : List RankEntry) (arrived : Nat) : Ranking :=
  if all.isEmpty then r.send [.delPower, .delNames] arrived
  else
    r.send [.delPower, .delNames,
      .zadd (all.map (fun e => (decimal e.userId, e.totalPower))),
      .hset (all.map (fun e => (decimal e.userId, e.name)))] arrived

/-- Members and scores, the highest score first and equal scores by member. -/
def byRank (r : Ranking) : List (List UInt8 × Nat) :=
  (r.power.entries.map (fun e => (e.1, e.2))).mergeSort
    (fun a b => decide (b.2 < a.2 ∨ (a.2 = b.2 ∧ b.1 ≤ a.1)))

/-- `ZREVRANGE`: negative positions count from the end. -/
def zrevrange (r : Ranking) (start stop : Int) : List (List UInt8 × Nat) :=
  let size : Int := r.byRank.length
  let first := max 0 (if start < 0 then start + size else start)
  let last := min (size - 1) (if stop < 0 then stop + size else stop)
  if first > last then []
  else (r.byRank.drop first.toNat).take (last - first + 1).toNat

/-- The entries of `Top`; `stoull` throws on a member that is no number. -/
def readEntries (r : Ranking) : List (List UInt8 × Nat) -> List RankEntry
  | [] => []
  | (member, score) :: rest =>
      match parseUint member 64 with
      | none => []
      | some userId =>
          { userId := userId
            totalPower := score
            name := (r.names.lookup member).getD [] } :: r.readEntries rest

def top (r : Ranking) (start stop : Int) (fails : Bool) : List RankEntry :=
  if fails then [] else r.readEntries (r.zrevrange start stop)

def rankOf (r : Ranking) (userId : Nat) (fails : Bool) : Option Int :=
  if fails then none
  else (r.byRank.findIdx? (fun e => e.1 == decimal userId)).map (fun i => (i : Int))

theorem lookup_of_mem_byRank {r : Ranking} {p : List UInt8 × Nat} (h : p ∈ r.byRank) :
    r.power.lookup p.1 = some p.2 := by
  rcases List.mem_map.mp (List.mem_mergeSort.mp h) with ⟨e, he, hp⟩
  rw [← hp]
  exact AList.mem_lookup_iff.mpr he

end Ranking

variable {double : Type} {pg : Postgres double}

namespace Db

def owns (db : Db pg) (userId : Nat) : Bool :=
  !(db.items.select (fun _ item => item.ownerId == userId)).isEmpty

/-- The query of `GetAllPower`: one row for each user with items. -/
def powerRows (db : Db pg) :
    Option (List (Nat × {v : Int // pg.sumType v = true} × List UInt8)) :=
  (db.users.entries.filter (fun e => db.owns e.1)).mapM fun e =>
    (store pg.sumType (db.powerSum e.1)).map fun total => (e.1, total, e.2.userName)

end Db

namespace Database

def getAllPower : Query pg (List RankEntry) := do
  let r ← .exec fun db => (Db.powerRows db).map fun rows => (db, rows)
  .commit
  .expect (r.mapM fun row => do
    return { userId := row.1, totalPower := ← asUint64 row.2.1, name := row.2.2 })

end Database

end Storage
end ContentServer
