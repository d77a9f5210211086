import ContentServer.Foundation.Relation
import ContentServer.Foundation.Transaction

/-!
# The database

The tables of users and items and the transactions of `Database` on them.  The
schema is not part of the repository, so the column types, the defaults and the
floating point arithmetic of the server are parameters.  A row only holds
values that its columns can hold; a statement that would store another value
fails.  Ids of new rows are chosen by the database and are given as arguments.
-/

namespace ContentServer
namespace Storage

open Foundation

/-- The database server as the queries rely on it. -/
structure Postgres (double : Type) where
  /-- The values of the columns `gold`, `enhance_level` and `power`, and of the
  type of `SUM(power)`. -/
  goldColumn : Int -> Bool
  levelColumn : Int -> Bool
  powerColumn : Int -> Bool
  sumType : Int -> Bool
  /-- They fit the types that the code reads them into. -/
  goldColumn_lt : forall v, goldColumn v = true -> v < 2 ^ 64
  levelColumn_int : forall v, levelColumn v = true -> -2 ^ 31 ≤ v ∧ v < 2 ^ 31
  powerColumn_int : forall v, powerColumn v = true -> -2 ^ 31 ≤ v ∧ v < 2 ^ 31
  sumType_lt : forall v, sumType v = true -> v < 2 ^ 64
  /-- `ROUND(power * mult::float8)::int`; `none` when it is no `int`. -/
  roundProduct : Int -> double -> Option Int
  nonNegative : double -> Prop
  roundProduct_nonneg : forall power mult result, 0 ≤ power ->
    nonNegative mult -> roundProduct power mult = some result -> 0 ≤ result
  defaultGold : {v : Int // goldColumn v = true}
  defaultLevel : {v : Int // levelColumn v = true}
  defaultPower : {v : Int // powerColumn v = true}

/-- Store a value in a column. -/
def store (column : Int -> Bool) (v : Int) : Option {v : Int // column v = true} :=
  if h : column v = true then some ⟨v, h⟩ else none

theorem store_eq_some {column : Int -> Bool} {v : Int}
    {stored : {v : Int // column v = true}}
    (h : store column v = some stored) : stored.val = v := by
  unfold store at h
  by_cases hv : column v = true
  · rw [dif_pos hv] at h
    cases h
    rfl
  · rw [dif_neg hv] at h
    cases h

/-- `as<int>()`; `none` stands for the exception. -/
def asInt (v : Int) : Option Int :=
  if -2 ^ 31 ≤ v ∧ v < 2 ^ 31 then some v else none

/-- `as<uint64_t>()`. -/
def asUint64 (v : Int) : Option Nat :=
  if 0 ≤ v ∧ v < 2 ^ 64 then some v.toNat else none

/-- A server whose multipliers are whole percentages. -/
def percentServer : Postgres Nat where
  goldColumn := fun v => decide (v < 2 ^ 63)
  levelColumn := fun v => decide (-2 ^ 31 ≤ v ∧ v < 2 ^ 31)
  powerColumn := fun v => decide (-2 ^ 31 ≤ v ∧ v < 2 ^ 31)
  sumType := fun v => decide (v < 2 ^ 63)
  goldColumn_lt := by
    intro v h
    have := of_decide_eq_true h
    omega
  levelColumn_int := by
    intro v h
    exact of_decide_eq_true h
  powerColumn_int := by
    intro v h
    exact of_decide_eq_true h
  sumType_lt := by
    intro v h
    have := of_decide_eq_true h
    omega
  roundProduct := fun power mult => some ((power * mult + 50) / 100)
  nonNegative := fun _ => True
  roundProduct_nonneg := by
    intro power mult result hpower _ h
    cases h
    positivity
  defaultGold := ⟨0, rfl⟩
  defaultLevel := ⟨0, rfl⟩
  defaultPower := ⟨10, rfl⟩

variable {double : Type}

structure UserRow (pg : Postgres double) where
  userName : List UInt8
  gold : {v : Int // pg.goldColumn v = true}

structure ItemRow (pg : Postgres double) where
  ownerId : Nat
  enhanceLevel : {v : Int // pg.levelColumn v = true}
  power : {v : Int // pg.powerColumn v = true}

structure Db (pg : Postgres double) where
  users : Table Nat (UserRow pg)
  items : Table Nat (ItemRow pg)

/-- A transaction of the code, `pqxx::work`. -/
abbrev Query (pg : Postgres double) (α : Type) : Type :=
  Transaction (Db pg) α

variable {pg : Postgres double}

namespace Db

def updateUsers (db : Db pg) (cond : Nat -> UserRow pg -> Bool)
    (set : UserRow pg -> Option (UserRow pg)) :
    Option (Db pg × List (UserRow pg)) :=
  (db.users.update cond set).map fun done =>
    ({ db with users := done.1 }, done.2)

def updateItems (db : Db pg) (cond : Nat -> ItemRow pg -> Bool)
    (set : ItemRow pg -> Option (ItemRow pg)) :
    Option (Db pg × List (ItemRow pg)) :=
  (db.items.update cond set).map fun done =>
    ({ db with items := done.1 }, done.2)

/-- The sum over the items of an owner; an empty sum is zero. -/
def powerSum (db : Db pg) (ownerId : Nat) : Int :=
  ((db.items.select (fun _ item => item.ownerId == ownerId)).map
    (fun e => e.2.power.val)).sum

/-- `SELECT COALESCE(SUM(power), 0) FROM items WHERE owner_id = $1`. -/
def totalPower (ownerId : Nat) (db : Db pg) :
    Option (Db pg × {v : Int // pg.sumType v = true}) :=
  (store pg.sumType (db.powerSum ownerId)).map fun total => (db, total)

end Db

/-- `one_row()`. -/
def oneRow {α : Type} (rows : List α) : Option α :=
  match rows with
  | [r] => some r
  | _ => none

structure Item where
  itemId : Nat
  enhanceLevel : Int
  power : Int

structure DropResult where
  itemId : Nat
  totalPower : Nat

namespace EnhanceResult

inductive Status where
  | success
  | failed
  | notOwned
  | noGold

end EnhanceResult

structure EnhanceResult where
  status : EnhanceResult.Status
  enhanceLevel : Int
  power : Int
  gold : Nat
  totalPower : Nat

namespace Database

/-- `userId` is the id of a new user. -/
def loginOrRegister (name : List UInt8) (userId : Nat) : Query pg Nat := do
  let r ← .exec fun db =>
    match db.users.select (fun _ user => user.userName == name) with
    | e :: _ => some (db, e.1)
    | [] =>
        match db.users.insertRow userId ⟨name, pg.defaultGold⟩ with
        | none => none
        | some users => some ({ db with users := users }, userId)
  .commit
  return r

def getGold (userId : Nat) : Query pg Nat := do
  let rows ← .exec fun db =>
    some (db, (db.users.select (fun id _ => id == userId)).map (fun e => e.2.gold))
  let r ← .expect (oneRow rows)
  .commit
  .expect (asUint64 r)

def addGold (userId amount : Nat) : Query pg Nat := do
  let rows ← .exec fun db =>
    db.updateUsers (fun id _ => id == userId) fun user =>
      (store pg.goldColumn (user.gold + amount)).map fun gold =>
        { user with gold := gold }
  let r ← .expect (oneRow rows)
  .commit
  .expect (asUint64 r.gold)

/-- `itemId` is the id of the new item. -/
def dropItem (userId itemId : Nat) : Query pg DropResult := do
  let r ← .exec fun db =>
    match db.items.insertRow itemId ⟨userId, pg.defaultLevel, pg.defaultPower⟩ with
    | none => none
    | some items => some ({ db with items := items }, itemId)
  let tp ← .exec (Db.totalPower userId)
  .commit
  .expect do return { itemId := r, totalPower := ← asUint64 tp }

def getItems (userId : Nat) : Query pg (List Item) := do
  let r ← .exec fun db =>
    some (db, (db.items.select (fun _ item => item.ownerId == userId)).mergeSort
      (fun a b => decide (a.1 ≤ b.1)))
  .commit
  .expect (r.mapM fun row => do
    return {
      itemId := row.1
      enhanceLevel := ← asInt row.2.enhanceLevel
      power := ← asInt row.2.power })

def getItem (userId itemId : Nat) : Query pg (Option Item) := do
  let r ← .exec fun db =>
    some (db, (db.items.select
      (fun id item => item.ownerId == userId && id == itemId)).map (fun e => e.2))
  .commit
  match r with
  | [] => return none
  | item :: _ =>
      .expect do
        return some
          { itemId := itemId
            enhanceLevel := ← asInt item.enhanceLevel
            power := ← asInt item.power }

def enhanceItem (userId itemId cost : Nat) (success : Bool) (mult : double) :
    Query pg EnhanceResult := do
  let g ← .exec fun db =>
    db.updateUsers (fun id user => id == userId && decide (user.gold.val ≥ cost))
      fun user =>
        (store pg.goldColumn (user.gold - cost)).map fun gold =>
          { user with gold := gold }
  match g with
  | [] => return ⟨.noGold, 0, 0, 0, 0⟩
  | user :: _ =>
      let it ← .exec fun db =>
        db.updateItems (fun id item => item.ownerId == userId && id == itemId)
          fun item => do
            let level ← store pg.levelColumn
              (item.enhanceLevel + if success then 1 else 0)
            let power ← store pg.powerColumn (← pg.roundProduct item.power mult)
            return { item with enhanceLevel := level, power := power }
      match it with
      | [] => return ⟨.notOwned, 0, 0, 0, 0⟩
      | item :: _ =>
          let t ← .exec (Db.totalPower userId)
          .commit
          .expect do
            return {
              status := if success then .success else .failed
              enhanceLevel := ← asInt item.enhanceLevel
              power := ← asInt item.power
              gold := ← asUint64 user.gold
              totalPower := ← asUint64 t }

end Database

end Storage
end ContentServer
