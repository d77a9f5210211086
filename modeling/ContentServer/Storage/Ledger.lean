import ContentServer.Foundation.Runs
import ContentServer.Storage.Effects

/-!
# The ledger of gold and items

Any sequence of the calls that move gold or change items, by any users and with
any failures.  Every call is kept with the database before it and with its
result, and the books relate a database, the calls made since then and the
database that they lead to.
-/

namespace ContentServer
namespace Storage

open Foundation Transaction

variable {double : Type}

/-- Gold is not negative, and neither is the power of an item. -/
structure Db.NonNegative {pg : Postgres double} (db : Db pg) : Prop where
  gold : forall id user, db.users.lookup id = some user -> 0 ≤ user.gold.val
  power : forall id item, db.items.lookup id = some item -> 0 ≤ item.power.val

inductive Call (pg : Postgres double) where
  | addGold (userId amount : Nat)
  | dropItem (userId itemId : Nat)
  | enhanceItem (userId itemId cost : Nat) (success : Bool) (mult : double)
      (nonNegative : pg.nonNegative mult)

inductive Reply where
  | gold (amount : Nat)
  | dropped (result : DropResult)
  | enhanced (result : EnhanceResult)

variable {pg : Postgres double}

/-- Make a call; `faults` says which of its statements fail. -/
def Call.run (call : Call pg) (faults : Nat -> Bool) (db : Db pg) :
    Result (Db pg) Reply :=
  match call with
  | .addGold userId amount =>
      ((Database.addGold userId amount).run faults db).map .gold
  | .dropItem userId itemId =>
      ((Database.dropItem userId itemId).run faults db).map .dropped
  | .enhanceItem userId itemId cost success mult _ =>
      ((Database.enhanceItem userId itemId cost success mult).run faults db).map
        .enhanced

/-- A call that was made. -/
structure Entry (pg : Postgres double) where
  call : Call pg
  before : Db pg
  result : Result (Db pg) Reply

structure Ledger (pg : Postgres double) where
  db : Db pg
  entries : List (Entry pg)

namespace Ledger

def start (db : Db pg) : Ledger pg where
  db := db
  entries := []

def step (l : Ledger pg) (attempt : Call pg × (Nat -> Bool)) :
    Option (Ledger pg) :=
  let result := attempt.1.run attempt.2 l.db
  some {
    db := result.store
    entries := l.entries ++ [⟨attempt.1, l.db, result⟩] }

end Ledger

/-!
# The sums
-/

namespace Entry

/-- What a committed `AddGold` brought to a user. -/
def credit (userId : Nat) (e : Entry pg) : Nat :=
  match e.call with
  | .addGold id amount => if id = userId ∧ e.result.committed then amount else 0
  | _ => 0

/-- What an `EnhanceItem` that returned `Success` or `Failed` cost a user. -/
def debit (userId : Nat) (e : Entry pg) : Nat :=
  match e.call, e.result.reply with
  | .enhanceItem id _ cost _ _ _, some (.enhanced r) =>
      match r.status with
      | .success | .failed => if id = userId then cost else 0
      | .notOwned | .noGold => 0
  | _, _ => 0

/-- One for an `EnhanceItem` of the item that returned `Success`. -/
def raise (itemId : Nat) (e : Entry pg) : Nat :=
  match e.call, e.result.reply with
  | .enhanceItem _ id _ _ _ _, some (.enhanced r) =>
      match r.status with
      | .success => if id = itemId then 1 else 0
      | .failed | .notOwned | .noGold => 0
  | _, _ => 0

end Entry

/-- A sum over all entries. -/
def total (amount : Entry pg -> Nat) (entries : List (Entry pg)) : Nat :=
  (entries.map amount).sum

theorem total_append (amount : Entry pg -> Nat) (first later : List (Entry pg)) :
    total amount (first ++ later) = total amount first + total amount later := by
  unfold total
  rw [List.map_append, List.sum_append]

theorem total_singleton (amount : Entry pg -> Nat) (e : Entry pg) :
    total amount [e] = amount e := by
  simp [total]

/-!
# The books
-/

/-- The books are right: `db` became `db'` through the entries. -/
structure Books (db : Db pg) (entries : List (Entry pg)) (db' : Db pg) :
    Prop where
  gold : forall userId user, db.users.lookup userId = some user ->
    exists user', db'.users.lookup userId = some user' ∧
      user'.gold.val = user.gold.val + total (Entry.credit userId) entries -
        total (Entry.debit userId) entries
  nobody : forall userId, db.users.lookup userId = none ->
    db'.users.lookup userId = none
  item : forall itemId item, db.items.lookup itemId = some item ->
    exists item', db'.items.lookup itemId = some item' ∧
      item'.ownerId = item.ownerId ∧
      item'.enhanceLevel.val =
        item.enhanceLevel.val + total (Entry.raise itemId) entries
  newItem : forall itemId item', db.items.lookup itemId = none ->
    db'.items.lookup itemId = some item' ->
      item'.enhanceLevel.val =
        pg.defaultLevel.val + total (Entry.raise itemId) entries
  noItem : forall itemId, db'.items.lookup itemId = none ->
    total (Entry.raise itemId) entries = 0

namespace Books

theorem refl (db : Db pg) : Books db [] db where
  gold := fun _ user huser => ⟨user, huser, by simp [total]⟩
  nobody := fun _ hnone => hnone
  item := fun _ item hitem => ⟨item, hitem, rfl, by simp [total]⟩
  newItem := fun _ _ hnone hsome => by
    rw [hnone] at hsome
    cases hsome
  noItem := fun _ _ => rfl

theorem trans {db db' db'' : Db pg} {first later : List (Entry pg)}
    (h : Books db first db') (h' : Books db' later db'') :
    Books db (first ++ later) db'' where
  gold := by
    intro userId user huser
    rcases h.gold userId user huser with ⟨user', huser', hgold⟩
    rcases h'.gold userId user' huser' with ⟨user'', huser'', hgold'⟩
    refine ⟨user'', huser'', ?_⟩
    rw [hgold', hgold, total_append, total_append]
    push_cast
    ring
  nobody := by
    intro userId hnone
    exact h'.nobody userId (h.nobody userId hnone)
  item := by
    intro itemId item hitem
    rcases h.item itemId item hitem with ⟨item', hitem', howner, hlevel⟩
    rcases h'.item itemId item' hitem' with ⟨item'', hitem'', howner', hlevel'⟩
    refine ⟨item'', hitem'', ?_, ?_⟩
    · rw [howner', howner]
    · rw [hlevel', hlevel, total_append]
      push_cast
      ring
  newItem := by
    intro itemId item'' hnone hsome
    rw [total_append]
    cases hmid : db'.items.lookup itemId with
    | none =>
        rw [h'.newItem itemId item'' hmid hsome, h.noItem itemId hmid, zero_add]
    | some item' =>
        rcases h'.item itemId item' hmid with ⟨item, hitem, _, hlevel⟩
        rw [hitem] at hsome
        cases hsome
        rw [hlevel, h.newItem itemId item' hnone hmid]
        push_cast
        ring
  noItem := by
    intro itemId hnone
    rw [total_append, h'.noItem itemId hnone, add_zero]
    cases hmid : db'.items.lookup itemId with
    | none => exact h.noItem itemId hmid
    | some item' =>
        rcases h'.item itemId item' hmid with ⟨item, hitem, _⟩
        rw [hitem] at hnone
        cases hnone

/-- The books of one entry. -/
theorem single {db db' : Db pg} {e : Entry pg}
    (hgold : forall userId user, db.users.lookup userId = some user ->
      exists user', db'.users.lookup userId = some user' ∧
        user'.gold.val = user.gold.val + e.credit userId - e.debit userId)
    (hnobody : forall userId, db.users.lookup userId = none ->
      db'.users.lookup userId = none)
    (hitem : forall itemId item, db.items.lookup itemId = some item ->
      exists item', db'.items.lookup itemId = some item' ∧
        item'.ownerId = item.ownerId ∧
        item'.enhanceLevel.val = item.enhanceLevel.val + e.raise itemId)
    (hnew : forall itemId item', db.items.lookup itemId = none ->
      db'.items.lookup itemId = some item' ->
        item'.enhanceLevel.val = pg.defaultLevel.val + e.raise itemId)
    (hno : forall itemId, db'.items.lookup itemId = none ->
      e.raise itemId = 0) : Books db [e] db' := by
  constructor
  · simpa only [total_singleton] using hgold
  · exact hnobody
  · simpa only [total_singleton] using hitem
  · simpa only [total_singleton] using hnew
  · simpa only [total_singleton] using hno

/-- An entry that changed nothing and counts for nothing. -/
theorem quiet {db : Db pg} {e : Entry pg}
    (h : forall id, e.credit id = 0 ∧ e.debit id = 0 ∧ e.raise id = 0) :
    Books db [e] db := by
  refine single ?_ (fun _ hnone => hnone) ?_ ?_ ?_
  · intro userId user huser
    rcases h userId with ⟨hcredit, hdebit, _⟩
    exact ⟨user, huser, by rw [hcredit, hdebit]; simp⟩
  · intro itemId item hitem
    rcases h itemId with ⟨_, _, hraise⟩
    exact ⟨item, hitem, rfl, by rw [hraise]; simp⟩
  · intro itemId item' hnone hsome
    cases hnone.symm.trans hsome
  · intro itemId _
    exact (h itemId).right.right

end Books

/-!
# One change
-/

variable {db : Db pg}

theorem Db.NonNegative.setUser (hdb : db.NonNegative) {userId : Nat}
    {user : UserRow pg} (huser : 0 ≤ user.gold.val) :
    ({ db with users := AList.insert userId user db.users } : Db pg).NonNegative where
  gold := by
    intro id holder hholder
    rcases Table.lookup_insert_cases db.users userId id user with
      ⟨_, hlookup⟩ | ⟨_, hlookup⟩
    · cases hlookup.symm.trans hholder
      exact huser
    · exact hdb.gold id holder (hlookup.symm.trans hholder)
  power := hdb.power

theorem Db.NonNegative.setItem (hdb : db.NonNegative) {itemId : Nat}
    {item : ItemRow pg} (hitem : 0 ≤ item.power.val) :
    ({ db with items := AList.insert itemId item db.items } : Db pg).NonNegative where
  gold := hdb.gold
  power := by
    intro id other hother
    rcases Table.lookup_insert_cases db.items itemId id item with
      ⟨_, hlookup⟩ | ⟨_, hlookup⟩
    · cases hlookup.symm.trans hother
      exact hitem
    · exact hdb.power id other (hlookup.symm.trans hother)

/-- One user is paid and pays, and the others are not. -/
theorem gold_of_payment {credit debit : Nat -> Nat} {userId : Nat}
    {user user' : UserRow pg} (hlookup : db.users.lookup userId = some user)
    (hgold : user'.gold.val = user.gold.val + credit userId - debit userId)
    (hothers : forall id, id ≠ userId -> credit id = 0 ∧ debit id = 0) :
    forall id holder, db.users.lookup id = some holder ->
      exists holder', (AList.insert userId user' db.users).lookup id =
          some holder' ∧
        holder'.gold.val = holder.gold.val + credit id - debit id := by
  intro id holder hholder
  rcases Table.lookup_insert_cases db.users userId id user' with
    ⟨hid, hinsert⟩ | ⟨hid, hinsert⟩
  · subst hid
    cases hlookup.symm.trans hholder
    exact ⟨user', hinsert, hgold⟩
  · refine ⟨holder, hinsert.trans hholder, ?_⟩
    rw [(hothers id hid).left, (hothers id hid).right]
    simp

/-- One item is raised, and the others are not. -/
theorem item_of_raise {raise : Nat -> Nat} {itemId : Nat}
    {item item' : ItemRow pg} (hlookup : db.items.lookup itemId = some item)
    (howner : item'.ownerId = item.ownerId)
    (hlevel : item'.enhanceLevel.val = item.enhanceLevel.val + raise itemId)
    (hothers : forall id, id ≠ itemId -> raise id = 0) :
    forall id other, db.items.lookup id = some other ->
      exists other', (AList.insert itemId item' db.items).lookup id =
          some other' ∧
        other'.ownerId = other.ownerId ∧
        other'.enhanceLevel.val = other.enhanceLevel.val + raise id := by
  intro id other hother
  rcases Table.lookup_insert_cases db.items itemId id item' with
    ⟨hid, hinsert⟩ | ⟨hid, hinsert⟩
  · subst hid
    cases hlookup.symm.trans hother
    exact ⟨item', hinsert, howner, hlevel⟩
  · refine ⟨other, hinsert.trans hother, rfl, ?_⟩
    rw [hothers id hid]
    simp

/-!
# One call
-/

/-- The reply describes the user and the item in the database. -/
structure Reports (db : Db pg) (userId itemId : Nat) (r : EnhanceResult) :
    Prop where
  gold : exists user, db.users.lookup userId = some user ∧
    (r.gold : Int) = user.gold.val
  item : exists item, db.items.lookup itemId = some item ∧
    item.ownerId = userId ∧ r.enhanceLevel = item.enhanceLevel.val ∧
    r.power = item.power.val
  totalPower : (r.totalPower : Int) = db.powerSum userId

/-- What the result of a call says is true. -/
structure Entry.Honest (e : Entry pg) : Prop where
  rolledBack : e.result.committed = false -> e.result.store = e.before
  refused : forall r, e.result.reply = some (.enhanced r) ->
    r.status = .noGold ∨ r.status = .notOwned -> e.result.store = e.before
  reports : forall userId itemId cost success mult nonNegative r,
    e.call = .enhanceItem userId itemId cost success mult nonNegative ->
    e.result.reply = some (.enhanced r) ->
    r.status = .success ∨ r.status = .failed ->
    Reports e.result.store userId itemId r

theorem Db.powerSum_nonneg {db : Db pg} (h : db.NonNegative) (userId : Nat) :
    0 ≤ db.powerSum userId := by
  unfold Db.powerSum
  apply List.sum_nonneg
  intro power hpower
  rcases List.mem_map.mp hpower with ⟨e, he, heq⟩
  rw [← heq]
  exact h.power e.1 e.2 (Table.mem_select.mp he).left

theorem asInt_of_range {v : Int} (h : -2 ^ 31 ≤ v ∧ v < 2 ^ 31) :
    asInt v = some v :=
  if_pos h

theorem asUint64_of_range {v : Int} (h : 0 ≤ v) (h' : v < 2 ^ 64) :
    asUint64 v = some v.toNat :=
  if_pos ⟨h, h'⟩

/-- Everything that holds of a call on a database with non-negative values. -/
structure Settled (e : Entry pg) : Prop where
  nonNegative : e.result.store.NonNegative
  books : Books e.before [e] e.result.store
  honest : e.Honest

/-- A call that was rolled back. -/
theorem settled_quiet (hdb : db.NonNegative) (call : Call pg)
    {out : Result (Db pg) Reply} (hstore : out.store = db)
    (hcommitted : out.committed = false)
    (hstatus : forall r, out.reply = some (.enhanced r) ->
      r.status = .noGold ∨ r.status = .notOwned) :
    Settled ⟨call, db, out⟩ := by
  rcases out with ⟨reply, kept, committed⟩
  cases hstore
  cases hcommitted
  have hcounts : forall id,
      Entry.credit id ⟨call, kept, ⟨reply, kept, false⟩⟩ = 0 ∧
      Entry.debit id ⟨call, kept, ⟨reply, kept, false⟩⟩ = 0 ∧
      Entry.raise id ⟨call, kept, ⟨reply, kept, false⟩⟩ = 0 := by
    intro id
    cases call with
    | addGold userId amount => simp [Entry.credit, Entry.debit, Entry.raise]
    | dropItem userId itemId => exact ⟨rfl, rfl, rfl⟩
    | enhanceItem userId itemId cost success mult nonNegative =>
        rcases reply with _ | (_ | _ | r)
        · exact ⟨rfl, rfl, rfl⟩
        · exact ⟨rfl, rfl, rfl⟩
        · exact ⟨rfl, rfl, rfl⟩
        · rcases hstatus r rfl with hstatus | hstatus <;>
            simp [Entry.credit, Entry.debit, Entry.raise, hstatus]
  refine ⟨hdb, Books.quiet hcounts, fun _ => rfl, fun _ _ _ => rfl, ?_⟩
  intro _ _ _ _ _ _ r _ hreply hdone
  rcases hstatus r hreply with hnot | hnot <;>
    rcases hdone with hdone | hdone <;>
    rw [hnot] at hdone <;> cases hdone

theorem settled_added (hdb : db.NonNegative) {userId amount : Nat}
    {out : Result (Db pg) Nat} (h : Database.Added db userId amount out) :
    Settled ⟨.addGold userId amount, db, out.map .gold⟩ := by
  rcases h with ⟨hcommitted, user, user', hlookup, _, hgold, hstore⟩
  rcases out with ⟨reply, db', committed⟩
  cases hcommitted
  cases hstore
  have huser : 0 ≤ user'.gold.val := by
    have hold := hdb.gold userId user hlookup
    omega
  refine ⟨hdb.setUser huser, Books.single ?_ ?_ ?_ ?_ ?_, ?_, ?_, ?_⟩
  · apply gold_of_payment hlookup
    · rw [hgold]
      simp [Entry.credit, Entry.debit, Result.map]
    · intro id hid
      simp [Entry.credit, Entry.debit, Ne.symm hid]
  · intro id hnone
    exact (Table.lookup_insert_eq_none hlookup).mpr hnone
  · intro id item hitem
    exact ⟨item, hitem, rfl, by simp [Entry.raise]⟩
  · intro id item hnone hsome
    cases hnone.symm.trans hsome
  · intro _ _
    rfl
  · intro hcontra
    cases hcontra
  · intro r hreply
    rcases Option.map_eq_some_iff.mp hreply with ⟨_, _, hcontra⟩
    cases hcontra
  · intro _ _ _ _ _ _ _ hcall
    cases hcall

theorem settled_dropped (hdb : db.NonNegative)
    (hpower : 0 ≤ pg.defaultPower.val) {userId itemId : Nat}
    {out : Result (Db pg) DropResult}
    (h : Database.Dropped db userId itemId out) :
    Settled ⟨.dropItem userId itemId, db, out.map .dropped⟩ := by
  rcases h with ⟨hcommitted, hfresh, hstore⟩
  rcases out with ⟨reply, db', committed⟩
  cases hcommitted
  cases hstore
  refine ⟨hdb.setItem hpower, Books.single ?_ ?_ ?_ ?_ ?_, ?_, ?_, ?_⟩
  · intro id user huser
    exact ⟨user, huser, by simp [Entry.credit, Entry.debit]⟩
  · intro _ hnone
    exact hnone
  · intro id item hitem
    rcases Table.lookup_insert_cases db.items itemId id
      ⟨userId, pg.defaultLevel, pg.defaultPower⟩ with ⟨hid, _⟩ | ⟨_, hlookup⟩
    · rw [hid, hfresh] at hitem
      cases hitem
    · exact ⟨item, hlookup.trans hitem, rfl, by simp [Entry.raise]⟩
  · intro id item hnone hsome
    rcases Table.lookup_insert_cases db.items itemId id
      ⟨userId, pg.defaultLevel, pg.defaultPower⟩ with
      ⟨_, hlookup⟩ | ⟨_, hlookup⟩
    · cases hlookup.symm.trans hsome
      simp [Entry.raise]
    · cases (hlookup.trans hnone).symm.trans hsome
  · intro _ _
    rfl
  · intro hcontra
    cases hcontra
  · intro r hreply
    rcases Option.map_eq_some_iff.mp hreply with ⟨_, _, hcontra⟩
    cases hcontra
  · intro _ _ _ _ _ _ _ hcall
    cases hcall

/-- After the commit no conversion throws, so the reply is delivered. -/
theorem enhanced_reply {db' : Db pg} (hdb' : db'.NonNegative) {userId : Nat}
    {user : UserRow pg} (huser : db'.users.lookup userId = some user)
    (item : ItemRow pg) (hsum : pg.sumType (db'.powerSum userId) = true)
    (status : EnhanceResult.Status) :
    (do return {
        status := status
        enhanceLevel := ← asInt item.enhanceLevel
        power := ← asInt item.power
        gold := ← asUint64 user.gold
        totalPower := ← asUint64 (db'.powerSum userId) } :
          Option EnhanceResult) =
      some ⟨status, item.enhanceLevel.val, item.power.val, user.gold.val.toNat,
        (db'.powerSum userId).toNat⟩ := by
  rw [asInt_of_range (pg.levelColumn_int _ item.enhanceLevel.property),
    asInt_of_range (pg.powerColumn_int _ item.power.property),
    asUint64_of_range (hdb'.gold userId user huser)
      (pg.goldColumn_lt _ user.gold.property),
    asUint64_of_range (Db.powerSum_nonneg hdb' userId) (pg.sumType_lt _ hsum)]
  rfl

theorem settled_enhanced (hdb : db.NonNegative) {userId itemId cost : Nat}
    {success : Bool} {mult : double} (hmult : pg.nonNegative mult)
    {out : Result (Db pg) EnhanceResult}
    (h : Database.Enhanced db userId itemId cost success mult out) :
    Settled ⟨.enhanceItem userId itemId cost success mult hmult, db,
      out.map .enhanced⟩ := by
  rcases h with ⟨hcommitted, user, user', item, item', huser, hcost, _, hgold,
    hitem, howner, howner', hlevel, hpower, hstore, hsum, hreply⟩
  rcases out with ⟨reply, db', committed⟩
  cases hcommitted
  cases hstore
  have huser' : 0 ≤ user'.gold.val := by omega
  have hitem' : 0 ≤ item'.power.val :=
    pg.roundProduct_nonneg _ mult _ (hdb.power itemId item hitem) hmult hpower
  have hdb' : ({ db with
      users := AList.insert userId user' db.users
      items := AList.insert itemId item' db.items } : Db pg).NonNegative :=
    (hdb.setUser huser').setItem hitem'
  have hfoundUser : (AList.insert userId user' db.users).lookup userId =
      some user' := AList.lookup_insert db.users
  have hfoundItem : (AList.insert itemId item' db.items).lookup itemId =
      some item' := AList.lookup_insert db.items
  have hdelivered := hreply.trans
    (enhanced_reply hdb' hfoundUser item' hsum _)
  cases hdelivered
  refine ⟨hdb', Books.single ?_ ?_ ?_ ?_ ?_, ?_, ?_, ?_⟩
  · apply gold_of_payment huser
    · rw [hgold]
      cases success <;> simp [Entry.credit, Entry.debit, Result.map]
    · intro id hid
      cases success <;>
        simp [Entry.credit, Entry.debit, Result.map, Ne.symm hid]
  · intro id hnone
    exact (Table.lookup_insert_eq_none huser).mpr hnone
  · apply item_of_raise hitem
    · rw [howner, howner']
    · rw [hlevel]
      cases success <;> simp [Entry.raise, Result.map]
    · intro id hid
      cases success <;> simp [Entry.raise, Result.map, Ne.symm hid]
  · intro id other hnone hsome
    have hstill : (AList.insert itemId item' db.items).lookup id = none :=
      (Table.lookup_insert_eq_none hitem).mpr hnone
    cases hstill.symm.trans hsome
  · intro id hnone
    have hid : itemId ≠ id := by
      intro hid
      subst hid
      cases hfoundItem.symm.trans hnone
    cases success <;> simp [Entry.raise, Result.map, hid]
  · intro hcontra
    cases hcontra
  · intro r hr hnot
    cases hr
    cases success <;> rcases hnot with hnot | hnot <;> cases hnot
  · intro _ _ _ _ _ _ r hcall hr _
    cases hcall
    cases hr
    exact {
      gold := ⟨user', hfoundUser, Int.toNat_of_nonneg huser'⟩
      item := ⟨item', hfoundItem, howner', rfl, rfl⟩
      totalPower := Int.toNat_of_nonneg (Db.powerSum_nonneg hdb' userId) }

theorem settled_call (hpower : 0 ≤ pg.defaultPower.val) (hdb : db.NonNegative)
    (call : Call pg) (faults : Nat -> Bool) :
    Settled ⟨call, db, call.run faults db⟩ := by
  cases call with
  | addGold userId amount =>
      change Settled ⟨_, _, Result.map _ _⟩
      rcases Database.addGold_cases db userId amount faults with hthrow | hadd
      · rw [hthrow]
        exact settled_quiet hdb _ rfl rfl (fun _ hreply => by cases hreply)
      · exact settled_added hdb hadd
  | dropItem userId itemId =>
      change Settled ⟨_, _, Result.map _ _⟩
      rcases Database.dropItem_cases db userId itemId faults with hthrow | hdrop
      · rw [hthrow]
        exact settled_quiet hdb _ rfl rfl (fun _ hreply => by cases hreply)
      · exact settled_dropped hdb hpower hdrop
  | enhanceItem userId itemId cost success mult hmult =>
      change Settled ⟨_, _, Result.map _ _⟩
      rcases Database.enhanceItem_cases db userId itemId cost success mult faults
        with hthrow | hpoor | hforeign | hdone
      · rw [hthrow]
        exact settled_quiet hdb _ rfl rfl (fun _ hreply => by cases hreply)
      · rw [hpoor]
        refine settled_quiet hdb _ rfl rfl ?_
        intro r hreply
        cases hreply
        exact Or.inl rfl
      · rw [hforeign]
        refine settled_quiet hdb _ rfl rfl ?_
        intro r hreply
        cases hreply
        exact Or.inr rfl
      · exact settled_enhanced hdb hmult hdone

/-!
# Whole runs
-/

/-- What is known of a ledger that was kept since `db`. -/
structure Ledger.Kept (db : Db pg) (entries : List (Entry pg)) (l : Ledger pg) :
    Prop where
  nonNegative : l.db.NonNegative
  books : Books db entries l.db
  honest : forall e, e ∈ entries -> e.Honest

/-- The books of a run that continues a ledger. -/
theorem ledger_run (hpower : 0 ≤ pg.defaultPower.val)
    {attempts : List (Call pg × (Nat -> Bool))} {m l : Ledger pg}
    (hm : m.db.NonNegative) (hrun : runFrom Ledger.step m attempts = some l) :
    exists entries, l.entries = m.entries ++ entries ∧
      l.Kept m.db entries := by
  induction attempts generalizing m with
  | nil =>
      cases hrun
      refine ⟨[], (List.append_nil _).symm, hm, Books.refl _, ?_⟩
      intro e he
      cases he
  | cons attempt rest ih =>
      rcases runFrom_cons_some hrun with ⟨n, hstep, hrest⟩
      cases hstep
      have hcall := settled_call hpower hm attempt.1 attempt.2
      rcases ih hcall.nonNegative hrest with ⟨entries, hentries, hkept⟩
      refine ⟨_ :: entries, ?_, hkept.nonNegative,
        hcall.books.trans hkept.books, ?_⟩
      · rw [hentries]
        exact List.append_assoc _ _ _
      · intro e he
        rcases List.mem_cons.mp he with hfirst | hlater
        · rw [hfirst]
          exact hcall.honest
        · exact hkept.honest e hlater

/-- The ledger is exact, for the whole run and from every point of it on. -/
theorem ledger_exact (hpower : 0 ≤ pg.defaultPower.val) (hdb : db.NonNegative)
    {attempts : List (Call pg × (Nat -> Bool))} {l : Ledger pg}
    (hrun : runFrom Ledger.step (Ledger.start db) attempts = some l) :
    l.Kept db l.entries ∧
    (forall m : Ledger pg, Visits Ledger.step (Ledger.start db) attempts m ->
      exists later, l.entries = m.entries ++ later ∧ l.Kept m.db later) := by
  constructor
  · rcases ledger_run hpower hdb hrun with ⟨entries, hentries, hkept⟩
    rw [hentries]
    exact hkept
  · intro m hm
    have hnonNegative : m.db.NonNegative := by
      rcases hm with ⟨pre, _, _, hpre⟩
      rcases ledger_run hpower hdb hpre with ⟨_, _, hkept⟩
      exact hkept.nonNegative
    rcases hm.rest hrun with ⟨post, hpost⟩
    exact ledger_run hpower hnonNegative hpost

/-- Two users without items. -/
def twoUsers : Db percentServer where
  users := AList.insert 1 ⟨[97], ⟨0, rfl⟩⟩ (AList.insert 2 ⟨[98], ⟨50, rfl⟩⟩ ∅)
  items := ∅

theorem twoUsers_nonNegative : twoUsers.NonNegative where
  gold := by
    intro id user huser
    rcases Table.lookup_insert_cases _ 1 id _ with ⟨_, hone⟩ | ⟨_, hone⟩
    · cases hone.symm.trans huser
      decide
    · have hrest := hone.symm.trans huser
      rcases Table.lookup_insert_cases ∅ 2 id _ with ⟨_, htwo⟩ | ⟨_, htwo⟩
      · cases htwo.symm.trans hrest
        decide
      · cases htwo.symm.trans hrest
  power := by
    intro id item hitem
    cases hitem

/-- A reward for nobody, a purchase, an attempt on a foreign item, a purchase
that the user cannot pay, and a commit that fails. -/
def purchases : List (Call percentServer × (Nat -> Bool)) :=
  [(.addGold 9 5, fun _ => false),
    (.addGold 1 500, fun _ => false),
    (.dropItem 1 7, fun _ => false),
    (.enhanceItem 1 7 100 true 120 trivial, fun _ => false),
    (.enhanceItem 2 7 10 true 120 trivial, fun _ => false),
    (.enhanceItem 2 7 100 true 120 trivial, fun _ => false),
    (.enhanceItem 1 7 200 false 100 trivial, fun n => n == 4)]

theorem ledger_exact_purchases :
    exists l : Ledger percentServer,
      runFrom Ledger.step (Ledger.start twoUsers) purchases = some l ∧
      (l.db.users.lookup 1).map (fun user => user.gold.val) = some 400 ∧
      (l.db.items.lookup 7).map (fun item =>
        (item.enhanceLevel.val, item.power.val)) = some (1, 12) ∧
      l.Kept twoUsers l.entries := by
  have hrun : runFrom Ledger.step (Ledger.start twoUsers) purchases = some _ :=
    rfl
  refine ⟨_, hrun, ?_, ?_, (ledger_exact (by decide) twoUsers_nonNegative hrun).left⟩
  · decide +kernel
  · decide +kernel

end Storage
end ContentServer
