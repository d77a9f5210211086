import ContentServer.Storage.Database

/-!
# What a transaction can do

Each transaction either is rolled back or commits one change, which is stated in
full: the rows that it found and the rows that it stored.
-/

namespace ContentServer
namespace Storage
namespace Database

open Foundation Transaction

variable {double : Type} {pg : Postgres double}

theorem onlyKey_user (userId : Nat) :
    Table.OnlyKey (fun id (_ : UserRow pg) => id == userId) userId := by
  intro id _ h
  simpa using h

theorem onlyKey_payer (userId cost : Nat) :
    Table.OnlyKey (fun id (user : UserRow pg) =>
      id == userId && decide (user.gold.val ≥ cost)) userId := by
  intro id _ h
  simp only [Bool.and_eq_true, beq_iff_eq] at h
  exact h.left

theorem onlyKey_item (userId itemId : Nat) :
    Table.OnlyKey (fun id (item : ItemRow pg) =>
      item.ownerId == userId && id == itemId) itemId := by
  intro id _ h
  simp only [Bool.and_eq_true, beq_iff_eq] at h
  exact h.right

theorem updateUsers_cases {db copy : Db pg} {cond : Nat -> UserRow pg -> Bool}
    {set : UserRow pg -> Option (UserRow pg)} {rows : List (UserRow pg)}
    {userId : Nat} (hkey : Table.OnlyKey cond userId)
    (h : db.updateUsers cond set = some (copy, rows)) :
    (rows = [] ∧ copy = db ∧
      forall user, db.users.lookup userId = some user ->
        cond userId user = false) ∨
    (exists user user', db.users.lookup userId = some user ∧
      cond userId user = true ∧ set user = some user' ∧
      copy = { db with users := AList.insert userId user' db.users } ∧
      rows = [user']) := by
  unfold Db.updateUsers at h
  exact Table.update_cases hkey (fun users => { db with users := users }) h

theorem updateItems_cases {db copy : Db pg} {cond : Nat -> ItemRow pg -> Bool}
    {set : ItemRow pg -> Option (ItemRow pg)} {rows : List (ItemRow pg)}
    {itemId : Nat} (hkey : Table.OnlyKey cond itemId)
    (h : db.updateItems cond set = some (copy, rows)) :
    (rows = [] ∧ copy = db ∧
      forall item, db.items.lookup itemId = some item ->
        cond itemId item = false) ∨
    (exists item item', db.items.lookup itemId = some item ∧
      cond itemId item = true ∧ set item = some item' ∧
      copy = { db with items := AList.insert itemId item' db.items } ∧
      rows = [item']) := by
  unfold Db.updateItems at h
  exact Table.update_cases hkey (fun items => { db with items := items }) h

theorem setGold_eq_some {user user' : UserRow pg} {v : Int}
    (h : ((store pg.goldColumn v).map fun gold =>
      { user with gold := gold }) = some user') :
    user'.userName = user.userName ∧ user'.gold.val = v := by
  rcases Option.map_eq_some_iff.mp h with ⟨gold, hgold, huser⟩
  subst huser
  exact ⟨rfl, store_eq_some hgold⟩

/-- The amount was added to the gold of the user. -/
structure Added (db : Db pg) (userId amount : Nat) (out : Result (Db pg) Nat) :
    Prop where
  committed : out.committed = true
  change : exists user user', db.users.lookup userId = some user ∧
    user'.userName = user.userName ∧
    user'.gold.val = user.gold.val + amount ∧
    out.store = { db with users := AList.insert userId user' db.users }

theorem addGold_cases (db : Db pg) (userId amount : Nat) (faults : Nat -> Bool) :
    (addGold userId amount).run faults db = ⟨none, db, false⟩ ∨
    Added db userId amount ((addGold userId amount).run faults db) := by
  rcases run_eq_finish (addGold userId amount) faults db with ⟨w, hw, hrun⟩
  rw [hrun]
  unfold addGold
  rcases hw.finish_exec _ _ with hthrow | ⟨copy, rows, v, hupdate, hv, hnext⟩
  · exact Or.inl hthrow
  rw [hnext]
  rcases updateUsers_cases (onlyKey_user userId) hupdate with
    ⟨hrows, _⟩ | ⟨user, user', hlookup, _, hset, hcopy, hrows⟩
  · -- Nobody has this id, so `one_row` throws.
    subst hrows
    exact Or.inl hv.finish_expect_none
  · subst hrows
    change finish (commit >>= _) faults v = _ ∨ Added db userId amount
      (finish (commit >>= _) faults v)
    rcases hv.finish_commit _ with hthrow | ⟨z, hz, hlast⟩
    · exact Or.inl hthrow
    · right
      rw [hlast, hz.finish_expect]
      rcases setGold_eq_some hset with ⟨hname, hgold⟩
      exact ⟨rfl, user, user', hlookup, hname, hgold, hcopy⟩

/-- A default item was stored under a new id. -/
structure Dropped (db : Db pg) (userId itemId : Nat)
    (out : Result (Db pg) DropResult) : Prop where
  committed : out.committed = true
  fresh : db.items.lookup itemId = none
  change : out.store = { db with
    items := AList.insert itemId ⟨userId, pg.defaultLevel, pg.defaultPower⟩
      db.items }
  reply : out.reply = (asUint64 (out.store.powerSum userId)).map
    fun total => { itemId := itemId, totalPower := total }

theorem totalPower_eq_some {db copy : Db pg} {userId : Nat}
    {total : {v : Int // pg.sumType v = true}}
    (h : Db.totalPower userId db = some (copy, total)) :
    copy = db ∧ total.val = db.powerSum userId := by
  rcases Option.map_eq_some_iff.mp h with ⟨sum, hsum, hpair⟩
  cases hpair
  exact ⟨rfl, store_eq_some hsum⟩

theorem dropItem_cases (db : Db pg) (userId itemId : Nat) (faults : Nat -> Bool) :
    (dropItem userId itemId).run faults db = ⟨none, db, false⟩ ∨
    Dropped db userId itemId ((dropItem userId itemId).run faults db) := by
  rcases run_eq_finish (dropItem userId itemId) faults db with ⟨w, hw, hrun⟩
  rw [hrun]
  unfold dropItem
  rcases hw.finish_exec _ _ with hthrow | ⟨copy, id, v, hinsert, hv, hnext⟩
  · exact Or.inl hthrow
  rw [hnext]
  cases hrow : db.items.insertRow itemId
      ⟨userId, pg.defaultLevel, pg.defaultPower⟩ with
  | none =>
      rw [hrow] at hinsert
      cases hinsert
  | some items =>
      rw [hrow] at hinsert
      cases hinsert
      rcases Table.insertRow_eq_some hrow with ⟨hfresh, hitems⟩
      rcases hv.finish_exec _ _ with hthrow | ⟨copy, total, u, htotal, hu, hsum⟩
      · exact Or.inl hthrow
      rw [hsum]
      rcases totalPower_eq_some htotal with ⟨hcopy, hpower⟩
      subst hcopy
      rcases hu.finish_commit _ with hthrow | ⟨z, hz, hlast⟩
      · exact Or.inl hthrow
      · right
        rw [hlast, hz.finish_expect]
        refine ⟨rfl, hfresh, by rw [hitems], ?_⟩
        show (asUint64 total.val >>= fun total =>
          some ({ itemId := itemId, totalPower := total } : DropResult)) = _
        rw [hpower]
        cases asUint64 (Db.powerSum { db with items := items } userId) <;> rfl

/-- The cost was taken from the user and the item of the user was changed. -/
structure Enhanced (db : Db pg) (userId itemId cost : Nat) (success : Bool)
    (mult : double) (out : Result (Db pg) EnhanceResult) : Prop where
  committed : out.committed = true
  change : exists user user' item item',
    db.users.lookup userId = some user ∧
    (cost : Int) ≤ user.gold.val ∧
    user'.userName = user.userName ∧
    user'.gold.val = user.gold.val - cost ∧
    db.items.lookup itemId = some item ∧
    item.ownerId = userId ∧
    item'.ownerId = userId ∧
    item'.enhanceLevel.val = item.enhanceLevel.val + (if success then 1 else 0) ∧
    pg.roundProduct item.power.val mult = some item'.power.val ∧
    out.store = { db with
      users := AList.insert userId user' db.users
      items := AList.insert itemId item' db.items } ∧
    pg.sumType (out.store.powerSum userId) = true ∧
    out.reply = do
      return {
        status := if success then .success else .failed
        enhanceLevel := ← asInt item'.enhanceLevel
        power := ← asInt item'.power
        gold := ← asUint64 user'.gold
        totalPower := ← asUint64 (out.store.powerSum userId) }

theorem enhanceRow_eq_some {item item' : ItemRow pg} {success : Bool}
    {mult : double}
    (h : (do
      let level ← store pg.levelColumn
        (item.enhanceLevel + if success then 1 else 0)
      let power ← store pg.powerColumn (← pg.roundProduct item.power mult)
      return { item with enhanceLevel := level, power := power }) = some item') :
    item'.ownerId = item.ownerId ∧
      item'.enhanceLevel.val =
        item.enhanceLevel.val + (if success then 1 else 0) ∧
      pg.roundProduct item.power.val mult = some item'.power.val := by
  rcases Option.bind_eq_some_iff.mp h with ⟨level, hlevel, hrest⟩
  rcases Option.bind_eq_some_iff.mp hrest with ⟨product, hproduct, hlast⟩
  rcases Option.bind_eq_some_iff.mp hlast with ⟨power, hpower, hitem⟩
  cases hitem
  refine ⟨rfl, store_eq_some hlevel, ?_⟩
  rw [hproduct, store_eq_some hpower]

theorem enhanceItem_cases (db : Db pg) (userId itemId cost : Nat)
    (success : Bool) (mult : double) (faults : Nat -> Bool) :
    (enhanceItem userId itemId cost success mult).run faults db =
      ⟨none, db, false⟩ ∨
    (enhanceItem userId itemId cost success mult).run faults db =
      ⟨some ⟨.noGold, 0, 0, 0, 0⟩, db, false⟩ ∨
    (enhanceItem userId itemId cost success mult).run faults db =
      ⟨some ⟨.notOwned, 0, 0, 0, 0⟩, db, false⟩ ∨
    Enhanced db userId itemId cost success mult
      ((enhanceItem userId itemId cost success mult).run faults db) := by
  rcases run_eq_finish (enhanceItem userId itemId cost success mult) faults db
    with ⟨w, hw, hrun⟩
  rw [hrun]
  unfold enhanceItem
  rcases hw.finish_exec _ _ with hthrow | ⟨copy, g, v, hpay, hv, hnext⟩
  · exact Or.inl hthrow
  rw [hnext]
  rcases updateUsers_cases (onlyKey_payer userId cost) hpay with
    ⟨hg, hcopy, _⟩ | ⟨user, user', hlookup, hcond, hset, hcopy, hg⟩
  · subst hg hcopy
    exact Or.inr (Or.inl (hv.finish_pure _))
  subst hg
  change finish (exec _ >>= _) faults v = _ ∨ finish (exec _ >>= _) faults v = _ ∨
    finish (exec _ >>= _) faults v = _ ∨
    Enhanced db userId itemId cost success mult (finish (exec _ >>= _) faults v)
  rcases hv.finish_exec _ _ with hthrow | ⟨copy2, it, u, hitem, hu, hnext2⟩
  · exact Or.inl hthrow
  rw [hnext2]
  rcases updateItems_cases (onlyKey_item userId itemId) hitem with
    ⟨hit, hcopy2, _⟩ | ⟨item, item', hfound, howner, hchange, hcopy2, hit⟩
  · -- The gold is already deducted in the copy, which is now discarded.
    subst hit
    exact Or.inr (Or.inr (Or.inl (hu.finish_pure _)))
  subst hit
  change finish (exec _ >>= _) faults u = _ ∨ finish (exec _ >>= _) faults u = _ ∨
    finish (exec _ >>= _) faults u = _ ∨
    Enhanced db userId itemId cost success mult (finish (exec _ >>= _) faults u)
  rcases hu.finish_exec _ _ with hthrow | ⟨copy3, total, t, htotal, ht, hnext3⟩
  · exact Or.inl hthrow
  rw [hnext3]
  rcases totalPower_eq_some htotal with ⟨hcopy3, hsum⟩
  subst hcopy3
  rcases ht.finish_commit _ with hthrow | ⟨z, hz, hlast⟩
  · exact Or.inl hthrow
  right; right; right
  rw [hlast, hz.finish_expect]
  rcases setGold_eq_some hset with ⟨hname, hgold⟩
  rcases enhanceRow_eq_some hchange with ⟨howner', hlevel, hpower⟩
  simp only [Bool.and_eq_true, beq_iff_eq, decide_eq_true_eq] at hcond howner
  refine ⟨rfl, user, user', item, item', hlookup, hcond.right, hname, hgold, ?_,
    howner.left, ?_, hlevel, hpower, ?_, ?_, ?_⟩
  · rw [hcopy] at hfound
    exact hfound
  · rw [howner', howner.left]
  · rw [hcopy2, hcopy]
  · rw [← hsum]
    exact total.property
  · rw [← hsum]

/-- `EnhanceItem` is rolled back, or it does all of its work. -/
theorem enhanceItem_commits (db : Db pg) (userId itemId cost : Nat)
    (success : Bool) (mult : double) (faults : Nat -> Bool) :
    (((enhanceItem userId itemId cost success mult).run faults db).committed =
        false ∧
      ((enhanceItem userId itemId cost success mult).run faults db).store = db) ∨
    Enhanced db userId itemId cost success mult
      ((enhanceItem userId itemId cost success mult).run faults db) := by
  rcases enhanceItem_cases db userId itemId cost success mult faults with
    hthrow | hpoor | hforeign | hdone
  · rw [hthrow]
    exact Or.inl ⟨rfl, rfl⟩
  · rw [hpoor]
    exact Or.inl ⟨rfl, rfl⟩
  · rw [hforeign]
    exact Or.inl ⟨rfl, rfl⟩
  · exact Or.inr hdone

/-- `GetItem` changes nothing, and an answer describes the item of the user. -/
theorem getItem_cases (db : Db pg) (userId itemId : Nat) (faults : Nat -> Bool) :
    ((getItem userId itemId).run faults db).store = db ∧
    forall found, ((getItem userId itemId).run faults db).reply =
        some (some found) ->
      exists item, db.items.lookup itemId = some item ∧ item.ownerId = userId ∧
        found.enhanceLevel = item.enhanceLevel.val := by
  rcases run_eq_finish (getItem userId itemId) faults db with ⟨w, hw, hrun⟩
  rw [hrun]
  unfold getItem
  rcases hw.finish_exec _ _ with hthrow | ⟨copy, r, v, hselect, hv, hnext⟩
  · rw [hthrow]
    exact ⟨rfl, fun _ hfound => by cases hfound⟩
  rw [hnext]
  cases hselect
  rcases hv.finish_commit _ with hthrow | ⟨z, hz, hlast⟩
  · rw [hthrow]
    exact ⟨rfl, fun _ hfound => by cases hfound⟩
  rw [hlast]
  rcases Table.select_onlyKey (t := db.items) (onlyKey_item userId itemId) with
    ⟨hnil, _⟩ | ⟨item, hitem, hcond, hone⟩
  · rw [hnil]
    refine ⟨hz.durable, ?_⟩
    intro found hfound
    cases hfound
  · rw [hone]
    change (finish (expect _) faults z).store = db ∧ forall found,
      (finish (expect _) faults z).reply = some (some found) -> _
    rw [hz.finish_expect]
    refine ⟨rfl, ?_⟩
    intro found hfound
    simp only [Bool.and_eq_true, beq_iff_eq] at hcond
    refine ⟨item, hitem, hcond.left, ?_⟩
    rcases Option.bind_eq_some_iff.mp hfound with ⟨level, hlevel, hrest⟩
    rcases Option.bind_eq_some_iff.mp hrest with ⟨power, _, hlast⟩
    cases hlast
    unfold asInt at hlevel
    by_cases hrange : -2 ^ 31 ≤ item.enhanceLevel.val ∧
        item.enhanceLevel.val < 2 ^ 31
    · rw [if_pos hrange] at hlevel
      exact (Option.some.inj hlevel).symm
    · rw [if_neg hrange] at hlevel
      cases hlevel

/-- A query that only reads leaves the database as it is. -/
theorem reads_only {α β : Type} {statement : Db pg -> α} {f : α -> Query pg β}
    {db : Db pg}
    (hf : forall a, Preserves (fun s => s = db) (f a)) :
    Preserves (fun s => s = db)
      (exec (fun db => some (db, statement db)) >>= f) := by
  refine .bind (.exec ?_) hf
  intro s s' a hs hstatement
  cases hstatement
  exact hs

theorem getGold_store (db : Db pg) (userId : Nat) (faults : Nat -> Bool) :
    ((getGold userId).run faults db).store = db :=
  (reads_only fun _ => .bind (.expect _) fun _ =>
    .bind .commit fun _ => .expect _).run rfl faults

theorem getItems_store (db : Db pg) (userId : Nat) (faults : Nat -> Bool) :
    ((getItems userId).run faults db).store = db :=
  (reads_only fun _ => .bind .commit fun _ => .expect _).run rfl faults

/-- Logging in changes the database only by the row of a new user. -/
theorem loginOrRegister_preserves {I : Db pg -> Prop} {name : List UInt8} {userId : Nat}
    (hinsert : forall s users, I s ->
      s.users.insertRow userId ⟨name, pg.defaultGold⟩ = some users ->
      I { s with users := users }) : Preserves I (loginOrRegister name userId) := by
  refine .bind (.exec ?_) fun r => .bind .commit fun _ => .pure r
  intro s s' id hs hstatement
  cases hfound : s.users.select (fun _ user => user.userName == name) with
  | cons e rest =>
      rw [hfound] at hstatement
      cases hstatement
      exact hs
  | nil =>
      rw [hfound] at hstatement
      cases hnew : s.users.insertRow userId ⟨name, pg.defaultGold⟩ with
      | none =>
          rw [hnew] at hstatement
          cases hstatement
      | some users =>
          rw [hnew] at hstatement
          cases hstatement
          exact hinsert s users hs hnew

/-- Logging in does not change any item. -/
theorem loginOrRegister_items (db : Db pg) (name : List UInt8) (userId : Nat)
    (faults : Nat -> Bool) :
    ((loginOrRegister name userId).run faults db).store.items = db.items := by
  have hkeeps : Preserves (fun s : Db pg => s.items = db.items)
      (loginOrRegister name userId) :=
    loginOrRegister_preserves fun _ _ hs _ => hs
  exact hkeeps.run rfl faults

end Database
end Storage
end ContentServer
