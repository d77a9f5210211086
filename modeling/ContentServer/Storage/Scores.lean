import ContentServer.Storage.Ranking
import ContentServer.Storage.UserNames

/-!
# Scores

The score of a user is the sum of the power of the items that the user owns.
The ranking is rebuilt from one query over all users; afterwards it is told the
new sum of a user whenever it went up.
-/

namespace ContentServer
namespace Storage

open Foundation Transaction

variable {double : Type} {pg : Postgres double} {db : Db pg}

/-!
# Items
-/

theorem Db.owns_iff {userId : Nat} :
    db.owns userId = true <->
      exists itemId item, db.items.lookup itemId = some item ∧
        item.ownerId = userId := by
  unfold Db.owns
  cases hitems : db.items.select (fun _ item => item.ownerId == userId) with
  | nil =>
      constructor
      · intro h
        cases h
      · intro h
        rcases h with ⟨itemId, item, hitem, howner⟩
        have hmem : ⟨itemId, item⟩ ∈
            db.items.select (fun _ item => item.ownerId == userId) :=
          Table.mem_select.mpr ⟨hitem, beq_iff_eq.mpr howner⟩
        rw [hitems] at hmem
        cases hmem
  | cons e rest =>
      constructor
      · intro _
        have hmem : e ∈ db.items.select (fun _ item => item.ownerId == userId) := by
          rw [hitems]
          exact List.mem_cons_self
        rcases Table.mem_select.mp hmem with ⟨hitem, howner⟩
        exact ⟨e.1, e.2, hitem, beq_iff_eq.mp howner⟩
      · intro _
        rfl

/-- What the ranking should say about a user. -/
structure SameScore (db after : Db pg) (userId : Nat) : Prop where
  owns : after.owns userId = db.owns userId
  powerSum : after.powerSum userId = db.powerSum userId

theorem sameScore_of_items {after : Db pg} (h : after.items = db.items)
    (userId : Nat) : SameScore db after userId := by
  constructor
  · unfold Db.owns
    rw [h]
  · unfold Db.powerSum
    rw [h]

/-- An item of another user is new or changes. -/
theorem sameScore_insert {after : Db pg} {itemId userId : Nat} {item : ItemRow pg}
    (h : after.items = AList.insert itemId item db.items)
    (hnew : item.ownerId ≠ userId)
    (hold : forall old, db.items.lookup itemId = some old -> old.ownerId ≠ userId) :
    SameScore db after userId := by
  have hselect : after.items.select (fun _ item => item.ownerId == userId) =
      db.items.select (fun _ item => item.ownerId == userId) := by
    rw [h]
    refine Table.select_insert_of_not ?_ (beq_eq_false_iff_ne.mpr hnew)
    intro old hlookup
    exact beq_eq_false_iff_ne.mpr (hold old hlookup)
  constructor
  · unfold Db.owns
    rw [hselect]
  · unfold Db.powerSum
    rw [hselect]

theorem owns_insert {after : Db pg} {itemId : Nat} {item : ItemRow pg}
    (h : after.items = AList.insert itemId item db.items) :
    after.owns item.ownerId = true := by
  rw [Db.owns_iff, h]
  exact ⟨itemId, item, AList.lookup_insert db.items, rfl⟩

/-- An item keeps its owner and its power. -/
theorem sameScore_update {after : Db pg} {itemId : Nat} {item item' : ItemRow pg}
    (hitem : db.items.lookup itemId = some item)
    (h : after.items = AList.insert itemId item' db.items)
    (howner : item'.ownerId = item.ownerId) (hpower : item'.power.val = item.power.val)
    (userId : Nat) : SameScore db after userId := by
  by_cases huser : item.ownerId = userId
  · subst huser
    constructor
    · rw [← howner, owns_insert h, Db.owns_iff.mpr ⟨itemId, item, hitem, howner.symm⟩]
    · unfold Db.powerSum
      rw [h]
      exact Table.sum_select_insert_same hitem (by rw [howner])
        (fun item => item.power.val) hpower
  · refine sameScore_insert h (by rw [howner]; exact huser) ?_
    intro old hold
    rw [hitem] at hold
    cases hold
    exact huser

/-!
# The query of all scores
-/

/-- What is said about a user with items. -/
structure Database.Scored (db : Db pg) (e : RankEntry) : Prop where
  owns : db.owns e.userId = true
  totalPower : (e.totalPower : Int) = db.powerSum e.userId
  name : userNames db.users e.userId = some e.name

/-- The answer lists every user with items once. -/
structure Database.AllScored (db : Db pg) (all : List RankEntry) : Prop where
  distinct : (all.map (fun e => e.userId)).Nodup
  scored : forall e, e ∈ all -> Scored db e
  complete : forall userId name, db.owns userId = true ->
    userNames db.users userId = some name -> exists e, e ∈ all ∧ e.userId = userId

theorem asUint64_eq_some {v : Int} {n : Nat} (h : asUint64 v = some n) : (n : Int) = v := by
  unfold asUint64 at h
  by_cases hv : 0 ≤ v ∧ v < 2 ^ 64
  · rw [if_pos hv] at h
    cases h
    exact Int.toNat_of_nonneg hv.left
  · rw [if_neg hv] at h
    cases h

/-- The rows of the answer are read off the rows of the users. -/
theorem Database.allScored_of_rows
    {rows : List (Nat × {v : Int // pg.sumType v = true} × List UInt8)}
    {all : List RankEntry} (hrows : Db.powerRows db = some rows)
    (hall : rows.mapM (fun row => do
      return { userId := row.1, totalPower := ← asUint64 row.2.1, name := row.2.2 :
        RankEntry }) = some all) : AllScored db all := by
  have hrow : forall (e : Sigma fun _ : Nat => UserRow pg) row,
      ((store pg.sumType (db.powerSum e.1)).map
        fun total => (e.1, total, e.2.userName)) = some row ->
      row.1 = e.1 ∧ row.2.1.val = db.powerSum e.1 ∧ row.2.2 = e.2.userName := by
    intro e row h
    rcases Option.map_eq_some_iff.mp h with ⟨total, htotal, heq⟩
    cases heq
    exact ⟨rfl, store_eq_some htotal, rfl⟩
  have hread : forall (row : Nat × {v : Int // pg.sumType v = true} × List UInt8)
      (e : RankEntry),
      (do return { userId := row.1, totalPower := ← asUint64 row.2.1, name := row.2.2 :
        RankEntry }) = some e ->
      e.userId = row.1 ∧ (e.totalPower : Int) = row.2.1.val ∧ e.name = row.2.2 := by
    intro row e h
    rcases Option.bind_eq_some_iff.mp h with ⟨total, htotal, heq⟩
    cases heq
    exact ⟨rfl, asUint64_eq_some htotal, rfl⟩
  unfold Db.powerRows at hrows
  constructor
  · rw [map_of_mapM hall _ (fun row => row.1) fun row e h => (hread row e h).left,
      map_of_mapM hrows _ (fun e => e.1) fun e row h => (hrow e row h).left]
    exact (db.users.nodupKeys.sublist List.filter_sublist)
  · intro e he
    rcases (mem_of_mapM hall e).mp he with ⟨row, hmem, hentry⟩
    rcases (mem_of_mapM hrows row).mp hmem with ⟨user, huser, hselected⟩
    rcases hread row e hentry with ⟨hid, htotal, hname⟩
    rcases hrow user row hselected with ⟨hid', htotal', hname'⟩
    rcases List.mem_filter.mp huser with ⟨huser, howns⟩
    have hsame : e.userId = user.1 := hid.trans hid'
    refine ⟨?_, ?_, ?_⟩
    · rw [hsame]
      exact howns
    · rw [htotal, htotal', hsame]
    · rw [hname, hname', hsame]
      exact userNames_eq_some.mpr ⟨user.2, AList.mem_lookup_iff.mpr huser, rfl⟩
  · intro userId name howns hname
    rcases userNames_eq_some.mp hname with ⟨user, huser, _⟩
    have hmem : (⟨userId, user⟩ : Sigma fun _ : Nat => UserRow pg) ∈
        db.users.entries.filter (fun e => db.owns e.1) :=
      List.mem_filter.mpr ⟨AList.mem_lookup_iff.mp huser, howns⟩
    have hids : userId ∈ all.map (fun e => e.userId) := by
      rw [map_of_mapM hall _ (fun row => row.1) fun row e h => (hread row e h).left,
        map_of_mapM hrows _ (fun e => e.1) fun e row h => (hrow e row h).left]
      exact List.mem_map.mpr ⟨_, hmem, rfl⟩
    exact List.mem_map.mp hids

theorem Database.getAllPower_reply {faults : Nat -> Bool} {all : List RankEntry}
    (h : (getAllPower.run faults db).reply = some all) : AllScored db all := by
  rcases run_eq_finish getAllPower faults db with ⟨w, hw, hrun⟩
  rw [hrun] at h
  unfold getAllPower at h
  rcases hw.finish_exec _ _ with hthrow | ⟨copy, rows, v, hstatement, hv, hnext⟩
  · rw [hthrow] at h
    cases h
  rw [hnext] at h
  rcases Option.map_eq_some_iff.mp hstatement with ⟨found, hrows, hpair⟩
  cases hpair
  rcases hv.finish_commit _ with hthrow | ⟨z, hz, hlast⟩
  · rw [hthrow] at h
    cases h
  · rw [hlast, hz.finish_expect] at h
    exact allScored_of_rows hrows h

/-!
# Rebuilding
-/

namespace Ranking

theorem lookup_insertAll {value : Type} (t : Table (List UInt8) value)
    {pairs : List (List UInt8 × value)} (h : (pairs.map (fun p => p.1)).Nodup)
    (key : List UInt8) (v : value) :
    (insertAll t pairs).lookup key = some v <->
      (key, v) ∈ pairs ∨
        (key ∉ pairs.map (fun p => p.1) ∧ t.lookup key = some v) := by
  induction pairs generalizing t with
  | nil => simp [insertAll]
  | cons p rest ih =>
      rcases p with ⟨k, w⟩
      rw [List.map_cons, List.nodup_cons] at h
      rcases h with ⟨hfresh, hrest⟩
      have hnext := ih (AList.insert k w t) hrest
      replace hnext : (insertAll t ((k, w) :: rest)).lookup key = some v <-> _ := hnext
      rw [hnext]
      by_cases hkey : key = k
      · subst hkey
        have hnone : (key, v) ∉ rest := fun hmem =>
          hfresh (List.mem_map.mpr ⟨(key, v), hmem, rfl⟩)
        rw [AList.lookup_insert]
        simp only [List.mem_cons, List.map_cons, hnone, hfresh, false_or, or_false,
          not_false_eq_true, true_and, not_true_eq_false, false_and,
          Prod.mk.injEq, Option.some.injEq]
        exact eq_comm
      · rw [AList.lookup_insert_ne hkey]
        simp only [List.mem_cons, List.map_cons, hkey, false_or, Prod.mk.injEq,
          false_and]

variable {r : Ranking} {all : List RankEntry}

/-- A column of the answer, stored under the user ids in decimal. -/
theorem lookup_stored {value : Type} (h : (all.map (fun e => e.userId)).Nodup)
    (column : RankEntry -> value) (key : List UInt8) (v : value) :
    (insertAll ∅ (all.map (fun e => (decimal e.userId, column e)))).lookup key = some v <->
      exists e, e ∈ all ∧ key = decimal e.userId ∧ column e = v := by
  have hkeys : ((all.map (fun e => (decimal e.userId, column e))).map
      (fun p => p.1)).Nodup := by
    have hdecimal := h.map decimal_injective
    rw [List.map_map] at hdecimal ⊢
    exact hdecimal
  rw [lookup_insertAll ∅ hkeys, AList.lookup_empty]
  simp only [List.mem_map, Prod.mk.injEq]
  constructor
  · intro hor
    rcases hor with ⟨e, he, hkey, hcolumn⟩ | ⟨_, hcontra⟩
    · exact ⟨e, he, hkey.symm, hcolumn⟩
    · cases hcontra
  · intro hexists
    rcases hexists with ⟨e, he, hkey, hcolumn⟩
    exact Or.inl ⟨e, he, hkey.symm, hcolumn⟩

theorem rebuild_power (h : (all.map (fun e => e.userId)).Nodup) (key : List UInt8)
    (score : Nat) :
    (r.rebuild all 4).power.lookup key = some score <->
      exists e, e ∈ all ∧ key = decimal e.userId ∧ e.totalPower = score := by
  rw [← lookup_stored h]
  unfold rebuild
  cases all <;> rfl

theorem rebuild_names (h : (all.map (fun e => e.userId)).Nodup) (key name : List UInt8) :
    (r.rebuild all 4).names.lookup key = some name <->
      exists e, e ∈ all ∧ key = decimal e.userId ∧ e.name = name := by
  rw [← lookup_stored h]
  unfold rebuild
  cases all <;> rfl

/-- The name hash has the user under the name in the database. -/
def Names (r : Ranking) (db : Db pg) (userId : Nat) : Prop :=
  exists name, userNames db.users userId = some name ∧
    r.names.lookup (decimal userId) = some name

/-- The ranking says of a user what the database says. -/
structure Mirrors (r : Ranking) (db : Db pg) (userId : Nat) : Prop where
  member : decimal userId ∈ r.power <-> db.owns userId = true
  score : forall score, r.power.lookup (decimal userId) = some score ->
    (score : Int) = db.powerSum userId

theorem mem_iff_lookup {value : Type} {t : Table (List UInt8) value}
    {key : List UInt8} : key ∈ t <-> exists v, t.lookup key = some v := by
  rw [← AList.lookup_isSome, Option.isSome_iff_exists]

/-- A rebuilt ranking agrees with the database. -/
theorem rebuild_mirrors (h : Database.AllScored db all)
    (howners : forall userId, db.owns userId = true ->
      exists name, userNames db.users userId = some name) (userId : Nat) :
    (r.rebuild all 4).Mirrors db userId := by
  constructor
  · rw [mem_iff_lookup]
    constructor
    · intro hmember
      rcases hmember with ⟨score, hscore⟩
      rcases (rebuild_power h.distinct _ _).mp hscore with ⟨e, he, hkey, _⟩
      rw [decimal_injective hkey]
      exact (h.scored e he).owns
    · intro howns
      rcases howners userId howns with ⟨name, hname⟩
      rcases h.complete userId name howns hname with ⟨e, he, hid⟩
      refine ⟨e.totalPower, (rebuild_power h.distinct _ _).mpr ⟨e, he, ?_, rfl⟩⟩
      rw [hid]
  · intro score hscore
    rcases (rebuild_power h.distinct _ _).mp hscore with ⟨e, he, hkey, htotal⟩
    rw [← htotal, (h.scored e he).totalPower, decimal_injective hkey]

/-- Whoever has a score in a rebuilt ranking has a name in it, too. -/
theorem rebuild_named (h : Database.AllScored db all) {key : List UInt8}
    (hkey : key ∈ (r.rebuild all 4).power) :
    exists userId, key = decimal userId ∧ (r.rebuild all 4).Names db userId := by
  rcases mem_iff_lookup.mp hkey with ⟨score, hscore⟩
  rcases (rebuild_power h.distinct _ _).mp hscore with ⟨e, he, hkey, _⟩
  exact ⟨e.userId, hkey, e.name, (h.scored e he).name,
    (rebuild_names h.distinct _ _).mpr ⟨e, he, rfl, rfl⟩⟩

/-- The scores follow from the database. -/
theorem Mirrors.unique {r' : Ranking} {userId : Nat} (h : r.Mirrors db userId)
    (h' : r'.Mirrors db userId) :
    r.power.lookup (decimal userId) = r'.power.lookup (decimal userId) := by
  have hmember : decimal userId ∈ r.power <-> decimal userId ∈ r'.power :=
    h.member.trans h'.member.symm
  rw [mem_iff_lookup, mem_iff_lookup] at hmember
  cases hscore : r.power.lookup (decimal userId) with
  | none =>
      cases hscore' : r'.power.lookup (decimal userId) with
      | none => rfl
      | some score' =>
          rcases hmember.mpr ⟨score', hscore'⟩ with ⟨score, hcontra⟩
          rw [hscore] at hcontra
          cases hcontra
  | some score =>
      rcases hmember.mp ⟨score, hscore⟩ with ⟨score', hscore'⟩
      rw [hscore']
      have hsame := (h.score score hscore).trans (h'.score score' hscore').symm
      rw [Int.ofNat_inj.mp hsame]

/-!
# What is shown
-/

/-- The order of `byRank`, with equal scores by member. -/
def Above (a b : List UInt8 × Nat) : Bool :=
  decide (b.2 < a.2 ∨ (a.2 = b.2 ∧ b.1 ≤ a.1))

theorem above_iff {a b : List UInt8 × Nat} :
    Above a b = true <-> b.2 < a.2 ∨ (a.2 = b.2 ∧ b.1 ≤ a.1) :=
  decide_eq_true_iff

theorem Above.trans (a b c : List UInt8 × Nat) (hab : Above a b = true)
    (hbc : Above b c = true) : Above a c = true := by
  rw [above_iff] at hab hbc ⊢
  rcases hab with hab | ⟨hab, hkey⟩
  · rcases hbc with hbc | ⟨hbc, _⟩
    · exact Or.inl (hbc.trans hab)
    · exact Or.inl (by rw [← hbc]; exact hab)
  · rcases hbc with hbc | ⟨hbc, hkey'⟩
    · exact Or.inl (by rw [hab]; exact hbc)
    · exact Or.inr ⟨hab.trans hbc, List.le_trans hkey' hkey⟩

theorem Above.total (a b : List UInt8 × Nat) : (Above a b || Above b a) = true := by
  rw [Bool.or_eq_true, above_iff, above_iff]
  rcases Nat.lt_trichotomy a.2 b.2 with hlt | heq | hgt
  · exact Or.inr (Or.inl hlt)
  · rcases List.le_total a.1 b.1 with hle | hle
    · exact Or.inr (Or.inr ⟨heq.symm, hle⟩)
    · exact Or.inl (Or.inr ⟨heq, hle⟩)
  · exact Or.inl (Or.inl hgt)

theorem Above.antisymm {a b : List UInt8 × Nat} (hab : Above a b = true)
    (hba : Above b a = true) : a = b := by
  rw [above_iff] at hab hba
  rcases hab with hab | ⟨hab, hkey⟩
  · rcases hba with hba | ⟨hba, _⟩
    · exact absurd hab (Nat.lt_asymm hba)
    · rw [hba] at hab
      exact absurd hab (Nat.lt_irrefl _)
  · rcases hba with hba | ⟨_, hkey'⟩
    · rw [hab] at hba
      exact absurd hba (Nat.lt_irrefl _)
    · exact Prod.ext (List.le_antisymm hkey' hkey) hab

/-- Rankings with the same scores show them in the same order. -/
theorem byRank_congr {r' : Ranking}
    (h : forall key, r.power.lookup key = r'.power.lookup key) : r.byRank = r'.byRank := by
  have hentries : r.power.entries.Perm r'.power.entries := by
    refine List.lookup_ext r.power.nodupKeys r'.power.nodupKeys fun key score => ?_
    show score ∈ r.power.lookup key <-> score ∈ r'.power.lookup key
    rw [h key]
  have hsorted : forall t : Ranking, t.byRank.Pairwise (fun a b => Above a b = true) :=
    fun t => List.pairwise_mergeSort Above.trans Above.total _
  have hperm : r.byRank.Perm r'.byRank :=
    (List.mergeSort_perm _ _).trans
      ((hentries.map _).trans (List.mergeSort_perm _ _).symm)
  exact hperm.eq_of_pairwise (fun a b _ _ hab hba => Above.antisymm hab hba) (hsorted r) (hsorted r')

theorem lookup_of_mem_zrevrange {start stop : Int} {p : List UInt8 × Nat}
    (h : p ∈ r.zrevrange start stop) : r.power.lookup p.1 = some p.2 := by
  have hinside : forall (c : Prop) [Decidable c] (shown : List (List UInt8 × Nat)),
      p ∈ (if c then [] else shown) -> p ∈ shown := by
    intro c _ shown hp
    by_cases hc : c
    · rw [if_pos hc] at hp
      cases hp
    · rw [if_neg hc] at hp
      exact hp
  exact lookup_of_mem_byRank (List.mem_of_mem_drop (List.mem_of_mem_take (hinside _ _ h)))

theorem mem_readEntries {entries : List (List UInt8 × Nat)} {e : RankEntry}
    (h : e ∈ r.readEntries entries) :
    exists member, (member, e.totalPower) ∈ entries ∧
      parseUint member 64 = some e.userId ∧
      e.name = (r.names.lookup member).getD [] := by
  induction entries with
  | nil => cases h
  | cons p rest ih =>
      rcases p with ⟨member, score⟩
      simp only [readEntries] at h
      cases hmember : parseUint member 64 with
      | none =>
          rw [hmember] at h
          cases h
      | some userId =>
          rw [hmember] at h
          rcases List.mem_cons.mp h with heq | hrest
          · rw [heq]
            exact ⟨member, List.mem_cons_self, hmember, rfl⟩
          · rcases ih hrest with ⟨other, hother, hread, hname⟩
            exact ⟨other, List.mem_cons_of_mem _ hother, hread, hname⟩

/-- Every entry that is shown has the score and the name of its user. -/
theorem top_shows (h : forall key, key ∈ r.power ->
      exists userId, key = decimal userId ∧ r.Names db userId)
    {start stop : Int} {fails : Bool} {e : RankEntry} (he : e ∈ r.top start stop fails) :
    r.power.lookup (decimal e.userId) = some e.totalPower ∧
      userNames db.users e.userId = some e.name := by
  unfold top at he
  cases fails with
  | true => cases he
  | false =>
      rcases mem_readEntries he with ⟨member, hmem, hread, hname⟩
      have hscore := lookup_of_mem_zrevrange hmem
      rcases h member (mem_iff_lookup.mpr ⟨_, hscore⟩) with ⟨userId, hkey, name, huser, hhash⟩
      have hid : e.userId = userId := by
        rw [hkey] at hread
        rw [parseUint_eq_some hread, digitsValue_decimal]
      rw [hid, ← hkey, huser]
      rw [hkey, hhash] at hname
      exact ⟨hscore, by rw [hname]; rfl⟩

end Ranking

end Storage
end ContentServer
