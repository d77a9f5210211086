import ContentServer.Consumers.StoreEffects
import ContentServer.Consumers.Logs
import ContentServer.Storage.Scores

/-!
# What an operation does to the scores

The score of a user goes up with a new item and with a successful enhancement.
Both answer the new score and promise to tell it to the ranking.  A failed
enhancement writes the old power back.
-/

namespace ContentServer
namespace Consumers

open Foundation Protocol Sessions Registry Storage

variable {double : Type} {pg : Postgres double}

/-- The commands to the ranking arrive, and what the database commits it also
answers. -/
def Op.Succeeds (e : Environment double) (db : Db pg) : Op double -> Prop
  | .rankSetName _ _ | .rankUpdate _ _ => e.faults 1 = false
  | .dropItem u =>
      let out := (Database.dropItem u e.newId).run e.faults db
      out.committed = true -> out.reply.isSome = true
  | .enhanceItem u itemId cost success mult =>
      let out := (Database.enhanceItem u itemId cost success mult).run e.faults db
      out.committed = true -> out.reply.isSome = true
  | _ => True

instance (e : Environment double) (db : Db pg) :
    (o : Op double) -> Decidable (o.Succeeds e db)
  | .rankSetName _ _ | .rankUpdate _ _ => inferInstanceAs (Decidable (_ = false))
  | .dropItem _ | .enhanceItem _ _ _ _ _ =>
      inferInstanceAs (Decidable (_ = true -> _ = true))
  | .isNamed _ | .setName _ _ | .setUserId _ _ | .getUserId _ | .findByName _
  | .sendTo _ _ | .broadcast _ | .sendToFriends _ _ | .sendRosterTo _
  | .loadFriendCache _ _ | .cacheAddFriend _ _ | .cacheRemoveFriend _ _ | .post _ _
  | .loginOrRegister _ | .getGold _ | .addGold _ _ | .getItems _ | .getItem _ _
  | .addFriend _ _ | .acceptFriend _ _ | .rejectFriend _ _ | .blockFriend _ _
  | .getFriendList _ | .getFriendIds _ | .rankTop _ _ | .rankOf _
  | .uniformInt _ _ | .uniformReal _ _ => isTrue trivial

/-- No new score is promised by this call. -/
def Quiet (o : Op double) (answer : Answer o) : Prop :=
  forall before owed u total,
    .rankUpdate u total ∈ promises before owed o answer -> .rankUpdate u total ∈ owed

/-- The scores after an operation, and the answer about them. -/
inductive ScoresAfter (db after : Db pg) : (o : Op double) -> Answer o -> Prop where
  | same {o : Op double} {answer : Answer o}
      (same : forall u, SameScore db after u) (quiet : Quiet o answer) :
      ScoresAfter db after o answer
  | raised {o : Op double} {answer : Answer o} (u total : Nat)
      (promised : forall before owed, promises before owed o answer =
        [.rankUpdate u total])
      (writes : o = .dropItem u ∨
        exists itemId cost success mult, o = .enhanceItem u itemId cost success mult)
      (owns : after.owns u = true) (score : (total : Int) = after.powerSum u)
      (others : forall v, v ≠ u -> SameScore db after v) :
      ScoresAfter db after o answer

theorem quiet_of_tail {o : Op double} {answer : Answer o}
    (h : forall before owed, promises before owed o answer = List.tail owed) :
    Quiet o answer := by
  intro before owed u total hmem
  rw [h] at hmem
  exact List.mem_of_mem_tail hmem

/-- Calls that do not write items promise no score. -/
theorem quiet_of_other (o : Op double) (answer : Answer o)
    (hdrop : forall u, o ≠ .dropItem u)
    (henhance : forall u itemId cost success mult,
      o ≠ .enhanceItem u itemId cost success mult) : Quiet o answer := by
  cases o with
  | setName id name =>
      intro before owed u total hmem
      cases answer with
      | false => cases hmem
      | true => cases hlogin : before.login <;> simp [promises, hlogin] at hmem
  | getFriendIds v =>
      intro before owed u total hmem
      cases answer with
      | none => cases hmem
      | some ids => cases hnick : before.nick <;> simp [promises, hnick] at hmem
  | dropItem u => exact absurd rfl (hdrop u)
  | enhanceItem u itemId cost success mult => exact absurd rfl (henhance u itemId cost success mult)
  | acceptFriend v name =>
      intro before owed u total hmem
      rcases answer with _ | _ | w <;> simp [promises] at hmem
  | blockFriend v name =>
      intro before owed u total hmem
      rcases answer with _ | _ | w <;> simp [promises] at hmem
  | sendTo id data => exact fun _ _ _ _ hmem => hmem
  | _ => exact quiet_of_tail fun _ _ => rfl

section Scores

variable {db : Db pg} {u itemId : Nat} {faults : Nat -> Bool}

theorem scores_dropItem (hreply :
      ((Database.dropItem u itemId).run faults db).committed = true ->
      ((Database.dropItem u itemId).run faults db).reply.isSome = true) :
    ScoresAfter db ((Database.dropItem u itemId).run faults db).store
      (.dropItem u : Op double) ((Database.dropItem u itemId).run faults db).reply := by
  rcases Database.dropItem_cases db u itemId faults with hkept | hdropped
  · rw [hkept]
    exact .same (sameScore_of_items rfl) fun _ _ _ _ hmem => by cases hmem
  · generalize (Database.dropItem u itemId).run faults db = out at hreply hdropped
    rcases Option.isSome_iff_exists.mp (hreply hdropped.committed) with ⟨r, hr⟩
    have hitems : out.store.items = AList.insert itemId
        ⟨u, pg.defaultLevel, pg.defaultPower⟩ db.items := by rw [hdropped.change]
    have htotal := hdropped.reply
    rw [hr] at htotal
    rcases Option.map_eq_some_iff.mp htotal.symm with ⟨total, hsum, heq⟩
    rw [hr]
    refine .raised u r.totalPower (fun _ _ => rfl) (Or.inl rfl) (owns_insert hitems) ?_ ?_
    · rw [← heq]
      exact asUint64_eq_some hsum
    · intro v hv
      refine sameScore_insert hitems (Ne.symm hv) ?_
      intro old hold
      rw [hdropped.fresh] at hold
      cases hold

theorem scores_enhanceItem [One double] {cost : Nat} {success : Bool} {mult : double}
    (hround : forall power, pg.roundProduct power 1 = some power)
    (hmult : success = false -> mult = 1)
    (hreply :
      ((Database.enhanceItem u itemId cost success mult).run faults db).committed = true ->
      ((Database.enhanceItem u itemId cost success mult).run faults db).reply.isSome =
        true) :
    ScoresAfter db ((Database.enhanceItem u itemId cost success mult).run faults db).store
      (.enhanceItem u itemId cost success mult)
      ((Database.enhanceItem u itemId cost success mult).run faults db).reply := by
  rcases Database.enhanceItem_cases db u itemId cost success mult faults with
    hthrow | hpoor | hforeign | hdone
  · rw [hthrow]
    exact .same (sameScore_of_items rfl) fun _ _ _ _ hmem => by cases hmem
  · rw [hpoor]
    exact .same (sameScore_of_items rfl) fun _ _ _ _ hmem => by cases hmem
  · rw [hforeign]
    exact .same (sameScore_of_items rfl) fun _ _ _ _ hmem => by cases hmem
  · generalize (Database.enhanceItem u itemId cost success mult).run faults db = out
      at hreply hdone
    rcases hdone.change with ⟨_, user', item, item', _, _, _, _, hfound, howner, howner', _,
      hpower, hstore, _, hanswer⟩
    rcases Option.isSome_iff_exists.mp (hreply hdone.committed) with ⟨r, hr⟩
    have hitems : out.store.items = AList.insert itemId item' db.items := by rw [hstore]
    rw [hr] at hanswer
    rcases Option.bind_eq_some_iff.mp hanswer.symm with ⟨level, _, hrest⟩
    rcases Option.bind_eq_some_iff.mp hrest with ⟨power, _, hrest⟩
    rcases Option.bind_eq_some_iff.mp hrest with ⟨gold, _, hrest⟩
    rcases Option.bind_eq_some_iff.mp hrest with ⟨total, htotal, heq⟩
    cases heq
    rw [hr]
    cases success with
    | true =>
        refine .raised u total (fun _ _ => rfl) (Or.inr ⟨itemId, cost, true, mult, rfl⟩)
          ?_ (asUint64_eq_some htotal) ?_
        · rw [← howner']
          exact owns_insert hitems
        · intro v hv
          refine sameScore_insert hitems (by rw [howner']; exact Ne.symm hv) ?_
          intro old hold
          rw [hfound] at hold
          cases hold
          rw [howner]
          exact Ne.symm hv
    | false =>
        rw [hmult rfl, hround] at hpower
        refine .same (sameScore_update hfound hitems (howner'.trans howner.symm) ?_)
          fun _ _ _ _ hmem => by cases hmem
        exact (Option.some.inj hpower).symm

end Scores

/-- What an operation of a handler does to the scores. -/
theorem Stores.perform_scores [One double] (shard : Nat) (msg : ShardMsg)
    (e : Environment double) (s : Stores pg)
    (hround : forall power, pg.roundProduct power 1 = some power) {o : Op double}
    (hmult : forall u itemId cost mult, o = .enhanceItem u itemId cost false mult -> mult = 1)
    (hsucceeds : o.Succeeds e s.db) :
    ScoresAfter s.db (s.perform shard msg e o).2.db o (s.perform shard msg e o).1 := by
  have hother : (forall u, o ≠ .dropItem u) ->
      (forall u itemId cost success mult, o ≠ .enhanceItem u itemId cost success mult) ->
      ScoresAfter s.db (s.perform shard msg e o).2.db o (s.perform shard msg e o).1 := by
    intro hdrop henhance
    cases s.perform_items shard msg e o with
    | same items => exact .same (sameScore_of_items items) (quiet_of_other o _ hdrop henhance)
    | dropped fresh items => exact absurd rfl (hdrop _)
    | enhanced item item' found owner owner' power items =>
        exact absurd rfl (henhance _ _ _ _ _)
  cases o with
  | dropItem u => exact scores_dropItem hsucceeds
  | enhanceItem u itemId cost success mult =>
      refine scores_enhanceItem hround ?_ hsucceeds
      intro hfailed
      subst hfailed
      exact hmult u itemId cost mult rfl
  | _ => exact hother (fun _ h => by cases h) (fun _ _ _ _ _ h => by cases h)

/-!
# What an operation does to the ranking
-/

inductive RankingAfter (r : Ranking) : Op double -> Ranking -> Prop where
  | same {o : Op double} (notName : forall u name, o ≠ .rankSetName u name)
      (notUpdate : forall u total, o ≠ .rankUpdate u total) : RankingAfter r o r
  | named (u : Nat) (name : List UInt8) :
      RankingAfter r (.rankSetName u name)
        { r with names := AList.insert (decimal u) name r.names }
  | scored (u total : Nat) :
      RankingAfter r (.rankUpdate u total)
        { r with power := AList.insert (decimal u) total r.power }

theorem Stores.perform_ranking (shard : Nat) (msg : ShardMsg) (e : Environment double)
    (s : Stores pg) {o : Op double} (hsucceeds : o.Succeeds e s.db) :
    RankingAfter s.ranking o (s.perform shard msg e o).2.ranking := by
  cases o with
  | rankSetName u name =>
      have hranking : (s.perform shard msg e (.rankSetName u name)).2.ranking =
          s.ranking.setName u name 1 := by
        show s.ranking.setName u name (arrived e) = _
        unfold arrived
        rw [hsucceeds]
        rfl
      rw [hranking]
      exact .named u name
  | rankUpdate u total =>
      have hranking : (s.perform shard msg e (.rankUpdate u total)).2.ranking =
          s.ranking.update u total 1 := by
        show s.ranking.update u total (arrived e) = _
        unfold arrived
        rw [hsucceeds]
        rfl
      rw [hranking]
      exact .scored u total
  | _ => exact .same (fun _ _ h => by cases h) (fun _ _ h => by cases h)

/-- A name that is used stays in use. -/
theorem Names.mono {r : Ranking} {db after : Db pg} {u : Nat}
    (h : r.Names db u) (hnames : NamesAfter db.users after.users) : r.Names after u := by
  rcases h with ⟨name, hname, hhash⟩
  exact ⟨name, hnames.mono hname, hhash⟩

/-- Names of users are set to what they were. -/
theorem RankingAfter.names {r after : Ranking} {o : Op double} {db : Db pg}
    (h : RankingAfter r o after)
    (hname : forall u name, o = .rankSetName u name -> userNames db.users u = some name)
    {u : Nat} (hu : r.Names db u) : after.Names db u := by
  cases h with
  | same notName notUpdate => exact hu
  | scored v total => exact hu
  | named v name =>
      rcases hu with ⟨own, hown, hhash⟩
      refine ⟨own, hown, ?_⟩
      show AList.lookup (decimal u) (AList.insert (decimal v) name r.names) = _
      by_cases hsame : u = v
      · subst hsame
        have hv := hname u name rfl
        rw [hown] at hv
        rw [AList.lookup_insert, ← hv]
      · rw [AList.lookup_insert_ne (fun hkey => hsame (decimal_injective hkey)), hhash]

end Consumers
end ContentServer
