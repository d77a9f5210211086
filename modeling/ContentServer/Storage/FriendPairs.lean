import ContentServer.Storage.FriendCalls

/-!
# One relationship for each pair of users

The key of the table is a directed pair, so it allows two rows between the same
users.  A second row only comes from a request that crosses a row of the other
direction.  As long as no request does, every user sees each name and each
friend once.
-/

namespace ContentServer
namespace Storage
namespace FriendDb

open Foundation Transaction Protocol Database

variable {double : Type} {pg : Postgres double}

/-- No two users have rows in both directions. -/
def OneDirection (row : Nat × Nat -> Option FriendStatus) : Prop :=
  forall a b, a ≠ b -> row (a, b) ≠ none -> row (b, a) = none

structure OneRelationship (db : FriendDb pg) : Prop where
  pair : OneDirection db.row
  noSelf : forall a, db.row (a, a) = none
  list : forall userId list, db.shownList userId = some list ->
    (list.blocked ++ list.pending ++ list.friends).Nodup
  ids : forall userId ids, db.shownIds userId = some ids -> ids.Nodup

/-- A request none of whose statements fails, to a user who has a row to the
caller. -/
def Crosses (db : FriendDb pg) (label : FriendCall × (Nat -> Bool)) : Prop :=
  match label.1 with
  | .addFriend userId name => exists friendId,
      userNamed db name = some friendId ∧ friendId ≠ userId ∧
      Succeed label.2 3 ∧ db.row (friendId, userId) ≠ none
  | _ => False

/-!
# What users see of single rows
-/

variable {db : FriendDb pg} {userId : Nat}

theorem ne_of_row (hself : forall a, db.row (a, a) = none) {a b : Nat}
    {status : FriendStatus} (h : db.row (a, b) = some status) : a ≠ b := by
  intro hcontra
  rw [hcontra, hself b] at h
  cases h

theorem nodup_blockedBy (db : FriendDb pg) (userId : Nat) :
    (db.blockedBy userId).Nodup := by
  refine Table.nodup_map_select _ _ _ ?_
  intro k r k' r' _ hcond _ hcond' hsame
  simp only [Bool.and_eq_true, beq_iff_eq] at hcond hcond'
  exact Prod.ext (hcond.left.trans hcond'.left.symm) hsame

theorem nodup_pendingFor (db : FriendDb pg) (userId : Nat) :
    (db.pendingFor userId).Nodup := by
  refine Table.nodup_map_select _ _ _ ?_
  intro k r k' r' _ hcond _ hcond' hsame
  simp only [Bool.and_eq_true, beq_iff_eq] at hcond hcond'
  exact Prod.ext hsame (hcond.left.trans hcond'.left.symm)

/-- Two rows of one user with the same other side. -/
theorem key_of_otherSide
    (hpair : OneDirection db.row)
    {k k' : Nat × Nat} {status status' : FriendStatus}
    (hk : db.row k = some status) (hk' : db.row k' = some status')
    (huser : k.1 = userId ∨ k.2 = userId) (huser' : k'.1 = userId ∨ k'.2 = userId)
    (hsame : otherSide userId k = otherSide userId k') : k = k' := by
  rcases k with ⟨a, b⟩
  rcases k' with ⟨c, d⟩
  have hback : forall x, x ≠ userId -> db.row (userId, x) ≠ none ->
      db.row (x, userId) = none := fun x hx => hpair userId x (fun h => hx h.symm)
  unfold otherSide at hsame
  by_cases ha : a = userId <;> by_cases hc : c = userId
  · simp_all
  · have hd : d = userId := huser'.resolve_left hc
    subst ha hd
    simp only [if_true, if_neg hc] at hsame
    subst hsame
    rw [hback b hc (by rw [hk]; simp)] at hk'
    cases hk'
  · have hb : b = userId := huser.resolve_left ha
    subst hc hb
    simp only [if_true, if_neg ha] at hsame
    subst hsame
    rw [hback a ha (by rw [hk']; simp)] at hk
    cases hk
  · have hb : b = userId := huser.resolve_left ha
    have hd : d = userId := huser'.resolve_left hc
    simp only [if_neg ha, if_neg hc] at hsame
    rw [hsame, hb, hd]

theorem nodup_acceptedBy
    (hpair : OneDirection db.row)
    (userId : Nat) : (db.acceptedBy userId).Nodup := by
  refine Table.nodup_map_select _ _ _ ?_
  intro k r k' r' hk hcond hk' hcond' hsame
  simp only [Bool.and_eq_true, Bool.or_eq_true, beq_iff_eq] at hcond hcond'
  exact key_of_otherSide hpair hk hk' hcond.left hcond'.left hsame

/-- The three sections name different users. -/
theorem nodup_sections
    (hpair : OneDirection db.row)
    (hself : forall a, db.row (a, a) = none) (userId : Nat) :
    (db.blockedBy userId ++ db.pendingFor userId ++ db.acceptedBy userId).Nodup := by
  have hboth : forall friendId status status',
      db.row (userId, friendId) = some status ->
      db.row (friendId, userId) ≠ some status' := by
    intro friendId status status' hrow hback
    rw [hpair userId friendId (ne_of_row hself hrow) (by rw [hrow]; simp)] at hback
    cases hback
  rw [List.nodup_append', List.nodup_append']
  refine ⟨⟨nodup_blockedBy db userId, nodup_pendingFor db userId, ?_⟩,
    nodup_acceptedBy hpair userId, ?_⟩
  · intro friendId hblocked hpending
    exact hboth friendId _ _ (mem_blockedBy.mp hblocked) (mem_pendingFor.mp hpending)
  · intro friendId hleft haccepted
    rcases List.mem_append.mp hleft with hblocked | hpending
    · have hrow := mem_blockedBy.mp hblocked
      rcases mem_acceptedBy.mp haccepted with hsame | hback
      · cases hrow.symm.trans hsame
      · exact hboth friendId _ _ hrow hback
    · have hrow := mem_pendingFor.mp hpending
      rcases mem_acceptedBy.mp haccepted with hback | hsame
      · exact hboth friendId _ _ hback hrow
      · cases hrow.symm.trans hsame

theorem nodup_joinNames (hnames : UniqueNames db.users) {ids : List Nat}
    (h : ids.Nodup) : (db.joinNames ids).Nodup := by
  refine h.filterMap ?_
  intro u v name hu hv
  rcases Option.map_eq_some_iff.mp hu with ⟨user, huser, hname⟩
  rcases Option.map_eq_some_iff.mp hv with ⟨user', huser', hname'⟩
  exact hnames u v user user' huser huser' (hname.trans hname'.symm)

/-- All of it follows from the rows. -/
theorem oneRelationship_iff (h : Sound db) :
    OneRelationship db <-> OneDirection db.row := by
  refine ⟨fun hone => hone.pair, fun hpair => ⟨hpair, h.noSelf, ?_, ?_⟩⟩
  · intro userId list hlist
    rw [shownList_eq] at hlist
    cases hlist
    have hnodup := nodup_joinNames h.names (nodup_sections hpair h.noSelf userId)
    unfold joinNames at hnodup
    rw [List.filterMap_append, List.filterMap_append] at hnodup
    exact hnodup
  · intro userId ids hids
    rw [shownIds_eq] at hids
    cases hids
    exact nodup_acceptedBy hpair userId

/-!
# Calls
-/

variable {row row' : Nat × Nat -> Option FriendStatus}

/-- No row is added. -/
theorem OneDirection.mono (h : OneDirection row)
    (hsub : forall key, row' key ≠ none -> row key ≠ none) : OneDirection row' := by
  intro a b hne hab
  by_contra hba
  exact hsub (b, a) hba (h a b hne (hsub (a, b) hab))

/-- A row is added for a pair that had none in the other direction. -/
theorem OneDirection.insert (h : OneDirection row) {a b : Nat}
    (hfree : row (b, a) = none) (status : FriendStatus) :
    OneDirection (Function.update row (a, b) (some status)) := by
  intro c d hne hcd
  by_cases hback : (d, c) = (a, b)
  · rcases Prod.mk.inj hback with ⟨hd, hc⟩
    subst hd hc
    have hkey : (c, d) ≠ (d, c) := fun hcontra => hne (congrArg Prod.fst hcontra)
    rw [Function.update_of_ne hkey, hfree] at hcd
    exact absurd rfl hcd
  · rw [Function.update_of_ne hback]
    by_cases hkey : (c, d) = (a, b)
    · cases hkey
      exact hfree
    · rw [Function.update_of_ne hkey] at hcd
      exact h c d hne hcd

theorem row_of_update_some {key other : Nat × Nat} {status : FriendStatus}
    (hkey : row key ≠ none)
    (h : Function.update row key (some status) other ≠ none) : row other ≠ none := by
  by_cases hother : other = key
  · rw [hother]
    exact hkey
  · rw [Function.update_of_ne hother] at h
    exact h

theorem OneDirection.erase (h : OneDirection row) (key : Nat × Nat) :
    OneDirection (Function.update row key none) := by
  refine h.mono ?_
  intro other hrow
  by_cases hother : other = key
  · rw [hother, Function.update_self] at hrow
    exact absurd rfl hrow
  · rw [Function.update_of_ne hother] at hrow
    exact hrow

theorem Change.oneDirection {faults : Nat -> Bool} {call : FriendCall}
    (hchange : Change db faults call row) (h : OneDirection db.row)
    (hcrosses : ¬ Crosses db (call, faults)) : OneDirection row := by
  cases hchange with
  | kept => exact h
  | added named other succeed free =>
      refine h.insert ?_ .pending
      by_contra hrow
      exact hcrosses ⟨_, named, other, succeed, hrow⟩
  | accepted named request =>
      exact h.mono fun key hkey => row_of_update_some (by rw [request]; simp) hkey
  | rejected named request =>
      exact h.erase _
  | blocked named other succeed =>
      exact (h.erase _).insert (Function.update_self ..) .blocked

/-- A call keeps the relationships single exactly if it does not cross. -/
theorem oneRelationship_step {db' : FriendDb pg}
    {label : FriendCall × (Nat -> Bool)} (h : Sound db)
    (hone : OneRelationship db) (hstep : step db label = some db') :
    OneRelationship db' <-> ¬ Crosses db label := by
  cases hstep
  rcases label with ⟨call, faults⟩
  rw [oneRelationship_iff (sound_afterCall h faults call)]
  constructor
  · intro hafter hcrosses
    cases call with
    | addFriend userId name =>
        rcases hcrosses with ⟨friendId, hnamed, hother, hfaults, hrow⟩
        have hfree := hone.pair friendId userId hother hrow
        rw [afterCall_addFriend hnamed hother hfaults hfree] at hafter
        have hback := hafter userId friendId (fun hcontra => hother hcontra.symm)
          (by rw [Function.update_self]; simp)
        have hkey : (friendId, userId) ≠ (userId, friendId) := fun hcontra =>
          hother (congrArg Prod.fst hcontra)
        rw [Function.update_of_ne hkey] at hback
        exact hrow hback
    | acceptFriend userId name => exact hcrosses
    | rejectFriend userId name => exact hcrosses
    | blockFriend userId name => exact hcrosses
  · intro hcrosses
    exact (afterCall_change db faults call).right.oneDirection hone.pair hcrosses

/-- Relationships stay single exactly as long as no request crosses a row. -/
theorem one_relationship_iff {users : Table Nat (UserRow pg)}
    (hnames : UniqueNames users) {labels : List (FriendCall × (Nat -> Bool))}
    {last : FriendDb pg}
    (hrun : runFrom step { users := users, friendships := ∅ } labels = some last) :
    (forall t, Visits step { users := users, friendships := ∅ } labels t ->
      OneRelationship t) <->
    EveryStep step (fun s label => ¬ Crosses s label)
      { users := users, friendships := ∅ } labels := by
  have hstart := sound_start hnames
  refine visits_iff_everyStep sound_step ?_ hstart ?_ hrun
  · intro s label t hs hone hstep
    exact oneRelationship_step hs hone hstep
  · rw [oneRelationship_iff hstart]
    intro a b _ hrow
    exact absurd rfl hrow

/-!
# Crossing requests
-/

/-- Two friends. -/
def friends : List (FriendCall × (Nat -> Bool)) :=
  [(.addFriend 1 (text "bob"), fun _ => false),
    (.acceptFriend 2 (text "ann"), fun _ => false)]

/-- Both ask, and both accept. -/
def friendsTwice : List (FriendCall × (Nat -> Bool)) :=
  [(.addFriend 1 (text "bob"), fun _ => false),
    (.addFriend 2 (text "ann"), fun _ => false),
    (.acceptFriend 2 (text "ann"), fun _ => false),
    (.acceptFriend 1 (text "bob"), fun _ => false)]

theorem one_relationship_iff_friends :
    runFrom step { users := annAndBob, friendships := ∅ } friends =
      some ⟨annAndBob, AList.insert (1, 2) .accepted ∅⟩ ∧
    forall t, Visits step { users := annAndBob, friendships := ∅ } friends t ->
      OneRelationship t := by
  have hrun : runFrom step { users := annAndBob, friendships := ∅ } friends =
      some ⟨annAndBob, AList.insert (1, 2) .accepted ∅⟩ := by
    rfl
  refine ⟨hrun, (one_relationship_iff uniqueNames_annAndBob hrun).mpr ⟨?_, ?_⟩⟩
  · intro hcrosses
    rcases hcrosses with ⟨friendId, _, _, _, hrow⟩
    exact hrow rfl
  · intro t ht
    cases ht
    exact ⟨fun hcrosses => hcrosses, fun _ _ => trivial⟩

theorem friends_twice :
    exists t, runFrom step { users := annAndBob, friendships := ∅ } friendsTwice =
        some t ∧ ¬ OneRelationship t := by
  refine ⟨_, rfl, ?_⟩
  intro hone
  have hback := hone.pair 1 2 (by decide) (by decide)
  revert hback
  decide

end FriendDb
end Storage
end ContentServer
