import ContentServer.Storage.Friendships

/-!
# What a transaction on friendships can do

Each transaction either leaves the tables as they are or commits one change to
the friendships, which is stated in full together with its answer.  A request or
a block is only refused when it finds no other user or when a statement fails.
-/

namespace ContentServer
namespace Storage
namespace Database

open Foundation Transaction

variable {double : Type} {pg : Postgres double}
variable {db : FriendDb pg} {userId friendId : Nat}

/-- The user that a name stands for: the first row of the selection. -/
def userNamed (db : FriendDb pg) (name : List UInt8) : Option Nat :=
  (db.usersNamed name).head?

theorem usersNamed_of_userNamed {name : List UInt8}
    (h : userNamed db name = some friendId) :
    exists rest, db.usersNamed name = friendId :: rest :=
  List.head?_eq_some_iff.mp h

/-- Nothing was changed. -/
structure Kept {α : Type} (db : FriendDb pg) (out : Result (FriendDb pg) α) :
    Prop where
  store : out.store = db
  committed : out.committed = false

/-- One of the statements failed, or the name stands for no other user. -/
def Refused (db : FriendDb pg) (userId : Nat) (name : List UInt8)
    (faults : Nat -> Bool) (statements : Nat) : Prop :=
  forall friendId, userNamed db name = some friendId -> friendId ≠ userId ->
    ¬ Succeed faults statements

/-- A row was added, unless there was one. -/
structure FriendAdded (db : FriendDb pg) (userId : Nat) (name : List UInt8)
    (friendId : Nat) (faults : Nat -> Bool) (out : Result (FriendDb pg) Bool) :
    Prop where
  named : userNamed db name = some friendId
  other : friendId ≠ userId
  succeed : Succeed faults 3
  reply : out.reply =
    some (decide (db.friendships.lookup (userId, friendId) = none))
  store : out.store = { db with
    friendships := (db.friendships.insertNew (userId, friendId) .pending).1 }

theorem insertPending_eq (db : FriendDb pg) (userId friendId : Nat) :
    FriendDb.insertPending userId friendId db = some
      ({ db with
        friendships := (db.friendships.insertNew (userId, friendId) .pending).1 },
      if db.friendships.lookup (userId, friendId) = none then [userId] else []) := by
  unfold FriendDb.insertPending
  cases hrow : db.friendships.lookup (userId, friendId) with
  | none =>
      rw [Table.insertNew_of_lookup_none hrow]
      rfl
  | some status =>
      rw [Table.insertNew_of_lookup hrow]
      rfl

theorem refused_of_none {name : List UInt8} (h : db.usersNamed name = [])
    (faults : Nat -> Bool) (n : Nat) : Refused db userId name faults n := by
  intro friendId hnamed
  rcases usersNamed_of_userNamed hnamed with ⟨rest, hfound⟩
  rw [h] at hfound
  cases hfound

theorem refused_of_self {name : List UInt8} {rest : List Nat}
    (h : db.usersNamed name = userId :: rest) (faults : Nat -> Bool) (n : Nat) :
    Refused db userId name faults n := by
  intro friendId hnamed hother
  rcases usersNamed_of_userNamed hnamed with ⟨rest', hfound⟩
  rw [h] at hfound
  cases hfound
  exact absurd rfl hother

theorem refused_of_fault {name : List UInt8} {faults : Nat -> Bool} {n m : Nat}
    (hfault : faults (n + 1) = true) (hlt : n < m) :
    Refused db userId name faults m :=
  fun _ _ _ => not_succeed hfault hlt

theorem userNamed_of_cons {name : List UInt8} {rest : List Nat}
    (h : db.usersNamed name = friendId :: rest) :
    userNamed db name = some friendId := by
  unfold userNamed
  rw [h]
  rfl

theorem addFriend_cases (db : FriendDb pg) (userId : Nat) (name : List UInt8)
    (faults : Nat -> Bool) :
    (Kept db ((addFriend userId name).run faults db) ∧
      Refused db userId name faults 3) ∨
    exists friendId, FriendAdded db userId name friendId faults
      ((addFriend userId name).run faults db) := by
  rcases run_eq_finish_sent (addFriend userId name) faults db with ⟨w, hw, hrun⟩
  rw [hrun]
  unfold addFriend
  rcases hw.finish_exec _ _ with
    ⟨hthrow, hfault | hnone⟩ | ⟨copy, found, v, hselect, hv, hnext⟩
  · rw [hthrow]
    exact Or.inl ⟨⟨rfl, rfl⟩, refused_of_fault hfault (by omega)⟩
  · cases hnone
  rw [hnext]
  cases hselect
  cases hfound : db.usersNamed name with
  | nil =>
      rw [hv.isOpen.finish_pure]
      exact Or.inl ⟨⟨rfl, rfl⟩, refused_of_none hfound faults 3⟩
  | cons friendId rest =>
      by_cases hself : friendId = userId
      · simp only [if_pos hself]
        rw [hv.isOpen.finish_pure]
        subst hself
        exact Or.inl ⟨⟨rfl, rfl⟩, refused_of_self hfound faults 3⟩
      simp only [if_neg hself]
      rcases hv.finish_exec _ _ with
        ⟨hthrow, hfault | hnone⟩ | ⟨copy, ins, u, hinsert, hu, hlast⟩
      · rw [hthrow]
        exact Or.inl ⟨⟨rfl, rfl⟩, refused_of_fault hfault (by omega)⟩
      · rw [insertPending_eq] at hnone
        cases hnone
      rw [hlast]
      rcases hu.finish_commit _ with ⟨hthrow, hfault⟩ | ⟨z, hz, hsucceed, hend⟩
      · rw [hthrow]
        exact Or.inl ⟨⟨rfl, rfl⟩, refused_of_fault hfault (by omega)⟩
      rw [hend, hz.finish_pure]
      rw [insertPending_eq] at hinsert
      cases hinsert
      refine Or.inr ⟨friendId, userNamed_of_cons hfound, hself, hsucceed, ?_, rfl⟩
      by_cases hrow : db.friendships.lookup (userId, friendId) = none
      · simp [hrow]
      · simp [hrow]

/-!
# Answering a request
-/

theorem onlyKey_pending (userId friendId : Nat) :
    Table.OnlyKey (FriendDb.isPending userId friendId) (userId, friendId) := by
  intro key status h
  simp only [FriendDb.isPending, Bool.and_eq_true, beq_iff_eq] at h
  exact Prod.ext h.left.left h.left.right

theorem isPending_self (userId friendId : Nat) (status : FriendStatus) :
    FriendDb.isPending userId friendId (userId, friendId) status =
      decide (status = .pending) := by
  cases status <;> simp [FriendDb.isPending]

/-- A request was waiting, and it was accepted. -/
structure FriendAccepted (db : FriendDb pg) (userId : Nat) (name : List UInt8)
    (requesterId : Nat) (out : Result (FriendDb pg) Nat) : Prop where
  named : userNamed db name = some requesterId
  request : db.friendships.lookup (requesterId, userId) = some .pending
  reply : out.reply = some requesterId
  store : out.store = { db with
    friendships := AList.insert (requesterId, userId) .accepted db.friendships }

theorem accept_cases {copy : FriendDb pg} {rows : List FriendStatus}
    (h : FriendDb.accept userId friendId db = some (copy, rows)) :
    (rows = [] ∧ copy = db ∧
      db.friendships.lookup (userId, friendId) ≠ some .pending) ∨
    (rows = [.accepted] ∧
      db.friendships.lookup (userId, friendId) = some .pending ∧
      copy = { db with
        friendships :=
          AList.insert (userId, friendId) .accepted db.friendships }) := by
  unfold FriendDb.accept at h
  rcases Table.update_cases (onlyKey_pending userId friendId)
      (fun friendships => { db with friendships := friendships }) h with
    ⟨hrows, hcopy, hnone⟩ | ⟨status, status', hlookup, hcond, hset, hcopy, hrows⟩
  · refine Or.inl ⟨hrows, hcopy, ?_⟩
    intro hpending
    have hfalse := hnone .pending hpending
    rw [isPending_self] at hfalse
    cases hfalse
  · rw [isPending_self, decide_eq_true_eq] at hcond
    cases hset
    subst hcond
    exact Or.inr ⟨hrows, hlookup, hcopy⟩

theorem acceptFriend_cases (db : FriendDb pg) (userId : Nat) (name : List UInt8)
    (faults : Nat -> Bool) :
    (((acceptFriend userId name).run faults db).store = db ∧
      (((acceptFriend userId name).run faults db).reply = none ∨
        ((acceptFriend userId name).run faults db).reply = some 0)) ∨
    exists requesterId, FriendAccepted db userId name requesterId
      ((acceptFriend userId name).run faults db) := by
  rcases run_eq_finish (acceptFriend userId name) faults db with ⟨w, hw, hrun⟩
  rw [hrun]
  unfold acceptFriend
  rcases hw.finish_exec _ _ with hthrow | ⟨copy, found, v, hselect, hv, hnext⟩
  · rw [hthrow]
    exact Or.inl ⟨rfl, Or.inl rfl⟩
  rw [hnext]
  cases hselect
  cases hfound : db.usersNamed name with
  | nil =>
      rw [hv.finish_pure]
      exact Or.inl ⟨rfl, Or.inr rfl⟩
  | cons requesterId rest =>
      simp only
      rcases hv.finish_exec _ _ with hthrow | ⟨copy, upd, u, hupdate, hu, hlast⟩
      · rw [hthrow]
        exact Or.inl ⟨rfl, Or.inl rfl⟩
      rw [hlast]
      rcases hu.finish_commit _ with hthrow | ⟨z, hz, hend⟩
      · rw [hthrow]
        exact Or.inl ⟨rfl, Or.inl rfl⟩
      rw [hend]
      rcases accept_cases hupdate with ⟨hrows, hcopy, _⟩ | ⟨hrows, hrow, hcopy⟩
      · subst hrows hcopy
        simp only [List.isEmpty_nil, if_true]
        rw [hz.finish_pure]
        exact Or.inl ⟨rfl, Or.inr rfl⟩
      · subst hrows hcopy
        simp only [List.isEmpty_cons, Bool.false_eq_true, if_false]
        rw [hz.finish_pure]
        exact Or.inr
          ⟨requesterId, userNamed_of_cons hfound, hrow, rfl, rfl⟩

/-- A request, if there was one, was deleted. -/
structure FriendRejected (db : FriendDb pg) (userId : Nat) (name : List UInt8)
    (requesterId : Nat) (out : Result (FriendDb pg) Bool) : Prop where
  named : userNamed db name = some requesterId
  store : out.store = { db with
    friendships :=
      (db.friendships.delete (FriendDb.isPending requesterId userId)).1 }

theorem rejectFriend_cases (db : FriendDb pg) (userId : Nat) (name : List UInt8)
    (faults : Nat -> Bool) :
    ((rejectFriend userId name).run faults db).store = db ∨
    exists requesterId, FriendRejected db userId name requesterId
      ((rejectFriend userId name).run faults db) := by
  rcases run_eq_finish (rejectFriend userId name) faults db with ⟨w, hw, hrun⟩
  rw [hrun]
  unfold rejectFriend
  rcases hw.finish_exec _ _ with hthrow | ⟨copy, found, v, hselect, hv, hnext⟩
  · rw [hthrow]
    exact Or.inl rfl
  rw [hnext]
  cases hselect
  cases hfound : db.usersNamed name with
  | nil =>
      rw [hv.finish_pure]
      exact Or.inl rfl
  | cons requesterId rest =>
      simp only
      rcases hv.finish_exec _ _ with hthrow | ⟨copy, del, u, hdelete, hu, hlast⟩
      · rw [hthrow]
        exact Or.inl rfl
      rw [hlast]
      rcases hu.finish_commit _ with hthrow | ⟨z, hz, hend⟩
      · rw [hthrow]
        exact Or.inl rfl
      rw [hend, hz.finish_pure]
      cases hdelete
      exact Or.inr ⟨requesterId, userNamed_of_cons hfound, rfl⟩

/-!
# Blocking
-/

/-- All rows between the two users were replaced by one `BLOCKED` row. -/
structure FriendBlocked (db : FriendDb pg) (userId : Nat) (name : List UInt8)
    (targetId : Nat) (faults : Nat -> Bool) (out : Result (FriendDb pg) Nat) :
    Prop where
  named : userNamed db name = some targetId
  other : targetId ≠ userId
  succeed : Succeed faults 4
  committed : out.committed = true
  reply : out.reply = some targetId
  store : out.store = { db with
    friendships := AList.insert (userId, targetId) .blocked
      (db.friendships.delete (FriendDb.isBetween userId targetId)).1 }

theorem isBetween_iff (userId friendId : Nat) (key : Nat × Nat)
    (status : FriendStatus) :
    FriendDb.isBetween userId friendId key status = true <->
      key = (userId, friendId) ∨ key = (friendId, userId) := by
  simp only [FriendDb.isBetween, Bool.or_eq_true, Bool.and_eq_true, beq_iff_eq,
    Prod.ext_iff]

theorem lookup_deleteBetween (db : FriendDb pg) (userId friendId : Nat) :
    (db.friendships.delete (FriendDb.isBetween userId friendId)).1.lookup
      (userId, friendId) = none := by
  cases hrow : db.friendships.lookup (userId, friendId) with
  | some status =>
      exact Table.lookup_delete_eq_none hrow
        ((isBetween_iff userId friendId _ status).mpr (Or.inl rfl))
  | none =>
      rw [Table.lookup_delete_of_not, hrow]
      intro status hstatus
      rw [hrow] at hstatus
      cases hstatus

/-- The key is free after the deletion, so the insertion works. -/
theorem insertBlocked_eq (db : FriendDb pg) (userId friendId : Nat) :
    FriendDb.insertBlocked userId friendId { db with
      friendships :=
        (db.friendships.delete (FriendDb.isBetween userId friendId)).1 } =
    some ({ db with
      friendships := AList.insert (userId, friendId) .blocked
        (db.friendships.delete (FriendDb.isBetween userId friendId)).1 }, ()) := by
  unfold FriendDb.insertBlocked Table.insertRow
  rw [lookup_deleteBetween]
  rfl

theorem blockFriend_cases (db : FriendDb pg) (userId : Nat) (name : List UInt8)
    (faults : Nat -> Bool) :
    (Kept db ((blockFriend userId name).run faults db) ∧
      Refused db userId name faults 4 ∧
      (((blockFriend userId name).run faults db).reply = none ∨
        ((blockFriend userId name).run faults db).reply = some 0)) ∨
    exists targetId, FriendBlocked db userId name targetId faults
      ((blockFriend userId name).run faults db) := by
  rcases run_eq_finish_sent (blockFriend userId name) faults db with
    ⟨w, hw, hrun⟩
  rw [hrun]
  unfold blockFriend
  rcases hw.finish_exec _ _ with
    ⟨hthrow, hfault | hnone⟩ | ⟨copy, found, v, hselect, hv, hnext⟩
  · rw [hthrow]
    exact Or.inl ⟨⟨rfl, rfl⟩, refused_of_fault hfault (by omega), Or.inl rfl⟩
  · cases hnone
  rw [hnext]
  cases hselect
  cases hfound : db.usersNamed name with
  | nil =>
      rw [hv.isOpen.finish_pure]
      exact Or.inl ⟨⟨rfl, rfl⟩, refused_of_none hfound faults 4, Or.inr rfl⟩
  | cons targetId rest =>
      by_cases hself : targetId = userId
      · simp only [if_pos hself]
        rw [hv.isOpen.finish_pure]
        subst hself
        exact Or.inl ⟨⟨rfl, rfl⟩, refused_of_self hfound faults 4, Or.inr rfl⟩
      simp only [if_neg hself]
      rcases hv.finish_exec _ _ with
        ⟨hthrow, hfault | hnone⟩ | ⟨copy, _, u, hdelete, hu, hlast⟩
      · rw [hthrow]
        exact Or.inl ⟨⟨rfl, rfl⟩, refused_of_fault hfault (by omega), Or.inl rfl⟩
      · cases hnone
      rw [hlast]
      cases hdelete
      rcases hu.finish_exec _ _ with
        ⟨hthrow, hfault | hnone⟩ | ⟨copy, _, t, hinsert, ht, hthen⟩
      · rw [hthrow]
        exact Or.inl ⟨⟨rfl, rfl⟩, refused_of_fault hfault (by omega), Or.inl rfl⟩
      · rw [insertBlocked_eq] at hnone
        cases hnone
      rw [hthen]
      rw [insertBlocked_eq] at hinsert
      cases hinsert
      rcases ht.finish_commit _ with ⟨hthrow, hfault⟩ | ⟨z, hz, hsucceed, hend⟩
      · rw [hthrow]
        exact Or.inl ⟨⟨rfl, rfl⟩, refused_of_fault hfault (by omega), Or.inl rfl⟩
      rw [hend, hz.finish_pure]
      exact Or.inr ⟨targetId, userNamed_of_cons hfound, hself, hsucceed, rfl, rfl,
        rfl⟩

/-!
# Reading the friendships
-/

/-- What `GetFriendList` reads. -/
def friendListOf (db : FriendDb pg) (userId : Nat) : FriendList where
  blocked := db.joinNames (db.blockedBy userId)
  pending := db.joinNames (db.pendingFor userId)
  friends := db.joinNames (db.acceptedBy userId)

theorem ofRows_foldl (kind : UInt8) (names : List (List UInt8)) (out : FriendList) :
    (names.map (fun name => (kind, name))).foldl (fun out row =>
      if row.1 = 66 then { out with blocked := out.blocked ++ [row.2] }
      else if row.1 = 80 then { out with pending := out.pending ++ [row.2] }
      else { out with friends := out.friends ++ [row.2] }) out =
    if kind = 66 then { out with blocked := out.blocked ++ names }
    else if kind = 80 then { out with pending := out.pending ++ names }
    else { out with friends := out.friends ++ names } := by
  induction names generalizing out with
  | nil => by_cases hb : kind = 66 <;> by_cases hp : kind = 80 <;> simp [hb, hp]
  | cons name rest ih =>
      rw [List.map_cons, List.foldl_cons, ih]
      by_cases hb : kind = 66
      · simp [hb]
      · by_cases hp : kind = 80 <;> simp [hb, hp]

theorem ofRows_friendRows (db : FriendDb pg) (userId : Nat) :
    exists rows, FriendDb.friendRows userId db = some (db, rows) ∧
      FriendList.ofRows rows = friendListOf db userId := by
  refine ⟨_, rfl, ?_⟩
  unfold FriendList.ofRows friendListOf
  rw [List.foldl_append, List.foldl_append, ofRows_foldl, ofRows_foldl,
    ofRows_foldl]
  simp

/-- The list changes nothing, and an answer is what the tables say. -/
theorem getFriendList_cases (db : FriendDb pg) (userId : Nat)
    (faults : Nat -> Bool) :
    (((getFriendList userId).run faults db).store = db ∧
      ((getFriendList userId).run faults db).reply = none ∧
      ¬ Succeed faults 2) ∨
    (getFriendList userId).run faults db =
      ⟨some (friendListOf db userId), db, true⟩ := by
  rcases run_eq_finish_sent (getFriendList userId) faults db with ⟨w, hw, hrun⟩
  rcases ofRows_friendRows db userId with ⟨rows, hrows, hlist⟩
  rw [hrun]
  unfold getFriendList
  rcases hw.finish_exec _ _ with
    ⟨hthrow, hfault | hnone⟩ | ⟨copy, r, v, hselect, hv, hnext⟩
  · rw [hthrow]
    exact Or.inl ⟨rfl, rfl, not_succeed hfault (by omega)⟩
  · cases hnone
  rw [hnext]
  rw [hrows] at hselect
  cases hselect
  rcases hv.finish_commit _ with ⟨hthrow, hfault⟩ | ⟨z, hz, _, hend⟩
  · rw [hthrow]
    exact Or.inl ⟨rfl, rfl, not_succeed hfault (by omega)⟩
  rw [hend, hz.finish_pure, hlist]
  exact Or.inr rfl

theorem getFriendIds_cases (db : FriendDb pg) (userId : Nat)
    (faults : Nat -> Bool) :
    (((getFriendIds userId).run faults db).store = db ∧
      ((getFriendIds userId).run faults db).reply = none ∧
      ¬ Succeed faults 2) ∨
    (getFriendIds userId).run faults db =
      ⟨some (db.acceptedBy userId), db, true⟩ := by
  rcases run_eq_finish_sent (getFriendIds userId) faults db with ⟨w, hw, hrun⟩
  rw [hrun]
  unfold getFriendIds
  rcases hw.finish_exec _ _ with
    ⟨hthrow, hfault | hnone⟩ | ⟨copy, r, v, hselect, hv, hnext⟩
  · rw [hthrow]
    exact Or.inl ⟨rfl, rfl, not_succeed hfault (by omega)⟩
  · cases hnone
  rw [hnext]
  cases hselect
  rcases hv.finish_commit _ with ⟨hthrow, hfault⟩ | ⟨z, hz, _, hend⟩
  · rw [hthrow]
    exact Or.inl ⟨rfl, rfl, not_succeed hfault (by omega)⟩
  rw [hend, hz.finish_pure]
  exact Or.inr rfl

theorem mem_blockedBy : friendId ∈ db.blockedBy userId <->
    db.friendships.lookup (userId, friendId) = some .blocked := by
  unfold FriendDb.blockedBy
  constructor
  · intro h
    rcases List.mem_map.mp h with ⟨⟨key, status⟩, hrow, hother⟩
    rcases Table.mem_select.mp hrow with ⟨hlookup, hcond⟩
    simp only [Bool.and_eq_true, beq_iff_eq] at hcond
    rcases hcond with ⟨hkey, hstatus⟩
    subst hother hkey hstatus
    exact hlookup
  · intro h
    exact List.mem_map.mpr ⟨⟨(userId, friendId), .blocked⟩,
      Table.mem_select.mpr ⟨h, by simp⟩, rfl⟩

theorem mem_pendingFor : friendId ∈ db.pendingFor userId <->
    db.friendships.lookup (friendId, userId) = some .pending := by
  unfold FriendDb.pendingFor
  constructor
  · intro h
    rcases List.mem_map.mp h with ⟨⟨key, status⟩, hrow, hother⟩
    rcases Table.mem_select.mp hrow with ⟨hlookup, hcond⟩
    simp only [Bool.and_eq_true, beq_iff_eq] at hcond
    rcases hcond with ⟨hkey, hstatus⟩
    subst hother hkey hstatus
    exact hlookup
  · intro h
    exact List.mem_map.mpr ⟨⟨(friendId, userId), .pending⟩,
      Table.mem_select.mpr ⟨h, by simp⟩, rfl⟩

theorem mem_acceptedBy : friendId ∈ db.acceptedBy userId <->
    db.friendships.lookup (userId, friendId) = some .accepted ∨
      db.friendships.lookup (friendId, userId) = some .accepted := by
  unfold FriendDb.acceptedBy
  constructor
  · intro h
    rcases List.mem_map.mp h with ⟨⟨⟨left, right⟩, status⟩, hrow, hother⟩
    rcases Table.mem_select.mp hrow with ⟨hlookup, hcond⟩
    simp only [Bool.and_eq_true, Bool.or_eq_true, beq_iff_eq] at hcond
    rcases hcond with ⟨hkey, hstatus⟩
    subst hstatus
    simp only [FriendDb.otherSide] at hother
    by_cases hleft : left = userId
    · rw [if_pos hleft] at hother
      subst hleft hother
      exact Or.inl hlookup
    · rw [if_neg hleft] at hother
      subst hother
      rcases hkey with hcontra | hright
      · exact absurd hcontra hleft
      · subst hright
        exact Or.inr hlookup
  · intro h
    rcases h with hrow | hrow
    · exact List.mem_map.mpr ⟨⟨(userId, friendId), .accepted⟩,
        Table.mem_select.mpr ⟨hrow, by simp⟩, by simp [FriendDb.otherSide]⟩
    · refine List.mem_map.mpr ⟨⟨(friendId, userId), .accepted⟩,
        Table.mem_select.mpr ⟨hrow, by simp⟩, ?_⟩
      by_cases hself : friendId = userId
      · simp [FriendDb.otherSide, hself]
      · simp [FriendDb.otherSide, hself]

/-- Users are found by name because no two of them share one. -/
def UniqueNames (users : Table Nat (UserRow pg)) : Prop :=
  forall u v user user', users.lookup u = some user ->
    users.lookup v = some user' -> user.userName = user'.userName -> u = v

theorem uniqueNames_of_nodup {users : Table Nat (UserRow pg)}
    (h : (users.entries.map (fun e => e.2.userName)).Nodup) : UniqueNames users := by
  intro u v user user' hu hv hname
  have hmem := AList.mem_lookup_iff.mp hu
  have hmem' := AList.mem_lookup_iff.mp hv
  have hentry := List.inj_on_of_nodup_map h hmem hmem' hname
  exact congrArg Sigma.fst hentry

theorem row_of_userNamed {name : List UInt8}
    (h : userNamed db name = some userId) :
    exists user, db.users.lookup userId = some user ∧ user.userName = name := by
  rcases usersNamed_of_userNamed h with ⟨rest, hfound⟩
  have hmem : userId ∈ db.usersNamed name := by
    rw [hfound]
    exact List.mem_cons_self
  rcases List.mem_map.mp hmem with ⟨⟨id, user⟩, hrow, hid⟩
  rcases Table.mem_select.mp hrow with ⟨hlookup, hname⟩
  subst hid
  exact ⟨user, hlookup, by simpa using hname⟩

theorem mem_joinNames_iff (hunique : UniqueNames db.users) {user : UserRow pg}
    (huser : db.users.lookup userId = some user) (ids : List Nat) :
    user.userName ∈ db.joinNames ids <-> userId ∈ ids := by
  unfold FriendDb.joinNames
  rw [List.mem_filterMap]
  constructor
  · intro h
    rcases h with ⟨id, hid, hname⟩
    rcases Option.map_eq_some_iff.mp hname with ⟨user', huser', hsame⟩
    rw [hunique userId id user user' huser huser' hsame.symm]
    exact hid
  · intro h
    exact ⟨userId, h, by rw [huser]; rfl⟩

end Database
end Storage
end ContentServer
