import ContentServer.Storage.FriendCalls

/-!
# Blocks

A block is a row of the user who made it, and the row of the other direction is
gone.  Two calls of the blocked user bring it into danger: a friend request,
which looks at its own direction only, and a block of the first user, which
deletes both directions.  A block lasts exactly as long as the blocked user
makes none of these calls with success.
-/

namespace ContentServer
namespace Storage
namespace FriendDb

open Foundation Transaction Protocol Database

variable {double : Type} {pg : Postgres double}

/-- User `a` still blocks user `b`, whose name is given. -/
structure StillBlocked (db : FriendDb pg) (a b : Nat) (name : List UInt8) :
    Prop where
  list : exists list, db.shownList a = some list ∧ name ∈ list.blocked ∧
    name ∉ list.pending ∧ name ∉ list.friends
  ids : exists ids, db.shownIds a = some ids ∧ b ∉ ids
  back : exists ids, db.shownIds b = some ids ∧ a ∉ ids

/-- A call that the blocked user `b` makes about `a`, none of whose statements
fails, and which touches the rows of the pair. -/
def Lifts (a b : Nat) (db : FriendDb pg) (label : FriendCall × (Nat -> Bool)) :
    Prop :=
  match label.1 with
  | .addFriend userId name =>
      userId = b ∧ userNamed db name = some a ∧ Succeed label.2 3
  | .blockFriend userId name =>
      userId = b ∧ userNamed db name = some a ∧ Succeed label.2 4
  | _ => False

/-- The calls of all users but one. -/
def stepOfOthers (a : Nat) : StepFunction (FriendDb pg) (FriendCall × (Nat -> Bool)) :=
  fun db label => if label.1.userId = a then none else db.step label

theorem stepOfOthers_eq_some {a : Nat} {db db' : FriendDb pg}
    {label : FriendCall × (Nat -> Bool)}
    (h : stepOfOthers a db label = some db') :
    label.1.userId ≠ a ∧ db' = db.afterCall label.2 label.1 := by
  unfold stepOfOthers at h
  by_cases hcaller : label.1.userId = a
  · rw [if_pos hcaller] at h
    cases h
  · rw [if_neg hcaller] at h
    cases h
    exact ⟨hcaller, rfl⟩

/-!
# Rows of a blocked pair
-/

variable {db : FriendDb pg} {faults : Nat -> Bool} {call : FriendCall}
variable {row : Nat × Nat -> Option FriendStatus}

/-- The lists that users see say that the two rows are as a block left them. -/
theorem stillBlocked_iff (h : Sound db) {a b : Nat} {user : UserRow pg}
    (huser : db.users.lookup b = some user) :
    StillBlocked db a b user.userName <->
      db.row (a, b) = some .blocked ∧ db.row (b, a) = none := by
  constructor
  · intro hstill
    rcases hstill.list with ⟨list, hlist, hblocked, hpending, _⟩
    rcases hstill.ids with ⟨ids, hids, hfriend⟩
    rw [shownList_eq] at hlist
    cases hlist
    rw [shownIds_eq] at hids
    cases hids
    have hrow : db.row (a, b) = some .blocked :=
      mem_blockedBy.mp ((mem_joinNames_iff h.names huser _).mp hblocked)
    have hrequest : db.row (b, a) ≠ some .pending := fun hcontra =>
      hpending ((mem_joinNames_iff h.names huser _).mpr (mem_pendingFor.mpr hcontra))
    have haccepted : db.row (b, a) ≠ some .accepted := fun hcontra =>
      hfriend (mem_acceptedBy.mpr (Or.inr hcontra))
    refine ⟨hrow, ?_⟩
    have hblock := h.oneBlock a b hrow
    cases hback : db.row (b, a) with
    | none => rfl
    | some status =>
        rw [hback] at hrequest haccepted hblock
        cases status with
        | pending => exact absurd rfl hrequest
        | accepted => exact absurd rfl haccepted
        | blocked => exact absurd rfl hblock
  · intro hrows
    rcases hrows with ⟨hrow, hback⟩
    have hfriend : b ∉ db.acceptedBy a := by
      intro hcontra
      rcases mem_acceptedBy.mp hcontra with haccepted | haccepted
      · cases hrow.symm.trans haccepted
      · cases hback.symm.trans haccepted
    refine ⟨⟨_, shownList_eq db a, ?_, ?_, ?_⟩, ⟨_, shownIds_eq db a, hfriend⟩,
      ⟨_, shownIds_eq db b, ?_⟩⟩
    · exact (mem_joinNames_iff h.names huser _).mpr (mem_blockedBy.mpr hrow)
    · intro hcontra
      have hrequest :=
        mem_pendingFor.mp ((mem_joinNames_iff h.names huser _).mp hcontra)
      cases hback.symm.trans hrequest
    · intro hcontra
      exact hfriend ((mem_joinNames_iff h.names huser _).mp hcontra)
    · intro hcontra
      rcases mem_acceptedBy.mp hcontra with haccepted | haccepted
      · cases hback.symm.trans haccepted
      · cases hrow.symm.trans haccepted

/-- The row of a request is not one of a blocked pair. -/
theorem blockedPair_ne_request {a b : Nat} {key : Nat × Nat}
    (hab : db.row (a, b) = some .blocked) (hba : db.row (b, a) = none)
    (request : db.row key = some .pending) : (a, b) ≠ key ∧ (b, a) ≠ key := by
  constructor
  · intro hsame
    rw [← hsame, hab] at request
    cases request
  · intro hsame
    rw [← hsame, hba] at request
    cases request

/-- A call of another user leaves a blocked pair alone, unless it is one of the
two that reach it. -/
theorem Change.blockedPair (hchange : Change db faults call row) {a b : Nat}
    (hcaller : call.userId ≠ a) (hab : db.row (a, b) = some .blocked)
    (hba : db.row (b, a) = none)
    (hlifts : ¬ Lifts a b db (call, faults)) :
    row (a, b) = some .blocked ∧ row (b, a) = none := by
  cases hchange with
  | kept => exact ⟨hab, hba⟩
  | @added userId friendId name named other succeed free =>
      have hleft : (a, b) ≠ (userId, friendId) := by
        intro hcontra
        cases hcontra
        exact hcaller rfl
      have hright : (b, a) ≠ (userId, friendId) := by
        intro hcontra
        cases hcontra
        exact hlifts ⟨rfl, named, succeed⟩
      rw [Function.update_of_ne hleft, Function.update_of_ne hright]
      exact ⟨hab, hba⟩
  | @accepted userId friendId name named request =>
      have hother := blockedPair_ne_request hab hba request
      rw [Function.update_of_ne hother.left, Function.update_of_ne hother.right]
      exact ⟨hab, hba⟩
  | @rejected userId friendId name named request =>
      have hother := blockedPair_ne_request hab hba request
      rw [Function.update_of_ne hother.left, Function.update_of_ne hother.right]
      exact ⟨hab, hba⟩
  | @blocked userId friendId name named other succeed =>
      have hown : forall x, (a, x) ≠ (userId, friendId) := by
        intro x hcontra
        cases hcontra
        exact hcaller rfl
      have hback : (b, a) ≠ (userId, friendId) := by
        intro hcontra
        cases hcontra
        exact hlifts ⟨rfl, named, succeed⟩
      have hown' : (b, a) ≠ (friendId, userId) := fun hcontra =>
        hown b (Prod.ext (congrArg Prod.snd hcontra) (congrArg Prod.fst hcontra))
      have hback' : (a, b) ≠ (friendId, userId) := fun hcontra =>
        hback (Prod.ext (congrArg Prod.snd hcontra) (congrArg Prod.fst hcontra))
      rw [Function.update_of_ne (hown b), Function.update_of_ne hback',
        Function.update_of_ne hback, Function.update_of_ne hown']
      exact ⟨hab, hba⟩

/-!
# Runs after a block
-/

/-- The tables after a successful block of user `b`, whose name is given. -/
structure Blocked (a b : Nat) (name : List UInt8) (db : FriendDb pg) : Prop where
  sound : Sound db
  other : b ≠ a
  named : exists user, db.users.lookup b = some user ∧ user.userName = name

theorem blocked_step (a b : Nat) (name : List UInt8) :
    Preserved (stepOfOthers a : StepFunction (FriendDb pg) _) (Blocked a b name) := by
  intro db label db' h hstep
  rcases stepOfOthers_eq_some hstep with ⟨_, hdb'⟩
  subst hdb'
  refine ⟨sound_afterCall h.sound label.2 label.1, h.other, ?_⟩
  rw [(afterCall_change db label.2 label.1).left]
  exact h.named

/-- A step of another user keeps the block exactly if it does not lift it. -/
theorem stillBlocked_step {a b : Nat} {name : List UInt8} {db' : FriendDb pg}
    {label : FriendCall × (Nat -> Bool)} (h : Blocked a b name db)
    (hstill : StillBlocked db a b name)
    (hstep : stepOfOthers a db label = some db') :
    StillBlocked db' a b name <-> ¬ Lifts a b db label := by
  have h' := blocked_step a b name db label db' h hstep
  rcases stepOfOthers_eq_some hstep with ⟨hcaller, hdb'⟩
  rcases h.named with ⟨user, huser, hname⟩
  rcases h'.named with ⟨user', huser', hname'⟩
  subst hname
  rw [← hname', stillBlocked_iff h'.sound huser']
  rcases (stillBlocked_iff h.sound huser).mp hstill with ⟨hab, hba⟩
  rcases label with ⟨call, faults⟩
  subst hdb'
  have hne : a ≠ b := h.other.symm
  constructor
  · intro hrows hlifts
    cases call with
    | addFriend userId friendName =>
        rcases hlifts with ⟨hb, hnamed, hfaults⟩
        subst hb
        have hrow := afterCall_addFriend hnamed hne hfaults hba
        simp only at hrows
        rw [hrow, Function.update_self] at hrows
        cases hrows.right
    | blockFriend userId friendName =>
        rcases hlifts with ⟨hb, hnamed, hfaults⟩
        subst hb
        have hrow := afterCall_blockFriend hnamed hne hfaults
        simp only at hrows
        rw [hrow, Function.update_self] at hrows
        cases hrows.right
    | acceptFriend userId friendName => exact hlifts
    | rejectFriend userId friendName => exact hlifts
  · exact (afterCall_change db faults call).right.blockedPair hcaller hab hba

/-- Right after the block. -/
theorem blocked_start {a b : Nat} {name : List UInt8} {after : FriendDb pg}
    (h : Sound db)
    (hblock : (blockFriend a name).run faults db = ⟨some b, after, true⟩) :
    Blocked a b name after ∧ StillBlocked after a b name := by
  have hafter : after = db.afterCall faults (.blockFriend a name) := by
    simp only [afterCall, hblock]
  rcases blockFriend_cases db a name faults with
    ⟨hkept, _⟩ | ⟨targetId, hblocked⟩
  · have hcontra := hkept.committed
    rw [hblock] at hcontra
    cases hcontra
  have hreply := hblocked.reply
  rw [hblock] at hreply
  cases hreply
  rcases row_of_userNamed hblocked.named with ⟨user, huser, hname⟩
  have hsound : Sound after := by
    rw [hafter]
    exact sound_afterCall h faults _
  have husers : after.users.lookup b = some user := by
    rw [hafter, (afterCall_change db faults _).left]
    exact huser
  refine ⟨⟨hsound, hblocked.other, user, husers, hname⟩, ?_⟩
  subst hname
  rw [stillBlocked_iff hsound husers, hafter,
    afterCall_blockFriend hblocked.named hblocked.other hblocked.succeed]
  have hne : (b, a) ≠ (a, b) := by
    intro hcontra
    exact hblocked.other (congrArg Prod.fst hcontra)
  rw [Function.update_self, Function.update_of_ne hne, Function.update_self]
  exact ⟨rfl, rfl⟩

/-- A block lasts exactly as long as the blocked user does not lift it. -/
theorem block_lasts_iff {users : Table Nat (UserRow pg)}
    (hnames : UniqueNames users)
    {earlier later : List (FriendCall × (Nat -> Bool))}
    {db after last : FriendDb pg} {a b : Nat} {name : List UInt8}
    {faults : Nat -> Bool}
    (hreached : runFrom step { users := users, friendships := ∅ } earlier = some db)
    (hblock : (blockFriend a name).run faults db = ⟨some b, after, true⟩)
    (hrun : runFrom (stepOfOthers a) after later = some last) :
    (forall t, Visits (stepOfOthers a) after later t -> StillBlocked t a b name) <->
      EveryStep (stepOfOthers a) (fun s label => ¬ Lifts a b s label) after
        later := by
  rcases blocked_start (sound_step.run (sound_start hnames) hreached) hblock with
    ⟨hblocked, hstill⟩
  refine visits_iff_everyStep (blocked_step a b name) ?_ hblocked hstill hrun
  intro s label t hs hstill hstep
  exact stillBlocked_step hs hstill hstep

/-!
# A request from a blocked user
-/

/-- Ann blocks Bob. -/
def annBlocksBob : Result (FriendDb percentServer) Nat :=
  (blockFriend 1 (text "bob")).run (fun _ => false)
    { users := annAndBob, friendships := ∅ }

theorem annBlocksBob_eq : (blockFriend 1 (text "bob")).run (fun _ => false)
    { users := annAndBob, friendships := ∅ } =
    ⟨some 2, annBlocksBob.store, true⟩ := by
  rfl

/-- A rejection does not lift the block. -/
def bobRejects : FriendCall × (Nat -> Bool) :=
  (.rejectFriend 2 (text "ann"), fun _ => false)

/-- A request does. -/
def bobRequests : FriendCall × (Nat -> Bool) :=
  (.addFriend 2 (text "ann"), fun _ => false)

theorem block_lasts_iff_rejection :
    runFrom (stepOfOthers 1) annBlocksBob.store [bobRejects] =
      some (annBlocksBob.store.afterCall bobRejects.2 bobRejects.1) ∧
    forall t, Visits (stepOfOthers 1) annBlocksBob.store [bobRejects] t ->
      StillBlocked t 1 2 (text "bob") := by
  have hreached : runFrom step { users := annAndBob, friendships := ∅ } [] =
    some { users := annAndBob, friendships := ∅ } := rfl
  have hrun : runFrom (stepOfOthers 1) annBlocksBob.store [bobRejects] =
    some (annBlocksBob.store.afterCall bobRejects.2 bobRejects.1) := rfl
  have hlasts := block_lasts_iff uniqueNames_annAndBob hreached annBlocksBob_eq hrun
  exact ⟨hrun, hlasts.mpr ⟨fun hlifts => hlifts, fun _ _ => trivial⟩⟩

theorem request_lifts_block :
    (blockFriend 1 (text "bob")).run (fun _ => false)
      { users := annAndBob, friendships := ∅ } =
      ⟨some 2, annBlocksBob.store, true⟩ ∧
    exists t, runFrom (stepOfOthers 1) annBlocksBob.store [bobRequests] = some t ∧
      ¬ StillBlocked t 1 2 (text "bob") := by
  refine ⟨annBlocksBob_eq, _, rfl, ?_⟩
  intro hstill
  rcases hstill.list with ⟨list, hlist, _, hpending, _⟩
  have hshown : (annBlocksBob.store.afterCall bobRequests.2 bobRequests.1).shownList 1 =
      some ⟨[text "bob"], [text "bob"], []⟩ := by
    rfl
  change (annBlocksBob.store.afterCall bobRequests.2 bobRequests.1).shownList 1 =
    some list at hlist
  rw [hshown] at hlist
  cases hlist
  exact hpending List.mem_cons_self

end FriendDb
end Storage
end ContentServer
