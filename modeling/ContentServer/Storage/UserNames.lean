import ContentServer.Storage.Effects
import ContentServer.Storage.FriendEffects

/-!
# Names of users

Users keep their names.  The only new ones come from a login under a name that
nobody has yet.  While names are distinct, the table numbers the names of its
users, and this numbering extends to all names.
-/

namespace ContentServer
namespace Storage

open Foundation Transaction

variable {double : Type} {pg : Postgres double}

/-- The name of each user. -/
def userNames (users : Table Nat (UserRow pg)) (userId : Nat) : Option (List UInt8) :=
  (users.lookup userId).map (fun user => user.userName)

/-- Ids stand for users from one on, and names are distinct. -/
structure Numbered (users : Table Nat (UserRow pg)) : Prop where
  zero : userNames users 0 = none
  distinct : forall u v name, userNames users u = some name ->
    userNames users v = some name -> u = v

theorem userNames_eq_some {users : Table Nat (UserRow pg)} {userId : Nat}
    {name : List UInt8} :
    userNames users userId = some name <->
      exists user, users.lookup userId = some user ∧ user.userName = name :=
  Option.map_eq_some_iff

/-- Some users changed, but no name did. -/
theorem userNames_insert {users : Table Nat (UserRow pg)} {userId : Nat}
    (user : UserRow pg) :
    userNames (AList.insert userId user users) =
      Function.update (userNames users) userId (some user.userName) := by
  funext other
  unfold userNames
  rcases Table.lookup_insert_cases users userId other user with
    ⟨hother, hlookup⟩ | ⟨hother, hlookup⟩
  · rw [hlookup, hother, Function.update_self]
    rfl
  · rw [hlookup, Function.update_of_ne hother]

theorem userNames_insert_same {users : Table Nat (UserRow pg)} {userId : Nat}
    {user user' : UserRow pg} (huser : users.lookup userId = some user)
    (hname : user'.userName = user.userName) :
    userNames (AList.insert userId user' users) = userNames users := by
  rw [userNames_insert, hname]
  refine Function.update_eq_self_iff.mpr ?_
  exact (userNames_eq_some.mpr ⟨user, huser, rfl⟩).symm

/-- What a transaction does to the names: nothing, or a user is added. -/
inductive NamesAfter (users : Table Nat (UserRow pg)) :
    Table Nat (UserRow pg) -> Prop where
  | same {after : Table Nat (UserRow pg)}
      (names : userNames after = userNames users) : NamesAfter users after
  | added {after : Table Nat (UserRow pg)} (userId : Nat) (name : List UInt8)
      (positive : userId ≠ 0) (free : userNames users userId = none)
      (fresh : forall u, userNames users u ≠ some name)
      (names : userNames after =
        Function.update (userNames users) userId (some name)) :
      NamesAfter users after

namespace NamesAfter

variable {users after : Table Nat (UserRow pg)}

/-- Names stay. -/
theorem mono (h : NamesAfter users after) {userId : Nat} {name : List UInt8}
    (hname : userNames users userId = some name) :
    userNames after userId = some name := by
  cases h with
  | same names => rw [names, hname]
  | added other fresh positive free nobody names =>
      have hne : userId ≠ other := by
        intro hsame
        rw [hsame, free] at hname
        cases hname
      rw [names, Function.update_of_ne hne, hname]

theorem numbered (h : NamesAfter users after) (husers : Numbered users) :
    Numbered after := by
  cases h with
  | same names => exact ⟨by rw [names]; exact husers.zero, by
      rw [names]
      exact husers.distinct⟩
  | added userId name positive free fresh names =>
      constructor
      · rw [names, Function.update_of_ne positive.symm]
        exact husers.zero
      · intro u v found hu hv
        rw [names] at hu hv
        by_cases hunew : u = userId <;> by_cases hvnew : v = userId
        · rw [hunew, hvnew]
        · rw [hunew, Function.update_self] at hu
          rw [Function.update_of_ne hvnew] at hv
          cases hu
          exact absurd hv (fresh v)
        · rw [hvnew, Function.update_self] at hv
          rw [Function.update_of_ne hunew] at hu
          cases hv
          exact absurd hu (fresh u)
        · rw [Function.update_of_ne hunew] at hu
          rw [Function.update_of_ne hvnew] at hv
          exact husers.distinct u v found hu hv

end NamesAfter

/-!
# Transactions
-/

namespace Database

/-- A login finds the user of the name, or adds one. -/
theorem loginOrRegister_names (db : Db pg) (name : List UInt8) {userId : Nat}
    (hpositive : userId ≠ 0) (faults : Nat -> Bool) :
    NamesAfter db.users ((loginOrRegister name userId).run faults db).store.users ∧
      forall u, ((loginOrRegister name userId).run faults db).reply = some u ->
        userNames ((loginOrRegister name userId).run faults db).store.users u =
          some name := by
  rcases run_eq_finish (loginOrRegister name userId) faults db with ⟨w, hw, hrun⟩
  rw [hrun]
  unfold loginOrRegister
  rcases hw.finish_exec _ _ with hthrow | ⟨copy, r, v, hstatement, hv, hnext⟩
  · rw [hthrow]
    exact ⟨.same rfl, fun u hu => by cases hu⟩
  rw [hnext]
  rcases hv.finish_commit _ with hthrow | ⟨z, hz, hlast⟩
  · rw [hthrow]
    exact ⟨.same rfl, fun u hu => by cases hu⟩
  rw [hlast, hz.finish_pure]
  simp only
  cases hfound : db.users.select (fun _ user => user.userName == name) with
  | cons e rest =>
      rw [hfound] at hstatement
      cases hstatement
      refine ⟨.same rfl, fun u hu => ?_⟩
      cases hu
      have hmem : e ∈ db.users.select (fun _ user => user.userName == name) := by
        rw [hfound]
        exact List.mem_cons_self
      rcases e with ⟨u, user⟩
      rcases Table.mem_select.mp hmem with ⟨hlookup, hname⟩
      exact userNames_eq_some.mpr ⟨user, hlookup, by simpa using hname⟩
  | nil =>
      rw [hfound] at hstatement
      cases hinsert : db.users.insertRow userId ⟨name, pg.defaultGold⟩ with
      | none =>
          rw [hinsert] at hstatement
          cases hstatement
      | some users =>
          rw [hinsert] at hstatement
          cases hstatement
          rcases Table.insertRow_eq_some hinsert with ⟨hfree, husers⟩
          subst husers
          have hnames : userNames (AList.insert userId ⟨name, pg.defaultGold⟩ db.users) =
              Function.update (userNames db.users) userId (some name) :=
            userNames_insert ⟨name, pg.defaultGold⟩
          refine ⟨.added userId name hpositive ?_ ?_ hnames, fun u hu => ?_⟩
          · unfold userNames
            rw [hfree]
            rfl
          · intro u hu
            rcases userNames_eq_some.mp hu with ⟨user, hlookup, hname⟩
            have hmem : Sigma.mk u user ∈
                db.users.select (fun _ user => user.userName == name) :=
              Table.mem_select.mpr ⟨hlookup, by simpa using hname⟩
            rw [hfound] at hmem
            cases hmem
          · cases hu
            rw [hnames, Function.update_self]

/-- A login adds no other name than its own. -/
theorem loginOrRegister_newNames (db : Db pg) (name : List UInt8) (userId : Nat)
    (faults : Nat -> Bool) {u : Nat} {found : List UInt8}
    (h : userNames ((loginOrRegister name userId).run faults db).store.users u =
      some found) : userNames db.users u = some found ∨ found = name := by
  have hkeeps : Preserves (fun s : Db pg => forall u found,
      userNames s.users u = some found ->
        userNames db.users u = some found ∨ found = name)
      (loginOrRegister name userId) := by
    apply loginOrRegister_preserves
    intro s users hs hinsert u found hu
    rw [(Table.insertRow_eq_some hinsert).right, userNames_insert] at hu
    by_cases hsame : u = userId
    · rw [hsame, Function.update_self] at hu
      exact Or.inr (Option.some.inj hu).symm
    · rw [Function.update_of_ne hsame] at hu
      exact hs u found hu
  exact hkeeps.run (fun u found hu => Or.inl hu) faults u found h

/-- Gold is only added to users. -/
theorem addGold_user (db : Db pg) (userId amount : Nat) (faults : Nat -> Bool) {total : Nat}
    (h : ((addGold userId amount).run faults db).reply = some total) :
    exists name, userNames db.users userId = some name := by
  rcases addGold_cases db userId amount faults with hkept | hadded
  · rw [hkept] at h
    cases h
  · rcases hadded.change with ⟨user, _, huser, _⟩
    exact ⟨user.userName, userNames_eq_some.mpr ⟨user, huser, rfl⟩⟩

theorem addGold_names (db : Db pg) (userId amount : Nat) (faults : Nat -> Bool) :
    userNames ((addGold userId amount).run faults db).store.users =
      userNames db.users := by
  rcases addGold_cases db userId amount faults with hkept | hadded
  · rw [hkept]
  · rcases hadded.change with ⟨user, user', hlookup, hname, _, hstore⟩
    rw [hstore]
    exact userNames_insert_same hlookup hname

theorem dropItem_users (db : Db pg) (userId itemId : Nat) (faults : Nat -> Bool) :
    ((dropItem userId itemId).run faults db).store.users = db.users := by
  rcases dropItem_cases db userId itemId faults with hkept | hdropped
  · rw [hkept]
  · rw [hdropped.change]

theorem enhanceItem_names (db : Db pg) (userId itemId cost : Nat) (success : Bool)
    (mult : double) (faults : Nat -> Bool) :
    userNames ((enhanceItem userId itemId cost success mult).run faults db).store.users =
      userNames db.users := by
  rcases enhanceItem_commits db userId itemId cost success mult faults with
    ⟨_, hkept⟩ | hdone
  · rw [hkept]
  · rcases hdone.change with ⟨user, user', _, _, hlookup, _, hname, _, _, _, _, _, _,
      hstore, _⟩
    rw [hstore]
    exact userNames_insert_same hlookup hname

end Database

/-!
# A number for every name
-/

open Classical in
/-- The id of the user with a name, and other numbers for the other names. -/
noncomputable def nameNumbering (users : Table Nat (UserRow pg)) (name : List UInt8) :
    Nat :=
  if h : exists u, userNames users u = some name then Classical.choose h
  else users.keys.sum + 1 + Encodable.encode (name.map UInt8.toNat)

section Numbering

variable {users : Table Nat (UserRow pg)}

theorem nameNumbering_of_user (h : Numbered users) {userId : Nat} {name : List UInt8}
    (hname : userNames users userId = some name) :
    nameNumbering users name = userId := by
  have hexists : exists u, userNames users u = some name := ⟨userId, hname⟩
  unfold nameNumbering
  rw [dif_pos hexists]
  exact h.distinct _ _ name (Classical.choose_spec hexists) hname

theorem nameNumbering_of_nobody {name : List UInt8}
    (hname : forall u, userNames users u ≠ some name) :
    nameNumbering users name =
      users.keys.sum + 1 + Encodable.encode (name.map UInt8.toNat) := by
  unfold nameNumbering
  rw [dif_neg]
  intro h
  rcases h with ⟨u, hu⟩
  exact hname u hu

theorem userId_le_sum {userId : Nat} {name : List UInt8}
    (hname : userNames users userId = some name) : userId ≤ users.keys.sum := by
  rcases userNames_eq_some.mp hname with ⟨user, hlookup, _⟩
  have hmem : userId ∈ users := by
    rw [← AList.lookup_isSome, hlookup]
    rfl
  exact List.single_le_sum (fun _ _ => Nat.zero_le _) _ (AList.mem_keys.mp hmem)

theorem nameNumbering_positive (h : Numbered users) (name : List UInt8) :
    nameNumbering users name ≠ 0 := by
  by_cases hname : exists u, userNames users u = some name
  · rcases hname with ⟨u, hu⟩
    rw [nameNumbering_of_user h hu]
    intro hzero
    rw [hzero, h.zero] at hu
    cases hu
  · rw [nameNumbering_of_nobody (fun u hu => hname ⟨u, hu⟩)]
    omega

theorem nameNumbering_injective (h : Numbered users) :
    Function.Injective (nameNumbering users) := by
  intro a b hsame
  by_cases ha : exists u, userNames users u = some a <;>
    by_cases hb : exists u, userNames users u = some b
  · rcases ha with ⟨u, hu⟩
    rcases hb with ⟨v, hv⟩
    rw [nameNumbering_of_user h hu, nameNumbering_of_user h hv] at hsame
    rw [hsame, hv] at hu
    exact (Option.some.inj hu).symm
  · rcases ha with ⟨u, hu⟩
    have hle := userId_le_sum hu
    rw [nameNumbering_of_user h hu,
      nameNumbering_of_nobody (fun u hu => hb ⟨u, hu⟩)] at hsame
    omega
  · rcases hb with ⟨v, hv⟩
    have hle := userId_le_sum hv
    rw [nameNumbering_of_user h hv,
      nameNumbering_of_nobody (fun u hu => ha ⟨u, hu⟩)] at hsame
    omega
  · rw [nameNumbering_of_nobody (fun u hu => ha ⟨u, hu⟩),
      nameNumbering_of_nobody (fun u hu => hb ⟨u, hu⟩)] at hsame
    have hcode : Encodable.encode (a.map UInt8.toNat) =
        Encodable.encode (b.map UInt8.toNat) := by omega
    have hbytes := Encodable.encode_injective hcode
    exact List.map_injective_iff.mpr (fun x y hxy => UInt8.toNat_inj.mp hxy) hbytes

end Numbering

end Storage
end ContentServer
