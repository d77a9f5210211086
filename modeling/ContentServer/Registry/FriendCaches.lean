import ContentServer.Registry.Recipients

/-!
# The friend cache of each user

The session of a user is found through two indexes, so in a consistent registry
each user has at most one session and each session at most one user.  Every
operation of the session manager changes the friend caches in one of few ways.
A session that has no user yet has an empty cache.
-/

namespace ContentServer
namespace Registry

open Foundation Protocol Sessions SessionManager

/-- Nobody's friends are kept in a session without a user. -/
def Blank (m : SessionManager) : Prop :=
  forall id slot, m.byId.lookup id = some slot -> m.userOf id = none ->
    (m.session slot).friendIds = ∅

namespace Consistent

variable {userIdOf : List UInt8 -> Nat} {d : Directory}

theorem slotOfUser_eq_some (h : Consistent userIdOf d) {u : Nat} {slot : Slot} :
    d.manager.slotOfUser u = some slot <->
      exists id, d.manager.userOf id = some u ∧
        d.manager.byId.lookup id = some slot := by
  unfold slotOfUser
  constructor
  · intro hslot
    cases hid : d.manager.byUserId.lookup u with
    | none =>
        rw [hid] at hslot
        cases hslot
    | some id =>
        rw [hid] at hslot
        exact ⟨id, (h.users u id).mp hid, hslot⟩
  · intro hslot
    rcases hslot with ⟨id, huser, hlive⟩
    rw [(h.users u id).mpr huser]
    exact hlive

/-- A session has one user. -/
theorem slotOfUser_injective (h : Consistent userIdOf d) {u v : Nat} {slot : Slot}
    (hu : d.manager.slotOfUser u = some slot)
    (hv : d.manager.slotOfUser v = some slot) : u = v := by
  rcases h.slotOfUser_eq_some.mp hu with ⟨id, huser, hlive⟩
  rcases h.slotOfUser_eq_some.mp hv with ⟨other, huser', hlive'⟩
  rw [h.slots.slot_injective hlive hlive', huser'] at huser
  exact (Option.some.inj huser).symm

/-- A live session of a user is the one that is found for the user. -/
theorem slotOfUser_of_userOf (h : Consistent userIdOf d) {id u : Nat}
    (huser : d.manager.userOf id = some u) :
    exists slot, d.manager.byId.lookup id = some slot ∧
      d.manager.slotOfUser u = some slot := by
  rcases carried_eq_some_iff.mp huser with ⟨slot, hlive, _, _⟩
  exact ⟨slot, hlive, h.slotOfUser_eq_some.mpr ⟨id, huser, hlive⟩⟩

theorem cacheOf_of_userOf (h : Consistent userIdOf d) {id u : Nat} {slot : Slot}
    (hlive : d.manager.byId.lookup id = some slot)
    (huser : d.manager.userOf id = some u) :
    d.manager.cacheOf u = some (d.manager.session slot).friendIds := by
  unfold SessionManager.cacheOf
  rw [h.slotOfUser_eq_some.mpr ⟨id, huser, hlive⟩]
  rfl

/-!
# The friends who are online
-/

section FriendTargets

variable {id u : Nat} {slot : Slot}

theorem friendTargets_eq (h : Consistent userIdOf d)
    (hlive : d.manager.byId.lookup id = some slot)
    (huser : d.manager.userOf id = some u) (data : List UInt8) :
    (d.manager.friendTargets u data).map (fun t => ((d.manager.session t.1).id, t.2)) =
      (((d.manager.session slot).friendIds.sort (· ≤ ·)).filterMap
        d.manager.slotOfUser).map (fun other => ((d.manager.session other).id, data)) := by
  unfold friendTargets
  rw [h.slotOfUser_eq_some.mpr ⟨id, huser, hlive⟩]
  exact List.map_map

/-- The sessions of the friends are reached once. -/
theorem friendTargets_nodup (h : Consistent userIdOf d)
    (friends : Finset Nat) :
    (((friends.sort (· ≤ ·)).filterMap d.manager.slotOfUser).map
      (fun other => (d.manager.session other).id)).Nodup := by
  refine List.Nodup.map_on ?_ ((friends.sort_nodup (· ≤ ·)).filterMap ?_)
  · intro place hplace other hother hsame
    rcases List.mem_filterMap.mp hplace with ⟨v, _, hv⟩
    rcases List.mem_filterMap.mp hother with ⟨w, _, hw⟩
    rcases h.slotOfUser_eq_some.mp hv with ⟨i, _, hi⟩
    rcases h.slotOfUser_eq_some.mp hw with ⟨j, _, hj⟩
    rw [(h.slots.owner i place hi).left, (h.slots.owner j other hj).left] at hsame
    rw [hsame, hj] at hi
    exact (Option.some.inj hi).symm
  · intro v w place hv hw
    exact h.slotOfUser_injective hv hw

/-- The sessions of the friends, and no others, are reached. -/
theorem mem_friendTargets (h : Consistent userIdOf d) {friends : Finset Nat} {i : Nat} :
    i ∈ ((friends.sort (· ≤ ·)).filterMap d.manager.slotOfUser).map
      (fun other => (d.manager.session other).id) <->
    exists v, v ∈ friends ∧ d.manager.userOf i = some v := by
  rw [List.mem_map]
  constructor
  · intro hmem
    rcases hmem with ⟨place, hplace, hid⟩
    rcases List.mem_filterMap.mp hplace with ⟨v, hv, hfound⟩
    rcases h.slotOfUser_eq_some.mp hfound with ⟨j, huser, hlive⟩
    rw [(h.slots.owner j place hlive).left] at hid
    rw [← hid]
    exact ⟨v, (Finset.mem_sort _).mp hv, huser⟩
  · intro hmem
    rcases hmem with ⟨v, hv, huser⟩
    rcases h.slotOfUser_of_userOf huser with ⟨place, hlive, hfound⟩
    exact ⟨place, List.mem_filterMap.mpr ⟨v, (Finset.mem_sort _).mpr hv, hfound⟩,
      (h.slots.owner i place hlive).left⟩

end FriendTargets

/-!
# Sessions come and go
-/

theorem cacheOf_create (h : Consistent userIdOf d) {socket : Nat} {slot : Slot}
    {m : SessionManager} (hc : Created d.manager socket slot m) :
    m.cacheOf = d.manager.cacheOf := by
  have hnew := h.create hc
  have huser : m.userOf = d.manager.userOf := by
    funext id
    refine carried_create h.slots hc ?_ id
    rw [hc.occupant]
    rfl
  funext u
  unfold SessionManager.cacheOf
  have hslot : m.slotOfUser u = d.manager.slotOfUser u := by
    unfold slotOfUser
    rw [hc.byUserId]
    cases hid : d.manager.byUserId.lookup u with
    | none => rfl
    | some id =>
        have hne : id ≠ d.manager.nextId := by
          rcases carried_eq_some_iff.mp ((h.users u id).mp hid) with ⟨place, hlive, _⟩
          exact Nat.ne_of_lt (h.slots.live_lt hlive)
        simp only [hc.byId, AList.lookup_insert_ne hne]
  rw [hslot]
  cases hfound : d.manager.slotOfUser u with
  | none => rfl
  | some found =>
      have hne : found ≠ slot := by
        intro hsame
        subst hsame
        rcases h.slotOfUser_eq_some.mp hfound with ⟨id, _, hlive⟩
        refine h.slots.not_free hlive ?_
        rw [hc.freeList]
        exact List.mem_cons_self
      simp only [Option.map_some, hc.others found hne]

theorem cacheOf_destroy (h : Consistent userIdOf d) {id : Nat} {slot : Slot}
    (hlive : d.manager.byId.lookup id = some slot) {u : Nat} {friends : Finset Nat}
    (hcache : (d.manager.destroy slot).cacheOf u = some friends) :
    d.manager.userOf id ≠ some u ∧ d.manager.cacheOf u = some friends := by
  have hafter := h.destroy hlive
  have huser : (d.manager.destroy slot).userOf =
      Function.update d.manager.userOf id none := carried_destroy h.slots hlive
  rcases Option.map_eq_some_iff.mp hcache with ⟨found, hfound, hfriends⟩
  rcases hafter.slotOfUser_eq_some.mp hfound with ⟨other, hother, hplace⟩
  rw [huser] at hother
  rcases h.toIssued.live_of_destroy hlive hplace with ⟨hne, hbefore⟩
  rw [Function.update_of_ne hne] at hother
  constructor
  · intro hsame
    exact hne (h.users.injective hother hsame)
  · unfold SessionManager.cacheOf
    rw [h.slotOfUser_eq_some.mpr ⟨other, hother, hbefore⟩]
    exact congrArg some hfriends

end Consistent

/-!
# Names and user ids
-/

theorem cacheOf_setName (m : SessionManager) (slot : Slot) (id : Nat)
    (name : List UInt8) :
    SessionManager.cacheOf { m.put slot ((m.session slot).setName name)
      with byName := m.byName.insert name id } = m.cacheOf := by
  funext u
  have hslot : SessionManager.slotOfUser { m.put slot ((m.session slot).setName name)
      with byName := m.byName.insert name id } u = m.slotOfUser u := rfl
  unfold SessionManager.cacheOf
  rw [hslot]
  cases m.slotOfUser u with
  | none => rfl
  | some found =>
      refine congrArg some ?_
      show ((m.put slot ((m.session slot).setName name)).session found).friendIds = _
      by_cases hfound : found = slot
      · subst hfound
        rw [session_put_self]
        rfl
      · rw [session_put_of_ne m _ hfound]

theorem slotOfUser_of_lookup {m : SessionManager} {u id : Nat} {slot : Slot}
    (huser : m.byUserId.lookup u = some id) (hlive : m.byId.lookup id = some slot) :
    m.slotOfUser u = some slot := by
  unfold slotOfUser
  rw [huser]
  exact hlive

theorem slotOfUser_congr {m m' : SessionManager} {u : Nat}
    (huser : m'.byUserId.lookup u = m.byUserId.lookup u) (hlive : m'.byId = m.byId) :
    m'.slotOfUser u = m.slotOfUser u := by
  unfold slotOfUser
  rw [huser, hlive]

/-- The session brings its cache along. -/
theorem cacheOf_setUserId (m : SessionManager) {slot : Slot} {id : Nat}
    (hlive : m.byId.lookup id = some slot) (u v : Nat) :
    SessionManager.cacheOf { m.put slot ((m.session slot).setUserId u)
      with byUserId := m.byUserId.insert u id } v =
    if v = u then some (m.session slot).friendIds else m.cacheOf v := by
  have hput : forall found,
      ((m.put slot ((m.session slot).setUserId u)).session found).friendIds =
        (m.session found).friendIds := by
    intro found
    by_cases hfound : found = slot
    · subst hfound
      rw [session_put_self]
      rfl
    · rw [session_put_of_ne m _ hfound]
  have hslot : SessionManager.slotOfUser { m.put slot ((m.session slot).setUserId u)
      with byUserId := m.byUserId.insert u id } v =
      if v = u then some slot else m.slotOfUser v := by
    by_cases hv : v = u
    · subst hv
      rw [if_pos rfl]
      exact slotOfUser_of_lookup (AList.lookup_insert m.byUserId) hlive
    · rw [if_neg hv]
      exact slotOfUser_congr (AList.lookup_insert_ne hv) rfl
  unfold SessionManager.cacheOf
  rw [hslot]
  by_cases hv : v = u
  · rw [if_pos hv, if_pos hv]
    exact congrArg some (hput slot)
  · rw [if_neg hv, if_neg hv]
    cases m.slotOfUser v with
    | none => rfl
    | some found => exact congrArg some (hput found)

/-!
# Sessions without a user
-/

namespace Blank

variable {userIdOf : List UInt8 -> Nat} {d : Directory} {m : SessionManager}

theorem start (shards : Nat) : Blank (SessionManager.initShards shards) := by
  intro id slot hlive
  cases hlive

theorem create (h : Blank d.manager) (hd : Consistent userIdOf d) {socket : Nat}
    {slot : Slot} (hc : Created d.manager socket slot m) : Blank m := by
  intro id found hlive huser
  rcases hd.slots.lookup_create hc hlive with ⟨rfl, rfl⟩ | ⟨hbefore, hsession⟩
  · rw [hc.occupant]
    rfl
  · rw [hsession]
    refine h id found hbefore ?_
    have hsame : m.userOf id = d.manager.userOf id := by
      refine carried_create hd.slots hc ?_ id
      rw [hc.occupant]
      rfl
    rw [← hsame, huser]

theorem destroy (h : Blank d.manager) (hd : Consistent userIdOf d) {id : Nat}
    {slot : Slot} (hlive : d.manager.byId.lookup id = some slot) :
    Blank (d.manager.destroy slot) := by
  intro other found hfound huser
  rcases hd.toIssued.live_of_destroy hlive hfound with ⟨hne, hbefore⟩
  have hafter : (d.manager.destroy slot).userOf =
      Function.update d.manager.userOf id none := carried_destroy hd.slots hlive
  rw [hafter, Function.update_of_ne hne] at huser
  exact h other found hbefore huser

/-- Everything that leaves identities and caches alone. -/
theorem same (h : Blank d.manager) (hsame : SameSessions d.manager m) : Blank m := by
  intro id slot hlive huser
  rw [hsame.byId] at hlive
  rw [hsame.userOf] at huser
  rw [hsame.friends]
  exact h id slot hlive huser

theorem setName (h : Blank m) (slot : Slot) (id : Nat) (name : List UInt8) :
    Blank { m.put slot ((m.session slot).setName name)
      with byName := m.byName.insert name id } := by
  intro other found hlive huser
  have hsame : (m.put slot ((m.session slot).setName name)).userOf = m.userOf :=
    carried_put_same (show ((m.session slot).setName name).userId = _ from rfl)
  replace huser : (m.put slot ((m.session slot).setName name)).userOf other = none :=
    huser
  rw [hsame] at huser
  show ((m.put slot ((m.session slot).setName name)).session found).friendIds = ∅
  by_cases hfound : found = slot
  · subst hfound
    rw [session_put_self]
    exact h other found hlive huser
  · rw [session_put_of_ne m _ hfound]
    exact h other found hlive huser

theorem setUserId (h : Blank m) (hslots : Occupied m) {slot : Slot} {id u : Nat}
    (hlive : m.byId.lookup id = some slot) (hu : u ≠ 0) :
    Blank { m.put slot ((m.session slot).setUserId u)
      with byUserId := m.byUserId.insert u id } := by
  intro other found hfound huser
  have hafter : (m.put slot ((m.session slot).setUserId u)).userOf =
      Function.update m.userOf id (some u) := carried_put hslots hlive hu
  replace huser : (m.put slot ((m.session slot).setUserId u)).userOf other = none :=
    huser
  replace hfound : m.byId.lookup other = some found := hfound
  rw [hafter] at huser
  have hne : other ≠ id := by
    intro hsame
    rw [hsame, Function.update_self] at huser
    cases huser
  rw [Function.update_of_ne hne] at huser
  have hplace : found ≠ slot := by
    intro hsame
    subst hsame
    exact hne (hslots.slot_injective hfound hlive)
  show ((m.put slot ((m.session slot).setUserId u)).session found).friendIds = ∅
  rw [session_put_of_ne m _ hplace]
  exact h other found hfound huser

theorem editCache (h : Blank d.manager) (hd : Consistent userIdOf d) (u : Nat)
    (edit : Finset Nat -> Finset Nat) : Blank (d.manager.editCache u edit) := by
  intro id slot hlive huser
  have hsame := editCache_same d.manager u edit
  rw [hsame.byId] at hlive
  rw [hsame.userOf] at huser
  have hold := h id slot hlive huser
  unfold SessionManager.editCache
  cases hslot : d.manager.slotOfUser u with
  | none => exact hold
  | some found =>
      have hne : slot ≠ found := by
        intro heq
        subst heq
        rcases hd.slotOfUser_eq_some.mp hslot with ⟨other, hother, hplace⟩
        rw [hd.slots.slot_injective hplace hlive, huser] at hother
        cases hother
      rw [session_put_of_ne d.manager _ hne]
      exact hold

end Blank

end Registry
end ContentServer
