import ContentServer.Registry.SessionManager

/-!
# Slots and keys

A slot of the pool is either free or registered under the id of the session in
it.  Names and user ids are secondary keys: a session carries one from the
moment it is set, and the blank value means that it carries none.
-/

namespace ContentServer
namespace Registry

open Foundation Protocol Sessions SessionManager

/-- The registry by id and the free list divide the pool. -/
structure Occupied (m : SessionManager) : Prop where
  owner : forall id slot, m.byId.lookup id = some slot ->
    (m.session slot).id = id ∧ (m.session slot).index = slot
  zero : m.byId.lookup 0 = none
  nextId : 0 < m.nextId
  seen : forall slot, (m.session slot).id < m.nextId
  free : forall slot, slot ∈ m.pool.freeList ->
    m.byId.lookup (m.session slot).id = none
  nodup : m.pool.freeList.Nodup
  covered : forall slot, slot ∈ m.pool.freeList ∨
    m.byId.lookup (m.session slot).id = some slot

namespace Occupied

variable {m m' : SessionManager}

theorem initShards (n : Nat) : Occupied (SessionManager.initShards n) := by
  have hnone : forall id, (SessionManager.initShards n).byId.lookup id = none :=
    fun _ => rfl
  have hfree : (SessionManager.initShards n).pool.freeList = List.finRange 1000 :=
    ObjectPool.freeList_create _
  constructor
  · intro id slot hid
    rw [hnone] at hid
    cases hid
  · exact hnone 0
  · exact Nat.one_pos
  · intro slot
    exact Nat.one_pos
  · intro slot _
    exact hnone _
  · rw [hfree]
    exact List.nodup_finRange 1000
  · intro slot
    rw [hfree]
    exact Or.inl (List.mem_finRange slot)

theorem live_lt (h : Occupied m) {id : Nat} {slot : Slot}
    (hid : m.byId.lookup id = some slot) : id < m.nextId := by
  rw [← (h.owner id slot hid).left]
  exact h.seen slot

theorem lookup_nextId (h : Occupied m) : m.byId.lookup m.nextId = none := by
  cases hid : m.byId.lookup m.nextId with
  | none => rfl
  | some slot => exact absurd (h.live_lt hid) (Nat.lt_irrefl _)

theorem not_free (h : Occupied m) {id : Nat} {slot : Slot}
    (hid : m.byId.lookup id = some slot) : slot ∉ m.pool.freeList := by
  intro hfree
  have hnone := h.free slot hfree
  rw [(h.owner id slot hid).left, hid] at hnone
  cases hnone

/-- Two ids never share a slot. -/
theorem slot_injective (h : Occupied m) {id id' : Nat} {slot : Slot}
    (hid : m.byId.lookup id = some slot)
    (hid' : m.byId.lookup id' = some slot) : id = id' := by
  rw [← (h.owner id slot hid).left, (h.owner id' slot hid').left]

/-- Operations that keep the ids and the places of all sessions. -/
theorem congr (h : Occupied m) (hbyId : m'.byId = m.byId)
    (hnextId : m'.nextId = m.nextId)
    (hfree : m'.pool.freeList = m.pool.freeList)
    (hid : forall slot, (m'.session slot).id = (m.session slot).id)
    (hindex : forall slot, (m'.session slot).index = (m.session slot).index) :
    Occupied m' where
  owner := by
    intro id slot hlookup
    rw [hbyId] at hlookup
    rw [hid, hindex]
    exact h.owner id slot hlookup
  zero := by
    rw [hbyId]
    exact h.zero
  nextId := by
    rw [hnextId]
    exact h.nextId
  seen := by
    intro slot
    rw [hid, hnextId]
    exact h.seen slot
  free := by
    intro slot hslot
    rw [hfree] at hslot
    rw [hid, hbyId]
    exact h.free slot hslot
  nodup := by
    rw [hfree]
    exact h.nodup
  covered := by
    intro slot
    rw [hfree, hid, hbyId]
    exact h.covered slot

theorem put (h : Occupied m) (slot : Slot) {s : Session}
    (hid : s.id = (m.session slot).id)
    (hindex : s.index = (m.session slot).index) : Occupied (m.put slot s) := by
  refine h.congr rfl rfl rfl ?_ ?_
  · intro other
    by_cases hother : other = slot
    · subst hother
      rw [session_put_self, hid]
    · rw [session_put_of_ne m s hother]
  · intro other
    by_cases hother : other = slot
    · subst hother
      rw [session_put_self, hindex]
    · rw [session_put_of_ne m s hother]

/-- Whoever is found after `Create` is the new session or was there before. -/
theorem lookup_create (h : Occupied m) {socket : Nat} {slot : Slot}
    (hc : Created m socket slot m') {id : Nat} {found : Slot}
    (hfound : m'.byId.lookup id = some found) :
    (id = m.nextId ∧ found = slot) ∨
      (m.byId.lookup id = some found ∧ m'.session found = m.session found) := by
  rw [hc.byId] at hfound
  by_cases hid : id = m.nextId
  · rw [hid, AList.lookup_insert] at hfound
    cases hfound
    exact Or.inl ⟨hid, rfl⟩
  · rw [AList.lookup_insert_ne hid] at hfound
    have hne : found ≠ slot := by
      intro hsame
      subst hsame
      apply h.not_free hfound
      rw [hc.freeList]
      exact List.mem_cons_self
    exact Or.inr ⟨hfound, hc.others found hne⟩

theorem create (h : Occupied m) {socket : Nat} {slot : Slot}
    (hc : Created m socket slot m') : Occupied m' := by
  have hnodup := h.nodup
  rw [hc.freeList, List.nodup_cons] at hnodup
  have hmem : forall other, other ∈ m'.pool.freeList ->
      other ∈ m.pool.freeList := by
    intro other hother
    rw [hc.freeList]
    exact List.mem_cons_of_mem slot hother
  have hslot : slot ∈ m.pool.freeList := by
    rw [hc.freeList]
    exact List.mem_cons_self
  constructor
  · intro id found hlookup
    rcases h.lookup_create hc hlookup with ⟨rfl, rfl⟩ | ⟨hbefore, hsession⟩
    · rw [hc.occupant]
      exact ⟨rfl, rfl⟩
    · rw [hsession]
      exact h.owner id found hbefore
  · rw [hc.byId, AList.lookup_insert_ne (Nat.ne_of_lt h.nextId)]
    exact h.zero
  · rw [hc.nextId]
    exact Nat.succ_pos _
  · intro other
    rw [hc.nextId]
    by_cases hother : other = slot
    · subst hother
      rw [hc.occupant]
      exact Nat.lt_succ_self _
    · rw [hc.others other hother]
      exact Nat.lt_succ_of_lt (h.seen other)
  · intro other hother
    have hne : other ≠ slot := by
      intro hsame
      subst hsame
      exact hnodup.left hother
    rw [hc.others other hne, hc.byId,
      AList.lookup_insert_ne (Nat.ne_of_lt (h.seen other))]
    exact h.free other (hmem other hother)
  · exact hnodup.right
  · intro other
    by_cases hother : other = slot
    · subst hother
      right
      rw [hc.occupant, hc.byId]
      exact AList.lookup_insert _
    · rw [hc.others other hother]
      rcases h.covered other with hfree | hlookup
      · rw [hc.freeList] at hfree
        rcases List.mem_cons.mp hfree with hsame | hrest
        · exact absurd hsame hother
        · exact Or.inl hrest
      · right
        rw [hc.byId, AList.lookup_insert_ne (Nat.ne_of_lt (h.seen other))]
        exact hlookup

theorem destroy (h : Occupied m) {id : Nat} {slot : Slot}
    (hlive : m.byId.lookup id = some slot) : Occupied (m.destroy slot) := by
  rcases h.owner id slot hlive with ⟨hid, hindex⟩
  have hbyId : (m.destroy slot).byId = m.byId.erase id := by
    rw [← hid]
    rfl
  have hfree : (m.destroy slot).pool.freeList = slot :: m.pool.freeList := by
    show (m.session slot).index :: _ = _
    rw [hindex]
  have hsession : forall other,
      (m.destroy slot).session other = m.session other := fun _ => rfl
  constructor
  · intro other found hlookup
    rw [hbyId] at hlookup
    by_cases hother : other = id
    · subst hother
      rw [AList.lookup_erase] at hlookup
      cases hlookup
    · rw [AList.lookup_erase_ne hother] at hlookup
      exact h.owner other found hlookup
  · rw [hbyId]
    by_cases hzero : 0 = id
    · subst hzero
      exact AList.lookup_erase _ _
    · rw [AList.lookup_erase_ne hzero]
      exact h.zero
  · exact h.nextId
  · exact h.seen
  · intro other hother
    rw [hsession, hbyId]
    rw [hfree] at hother
    rcases List.mem_cons.mp hother with hsame | hrest
    · subst hsame
      rw [hid]
      exact AList.lookup_erase _ _
    · by_cases hkey : (m.session other).id = id
      · rw [hkey]
        exact AList.lookup_erase _ _
      · rw [AList.lookup_erase_ne hkey]
        exact h.free other hrest
  · rw [hfree, List.nodup_cons]
    exact ⟨h.not_free hlive, h.nodup⟩
  · intro other
    rw [hfree, hsession, hbyId]
    rcases h.covered other with hother | hlookup
    · exact Or.inl (List.mem_cons_of_mem slot hother)
    · by_cases hkey : (m.session other).id = id
      · left
        rw [hkey, hlive] at hlookup
        cases hlookup
        exact List.mem_cons_self
      · right
        rw [AList.lookup_erase_ne hkey]
        exact hlookup

end Occupied

/-!
# Secondary keys
-/

variable {key : Type} [DecidableEq key]

/-- The key that the live session with this id carries, unless it is blank. -/
def SessionManager.carried (m : SessionManager) (read : Session -> key)
    (blank : key) (id : Nat) : Option key :=
  match m.byId.lookup id with
  | none => none
  | some slot =>
      if read (m.session slot) = blank then none
      else some (read (m.session slot))

/-- The name of a live session, once it has one. -/
def SessionManager.nameOf (m : SessionManager) (id : Nat) : Option (List UInt8) :=
  m.carried Session.name [] id

/-- The user id of a live session, once it has one. -/
def SessionManager.userOf (m : SessionManager) (id : Nat) : Option Nat :=
  m.carried Session.userId 0 id

section Carried

variable {m m' : SessionManager} {read : Session -> key} {blank : key}

theorem carried_of_lookup {id : Nat} {slot : Slot}
    (hid : m.byId.lookup id = some slot) :
    m.carried read blank id =
      if read (m.session slot) = blank then none
      else some (read (m.session slot)) := by
  unfold SessionManager.carried
  rw [hid]

theorem carried_of_lookup_none {id : Nat} (hid : m.byId.lookup id = none) :
    m.carried read blank id = none := by
  unfold SessionManager.carried
  rw [hid]

theorem carried_eq_some_iff {id : Nat} {k : key} :
    m.carried read blank id = some k <->
      exists slot, m.byId.lookup id = some slot ∧
        read (m.session slot) = k ∧ k ≠ blank := by
  cases hid : m.byId.lookup id with
  | none =>
      rw [carried_of_lookup_none hid]
      constructor
      · intro hcontra
        cases hcontra
      · intro hcontra
        rcases hcontra with ⟨slot, hslot, _⟩
        cases hslot
  | some slot =>
      rw [carried_of_lookup hid]
      split
      · rename_i hblank
        constructor
        · intro hcontra
          cases hcontra
        · intro hk
          rcases hk with ⟨found, hslot, hread, hne⟩
          cases hslot
          exact absurd (hread.symm.trans hblank) hne
      · rename_i hset
        constructor
        · intro hsame
          cases hsame
          exact ⟨slot, rfl, rfl, hset⟩
        · intro hk
          rcases hk with ⟨found, hslot, hread, _⟩
          cases hslot
          rw [hread]

theorem carried_create {socket : Nat} {slot : Slot} (h : Occupied m)
    (hc : Created m socket slot m')
    (hblank : read (m'.session slot) = blank) (id : Nat) :
    m'.carried read blank id = m.carried read blank id := by
  have hslot : slot ∈ m.pool.freeList := by
    rw [hc.freeList]
    exact List.mem_cons_self
  by_cases hid : id = m.nextId
  · subst hid
    have hnew : m'.byId.lookup m.nextId = some slot := by
      rw [hc.byId]
      exact AList.lookup_insert _
    rw [carried_of_lookup_none h.lookup_nextId, carried_of_lookup hnew,
      if_pos hblank]
  · have hlookup : m'.byId.lookup id = m.byId.lookup id := by
      rw [hc.byId]
      exact AList.lookup_insert_ne hid
    cases hfound : m.byId.lookup id with
    | none =>
        rw [carried_of_lookup_none hfound,
          carried_of_lookup_none (hlookup.trans hfound)]
    | some found =>
        have hne : found ≠ slot := by
          intro hsame
          subst hsame
          exact h.not_free hfound hslot
        rw [carried_of_lookup hfound, carried_of_lookup (hlookup.trans hfound),
          hc.others found hne]

theorem carried_destroy (h : Occupied m) {id : Nat} {slot : Slot}
    (hlive : m.byId.lookup id = some slot) :
    (m.destroy slot).carried read blank =
      Function.update (m.carried read blank) id none := by
  have hbyId : (m.destroy slot).byId = m.byId.erase id := by
    rw [← (h.owner id slot hlive).left]
    rfl
  funext other
  by_cases hother : other = id
  · subst hother
    rw [Function.update_self]
    apply carried_of_lookup_none
    rw [hbyId]
    exact AList.lookup_erase _ _
  · rw [Function.update_of_ne hother]
    have hlookup : (m.destroy slot).byId.lookup other = m.byId.lookup other := by
      rw [hbyId]
      exact AList.lookup_erase_ne hother
    unfold SessionManager.carried
    rw [hlookup]
    rfl

/-- A write that keeps the key of the session. -/
theorem carried_put_same {slot : Slot} {s : Session}
    (hread : read s = read (m.session slot)) :
    (m.put slot s).carried read blank = m.carried read blank := by
  funext id
  cases hid : m.byId.lookup id with
  | none =>
      rw [carried_of_lookup_none hid]
      exact carried_of_lookup_none hid
  | some found =>
      have hid' : (m.put slot s).byId.lookup id = some found := hid
      rw [carried_of_lookup hid, carried_of_lookup hid']
      by_cases hfound : found = slot
      · subst hfound
        rw [session_put_self, hread]
      · rw [session_put_of_ne m s hfound]

/-- A write that gives the session a key. -/
theorem carried_put (h : Occupied m) {id : Nat} {slot : Slot} {s : Session}
    (hlive : m.byId.lookup id = some slot) (hset : read s ≠ blank) :
    (m.put slot s).carried read blank =
      Function.update (m.carried read blank) id (some (read s)) := by
  funext other
  by_cases hother : other = id
  · subst hother
    have hlive' : (m.put slot s).byId.lookup other = some slot := hlive
    rw [Function.update_self, carried_of_lookup hlive',
      session_put_self, if_neg hset]
  · rw [Function.update_of_ne hother]
    cases hfound : m.byId.lookup other with
    | none =>
        rw [carried_of_lookup_none hfound]
        exact carried_of_lookup_none hfound
    | some found =>
        have hfound' : (m.put slot s).byId.lookup other = some found := hfound
        have hne : found ≠ slot := by
          intro hsame
          subst hsame
          exact hother (h.slot_injective hfound hlive)
        rw [carried_of_lookup hfound, carried_of_lookup hfound',
          session_put_of_ne m s hne]

end Carried

end Registry
end ContentServer
