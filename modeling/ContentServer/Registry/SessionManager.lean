import ContentServer.Foundation.Index
import ContentServer.Sessions.SessionCalls

/-!
# The session manager

`SessionManager` finds live sessions by id, by name and by user id, and owns the
pool that they live in.  Every member function runs under the lock, so each of
them is one atomic operation.  A `Session*` is the slot of the session in the
pool, and the shard queues are their indices.
-/

namespace ContentServer
namespace Registry

open Foundation Protocol Sessions

structure SessionManager where
  byId : Table Nat Slot
  byName : Table (List UInt8) Nat
  byUserId : Table Nat Nat
  /-- A `uint64_t` in the source; a server that gives out an id every nanosecond needs
  584 years to overflow it. -/
  nextId : Nat
  pool : ObjectPool Session 1000
  shardCount : Nat

/-- A call of `Session::Send`; whether the send buffer took the text is seen from
what the buffer holds afterwards. -/
structure Sending where
  sessionId : Nat
  data : List UInt8
  accepted : Bool

/-- The manager after an operation that sends, the outside calls of the sessions, and
the calls of `Session::Send` that were made, in order. -/
structure Delivery where
  manager : SessionManager
  calls : List IoCall
  sendings : List Sending

def Delivery.nothing (m : SessionManager) : Delivery :=
  ⟨m, [], []⟩

namespace SessionManager

/-- A new manager after `InitShards`. -/
def initShards (n : Nat) : SessionManager where
  byId := ∅
  byName := ∅
  byUserId := ∅
  nextId := 1
  pool := .create .constructed
  shardCount := n

/-- The session behind a `Session*`. -/
def session (m : SessionManager) (slot : Slot) : Session :=
  m.pool.items slot

/-- Write to the session behind a `Session*`. -/
def put (m : SessionManager) (slot : Slot) (s : Session) : SessionManager :=
  { m with pool := m.pool.set slot s }

/-- `Create`; `none` stands for the null pointer. -/
def create (m : SessionManager) (socket : Nat) : Option (Slot × SessionManager) :=
  match m.pool.alloc with
  | none => none
  | some (index, pool) =>
      let id := m.nextId
      let s := (pool.items index).init socket index id (id % m.shardCount)
      some (index, { m with
        pool := pool.set index s
        nextId := id + 1
        byId := m.byId.insert id index })

def destroy (m : SessionManager) (slot : Slot) : SessionManager :=
  let s := m.session slot
  { m with
    byId := m.byId.erase s.id
    byName := m.byName.erase s.name
    byUserId := m.byUserId.erase s.userId
    pool := m.pool.free s.index }

def isNamed (m : SessionManager) (id : Nat) : Bool :=
  match m.byId.lookup id with
  | none => false
  | some slot => (m.session slot).isNamed

def setName (m : SessionManager) (id : Nat) (name : List UInt8) :
    Bool × SessionManager :=
  if name ∈ m.byName then (false, m)
  else
    match m.byId.lookup id with
    | none => (false, m)
    | some slot =>
        (true, { m.put slot ((m.session slot).setName name) with
          byName := m.byName.insert name id })

def setUserId (m : SessionManager) (sessionId userId : Nat) : SessionManager :=
  match m.byId.lookup sessionId with
  | none => m
  | some slot =>
      { m.put slot ((m.session slot).setUserId userId) with
        byUserId := m.byUserId.insert userId sessionId }

def getUserId (m : SessionManager) (sessionId : Nat) : Nat :=
  match m.byId.lookup sessionId with
  | none => 0
  | some slot => (m.session slot).userId

def findByName (m : SessionManager) (name : List UInt8) : Nat :=
  (m.byName.lookup name).getD 0

/-- `Send` of the session behind a `Session*`. -/
def send (m : SessionManager) (slot : Slot) (data : List UInt8)
    (result : PostResult) : Delivery :=
  let s := m.session slot
  let sent := s.send data result
  { manager := m.put slot sent.session
    calls := sent.calls
    sendings := [{
      sessionId := s.id
      data := data
      accepted := decide (sent.session.sendBuffer.getUsedSize =
        s.sendBuffer.getUsedSize + data.length) }] }

def sendTo (m : SessionManager) (id : Nat) (data : List UInt8)
    (result : PostResult) : Bool × Delivery :=
  match m.byId.lookup id with
  | none => (false, .nothing m)
  | some slot => (true, m.send slot data result)

/-!
# The fields after an operation
-/

@[simp] theorem session_put_self (m : SessionManager) (slot : Slot)
    (s : Session) : (m.put slot s).session slot = s :=
  m.pool.items_set_self slot s

theorem session_put_of_ne (m : SessionManager) {slot other : Slot}
    (s : Session) (h : other ≠ slot) :
    (m.put slot s).session other = m.session other :=
  m.pool.items_set_of_ne s h

/-- What a successful `Create` does. -/
structure Created (m : SessionManager) (socket : Nat) (slot : Slot)
    (m' : SessionManager) : Prop where
  freeList : m.pool.freeList = slot :: m'.pool.freeList
  occupant : m'.session slot =
    (m.session slot).init socket slot m.nextId (m.nextId % m.shardCount)
  others : forall other, other ≠ slot -> m'.session other = m.session other
  byId : m'.byId = m.byId.insert m.nextId slot
  byName : m'.byName = m.byName
  byUserId : m'.byUserId = m.byUserId
  nextId : m'.nextId = m.nextId + 1

theorem create_created {m m' : SessionManager} {socket : Nat} {slot : Slot}
    (h : m.create socket = some (slot, m')) : Created m socket slot m' := by
  unfold create at h
  cases halloc : m.pool.alloc with
  | none =>
      rw [halloc] at h
      cases h
  | some found =>
      rcases found with ⟨index, pool⟩
      rcases ObjectPool.alloc_eq_some halloc with ⟨hfree, hitems⟩
      rw [halloc] at h
      cases h
      exact {
        freeList := hfree
        occupant := by
          show (pool.set slot _).items slot = _
          rw [ObjectPool.items_set_self, hitems]
          rfl
        others := fun other hne => by
          show (pool.set slot _).items other = m.pool.items other
          rw [pool.items_set_of_ne _ hne, hitems]
        byId := rfl
        byName := rfl
        byUserId := rfl
        nextId := rfl }

/-- `Create` fails exactly when the pool is used up. -/
theorem create_eq_none_iff (m : SessionManager) (socket : Nat) :
    m.create socket = none <-> m.pool.freeList = [] := by
  unfold create ObjectPool.alloc
  cases m.pool.freeList with
  | nil => simp
  | cons slot rest => simp

/-- What `SetName` does, refused or not. -/
theorem setName_cases (m : SessionManager) (id : Nat) (name : List UInt8) :
    (m.setName id name = (false, m) ∧
      ((exists owner, m.byName.lookup name = some owner) ∨
        m.byId.lookup id = none)) ∨
    (exists slot, m.byName.lookup name = none ∧
      m.byId.lookup id = some slot ∧
      m.setName id name =
        (true, { m.put slot ((m.session slot).setName name) with
          byName := m.byName.insert name id })) := by
  unfold setName
  by_cases hname : name ∈ m.byName
  · left
    rw [if_pos hname]
    exact ⟨rfl, Or.inl (Option.isSome_iff_exists.mp
      (AList.lookup_isSome.mpr hname))⟩
  · rw [if_neg hname]
    cases hid : m.byId.lookup id with
    | none => exact Or.inl ⟨rfl, Or.inr rfl⟩
    | some slot =>
        exact Or.inr ⟨slot, AList.lookup_eq_none.mpr hname, rfl, rfl⟩

/-- `SetUserId` does nothing for a session that is gone. -/
theorem setUserId_cases (m : SessionManager) (id userId : Nat) :
    (m.setUserId id userId = m ∧ id ∉ m.byId) ∨
    (exists slot, m.byId.lookup id = some slot ∧ id ∈ m.byId ∧
      m.setUserId id userId =
        { m.put slot ((m.session slot).setUserId userId) with
          byUserId := m.byUserId.insert userId id }) := by
  unfold setUserId
  cases hid : m.byId.lookup id with
  | none => exact Or.inl ⟨rfl, AList.lookup_eq_none.mp hid⟩
  | some slot =>
      have hpresent : id ∈ m.byId := by
        rw [← AList.lookup_isSome, hid]
        rfl
      exact Or.inr ⟨slot, rfl, hpresent, rfl⟩

end SessionManager

end Registry
end ContentServer
