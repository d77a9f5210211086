import ContentServer.Registry.Consistency
import ContentServer.Sessions.Accounting

/-!
# The server

The session manager together with what the system and the worker threads hold
for each slot.  A worker that handles a completion only has the `Session*`, so
its three parts (the handler proper, `CompleteIO` and `Destroy`) act on the slot
whoever lives there at the time.  Consumers reach a session through its id.
-/

namespace ContentServer
namespace Sessions

/-- Events of `WorkerLoop` on a session before `CloseSession`. -/
def Conn.Event.ofWorker : Conn.Event -> Bool
  | .recvCompletion _ _ _ _ => true
  | .sendCompletion _ _ _ => true
  | .completeIo => true
  | .postRecv _ => false
  | .send _ _ => false

/-- Nothing exists for the slot. -/
def Io.none : Io where
  accepting := false
  recvs := []
  sends := []
  handlers := 0
  destroying := 0
  calls := []
  acked := []
  accepted := []
  posted := []

/-- No operation is outstanding and no handler is in progress. -/
structure Io.Quiet (io : Io) : Prop where
  recvs : io.recvs = []
  sends : io.sends = []
  handlers : io.handlers = 0
  destroying : io.destroying = 0

end Sessions

namespace Network

open Foundation Protocol Sessions Registry SessionManager

structure Server where
  directory : Directory
  io : Slot -> Io
  /-- Ids of the sessions that `Destroy` was called for. -/
  destroyed : List Nat

namespace Server

inductive Event where
  /-- `OnAcceptComplete` from `Create` to `PostRecv`. -/
  | accept (socket : Nat) (result : PostResult)
  | worker (slot : Slot) (e : Conn.Event)
  /-- `CloseSession` of a handler whose `CompleteIO` returned true. -/
  | destroy (slot : Slot)
  | sendTo (id : Nat) (data : List UInt8) (result : PostResult)
  | setName (id : Nat) (name : List UInt8)
  | setUserId (id userId : Nat)

def start (shards : Nat) : Server where
  directory := .start shards
  io := fun _ => .none
  destroyed := []

abbrev manager (sv : Server) : SessionManager :=
  sv.directory.manager

/-- The connection that uses the slot. -/
def conn (sv : Server) (slot : Slot) : Conn where
  toIo := sv.io slot
  session := sv.manager.session slot

/-- Write a connection back to its slot. -/
def put (sv : Server) (slot : Slot) (c : Conn) : Server :=
  { sv with
    directory := { sv.directory with manager := sv.manager.put slot c.session }
    io := Function.update sv.io slot c.toIo }

/-- A full pool only costs the new socket. -/
def accept (sv : Server) (socket : Nat) (result : PostResult) : Server :=
  match sv.manager.create socket with
  | none => sv
  | some (slot, manager) =>
      let created : Server := { sv with
        directory := { sv.directory with
          manager := manager
          created := sv.manager.nextId :: sv.directory.created } }
      -- the history starts anew, outstanding work would stay
      let c : Conn := { created.conn slot with
        accepting := false, calls := [], acked := [], accepted := [], posted := [] }
      created.put slot (c.after (c.session.postRecv result))

def step (userIdOf : List UInt8 -> Nat) (sv : Server) : Event -> Option Server
  | .accept socket result => some (sv.accept socket result)
  | .worker slot e =>
      if e.ofWorker then ((sv.conn slot).step e).map (sv.put slot) else none
  | .destroy slot =>
      if (sv.io slot).destroying = 0 then none
      else
        let io := { sv.io slot with destroying := (sv.io slot).destroying - 1 }
        some {
          directory := { sv.directory with manager := sv.manager.destroy slot }
          io := Function.update sv.io slot io
          destroyed := (sv.manager.session slot).id :: sv.destroyed }
  | .sendTo id data result =>
      match sv.manager.byId.lookup id with
      | none => some sv
      | some slot => ((sv.conn slot).step (.send data result)).map (sv.put slot)
  | .setName id name =>
      (sv.directory.step userIdOf (.setName id name)).map fun d =>
        { sv with directory := d }
  | .setUserId id userId =>
      (sv.directory.step userIdOf (.setUserId id userId)).map fun d =>
        { sv with directory := d }

/-- Calls that `HandleNick` makes under the lock. -/
def Event.ofLogin : Event -> Option Directory.Event
  | .setName id name => some (.setName id name)
  | .setUserId id userId => some (.setUserId id userId)
  | .accept _ _ => none
  | .worker _ _ => none
  | .destroy _ => none
  | .sendTo _ _ _ => none

/-- What an enabled event does. -/
theorem step_cases {userIdOf : List UInt8 -> Nat} {sv sw : Server}
    {event : Event} (h : sv.step userIdOf event = some sw) :
    (exists socket result, event = .accept socket result ∧
      sw = sv.accept socket result) ∨
    (exists slot e c, event = .worker slot e ∧ e.ofWorker = true ∧
      (sv.conn slot).step e = some c ∧ sw = sv.put slot c) ∨
    (exists slot, event = .destroy slot ∧ (sv.io slot).destroying ≠ 0 ∧
      sw = {
        directory := { sv.directory with manager := sv.manager.destroy slot }
        io := Function.update sv.io slot
          { sv.io slot with destroying := (sv.io slot).destroying - 1 }
        destroyed := (sv.manager.session slot).id :: sv.destroyed }) ∨
    (exists id data result, event = .sendTo id data result ∧
      ((sv.manager.byId.lookup id = none ∧ sw = sv) ∨
        exists slot c, sv.manager.byId.lookup id = some slot ∧
          (sv.conn slot).step (.send data result) = some c ∧
          sw = sv.put slot c)) ∨
    (exists login d, event.ofLogin = some login ∧
      sv.directory.step userIdOf login = some d ∧
      sw = { sv with directory := d }) := by
  cases event with
  | accept socket result =>
      cases h
      exact Or.inl ⟨socket, result, rfl, rfl⟩
  | worker slot e =>
      simp only [step] at h
      split at h
      · rename_i hworker
        rcases Option.map_eq_some_iff.mp h with ⟨c, hstep, hput⟩
        exact Or.inr (Or.inl ⟨slot, e, c, rfl, hworker, hstep, hput.symm⟩)
      · cases h
  | destroy slot =>
      simp only [step] at h
      split at h
      · cases h
      · rename_i hne
        cases h
        exact Or.inr (Or.inr (Or.inl ⟨slot, rfl, hne, rfl⟩))
  | sendTo id data result =>
      refine Or.inr (Or.inr (Or.inr (Or.inl ⟨id, data, result, rfl, ?_⟩)))
      simp only [step] at h
      split at h
      · rename_i hnone
        cases h
        exact Or.inl ⟨hnone, rfl⟩
      · rename_i slot hlive
        rcases Option.map_eq_some_iff.mp h with ⟨c, hstep, hput⟩
        exact Or.inr ⟨slot, c, hlive, hstep, hput.symm⟩
  | setName id name =>
      rcases Option.map_eq_some_iff.mp h with ⟨d, hstep, hput⟩
      exact Or.inr (Or.inr (Or.inr (Or.inr ⟨_, d, rfl, hstep, hput.symm⟩)))
  | setUserId id userId =>
      rcases Option.map_eq_some_iff.mp h with ⟨d, hstep, hput⟩
      exact Or.inr (Or.inr (Or.inr (Or.inr ⟨_, d, rfl, hstep, hput.symm⟩)))

/-!
# Slots after a step
-/

theorem conn_put_self (sv : Server) (slot : Slot) (c : Conn) :
    (sv.put slot c).conn slot = c := by
  have hio : (sv.put slot c).io slot = c.toIo := Function.update_self ..
  have hsession : (sv.put slot c).manager.session slot = c.session :=
    session_put_self sv.manager slot c.session
  unfold conn
  rw [hio, hsession]

theorem conn_put_of_ne (sv : Server) {slot other : Slot} (c : Conn)
    (h : other ≠ slot) : (sv.put slot c).conn other = sv.conn other := by
  have hio : (sv.put slot c).io other = sv.io other := Function.update_of_ne h ..
  have hsession : (sv.put slot c).manager.session other =
      sv.manager.session other := session_put_of_ne sv.manager c.session h
  unfold conn
  rw [hio, hsession]

/-- The connection that `accept` leaves in the slot. -/
theorem accept_cases (sv : Server) (socket : Nat) (result : PostResult) :
    (sv.manager.create socket = none ∧ sv.accept socket result = sv) ∨
    (exists slot m c,
      sv.manager.create socket = some (slot, m) ∧
      Created sv.manager socket slot m ∧
      c = { (sv.conn slot) with
        session := m.session slot
        accepting := false, calls := [], acked := [], accepted := [],
        posted := [] } ∧
      sv.accept socket result =
        ({ sv with
          directory := { sv.directory with
            manager := m
            created := sv.manager.nextId :: sv.directory.created } } : Server).put
          slot (c.after (c.session.postRecv result))) := by
  unfold accept
  cases hcreate : sv.manager.create socket with
  | none => exact Or.inl ⟨rfl, rfl⟩
  | some made =>
      rcases made with ⟨slot, m⟩
      exact Or.inr ⟨slot, m, _, rfl, create_created hcreate, rfl, rfl⟩

/-- In a slot where nothing was left, `Create` starts a new connection. -/
theorem fresh_of_quiet {io : Io} (h : io.Quiet) (s : Session) (socket : Nat)
    (index : Slot) (id handler : Nat) (accepting : Bool) :
    ({ toIo := { io with
        accepting := accepting, calls := [], acked := [], accepted := []
        posted := [] }
       session := s.init socket index id handler } : Conn) =
      { Conn.fresh s socket index id handler with accepting := accepting } := by
  unfold Conn.fresh
  rw [h.recvs, h.sends, h.handlers, h.destroying]

/-- Logging in only writes names and user ids. -/
structure LoggedIn (d d' : Directory) : Prop where
  byId : d'.manager.byId = d.manager.byId
  nextId : d'.manager.nextId = d.manager.nextId
  freeList : d'.manager.pool.freeList = d.manager.pool.freeList
  created : d'.created = d.created
  session : forall slot, exists name userId, d'.manager.session slot =
    { d.manager.session slot with name := name, userId := userId }

theorem LoggedIn.refl (d : Directory) : LoggedIn d d where
  byId := rfl
  nextId := rfl
  freeList := rfl
  created := rfl
  session := fun _ => ⟨_, _, rfl⟩

theorem loggedIn_of_step {userIdOf : List UInt8 -> Nat} {d d' : Directory}
    {event : Event} {login : Directory.Event} (hlogin : event.ofLogin = some login)
    (hstep : d.step userIdOf login = some d') : LoggedIn d d' := by
  have hput : forall (slot other : Slot) (s : Session),
      (exists name userId, s =
        { d.manager.session slot with name := name, userId := userId }) ->
      exists name userId, (d.manager.put slot s).session other =
        { d.manager.session other with name := name, userId := userId } := by
    intro slot other s hs
    by_cases hother : other = slot
    · subst hother
      rw [session_put_self]
      exact hs
    · rw [session_put_of_ne _ _ hother]
      exact ⟨_, _, rfl⟩
  rcases Directory.step_cases hstep with
    ⟨socket, rfl, _⟩ | ⟨id, name, rfl, _, _, rfl | ⟨slot, _, _, rfl⟩⟩ |
    ⟨id, name, rfl, _, rfl | ⟨slot, _, rfl⟩⟩ | ⟨id, slot, rfl, _, rfl⟩
  · cases event <;> cases hlogin
  · exact LoggedIn.refl _
  · exact ⟨rfl, rfl, rfl, rfl, fun other => hput slot other _ ⟨_, _, rfl⟩⟩
  · exact LoggedIn.refl _
  · exact ⟨rfl, rfl, rfl, rfl, fun other => hput slot other _ ⟨_, _, rfl⟩⟩
  · cases event <;> cases hlogin

end Server

end Network
end ContentServer
