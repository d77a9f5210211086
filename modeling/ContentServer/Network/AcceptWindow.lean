import ContentServer.Network.SlotSafety

/-!
# The accept window

`OnAcceptComplete` runs in steps: `Create` publishes the id of the new session,
`CreateIoCompletionPort` lets the completions of its socket arrive, and
`PostRecv` starts the first receive.  In between the accepting thread only has
the `Session*`, and nothing that it does counts in `pendingIO_`, while the
consumers can already reach the session through its id.
-/

namespace ContentServer
namespace Network

open Foundation Protocol Sessions Registry SessionManager

/-- An `OnAcceptComplete` between its `Create` and its `PostRecv`. -/
structure Accept where
  slot : Slot
  /-- The id that `Create` gave to the session. -/
  id : Nat
  /-- `CreateIoCompletionPort` was called for the socket. -/
  associated : Bool
deriving DecidableEq

/-- `CreateIoCompletionPort` by the accept of this id. -/
def Accept.bound (id : Nat) (a : Accept) : Accept :=
  if a.id = id then { a with associated := true } else a

@[simp] theorem Accept.bound_id (id : Nat) (a : Accept) :
    (a.bound id).id = a.id := by
  unfold bound
  split
  · rfl
  · rfl

@[simp] theorem Accept.bound_slot (id : Nat) (a : Accept) :
    (a.bound id).slot = a.slot := by
  unfold bound
  split
  · rfl
  · rfl

structure NetworkCore extends Server where
  accepts : List Accept

namespace NetworkCore

/-- The `OnAcceptComplete` of a step is named by the id of its session. -/
inductive Event where
  | create (socket : Nat)
  | createIoCompletionPort (id : Nat)
  | postRecv (id : Nat) (result : PostResult)
  | serve (event : Server.Event)

def start (shards : Nat) : NetworkCore where
  toServer := .start shards
  accepts := []

/-- A full pool only costs the new socket. -/
def create (core : NetworkCore) (socket : Nat) : NetworkCore :=
  match core.manager.create socket with
  | none => core
  | some (slot, manager) =>
      let created : Server := { core.toServer with
        directory := { core.directory with
          manager := manager
          created := core.manager.nextId :: core.directory.created } }
      -- the history starts anew, outstanding work would stay
      let c : Conn := { created.conn slot with
        accepting := true, calls := [], acked := [], accepted := [], posted := [] }
      { toServer := created.put slot c
        accepts := core.accepts ++ [⟨slot, core.manager.nextId, false⟩] }

/-- The slot whose completion the event handles. -/
def completed : Server.Event -> Option Slot
  | .worker slot (.recvCompletion _ _ _ _) => some slot
  | .worker slot (.sendCompletion _ _ _) => some slot
  | _ => none

/-- The socket of the session in the slot is not yet bound to the port. -/
def unbound (core : NetworkCore) (slot : Slot) : Bool :=
  core.accepts.any fun a =>
    a.slot = slot && a.id = (core.manager.session slot).id && !a.associated

/-- The system delivers the event in this state. -/
def delivers (core : NetworkCore) : Server.Event -> Bool
  | .accept _ _ => false
  | event =>
      match completed event with
      | none => true
      | some slot => !core.unbound slot

def step (userIdOf : List UInt8 -> Nat) (core : NetworkCore) :
    Event -> Option NetworkCore
  | .create socket => some (core.create socket)
  | .createIoCompletionPort id =>
      some { core with accepts := core.accepts.map (Accept.bound id) }
  | .postRecv id result =>
      match core.accepts.find? fun a => a.id = id && a.associated with
      | none => none
      | some a =>
          -- the pointer leads to whoever lives in the slot now
          let c := core.conn a.slot
          let posted := { c with accepting := false }.after
            (c.session.postRecv result)
          some {
            toServer := core.put a.slot posted
            accepts := core.accepts.filter fun b => b.id ≠ id }
  | .serve event =>
      if core.delivers event then
        (core.toServer.step userIdOf event).map fun sv =>
          { core with toServer := sv }
      else none

/-- What an enabled event does. -/
theorem step_cases {userIdOf : List UInt8 -> Nat} {core next : NetworkCore}
    {e : Event} (h : core.step userIdOf e = some next) :
    (exists socket, e = .create socket ∧ next = core.create socket) ∨
    (exists id, e = .createIoCompletionPort id ∧
      next = { core with accepts := core.accepts.map (Accept.bound id) }) ∨
    (exists a result, e = .postRecv a.id result ∧ a ∈ core.accepts ∧
      next = {
        toServer := core.put a.slot
          ({ core.conn a.slot with accepting := false }.after
            ((core.conn a.slot).session.postRecv result))
        accepts := core.accepts.filter fun b => b.id ≠ a.id }) ∨
    (exists event sv, e = .serve event ∧
      (forall socket result, event ≠ .accept socket result) ∧
      core.toServer.step userIdOf event = some sv ∧
      next = { core with toServer := sv }) := by
  cases e with
  | create socket =>
      cases h
      exact Or.inl ⟨socket, rfl, rfl⟩
  | createIoCompletionPort id =>
      cases h
      exact Or.inr (Or.inl ⟨id, rfl, rfl⟩)
  | postRecv id result =>
      simp only [step] at h
      split at h
      · cases h
      · rename_i a hfind
        cases h
        have hid := List.find?_some hfind
        rw [Bool.and_eq_true, decide_eq_true_eq] at hid
        have hmem := List.mem_of_find?_eq_some hfind
        rw [← hid.left]
        exact Or.inr (Or.inr (Or.inl ⟨a, result, rfl, hmem, rfl⟩))
  | serve event =>
      simp only [step] at h
      split at h
      · rename_i hdelivers
        rcases Option.map_eq_some_iff.mp h with ⟨sv, hstep, hnext⟩
        refine Or.inr (Or.inr (Or.inr ⟨event, sv, rfl, ?_, hstep, hnext.symm⟩))
        intro socket result hevent
        rw [hevent] at hdelivers
        cases hdelivers
      · cases h

/-- The slot and the connection that `Create` leaves in it. -/
theorem create_cases (core : NetworkCore) (socket : Nat) :
    (core.manager.create socket = none ∧ core.create socket = core) ∨
    (exists slot m c,
      core.manager.create socket = some (slot, m) ∧
      Created core.manager socket slot m ∧
      c = { (core.conn slot) with
        session := m.session slot
        accepting := true, calls := [], acked := [], accepted := [],
        posted := [] } ∧
      core.create socket = {
        toServer := ({ core.toServer with
          directory := { core.directory with
            manager := m
            created := core.manager.nextId :: core.directory.created } } :
              Server).put slot c
        accepts := core.accepts ++ [⟨slot, core.manager.nextId, false⟩] }) := by
  unfold create
  cases hcreate : core.manager.create socket with
  | none => exact Or.inl ⟨rfl, rfl⟩
  | some made =>
      rcases made with ⟨slot, m⟩
      exact Or.inr ⟨slot, m, _, rfl, create_created hcreate, rfl, rfl⟩

end NetworkCore

/-!
# What a step of a connection leaves alone
-/

/-- Only `PostRecv` of the accepting thread ends the window. -/
theorem accepting_step {c d : Conn} {e : Conn.Event} (hstep : c.step e = some d)
    (hpost : forall result, e ≠ .postRecv result) : d.accepting = c.accepting := by
  rcases Conn.step_cases hstep with
    ⟨result, rfl, _, rfl⟩ | ⟨_, _, _, _, _, _, rfl, _, _, rfl⟩ |
    ⟨_, _, _, _, _, rfl, _, _, rfl⟩ | ⟨_, _, rfl, rfl⟩ | ⟨rfl, _, rfl⟩
  · exact absurd rfl (hpost result)
  · rfl
  · rfl
  · rfl
  · rfl

/-- Only `CompleteIO` tells a handler to destroy the session. -/
theorem destroying_step {c d : Conn} {e : Conn.Event} (hstep : c.step e = some d) :
    (e ≠ .completeIo ∧ d.destroying = c.destroying) ∨
    (e = .completeIo ∧ d.destroying =
      c.destroying + if c.session.completeIo.2 then 1 else 0) := by
  rcases Conn.step_cases hstep with
    ⟨_, rfl, _, rfl⟩ | ⟨_, _, _, _, _, _, rfl, _, _, rfl⟩ |
    ⟨_, _, _, _, _, rfl, _, _, rfl⟩ | ⟨_, _, rfl, rfl⟩ | ⟨rfl, _, rfl⟩
  · exact Or.inl ⟨nofun, rfl⟩
  · exact Or.inl ⟨nofun, rfl⟩
  · exact Or.inl ⟨nofun, rfl⟩
  · exact Or.inl ⟨nofun, rfl⟩
  · exact Or.inr ⟨rfl, rfl⟩

/-- `CompleteIO` returns true for the last reference to a closed session. -/
theorem completeIo_eq_true_iff (s : Session) :
    s.completeIo.2 = true <-> s.closing = true ∧ s.pendingIo = 1 := by
  show (s.closing && s.pendingIo - 1 == 0) = true <-> _
  rw [Bool.and_eq_true, beq_iff_eq]
  constructor
  · intro h
    exact ⟨h.left, by omega⟩
  · intro h
    exact ⟨h.left, by omega⟩

namespace NetworkCore

/-!
# Accepts that hold their session

Every accept in the window points at the registered session that `Create` made,
as long as no handler in the window has been told to destroy it.
-/

/-- The pointers of the window lead to the sessions they were made for. -/
structure Held (core : NetworkCore) : Prop where
  safe : SlotSafe core.toServer
  registered : forall a, a ∈ core.accepts ->
    core.manager.byId.lookup a.id = some a.slot
  accepting : forall a, a ∈ core.accepts -> (core.io a.slot).accepting = true

/-- No handler is about to destroy a session of the window. -/
def Staying (core : NetworkCore) : Prop :=
  forall a, a ∈ core.accepts -> (core.io a.slot).destroying = 0

theorem Held.start (shards : Nat) : Held (start shards) where
  safe := SlotSafe.start shards
  registered := fun _ hmem => by cases hmem
  accepting := fun _ hmem => by cases hmem

namespace Held

variable {core : NetworkCore}

/-- A pointer of the window tells which accept it belongs to. -/
theorem id_eq (h : Held core) {a b : Accept} (ha : a ∈ core.accepts)
    (hb : b ∈ core.accepts) (hslot : b.slot = a.slot) : b.id = a.id := by
  have hlive := h.registered b hb
  rw [hslot] at hlive
  exact h.safe.issued.slots.slot_injective hlive (h.registered a ha)

/-- A step of the connection in a registered slot, outside `PostRecv`. -/
theorem put (h : Held core) {slot : Slot} {c : Conn} {e : Conn.Event} {id : Nat}
    (hlive : core.manager.byId.lookup id = some slot)
    (hconn : (core.conn slot).step e = some c)
    (hpost : forall result, e ≠ .postRecv result) :
    Held { core with toServer := core.put slot c } where
  safe := h.safe.put (h.safe.issued.slots.not_free hlive) (sameOwner_step hconn)
    (accounted_step (h.safe.conns slot) hconn)
  registered := h.registered
  accepting := by
    intro a ha
    show (Function.update core.io slot c.toIo a.slot).accepting = true
    by_cases hslot : a.slot = slot
    · rw [hslot, Function.update_self, accepting_step hconn hpost]
      show (core.io slot).accepting = true
      rw [← hslot]
      exact h.accepting a ha
    · rw [Function.update_of_ne hslot]
      exact h.accepting a ha

theorem create (h : Held core) (socket : Nat) : Held (core.create socket) := by
  rcases core.create_cases socket with
    ⟨_, heq⟩ | ⟨slot, m, c, _, hc, hconn, heq⟩
  · rw [heq]
    exact h
  · rw [heq]
    have hslot : slot ∈ core.manager.pool.freeList := by
      rw [hc.freeList]
      exact List.mem_cons_self
    have hacc : Accounted c := by
      rw [hconn.trans (h.safe.fresh hc true)]
      exact accounted_fresh _ _ _ _ _
    have howner : SameOwner (m.session slot) c.session := by
      rw [hconn]
      exact SameOwner.refl _
    have hlookup : forall a, a ∈ core.accepts ->
        a.id ≠ core.manager.nextId ∧ a.slot ≠ slot := by
      intro a ha
      have hlive := h.registered a ha
      refine ⟨Nat.ne_of_lt (h.safe.issued.slots.live_lt hlive), ?_⟩
      intro hsame
      rw [hsame] at hlive
      exact h.safe.issued.slots.not_free hlive hslot
    constructor
    · exact h.safe.create hc howner hacc
    · intro a ha
      show m.byId.lookup a.id = some a.slot
      rw [hc.byId]
      rcases List.mem_append.mp ha with ha | ha
      · rw [AList.lookup_insert_ne (hlookup a ha).left]
        exact h.registered a ha
      · rw [List.mem_singleton.mp ha]
        exact AList.lookup_insert _
    · intro a ha
      show (Function.update core.io slot c.toIo a.slot).accepting = true
      rcases List.mem_append.mp ha with ha | ha
      · rw [Function.update_of_ne (hlookup a ha).right]
        exact h.accepting a ha
      · rw [List.mem_singleton.mp ha, Function.update_self, hconn]

theorem createIoCompletionPort (h : Held core) (id : Nat) :
    Held { core with accepts := core.accepts.map (Accept.bound id) } := by
  constructor
  · exact h.safe
  · intro b hb
    rcases List.mem_map.mp hb with ⟨a, ha, rfl⟩
    rw [Accept.bound_id, Accept.bound_slot]
    exact h.registered a ha
  · intro b hb
    rcases List.mem_map.mp hb with ⟨a, ha, rfl⟩
    rw [Accept.bound_slot]
    exact h.accepting a ha

theorem postRecv (h : Held core) {a : Accept} (ha : a ∈ core.accepts)
    (result : PostResult) :
    Held {
      toServer := core.put a.slot
        ({ core.conn a.slot with accepting := false }.after
          ((core.conn a.slot).session.postRecv result))
      accepts := core.accepts.filter fun b => b.id ≠ a.id } := by
  constructor
  · apply h.safe.put (h.safe.issued.slots.not_free (h.registered a ha))
    · exact (postRecv_recvCall _ result).owner
    · exact (h.safe.conns a.slot).postRecv (h.accepting a ha) result
  · intro b hb
    exact h.registered b (List.mem_filter.mp hb).left
  · intro b hb
    rw [List.mem_filter, decide_eq_true_eq] at hb
    have hslot : b.slot ≠ a.slot := fun hsame => hb.right (h.id_eq ha hb.left hsame)
    show (Function.update core.io a.slot _ b.slot).accepting = true
    rw [Function.update_of_ne hslot]
    exact h.accepting b hb.left

/-- `Destroy` of a session that is not in the window. -/
theorem destroy (h : Held core) (hstay : Staying core) {slot : Slot}
    (hdestroying : (core.io slot).destroying ≠ 0) :
    Held { core with toServer := {
      directory := { core.directory with manager := core.manager.destroy slot }
      io := Function.update core.io slot
        { core.io slot with destroying := (core.io slot).destroying - 1 }
      destroyed := (core.manager.session slot).id :: core.destroyed } } := by
  have hother : forall a, a ∈ core.accepts -> a.slot ≠ slot := by
    intro a ha hsame
    rw [← hsame] at hdestroying
    exact hdestroying (hstay a ha)
  constructor
  · exact h.safe.destroy hdestroying
  · intro a ha
    show (core.manager.byId.erase (core.manager.session slot).id).lookup a.id =
      some a.slot
    have hlive := h.registered a ha
    have hne : a.id ≠ (core.manager.session slot).id := by
      intro hsame
      have hgone := h.safe.live fun hquiet => hdestroying hquiet.destroying
      rw [← hsame, hlive] at hgone
      exact hother a ha (Option.some.inj hgone)
    rw [AList.lookup_erase_ne hne]
    exact hlive
  · intro a ha
    show (Function.update core.io slot _ a.slot).accepting = true
    rw [Function.update_of_ne (hother a ha)]
    exact h.accepting a ha

theorem login (h : Held core) {d : Directory} (hd : Issued d)
    (hlogin : Server.LoggedIn core.directory d) :
    Held { core with toServer := { core.toServer with directory := d } } where
  safe := h.safe.login hd hlogin
  registered := fun a ha => by
    show d.manager.byId.lookup a.id = some a.slot
    rw [hlogin.byId]
    exact h.registered a ha
  accepting := h.accepting

/-- Without a handler about to destroy one of them, a step keeps the pointers. -/
theorem step {userIdOf : List UInt8 -> Nat} (h : Held core)
    (hstay : Staying core) {e : Event} {next : NetworkCore}
    (hstep : core.step userIdOf e = some next) : Held next := by
  rcases step_cases hstep with
    ⟨socket, rfl, rfl⟩ | ⟨id, rfl, rfl⟩ | ⟨a, result, rfl, ha, rfl⟩ |
    ⟨event, sv, rfl, haccept, hserve, rfl⟩
  · exact h.create socket
  · exact h.createIoCompletionPort id
  · exact h.postRecv ha result
  · rcases Server.step_cases hserve with
      ⟨socket, result, hevent, _⟩ | ⟨slot, e, c, _, hworker, hconn, rfl⟩ |
      ⟨slot, _, hdestroying, rfl⟩ |
      ⟨id, data, result, _, ⟨_, rfl⟩ | ⟨slot, c, hlive, hconn, rfl⟩⟩ |
      ⟨login, d, hlogin, hd, rfl⟩
    · exact absurd hevent (haccept socket result)
    · refine h.put (h.safe.live (not_quiet_of_worker hworker hconn)) hconn ?_
      intro result he
      rw [he] at hworker
      cases hworker
    · exact h.destroy hstay hdestroying
    · exact h
    · exact h.put hlive hconn nofun
    · exact h.login (issued_preserved userIdOf _ _ _ h.safe.issued hd)
        (Server.loggedIn_of_step hlogin hd)

end Held

variable {core next : NetworkCore}

/-!
# The reference that the window lacks
-/

/-- No `CompleteIO` drops the last reference to a session of the window. -/
def SparesAccepts (core : NetworkCore) : Event -> Prop
  | .serve (.worker slot .completeIo) =>
      forall a, a ∈ core.accepts -> a.slot = slot ->
        ¬ ((core.manager.session slot).closing = true ∧
          (core.manager.session slot).pendingIo = 1)
  | _ => True

instance (core : NetworkCore) : (e : Event) -> Decidable (core.SparesAccepts e)
  | .create _ => isTrue trivial
  | .createIoCompletionPort _ => isTrue trivial
  | .postRecv _ _ => isTrue trivial
  | .serve (.accept _ _) => isTrue trivial
  | .serve (.worker _ (.postRecv _)) => isTrue trivial
  | .serve (.worker _ (.recvCompletion _ _ _ _)) => isTrue trivial
  | .serve (.worker _ (.sendCompletion _ _ _)) => isTrue trivial
  | .serve (.worker _ (.send _ _)) => isTrue trivial
  | .serve (.worker slot .completeIo) =>
      inferInstanceAs (Decidable (forall a, a ∈ core.accepts -> a.slot = slot ->
        ¬ ((core.manager.session slot).closing = true ∧
          (core.manager.session slot).pendingIo = 1)))
  | .serve (.destroy _) => isTrue trivial
  | .serve (.sendTo _ _ _) => isTrue trivial
  | .serve (.setName _ _) => isTrue trivial
  | .serve (.setUserId _ _) => isTrue trivial

/-- A step of a connection tells a handler in the window to destroy its session
exactly when it is the `CompleteIO` that drops the last reference. -/
theorem staying_worker_iff (hstay : Staying core) {slot : Slot} {c : Conn}
    {e : Conn.Event} (hconn : (core.conn slot).step e = some c) :
    Staying { core with toServer := core.put slot c } <->
      core.SparesAccepts (.serve (.worker slot e)) := by
  have hput : Staying { core with toServer := core.put slot c } <->
      forall a, a ∈ core.accepts -> a.slot = slot -> c.destroying = 0 := by
    constructor
    · intro hafter a ha hslot
      have hzero : (Function.update core.io slot c.toIo a.slot).destroying = 0 :=
        hafter a ha
      rw [hslot, Function.update_self] at hzero
      exact hzero
    · intro hzero a ha
      show (Function.update core.io slot c.toIo a.slot).destroying = 0
      by_cases hslot : a.slot = slot
      · rw [hslot, Function.update_self]
        exact hzero a ha hslot
      · rw [Function.update_of_ne hslot]
        exact hstay a ha
  rw [hput]
  rcases destroying_step hconn with ⟨he, hsame⟩ | ⟨rfl, hsame⟩
  · have hspares : core.SparesAccepts (.serve (.worker slot e)) := by
      cases e with
      | completeIo => exact absurd rfl he
      | postRecv _ => trivial
      | recvCompletion _ _ _ _ => trivial
      | sendCompletion _ _ _ => trivial
      | send _ _ => trivial
    refine ⟨fun _ => hspares, fun _ a ha hslot => ?_⟩
    rw [hsame]
    show (core.io slot).destroying = 0
    rw [← hslot]
    exact hstay a ha
  · apply forall_congr'
    intro a
    apply forall_congr'
    intro ha
    apply forall_congr'
    intro hslot
    have hzero : (core.conn slot).destroying = 0 := by
      show (core.io slot).destroying = 0
      rw [← hslot]
      exact hstay a ha
    rw [hsame, hzero, ← completeIo_eq_true_iff, Nat.zero_add]
    show (if (core.manager.session slot).completeIo.2 then 1 else 0) = 0 <-> _
    split
    · rename_i hdone
      exact ⟨fun hone => absurd hone Nat.one_ne_zero, fun hnot => absurd hdone hnot⟩
    · rename_i hdone
      exact ⟨fun _ => hdone, fun _ => rfl⟩

theorem staying_step_iff {userIdOf : List UInt8 -> Nat} (h : Held core)
    (hstay : Staying core) {e : Event}
    (hstep : core.step userIdOf e = some next) :
    Staying next <-> core.SparesAccepts e := by
  rcases step_cases hstep with
    ⟨socket, rfl, rfl⟩ | ⟨id, rfl, rfl⟩ | ⟨a, result, rfl, ha, rfl⟩ |
    ⟨event, sv, rfl, haccept, hserve, rfl⟩
  · refine ⟨fun _ => trivial, fun _ => ?_⟩
    rcases core.create_cases socket with
      ⟨_, heq⟩ | ⟨slot, m, c, _, hc, hconn, heq⟩
    · rw [heq]
      exact hstay
    · rw [heq]
      have hzero : c.destroying = 0 := by
        rw [hconn.trans (h.safe.fresh hc true)]
        rfl
      intro a ha
      show (Function.update core.io slot c.toIo a.slot).destroying = 0
      by_cases hslot : a.slot = slot
      · rw [hslot, Function.update_self]
        exact hzero
      · rw [Function.update_of_ne hslot]
        rcases List.mem_append.mp ha with ha | ha
        · exact hstay a ha
        · rw [List.mem_singleton.mp ha] at hslot
          exact absurd rfl hslot
  · refine ⟨fun _ => trivial, fun _ b hb => ?_⟩
    rcases List.mem_map.mp hb with ⟨a, ha, rfl⟩
    rw [Accept.bound_slot]
    exact hstay a ha
  · refine ⟨fun _ => trivial, fun _ b hb => ?_⟩
    show (Function.update core.io a.slot _ b.slot).destroying = 0
    by_cases hslot : b.slot = a.slot
    · rw [hslot, Function.update_self]
      exact hstay a ha
    · rw [Function.update_of_ne hslot]
      exact hstay b (List.mem_filter.mp hb).left
  · rcases Server.step_cases hserve with
      ⟨socket, result, hevent, _⟩ | ⟨slot, e, c, rfl, _, hconn, rfl⟩ |
      ⟨slot, rfl, hdestroying, rfl⟩ |
      ⟨id, data, result, rfl, ⟨_, rfl⟩ | ⟨slot, c, _, hconn, rfl⟩⟩ |
      ⟨login, d, hlogin, _, rfl⟩
    · exact absurd hevent (haccept socket result)
    · exact staying_worker_iff hstay hconn
    · refine ⟨fun _ => trivial, fun _ a ha => ?_⟩
      show (Function.update core.io slot _ a.slot).destroying = 0
      have hslot : a.slot ≠ slot := by
        intro hsame
        rw [← hsame] at hdestroying
        exact hdestroying (hstay a ha)
      rw [Function.update_of_ne hslot]
      exact hstay a ha
    · exact ⟨fun _ => trivial, fun _ => hstay⟩
    · exact staying_worker_iff (e := .send data result) hstay hconn
    · refine ⟨fun _ => ?_, fun _ => hstay⟩
      cases event with
      | setName _ _ => trivial
      | setUserId _ _ => trivial
      | accept _ _ => cases hlogin
      | worker _ _ => cases hlogin
      | destroy _ => cases hlogin
      | sendTo _ _ _ => cases hlogin

/-!
# Intact accepts
-/

/-- The pointer of every accept in the window leads to the session that its
`Create` returned, and no session has two receives outstanding. -/
structure Intact (core : NetworkCore) : Prop where
  registered : forall a, a ∈ core.accepts ->
    core.manager.byId.lookup a.id = some a.slot
  owner : forall a, a ∈ core.accepts -> (core.manager.session a.slot).id = a.id
  alive : forall a, a ∈ core.accepts -> a.id ∉ core.destroyed
  recvs : forall slot, (core.io slot).recvs.length ≤ 1

/-- The state is intact, and so is every state that can come next. -/
structure Lasting (userIdOf : List UInt8 -> Nat) (core : NetworkCore) : Prop where
  now : Intact core
  next : forall e next, core.step userIdOf e = some next -> Intact next

theorem Held.intact (h : Held core) : Intact core where
  registered := h.registered
  owner := fun a ha =>
    (h.safe.issued.slots.owner a.id a.slot (h.registered a ha)).left
  alive := fun a ha hgone => by
    have hnone := (h.safe.gone a.id hgone).right
    rw [h.registered a ha] at hnone
    cases hnone
  recvs := fun slot => (h.safe.conns slot).recvs

/-- Whoever is told to destroy a session of the window can do so at once. -/
theorem lasting_iff_staying {userIdOf : List UInt8 -> Nat} (h : Held core) :
    Lasting userIdOf core <-> Staying core := by
  constructor
  · intro hlasting a ha
    by_contra hdestroying
    have hstep : core.step userIdOf (.serve (.destroy a.slot)) =
        some { core with toServer := {
          directory := { core.directory with
            manager := core.manager.destroy a.slot }
          io := Function.update core.io a.slot
            { core.io a.slot with
              destroying := (core.io a.slot).destroying - 1 }
          destroyed := (core.manager.session a.slot).id :: core.destroyed } } := by
      show ((if (core.io a.slot).destroying = 0 then none else some _) :
        Option Server).map _ = _
      rw [if_neg hdestroying]
      rfl
    have hlost := (hlasting.next _ _ hstep).alive a ha
    rw [← hlasting.now.owner a ha] at hlost
    exact hlost List.mem_cons_self
  · intro hstay
    exact ⟨h.intact, fun _ _ hstep => (h.step hstay hstep).intact⟩

/--
The pointers of `OnAcceptComplete` lead to the sessions that `Create` returned,
with at most one receive outstanding on each, in every state of a run and in
every state that can follow one, exactly when no `CompleteIO` of the run drops
the last reference to a closed session before its first `PostRecv`.
-/
theorem accept_window_iff {userIdOf : List UInt8 -> Nat} {shards : Nat}
    {events : List Event} {core : NetworkCore}
    (hrun : runFrom (step userIdOf) (start shards) events = some core) :
    (forall t, Visits (step userIdOf) (start shards) events t ->
        Lasting userIdOf t) <->
      EveryStep (step userIdOf) SparesAccepts (start shards) events := by
  let Kept : NetworkCore -> Prop := fun t => Held t ∧ Staying t
  have hkept : Kept (start shards) :=
    ⟨Held.start shards, fun _ hmem => by cases hmem⟩
  have hnothing : Preserved (step userIdOf) fun _ => True :=
    fun _ _ _ _ _ => trivial
  have hexact : (forall t, Visits (step userIdOf) (start shards) events t ->
      Kept t) <-> EveryStep (step userIdOf) SparesAccepts (start shards) events := by
    refine visits_iff_everyStep hnothing ?_ trivial hkept hrun
    intro s e t _ hs hstep
    rw [← staying_step_iff hs.left hs.right hstep]
    exact ⟨And.right, fun hstay => ⟨hs.left.step hs.right hstep, hstay⟩⟩
  rw [← hexact]
  constructor
  · intro hall
    -- a held state from which nothing goes wrong is left by a step that holds
    have hevery : EveryStep (step userIdOf) (fun s e => forall t,
        step userIdOf s e = some t -> Lasting userIdOf t) (start shards) events := by
      refine everyStep_of_visits hnothing ?_ trivial hrun hall
      intro s e t _ _ hstep hlasting u hu
      rw [hstep] at hu
      cases hu
      exact hlasting
    refine EveryStep.visits hnothing ?_ trivial hkept hevery
    intro s e t _ hs hstep hlasting
    have hheld := hs.left.step hs.right hstep
    exact ⟨hheld, (lasting_iff_staying hheld).mp (hlasting t hstep)⟩
  · intro hall t ht
    exact (lasting_iff_staying (hall t ht).left).mpr (hall t ht).right

/-- Session 1 whispers to the next id, and the message is sent in the window. -/
def whisperedEvents (slot : Slot) : List Event :=
  [.create 3, .createIoCompletionPort 1, .postRecv 1 .started, .create 4,
    .createIoCompletionPort 2,
    .serve (.sendTo 2 (makePacket 1 (text "hi")).wire .started),
    .serve (.worker slot (.sendCompletion true 6 .started)),
    .serve (.worker slot .completeIo), .postRecv 2 .started]

theorem accept_window_whispered :
    exists core, runFrom (step nameNumber) (start 8) (whisperedEvents 1) = some core ∧
      EveryStep (step nameNumber) SparesAccepts (start 8) (whisperedEvents 1) ∧
      Intact core ∧ (core.io 1).recvs.length = 1 := by
  have hrun : (runFrom (step nameNumber) (start 8) (whisperedEvents 1)).map
      (fun core => (core.io 1).recvs.length) = some 1 := by
    decide +kernel
  rcases Option.map_eq_some_iff.mp hrun with ⟨core, hcore, hrecvs⟩
  have hspares : EveryStep (step nameNumber) SparesAccepts (start 8)
      (whisperedEvents 1) := by
    decide +kernel
  have hlasting := (accept_window_iff hcore).mpr hspares core (visits_last hcore)
  exact ⟨core, hcore, hspares, hlasting.now, hrecvs⟩

/-- The client resets while the whisper is sent; the next client takes the slot. -/
def overtakenEvents (slot : Slot) : List Event :=
  [.create 3, .createIoCompletionPort 1, .postRecv 1 .started, .create 4,
    .createIoCompletionPort 2,
    .serve (.sendTo 2 (makePacket 1 (text "hi")).wire .started),
    .serve (.worker slot (.sendCompletion false 0 .started)),
    .serve (.worker slot .completeIo), .serve (.destroy slot), .create 5]

theorem accept_overtaken :
    exists before after,
      runFrom (step nameNumber) (start 8) (overtakenEvents 1) = some before ∧
      before.accepts = [⟨1, 2, true⟩, ⟨1, 3, false⟩] ∧
      before.manager.byId.lookup 2 = none ∧ before.destroyed = [2] ∧
      (before.manager.session 1).id = 3 ∧
      runFrom (step nameNumber) before
        [.postRecv 2 .started, .createIoCompletionPort 3, .postRecv 3 .started] =
          some after ∧
      (after.manager.session 1).id = 3 ∧ (after.io 1).recvs.length = 2 := by
  have hbefore : (runFrom (step nameNumber) (start 8) (overtakenEvents 1)).map
      (fun core => (core.accepts, core.manager.byId.lookup 2, core.destroyed,
        (core.manager.session 1).id)) =
      some ([⟨1, 2, true⟩, ⟨1, 3, false⟩], none, [2], 3) := by
    decide +kernel
  have hafter : (runFrom (step nameNumber) (start 8) (overtakenEvents 1 ++
      [.postRecv 2 .started, .createIoCompletionPort 3, .postRecv 3 .started])).map
      (fun core => ((core.manager.session 1).id, (core.io 1).recvs.length)) =
      some (3, 2) := by
    decide +kernel
  rcases Option.map_eq_some_iff.mp hbefore with ⟨before, hrun, hpointers⟩
  rcases Option.map_eq_some_iff.mp hafter with ⟨after, hall, hreceives⟩
  rw [runFrom_append_of_run _ hrun] at hall
  simp only [Prod.mk.injEq] at hpointers hreceives
  rcases hpointers with ⟨haccepts, hlookup, hdestroyed, hid⟩
  exact ⟨before, after, hrun, haccepts, hlookup, hdestroyed, hid, hall, hreceives⟩

end NetworkCore

end Network
end ContentServer
