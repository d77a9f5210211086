import ContentServer.Foundation.Workloads
import ContentServer.Network.SlotSafety

/-!
# The accept contexts

`PrepareAccepts` posts an accept for each of eight contexts, and `WorkerLoop`
posts it again whenever a context has done its work.  A context whose
`PostAccept` fails is not touched any more.

The sockets come from `WSASocket`.  Each is held by one context, was closed by
the network core, or was given to one session.  A socket is named by the number
of the call that opened it: once a session has closed its socket the system may
return the value of the handle again, for another socket with another name.
-/

namespace ContentServer
namespace Network

open Foundation Protocol Sessions Registry SessionManager

/-- The size of `acceptContexts_`. -/
def acceptCount : Nat := 8

/-- Where one of the `acceptContexts_` is. -/
inductive AcceptContext where
  /-- `PrepareAccepts` has not come to it yet. -/
  | unused
  /-- `AcceptEx` was started with this socket. -/
  | posted (clientSocket : Nat)
  /-- A worker is in `OnAcceptComplete`. -/
  | completed (clientSocket : Nat)
  /-- A worker is about to call `PostAccept`. -/
  | released
  /-- `PostAccept` has failed. -/
  | lost
deriving DecidableEq

/-- The socket that a context has to care for. -/
def AcceptContext.held : AcceptContext -> Multiset Nat
  | posted clientSocket | completed clientSocket => {clientSocket}
  | unused | released | lost => 0

/-- What the system does in a `PostAccept`. -/
inductive PostAccept where
  /-- `WSASocket` fails. -/
  | noSocket
  /-- `AcceptEx` fails with the new socket. -/
  | refused
  | pending
deriving DecidableEq

/-- `PostAccept` returns false. -/
def PostAccept.failed : PostAccept -> Bool
  | noSocket | refused => true
  | pending => false

structure Acceptor where
  server : Server
  contexts : Nat -> AcceptContext
  /-- How far the loop of `PrepareAccepts` has come. -/
  prepared : Nat
  /-- How many sockets `WSASocket` has returned; the next one gets this name. -/
  opened : Nat
  /-- The sockets that the network core has closed itself. -/
  closed : List Nat
  /-- The sockets that `Create` has taken. -/
  taken : List Nat

namespace Acceptor

inductive Event where
  /-- `PrepareAccepts` posts the next context. -/
  | prepare (result : PostAccept)
  /-- `WorkerLoop` takes the completion of a context. -/
  | complete (i : Nat) (ok : Bool)
  /-- `OnAcceptComplete` up to its `PostRecv`. -/
  | onAcceptComplete (i : Nat) (result : PostResult)
  | postAccept (i : Nat) (result : PostAccept)
  | serve (event : Server.Event)

/-- The event is a `PostAccept` that returns false. -/
def Event.failed : Event -> Bool
  | prepare result | postAccept _ result => result.failed
  | _ => false

def start (shards : Nat) : Acceptor where
  server := .start shards
  contexts := fun _ => .unused
  prepared := 0
  opened := 0
  closed := []
  taken := []

def setContext (a : Acceptor) (i : Nat) (context : AcceptContext) : Acceptor :=
  { a with contexts := Function.update a.contexts i context }

def postAccept (a : Acceptor) (i : Nat) : PostAccept -> Acceptor
  | .noSocket => a.setContext i .lost
  | .refused =>
      { a.setContext i .lost with
        opened := a.opened + 1
        closed := a.opened :: a.closed }
  | .pending =>
      { a.setContext i (.posted a.opened) with opened := a.opened + 1 }

/-- A new socket is given to a session, or closed if the pool is used up. -/
def onAcceptComplete (a : Acceptor) (i clientSocket : Nat) (result : PostResult) :
    Acceptor :=
  match a.server.manager.create clientSocket with
  | none => { a.setContext i .released with closed := clientSocket :: a.closed }
  | some _ =>
      { a.setContext i .released with
        server := a.server.accept clientSocket result
        taken := clientSocket :: a.taken }

def step (userIdOf : List UInt8 -> Nat) (a : Acceptor) : Event -> Option Acceptor
  | .prepare result =>
      if a.prepared < acceptCount then
        some ({ a with prepared := a.prepared + 1 }.postAccept a.prepared result)
      else none
  | .complete i ok =>
      -- `SpawnWorkers` is called after `PrepareAccepts`.
      if a.prepared = acceptCount then
        match a.contexts i with
        | .posted clientSocket =>
            if ok then some (a.setContext i (.completed clientSocket))
            else some { a.setContext i .released with closed := clientSocket :: a.closed }
        | _ => none
      else none
  | .onAcceptComplete i result =>
      match a.contexts i with
      | .completed clientSocket => some (a.onAcceptComplete i clientSocket result)
      | _ => none
  | .postAccept i result =>
      match a.contexts i with
      | .released => some (a.postAccept i result)
      | _ => none
  | .serve (.accept _ _) => none
  | .serve event => (a.server.step userIdOf event).map fun sv => { a with server := sv }

/-!
# What an event does
-/

inductive Effect (userIdOf : List UInt8 -> Nat) (a : Acceptor) :
    Event -> Acceptor -> Prop where
  | prepared (result : PostAccept) (early : a.prepared < acceptCount) :
      Effect userIdOf a (.prepare result)
        ({ a with prepared := a.prepared + 1 }.postAccept a.prepared result)
  | completed (i clientSocket : Nat) (held : a.contexts i = .posted clientSocket)
      (started : a.prepared = acceptCount) :
      Effect userIdOf a (.complete i true) (a.setContext i (.completed clientSocket))
  | broken (i clientSocket : Nat) (held : a.contexts i = .posted clientSocket)
      (started : a.prepared = acceptCount) :
      Effect userIdOf a (.complete i false)
        { a.setContext i .released with closed := clientSocket :: a.closed }
  | rejected (i clientSocket : Nat) (result : PostResult)
      (held : a.contexts i = .completed clientSocket)
      (full : a.server.manager.create clientSocket = none) :
      Effect userIdOf a (.onAcceptComplete i result)
        { a.setContext i .released with closed := clientSocket :: a.closed }
  | taken (i clientSocket : Nat) (result : PostResult)
      (held : a.contexts i = .completed clientSocket)
      (room : a.server.manager.create clientSocket ≠ none) :
      Effect userIdOf a (.onAcceptComplete i result)
        { a.setContext i .released with
          server := a.server.accept clientSocket result
          taken := clientSocket :: a.taken }
  | posted (i : Nat) (result : PostAccept) (released : a.contexts i = .released) :
      Effect userIdOf a (.postAccept i result) (a.postAccept i result)
  | served (event : Server.Event) (sv : Server)
      (other : forall socket result, event ≠ .accept socket result)
      (step : a.server.step userIdOf event = some sv) :
      Effect userIdOf a (.serve event) { a with server := sv }

theorem step_effect {userIdOf : List UInt8 -> Nat} {a b : Acceptor} {event : Event}
    (h : a.step userIdOf event = some b) : Effect userIdOf a event b := by
  have hserve : forall e : Server.Event, (forall socket result, e ≠ .accept socket result) ->
      (a.server.step userIdOf e).map (fun sv => { a with server := sv }) = some b ->
      Effect userIdOf a (.serve e) b := by
    intro e hother he
    rcases Option.map_eq_some_iff.mp he with ⟨sv, hstep, rfl⟩
    exact .served e sv hother hstep
  cases event with
  | prepare result =>
      simp only [step] at h
      split at h
      next hearly =>
        cases h
        exact .prepared result hearly
      next => cases h
  | complete i ok =>
      simp only [step] at h
      split at h
      next hstarted =>
        split at h
        next clientSocket hheld =>
          cases ok with
          | true =>
              cases h
              exact .completed i clientSocket hheld hstarted
          | false =>
              cases h
              exact .broken i clientSocket hheld hstarted
        next => cases h
      next => cases h
  | onAcceptComplete i result =>
      simp only [step] at h
      split at h
      next clientSocket hheld =>
        cases h
        unfold onAcceptComplete
        cases hcreate : a.server.manager.create clientSocket with
        | none => exact .rejected i clientSocket result hheld hcreate
        | some made =>
            refine .taken i clientSocket result hheld ?_
            rw [hcreate]
            exact Option.some_ne_none made
      next => cases h
  | postAccept i result =>
      simp only [step] at h
      split at h
      next hreleased =>
        cases h
        exact .posted i result hreleased
      next => cases h
  | serve e =>
      cases e with
      | accept socket result => cases h
      | _ => exact hserve _ (fun _ _ haccept => by cases haccept) h

end Acceptor

/-!
# The sockets of the sessions
-/

namespace Server

variable {userIdOf : List UInt8 -> Nat} {sv sw : Server}

/-- Only `OnAcceptComplete` gives a session a socket. -/
theorem socket_step {event : Event} (hstep : sv.step userIdOf event = some sw)
    (hother : forall socket result, event ≠ .accept socket result) {id : Nat} {slot : Slot}
    (hlive : sw.manager.byId.lookup id = some slot) :
    sv.manager.byId.lookup id = some slot ∧
      (sw.manager.session slot).socket = (sv.manager.session slot).socket := by
  have hput : forall (place : Slot) (c : Conn),
      SameOwner (sv.conn place).session c.session ->
      ((sv.put place c).manager.session slot).socket =
        (sv.manager.session slot).socket := by
    intro place c howner
    by_cases hslot : slot = place
    · subst hslot
      rw [show (sv.put slot c).manager.session slot = c.session from
        session_put_self sv.manager slot c.session]
      exact howner.socket
    · rw [show (sv.put place c).manager.session slot = sv.manager.session slot from
        session_put_of_ne sv.manager c.session hslot]
  rcases step_cases hstep with
    ⟨socket, result, rfl, _⟩ | ⟨place, e, c, rfl, _, hconn, rfl⟩ |
    ⟨place, rfl, _, rfl⟩ |
    ⟨other, data, result, rfl, ⟨_, rfl⟩ | ⟨place, c, _, hconn, rfl⟩⟩ |
    ⟨login, d, hlogin, hd, rfl⟩
  · exact absurd rfl (hother socket result)
  · exact ⟨hlive, hput place c (sameOwner_step hconn)⟩
  · replace hlive : (sv.manager.byId.erase (sv.manager.session place).id).lookup id =
      some slot := hlive
    by_cases hid : id = (sv.manager.session place).id
    · rw [hid, AList.lookup_erase] at hlive
      cases hlive
    · rw [AList.lookup_erase_ne hid] at hlive
      exact ⟨hlive, rfl⟩
  · exact ⟨hlive, rfl⟩
  · exact ⟨hlive, hput place c (sameOwner_step hconn)⟩
  · have hlogged := loggedIn_of_step hlogin hd
    rcases hlogged.session slot with ⟨name, userId, hsession⟩
    refine ⟨?_, ?_⟩
    · rw [← hlogged.byId]
      exact hlive
    · show (d.manager.session slot).socket = _
      rw [hsession]

/-- After `OnAcceptComplete` the session that it made has the socket. -/
theorem socket_accept (h : Occupied sv.manager) {clientSocket : Nat} {result : PostResult}
    (hroom : sv.manager.create clientSocket ≠ none) {id : Nat} {slot : Slot}
    (hlive : (sv.accept clientSocket result).manager.byId.lookup id = some slot) :
    (id = sv.manager.nextId ∧
      ((sv.accept clientSocket result).manager.session slot).socket = clientSocket) ∨
    (sv.manager.byId.lookup id = some slot ∧
      ((sv.accept clientSocket result).manager.session slot).socket =
        (sv.manager.session slot).socket) := by
  rcases sv.accept_cases clientSocket result with
    ⟨hfull, _⟩ | ⟨place, m, c, _, hcreated, hc, haccept⟩
  · exact absurd hfull hroom
  · rw [haccept] at hlive ⊢
    rcases h.lookup_create hcreated hlive with ⟨rfl, rfl⟩ | ⟨hold, hsession⟩
    · refine Or.inl ⟨rfl, ?_⟩
      have hself := congrArg Conn.session (conn_put_self { sv with
        directory := { sv.directory with
          manager := m
          created := sv.manager.nextId :: sv.directory.created } } slot
        (c.after (c.session.postRecv result)))
      have howner := (postRecv_recvCall c.session result).owner
      refine (congrArg Session.socket hself).trans (howner.socket.trans ?_)
      rw [hc]
      show (m.session slot).socket = clientSocket
      rw [hcreated.occupant]
      rfl
    · have hne : slot ≠ place := by
        intro hsame
        subst hsame
        apply h.not_free hold
        rw [hcreated.freeList]
        exact List.mem_cons_self
      have hkept := congrArg Conn.session (conn_put_of_ne { sv with
        directory := { sv.directory with
          manager := m
          created := sv.manager.nextId :: sv.directory.created } }
        (c.after (c.session.postRecv result)) hne)
      refine Or.inr ⟨hold, (congrArg Session.socket hkept).trans ?_⟩
      show (m.session slot).socket = _
      rw [hsession]

end Server

/-!
# Every socket has one owner
-/

namespace Acceptor

/-- The sockets that the contexts hold. -/
def holdings (a : Acceptor) : Multiset Nat :=
  (Finset.range acceptCount).sum fun i => (a.contexts i).held

structure Owned (a : Acceptor) : Prop where
  slots : SlotSafe a.server
  sockets : Multiset.range a.opened =
    a.holdings + Multiset.ofList a.closed + Multiset.ofList a.taken
  early : a.prepared ≤ acceptCount
  unused : forall i, a.prepared ≤ i -> a.contexts i = .unused
  sessions : forall id slot, a.server.manager.byId.lookup id = some slot ->
    (a.server.manager.session slot).socket ∈ a.taken
  distinct : forall id other slot place,
    a.server.manager.byId.lookup id = some slot ->
    a.server.manager.byId.lookup other = some place ->
    (a.server.manager.session slot).socket = (a.server.manager.session place).socket ->
    id = other

variable {userIdOf : List UInt8 -> Nat} {a b : Acceptor}

theorem Owned.start (shards : Nat) : Owned (.start shards) where
  slots := SlotSafe.start shards
  sockets := by
    show (0 : Multiset Nat) = (Finset.range acceptCount).sum (fun _ => 0) + 0 + 0
    rw [Finset.sum_const_zero]
    rfl
  early := Nat.zero_le _
  unused := fun _ _ => rfl
  sessions := fun id slot hlive => by cases hlive
  distinct := fun id other slot place hlive => by cases hlive

/-- The contexts hold what they held before, but for the one that changes. -/
theorem holdings_setContext {i : Nat} (hi : i < acceptCount) (a : Acceptor)
    (context : AcceptContext) :
    (a.setContext i context).holdings + (a.contexts i).held =
      a.holdings + context.held := by
  have hplace : (fun k => ((a.setContext i context).contexts k).held) =
      Function.update (fun k => (a.contexts k).held) i context.held := by
    funext k
    by_cases hk : k = i
    · subst hk
      rw [Function.update_self]
      show (Function.update a.contexts k context k).held = _
      rw [Function.update_self]
    · rw [Function.update_of_ne hk]
      show (Function.update a.contexts i context k).held = _
      rw [Function.update_of_ne hk]
  unfold holdings
  rw [hplace]
  exact sum_update_place hi (fun k => (a.contexts k).held) context.held

theorem ofList_cons (clientSocket : Nat) (l : List Nat) :
    Multiset.ofList (clientSocket :: l) = {clientSocket} + Multiset.ofList l := rfl

/-- The books still balance if what one context gives away is entered elsewhere. -/
theorem Owned.balance (h : Owned a) {i : Nat} (hi : i < acceptCount)
    {context : AcceptContext} {opened : Nat} {closed taken : List Nat}
    (hentries : Multiset.range opened + (a.contexts i).held + Multiset.ofList a.closed +
        Multiset.ofList a.taken =
      Multiset.range a.opened + context.held + Multiset.ofList closed +
        Multiset.ofList taken) :
    Multiset.range opened = (a.setContext i context).holdings +
      Multiset.ofList closed + Multiset.ofList taken := by
  apply add_right_cancel (b := (a.contexts i).held + Multiset.ofList a.closed +
    Multiset.ofList a.taken)
  calc
    _ = Multiset.range opened + (a.contexts i).held + Multiset.ofList a.closed +
          Multiset.ofList a.taken := by abel
    _ = a.holdings + context.held + Multiset.ofList a.closed + Multiset.ofList a.taken +
          Multiset.ofList closed + Multiset.ofList taken := by
        rw [hentries, h.sockets]
        abel
    _ = _ := by
        rw [← holdings_setContext hi a context]
        abel

/-- A context that is in use is one of the eight. -/
theorem Owned.lt_of_used (h : Owned a) {i : Nat} (hused : a.contexts i ≠ .unused) :
    i < a.prepared ∧ i < acceptCount := by
  have hlt : i < a.prepared := by
    by_contra hle
    exact hused (h.unused i (Nat.not_lt.mp hle))
  exact ⟨hlt, Nat.lt_of_lt_of_le hlt h.early⟩

/-- The context that changes stays in use. -/
theorem Owned.unused_setContext (h : Owned a) {i : Nat} (hi : i < a.prepared)
    (context : AcceptContext) :
    forall k, a.prepared ≤ k -> (a.setContext i context).contexts k = .unused := by
  intro k hk
  show Function.update a.contexts i context k = .unused
  rw [Function.update_of_ne (by omega)]
  exact h.unused k hk

/-- The socket of a context is not the socket of a session. -/
theorem Owned.not_taken (h : Owned a) {i clientSocket : Nat}
    (hheld : (a.contexts i).held = {clientSocket}) (hi : i < acceptCount) :
    clientSocket ∉ a.taken := by
  have hnodup := Multiset.nodup_range a.opened
  rw [h.sockets, add_assoc, Multiset.nodup_add] at hnodup
  have hmem : clientSocket ∈
      (Finset.range acceptCount).sum (fun k => (a.contexts k).held) := by
    refine Multiset.mem_sum.mpr ⟨i, Finset.mem_range.mpr hi, ?_⟩
    rw [hheld]
    exact Multiset.mem_singleton_self clientSocket
  intro htaken
  exact Multiset.disjoint_left.mp hnodup.right.right hmem
    (Multiset.mem_add.mpr (Or.inr (Multiset.mem_coe.mpr htaken)))

theorem range_succ_eq (n : Nat) :
    Multiset.range (n + 1) = {n} + Multiset.range n := by
  rw [Multiset.range_succ, Multiset.singleton_add]

/-- A context that holds no socket is posted. -/
theorem Owned.post (h : Owned a) {i : Nat} (hi : i < a.prepared)
    (hfree : (a.contexts i).held = 0) (result : PostAccept) :
    Owned (a.postAccept i result) := by
  have hlt : i < acceptCount := Nat.lt_of_lt_of_le hi h.early
  cases result with
  | noSocket =>
      have hentries : Multiset.range a.opened + (a.contexts i).held +
            Multiset.ofList a.closed + Multiset.ofList a.taken =
          Multiset.range a.opened + AcceptContext.lost.held +
            Multiset.ofList a.closed + Multiset.ofList a.taken := by
        rw [hfree]
        rfl
      exact ⟨h.slots, h.balance hlt hentries, h.early,
        h.unused_setContext hi .lost, h.sessions, h.distinct⟩
  | refused =>
      have hentries : Multiset.range (a.opened + 1) + (a.contexts i).held +
            Multiset.ofList a.closed + Multiset.ofList a.taken =
          Multiset.range a.opened + AcceptContext.lost.held +
            Multiset.ofList (a.opened :: a.closed) + Multiset.ofList a.taken := by
        rw [hfree, range_succ_eq, ofList_cons, show AcceptContext.lost.held = 0 from rfl]
        abel
      exact ⟨h.slots, h.balance hlt hentries, h.early,
        h.unused_setContext hi .lost, h.sessions, h.distinct⟩
  | pending =>
      have hentries : Multiset.range (a.opened + 1) + (a.contexts i).held +
            Multiset.ofList a.closed + Multiset.ofList a.taken =
          Multiset.range a.opened + (AcceptContext.posted a.opened).held +
            Multiset.ofList a.closed + Multiset.ofList a.taken := by
        rw [hfree, range_succ_eq,
          show (AcceptContext.posted a.opened).held = {a.opened} from rfl]
        abel
      exact ⟨h.slots, h.balance hlt hentries, h.early,
        h.unused_setContext hi (.posted a.opened), h.sessions, h.distinct⟩

/-- The socket of a context is closed. -/
theorem Owned.close (h : Owned a) {i clientSocket : Nat}
    (hheld : (a.contexts i).held = {clientSocket}) (hi : i < a.prepared) :
    Owned { a.setContext i .released with closed := clientSocket :: a.closed } := by
  have hentries : Multiset.range a.opened + (a.contexts i).held +
        Multiset.ofList a.closed + Multiset.ofList a.taken =
      Multiset.range a.opened + AcceptContext.released.held +
        Multiset.ofList (clientSocket :: a.closed) + Multiset.ofList a.taken := by
    rw [hheld, ofList_cons, show AcceptContext.released.held = 0 from rfl]
    abel
  exact ⟨h.slots, h.balance (Nat.lt_of_lt_of_le hi h.early) hentries, h.early,
    h.unused_setContext hi .released, h.sessions, h.distinct⟩

/-- The socket of a context is given to a session. -/
theorem Owned.take (h : Owned a) {i clientSocket : Nat}
    (hheld : (a.contexts i).held = {clientSocket}) (hi : i < a.prepared)
    (result : PostResult) (hroom : a.server.manager.create clientSocket ≠ none) :
    Owned { a.setContext i .released with
      server := a.server.accept clientSocket result
      taken := clientSocket :: a.taken } := by
  have hlt : i < acceptCount := Nat.lt_of_lt_of_le hi h.early
  have hnew := h.not_taken hheld hlt
  have hentries : Multiset.range a.opened + (a.contexts i).held +
        Multiset.ofList a.closed + Multiset.ofList a.taken =
      Multiset.range a.opened + AcceptContext.released.held +
        Multiset.ofList a.closed + Multiset.ofList (clientSocket :: a.taken) := by
    rw [hheld, ofList_cons, show AcceptContext.released.held = 0 from rfl]
    abel
  refine ⟨h.slots.accept clientSocket result, h.balance hlt hentries, h.early,
    h.unused_setContext hi .released, ?_, ?_⟩
  · intro id slot hlive
    rcases Server.socket_accept h.slots.issued.slots hroom hlive with
      ⟨_, hsocket⟩ | ⟨hold, hsocket⟩
    · exact List.mem_cons.mpr (Or.inl hsocket)
    · refine List.mem_cons.mpr (Or.inr ?_)
      show (Session.socket _) ∈ _
      rw [hsocket]
      exact h.sessions id slot hold
  · intro id other slot place hlive hother hsame
    rcases Server.socket_accept h.slots.issued.slots hroom hlive with
      ⟨hid, hsocket⟩ | ⟨hold, hsocket⟩
    · rcases Server.socket_accept h.slots.issued.slots hroom hother with
        ⟨hid', _⟩ | ⟨hold', hsocket'⟩
      · exact hid.trans hid'.symm
      · have hequal := hsocket.symm.trans (hsame.trans hsocket')
        exact absurd (hequal ▸ h.sessions other place hold') hnew
    · rcases Server.socket_accept h.slots.issued.slots hroom hother with
        ⟨_, hsocket'⟩ | ⟨hold', hsocket'⟩
      · have hequal := hsocket.symm.trans (hsame.trans hsocket')
        exact absurd (hequal ▸ h.sessions id slot hold) hnew
      · exact h.distinct id other slot place hold hold'
          (hsocket.symm.trans (hsame.trans hsocket'))

theorem Owned.step (h : Owned a) {event : Event} (effect : Effect userIdOf a event b) :
    Owned b := by
  cases effect with
  | prepared result early =>
      have hnext : Owned { a with prepared := a.prepared + 1 } :=
        ⟨h.slots, h.sockets, early,
          fun k hk => h.unused k (Nat.le_of_succ_le hk), h.sessions, h.distinct⟩
      refine hnext.post (Nat.lt_succ_self a.prepared) ?_ result
      show (a.contexts a.prepared).held = 0
      rw [h.unused a.prepared (Nat.le_refl _)]
      rfl
  | completed i clientSocket held started =>
      have hused := h.lt_of_used (i := i) (by rw [held]; exact fun hf => by cases hf)
      refine ⟨h.slots, h.balance hused.right ?_, h.early,
        h.unused_setContext hused.left (.completed clientSocket), h.sessions, h.distinct⟩
      rw [held]
      rfl
  | broken i clientSocket held started =>
      have hused := h.lt_of_used (i := i) (by rw [held]; exact fun hf => by cases hf)
      exact h.close (by rw [held]; rfl) hused.left
  | rejected i clientSocket result held full =>
      have hused := h.lt_of_used (i := i) (by rw [held]; exact fun hf => by cases hf)
      exact h.close (by rw [held]; rfl) hused.left
  | taken i clientSocket result held room =>
      have hused := h.lt_of_used (i := i) (by rw [held]; exact fun hf => by cases hf)
      exact h.take (by rw [held]; rfl) hused.left result room
  | posted i result released =>
      have hused := h.lt_of_used (i := i) (by rw [released]; exact fun hf => by cases hf)
      exact h.post hused.left (by rw [released]; rfl) result
  | served event sv other step =>
      refine ⟨slotSafe_preserved userIdOf _ _ _ h.slots step, h.sockets, h.early,
        h.unused, ?_, ?_⟩
      · intro id slot hlive
        rcases Server.socket_step step other hlive with ⟨hold, hsocket⟩
        show (sv.manager.session slot).socket ∈ a.taken
        rw [hsocket]
        exact h.sessions id slot hold
      · intro id place slot slot' hlive hlive' hsame
        rcases Server.socket_step step other hlive with ⟨hold, hsocket⟩
        rcases Server.socket_step step other hlive' with ⟨hold', hsocket'⟩
        exact h.distinct id place slot slot' hold hold'
          (hsocket.symm.trans (hsame.trans hsocket'))

theorem owned_run {shards : Nat} {events : List Event}
    (hrun : runFrom (step userIdOf) (.start shards) events = some a) : Owned a :=
  Preserved.run (fun _ _ _ h hstep => h.step (step_effect hstep)) (Owned.start shards) hrun

end Acceptor

/--
Every socket has one owner.  The sockets that were opened are, each once, those
that the contexts hold, those that the network core closed and those that went
to sessions; and every session has a socket that went to no other session.  The
sockets are named by the calls that opened them.
-/
theorem sockets_have_one_owner {userIdOf : List UInt8 -> Nat} {shards : Nat}
    {events : List Acceptor.Event} {a : Acceptor}
    (hrun : runFrom (Acceptor.step userIdOf) (.start shards) events = some a) :
    Multiset.range a.opened =
      a.holdings + Multiset.ofList a.closed + Multiset.ofList a.taken ∧
    (forall id slot, a.server.manager.byId.lookup id = some slot ->
      (a.server.manager.session slot).socket ∈ a.taken) ∧
    forall id other slot place,
      a.server.manager.byId.lookup id = some slot ->
      a.server.manager.byId.lookup other = some place ->
      (a.server.manager.session slot).socket = (a.server.manager.session place).socket ->
      id = other := by
  have h := Acceptor.owned_run hrun
  exact ⟨h.sockets, h.sessions, h.distinct⟩

/-!
# A full pool
-/

/-- Each slot is free or has a session. -/
theorem free_add_live {m : SessionManager} (h : Occupied m) :
    m.pool.freeList.length + m.byId.keys.length = 1000 := by
  have hfree : m.pool.freeList.toFinset.card = m.pool.freeList.length :=
    List.toFinset_card_of_nodup h.nodup
  have hlive : m.byId.keys.toFinset.card = m.byId.keys.length :=
    List.toFinset_card_of_nodup m.byId.keys_nodup
  have hbijection : (m.pool.freeList.toFinset)ᶜ.card = m.byId.keys.toFinset.card := by
    have hslot : forall slot, slot ∈ (m.pool.freeList.toFinset)ᶜ ->
        m.byId.lookup (m.session slot).id = some slot := by
      intro slot hslot
      rw [Finset.mem_compl, List.mem_toFinset] at hslot
      exact (h.covered slot).resolve_left hslot
    refine Finset.card_bij (fun slot _ => (m.session slot).id) ?_ ?_ ?_
    · intro slot hmem
      rw [List.mem_toFinset]
      exact AList.lookup_isSome.mp (by rw [hslot slot hmem]; rfl)
    · intro slot hmem place hplace hsame
      have hlookup := hslot slot hmem
      rw [hsame, hslot place hplace] at hlookup
      exact (Option.some.inj hlookup).symm
    · intro id hid
      rw [List.mem_toFinset] at hid
      rcases Option.isSome_iff_exists.mp (AList.lookup_isSome.mpr hid) with ⟨slot, hlookup⟩
      refine ⟨slot, ?_, (h.owner id slot hlookup).left⟩
      rw [Finset.mem_compl, List.mem_toFinset]
      exact h.not_free hlookup
  rw [← hfree, ← hlive, ← hbijection, Finset.card_add_card_compl, Fintype.card_fin]

/--
The pool never loses a slot.  In every run, `OnAcceptComplete` gives the new
socket to a session as long as fewer than 1000 sessions are registered, and
closes it exactly when all 1000 are.
-/
theorem socket_refused_iff_full {userIdOf : List UInt8 -> Nat} {shards : Nat}
    {events : List Acceptor.Event} {a b : Acceptor} {i clientSocket : Nat}
    {result : PostResult}
    (hrun : runFrom (Acceptor.step userIdOf) (.start shards) events = some a)
    (hheld : a.contexts i = .completed clientSocket)
    (hstep : a.step userIdOf (.onAcceptComplete i result) = some b) :
    (a.server.manager.byId.keys.length = 1000 <->
      b.server = a.server ∧ b.closed = clientSocket :: a.closed ∧ b.taken = a.taken) ∧
    (a.server.manager.byId.keys.length < 1000 <->
      b.closed = a.closed ∧ b.taken = clientSocket :: a.taken ∧
        exists slot, b.server.manager.byId.lookup a.server.manager.nextId = some slot ∧
          (b.server.manager.session slot).socket = clientSocket) := by
  have h := Acceptor.owned_run hrun
  have hcount : a.server.manager.pool.freeList.length +
      a.server.manager.byId.keys.length = 1000 := free_add_live h.slots.issued.slots
  have hcons : forall l : List Nat, clientSocket :: l ≠ l := fun l hl => by
    have hlength := congrArg List.length hl
    rw [List.length_cons] at hlength
    omega
  cases Acceptor.step_effect hstep with
  | rejected _ _ _ held full =>
      rw [hheld] at held
      cases held
      rw [create_eq_none_iff] at full
      rw [full, List.length_nil] at hcount
      refine ⟨⟨fun _ => ⟨rfl, rfl, rfl⟩, fun _ => by omega⟩, ⟨fun hlt => by omega, ?_⟩⟩
      intro hkept
      exact absurd hkept.left (hcons _)
  | taken _ _ _ held room =>
      rw [hheld] at held
      cases held
      have hfree : a.server.manager.pool.freeList ≠ [] :=
        fun hnil => room ((create_eq_none_iff _ _).mpr hnil)
      have hpos := List.length_pos_of_ne_nil hfree
      refine ⟨⟨fun heq => by omega, ?_⟩, ⟨fun _ => ⟨rfl, rfl, ?_⟩, fun _ => by omega⟩⟩
      · intro hkept
        exact absurd hkept.right.right (hcons _)
      · rcases a.server.accept_cases clientSocket result with
          ⟨hfull, _⟩ | ⟨slot, m, c, _, hcreated, _, haccept⟩
        · exact absurd hfull room
        · have hlive : (a.server.accept clientSocket result).manager.byId.lookup
              a.server.manager.nextId = some slot := by
            rw [haccept]
            show m.byId.lookup _ = _
            rw [hcreated.byId]
            exact AList.lookup_insert _
          refine ⟨slot, hlive, ?_⟩
          rcases Server.socket_accept h.slots.issued.slots room hlive with
            ⟨_, hsocket⟩ | ⟨hold, _⟩
          · exact hsocket
          · rw [h.slots.issued.slots.lookup_nextId] at hold
            cases hold

/-!
# Contexts that are lost
-/

namespace Acceptor

/-- How many contexts are lost. -/
def lostCount (a : Acceptor) : Nat :=
  (Finset.range acceptCount).sum fun i => if a.contexts i = .lost then 1 else 0

variable {userIdOf : List UInt8 -> Nat} {a b : Acceptor}

theorem lostCount_setContext {i : Nat} (hi : i < acceptCount) (a : Acceptor)
    (context : AcceptContext) (hkept : a.contexts i ≠ .lost) :
    (a.setContext i context).lostCount =
      a.lostCount + if context = .lost then 1 else 0 := by
  have hplace : (fun k => if (a.setContext i context).contexts k = .lost then 1 else 0) =
      Function.update (fun k => if a.contexts k = .lost then 1 else 0) i
        (if context = .lost then 1 else 0) := by
    funext k
    by_cases hk : k = i
    · subst hk
      rw [Function.update_self]
      show (if Function.update a.contexts k context k = .lost then 1 else 0) = _
      rw [Function.update_self]
    · rw [Function.update_of_ne hk]
      show (if Function.update a.contexts i context k = .lost then 1 else 0) = _
      rw [Function.update_of_ne hk]
  have hsum := sum_update_place hi (fun k => if a.contexts k = .lost then 1 else 0)
    (if context = .lost then 1 else 0)
  rw [if_neg hkept, Nat.add_zero] at hsum
  unfold lostCount
  rw [hplace, hsum]

theorem lostCount_postAccept {i : Nat} (hi : i < acceptCount)
    (hkept : a.contexts i ≠ .lost) (result : PostAccept) :
    (a.postAccept i result).lostCount =
      a.lostCount + if result.failed then 1 else 0 := by
  cases result with
  | noSocket => exact lostCount_setContext hi a .lost hkept
  | refused => exact lostCount_setContext hi a .lost hkept
  | pending => exact lostCount_setContext hi a (.posted a.opened) hkept

/-- A context is lost exactly in a `PostAccept` that fails. -/
theorem Owned.lostCount_step (h : Owned a) {event : Event}
    (effect : Effect userIdOf a event b) :
    b.lostCount = a.lostCount + if event.failed then 1 else 0 := by
  have hused : forall {i : Nat} {context : AcceptContext}, a.contexts i = context ->
      context ≠ .unused -> i < acceptCount := by
    intro i context hcontext hne
    exact (h.lt_of_used (by rw [hcontext]; exact hne)).right
  cases effect with
  | prepared result early =>
      refine lostCount_postAccept (a := { a with prepared := a.prepared + 1 }) early ?_
        result
      show a.contexts a.prepared ≠ .lost
      rw [h.unused a.prepared (Nat.le_refl _)]
      exact fun hf => by cases hf
  | completed i clientSocket held started =>
      exact lostCount_setContext (hused held (fun hf => by cases hf)) a _
        (by rw [held]; exact fun hf => by cases hf)
  | broken i clientSocket held started =>
      exact lostCount_setContext (hused held (fun hf => by cases hf)) a .released
        (by rw [held]; exact fun hf => by cases hf)
  | rejected i clientSocket result held full =>
      exact lostCount_setContext (hused held (fun hf => by cases hf)) a .released
        (by rw [held]; exact fun hf => by cases hf)
  | taken i clientSocket result held room =>
      exact lostCount_setContext (hused held (fun hf => by cases hf)) a .released
        (by rw [held]; exact fun hf => by cases hf)
  | posted i result released =>
      exact lostCount_postAccept (hused released (fun hf => by cases hf))
        (by rw [released]; exact fun hf => by cases hf) result
  | served event sv other step => rfl

theorem lostCount_run {shards : Nat} {events : List Event}
    (hrun : runFrom (step userIdOf) (.start shards) events = some a) :
    a.lostCount = events.countP Event.failed := by
  refine (run_history (I := fun past u => Owned u ∧ u.lostCount = past.countP Event.failed)
    ⟨Owned.start shards, ?_⟩ ?_ hrun).right
  · show (Finset.range acceptCount).sum (fun _ => 0) = 0
    exact Finset.sum_const_zero
  · intro past event u v hu hstep
    have heffect := step_effect hstep
    refine ⟨hu.left.step heffect, ?_⟩
    rw [hu.left.lostCount_step heffect, hu.right, List.countP_append, List.countP_singleton]

/-- If fewer than eight are lost, then one is not. -/
theorem lostCount_lt_iff (a : Acceptor) :
    a.lostCount < acceptCount <-> exists i, i < acceptCount ∧ a.contexts i ≠ .lost := by
  have hone : forall i, i ∈ Finset.range acceptCount ->
      (if a.contexts i = .lost then 1 else 0) ≤ 1 := by
    intro i _
    split <;> omega
  have hall : (Finset.range acceptCount).sum (fun _ => 1) = acceptCount := by
    rw [Finset.sum_const, Finset.card_range, smul_eq_mul, Nat.mul_one]
  constructor
  · intro hlt
    by_contra hnone
    have hsame : a.lostCount = (Finset.range acceptCount).sum (fun _ => 1) := by
      refine Finset.sum_congr rfl fun i hi => ?_
      rw [if_pos]
      by_contra hne
      exact hnone ⟨i, Finset.mem_range.mp hi, hne⟩
    omega
  · intro hex
    rcases hex with ⟨i, hi, hne⟩
    have hlt := Finset.sum_lt_sum hone ⟨i, Finset.mem_range.mpr hi, by
      rw [if_neg hne]
      exact Nat.zero_lt_one⟩
    unfold lostCount
    omega

/-- A worker can come to another `OnAcceptComplete`. -/
def Accepts (userIdOf : List UInt8 -> Nat) (a : Acceptor) : Prop :=
  exists later i result b c, runFrom (step userIdOf) a later = some b ∧
    b.step userIdOf (.onAcceptComplete i result) = some c

theorem Accepts.of_step (h : Accepts userIdOf b) (event : Event)
    (hstep : a.step userIdOf event = some b) : Accepts userIdOf a := by
  rcases h with ⟨later, i, result, c, d, hrun, hlast⟩
  exact ⟨event :: later, i, result, c, d, by rw [runFrom_cons_of_step _ hstep]; exact hrun,
    hlast⟩

/-- A context that is not lost leads to an `OnAcceptComplete`. -/
theorem accepts_of_kept {i : Nat} (hstarted : a.prepared = acceptCount)
    (hkept : a.contexts i ≠ .lost) (hused : a.contexts i ≠ .unused) :
    Accepts userIdOf a := by
  have hcompleted : forall {c : Acceptor} {clientSocket : Nat},
      c.contexts i = .completed clientSocket -> Accepts userIdOf c := by
    intro c clientSocket hheld
    refine ⟨[], i, .started, c, c.onAcceptComplete i clientSocket .started, rfl, ?_⟩
    simp only [step, hheld]
  have hposted : forall {c : Acceptor} {clientSocket : Nat}, c.prepared = acceptCount ->
      c.contexts i = .posted clientSocket -> Accepts userIdOf c := by
    intro c clientSocket hprepared hheld
    refine Accepts.of_step (b := c.setContext i (.completed clientSocket))
      (hcompleted (Function.update_self ..)) (.complete i true) ?_
    simp only [step, hprepared, hheld, if_true]
  cases hcontext : a.contexts i with
  | unused => exact absurd hcontext hused
  | lost => exact absurd hcontext hkept
  | completed clientSocket => exact hcompleted hcontext
  | posted clientSocket => exact hposted hstarted hcontext
  | released =>
      refine Accepts.of_step (b := a.postAccept i .pending)
        (hposted hstarted (Function.update_self ..)) (.postAccept i .pending) ?_
      simp only [step, hcontext]

/-- What has been prepared stays in use. -/
def Used (a : Acceptor) : Prop :=
  forall i, i < a.prepared -> a.contexts i ≠ .unused

theorem used_setContext {i : Nat} {context : AcceptContext} (hnew : context ≠ .unused)
    (h : forall k, k < a.prepared -> k ≠ i -> a.contexts k ≠ .unused) :
    forall k, k < a.prepared -> (a.setContext i context).contexts k ≠ .unused := by
  intro k hk
  show Function.update a.contexts i context k ≠ .unused
  by_cases hki : k = i
  · rw [hki, Function.update_self]
    exact hnew
  · rw [Function.update_of_ne hki]
    exact h k hk hki

theorem used_postAccept {i : Nat}
    (h : forall k, k < a.prepared -> k ≠ i -> a.contexts k ≠ .unused)
    (result : PostAccept) : Used (a.postAccept i result) := by
  cases result with
  | noSocket => exact used_setContext (fun hf => by cases hf) h
  | refused => exact used_setContext (fun hf => by cases hf) h
  | pending => exact used_setContext (fun hf => by cases hf) h

theorem Used.step (h : Used a) {event : Event} (effect : Effect userIdOf a event b) :
    Used b := by
  have hothers : forall i k, k < a.prepared -> k ≠ i -> a.contexts k ≠ .unused :=
    fun _ k hk _ => h k hk
  cases effect with
  | prepared result early =>
      refine used_postAccept (a := { a with prepared := a.prepared + 1 })
        (fun k hk hne => h k ?_) result
      replace hk : k < a.prepared + 1 := hk
      omega
  | completed i clientSocket held started =>
      exact used_setContext (fun hf => by cases hf) (hothers i)
  | broken i clientSocket held started =>
      exact used_setContext (fun hf => by cases hf) (hothers i)
  | rejected i clientSocket result held full =>
      exact used_setContext (fun hf => by cases hf) (hothers i)
  | taken i clientSocket result held room =>
      exact used_setContext (fun hf => by cases hf) (hothers i)
  | posted i result released => exact used_postAccept (hothers i) result
  | served event sv other step => exact h

/-- `PrepareAccepts` comes to its end, and then a worker can accept. -/
theorem accepts_of_lt (h : Owned a) (hused : Used a) (hlt : a.lostCount < acceptCount) :
    Accepts userIdOf a := by
  generalize hleft : acceptCount - a.prepared = left
  induction left generalizing a with
  | zero =>
      have hstarted : a.prepared = acceptCount := by
        have hearly := h.early
        omega
      rcases a.lostCount_lt_iff.mp hlt with ⟨i, hi, hkept⟩
      exact accepts_of_kept hstarted hkept (hused i (by omega))
  | succ left ih =>
      have hearly : a.prepared < acceptCount := by omega
      have hstep : a.step userIdOf (.prepare .pending) =
          some ({ a with prepared := a.prepared + 1 }.postAccept a.prepared .pending) := by
        simp only [step, hearly, if_true]
      have heffect := step_effect hstep
      refine Accepts.of_step (ih (h.step heffect) (hused.step heffect) ?_ ?_) _ hstep
      · rw [h.lostCount_step heffect]
        exact hlt
      · show acceptCount - (a.prepared + 1) = left
        omega

/-- When all contexts are lost, nothing changes but the sessions. -/
theorem lost_step (h : Owned a) (hall : forall i, i < acceptCount -> a.contexts i = .lost)
    {event : Event} (effect : Effect userIdOf a event b) :
    (forall i result, event ≠ .onAcceptComplete i result) ∧ b.contexts = a.contexts := by
  have hlost : forall {i : Nat} {context : AcceptContext}, a.contexts i = context ->
      context ≠ .unused -> context = .lost := by
    intro i context hcontext hne
    have hi := (h.lt_of_used (i := i) (by rw [hcontext]; exact hne)).right
    rw [← hcontext, hall i hi]
  cases effect with
  | prepared result early =>
      have hunused := h.unused a.prepared (Nat.le_refl _)
      rw [hall a.prepared early] at hunused
      cases hunused
  | completed i clientSocket held started => cases hlost held (fun hf => by cases hf)
  | broken i clientSocket held started => cases hlost held (fun hf => by cases hf)
  | rejected i clientSocket result held full => cases hlost held (fun hf => by cases hf)
  | taken i clientSocket result held room => cases hlost held (fun hf => by cases hf)
  | posted i result released => cases hlost released (fun hf => by cases hf)
  | served event sv other step => exact ⟨fun _ _ hevent => (by cases hevent), rfl⟩

end Acceptor

/--
Contexts that are lost do not come back.  A server can accept another connection
exactly if fewer than eight of its calls of `PostAccept` have failed so far, and
after the eighth failure it accepts none for the rest of its life.
-/
theorem accepts_iff_few_failures {userIdOf : List UInt8 -> Nat} {shards : Nat}
    {events : List Acceptor.Event} {a : Acceptor}
    (hrun : runFrom (Acceptor.step userIdOf) (.start shards) events = some a) :
    (exists later i result b c, runFrom (Acceptor.step userIdOf) a later = some b ∧
      b.step userIdOf (.onAcceptComplete i result) = some c) <->
    events.countP Acceptor.Event.failed < acceptCount := by
  have h := Acceptor.owned_run hrun
  have hused : a.Used := Preserved.run
    (fun _ _ _ hu hstep => hu.step (Acceptor.step_effect hstep))
    (fun i hi => absurd hi (Nat.not_lt_zero i)) hrun
  rw [← Acceptor.lostCount_run hrun]
  constructor
  · intro haccepts
    rcases haccepts with ⟨later, i, result, b, c, hlater, hlast⟩
    by_contra hmany
    have hall : forall i, i < acceptCount -> a.contexts i = .lost := by
      intro i hi
      by_contra hne
      exact hmany (a.lostCount_lt_iff.mpr ⟨i, hi, hne⟩)
    have hb : b.Owned ∧ forall i, i < acceptCount -> b.contexts i = .lost := by
      refine Preserved.run (I := fun u => u.Owned ∧
        forall i, i < acceptCount -> u.contexts i = .lost) ?_ ⟨h, hall⟩ hlater
      intro u event v hu hstep
      have heffect := Acceptor.step_effect hstep
      refine ⟨hu.left.step heffect, ?_⟩
      rw [(Acceptor.lost_step hu.left hu.right heffect).right]
      exact hu.right
    exact (Acceptor.lost_step hb.left hb.right (Acceptor.step_effect hlast)).left i result rfl
  · exact Acceptor.accepts_of_lt h hused

/-!
# A server that loses two contexts
-/

namespace Acceptor

/-- `AcceptEx` fails once, and once there is no socket; then a client connects. -/
def losesTwo : List Event :=
  [.prepare .refused, .prepare .noSocket, .prepare .pending, .prepare .pending,
    .prepare .pending, .prepare .pending, .prepare .pending, .prepare .pending,
    .complete 2 true]

end Acceptor

theorem sockets_have_one_owner_losesTwo :
    exists a, runFrom (Acceptor.step nameNumber) (.start 8) Acceptor.losesTwo = some a ∧
      Multiset.range a.opened =
        a.holdings + Multiset.ofList a.closed + Multiset.ofList a.taken ∧
      a.opened = 7 := by
  have hrun : (runFrom (Acceptor.step nameNumber) (.start 8)
      Acceptor.losesTwo).map (fun a => a.opened) = some 7 := by decide +kernel
  rcases Option.map_eq_some_iff.mp hrun with ⟨a, ha, hopened⟩
  exact ⟨a, ha, (sockets_have_one_owner ha).left, hopened⟩

theorem socket_refused_iff_full_losesTwo :
    exists a b, runFrom (Acceptor.step nameNumber) (.start 8) Acceptor.losesTwo = some a ∧
      a.step nameNumber (.onAcceptComplete 2 .started) = some b ∧
      (a.server.manager.byId.keys.length < 1000 <->
        b.closed = a.closed ∧ b.taken = 1 :: a.taken ∧
          exists slot, b.server.manager.byId.lookup a.server.manager.nextId = some slot ∧
            (b.server.manager.session slot).socket = 1) := by
  have hrun : (runFrom (Acceptor.step nameNumber) (.start 8) Acceptor.losesTwo).map
      (fun a => (a.contexts 2, (a.step nameNumber
        (.onAcceptComplete 2 .started)).isSome)) = some (.completed 1, true) := by
    decide +kernel
  rcases Option.map_eq_some_iff.mp hrun with ⟨a, ha, hboth⟩
  rcases Prod.mk.inj hboth with ⟨hheld, hsome⟩
  rcases Option.isSome_iff_exists.mp hsome with ⟨b, hb⟩
  exact ⟨a, b, ha, hb, (socket_refused_iff_full ha hheld hb).right⟩

theorem accepts_iff_few_failures_losesTwo :
    exists a, runFrom (Acceptor.step nameNumber) (.start 8) Acceptor.losesTwo = some a ∧
      exists later i result b c, runFrom (Acceptor.step nameNumber) a later = some b ∧
        b.step nameNumber (.onAcceptComplete i result) = some c := by
  have hrun : (runFrom (Acceptor.step nameNumber) (.start 8)
      Acceptor.losesTwo).isSome = true := by decide +kernel
  rcases Option.isSome_iff_exists.mp hrun with ⟨a, ha⟩
  exact ⟨a, ha, (accepts_iff_few_failures ha).mpr (by decide)⟩

end Network
end ContentServer
