import ContentServer.Foundation.Runs
import ContentServer.Sessions.SessionCalls

/-!
# One connection

A session together with what the system and the worker threads hold for it: the
started receives and sends that have not completed, the completion handlers
between their first part and `CompleteIO`, and the handlers that are about to
call `Destroy`.  The events are the atomic steps of a connection's life; their
arguments say what the network and the system did.

The history fields (`calls`, `acked`, `accepted`, `posted`) record what has
happened.  No step depends on them.
-/

namespace ContentServer
namespace Sessions

open Buffers Foundation Protocol

inductive IoType where
  | accept
  | recv
  | send
deriving DecidableEq

/-- What `WorkerLoop` does with a session's completion before `CompleteIO`. -/
def Session.handleCompletion (s : Session) (ok : Bool) (ioType : IoType)
    (bytes : Nat) (junk : Nat -> Packet) (result : PostResult) : Outcome :=
  if !ok then s.close
  else
    match ioType with
    | .recv =>
        if bytes = 0 then s.close else s.onRecv bytes junk result
    | .send => s.onSend bytes result
    | .accept => ⟨s, []⟩

/-- What exists for a session outside the session object. -/
structure Io where
  /-- `OnAcceptComplete` has not yet called `PostRecv`. -/
  accepting : Bool
  recvs : List WsaBuf
  sends : List WsaBuf
  /-- Handlers that have not yet run `CompleteIO`. -/
  handlers : Nat
  /-- Handlers whose `CompleteIO` returned true, before their `Destroy`. -/
  destroying : Nat
  /-- All outside calls so far. -/
  calls : List IoCall
  /-- Bytes that completed sends took from the buffer. -/
  acked : List UInt8
  /-- Messages that `Send` did not drop. -/
  accepted : List (List UInt8)
  /-- Bytes in the region of the last started send when it was started. -/
  posted : List UInt8

structure Conn extends Io where
  session : Session

namespace Conn

inductive Event where
  | postRecv (result : PostResult)
  | recvCompletion (ok : Bool) (bytes : List UInt8) (junk : Nat -> Packet)
      (result : PostResult)
  | sendCompletion (ok : Bool) (bytes : Nat) (result : PostResult)
  | send (data : List UInt8) (result : PostResult)
  | completeIo

/-- A slot right after `Init`. -/
def fresh (s : Session) (socket : Nat) (index : Slot) (id : Nat)
    (handler : Nat) : Conn where
  session := s.init socket index id handler
  accepting := true
  recvs := []
  sends := []
  handlers := 0
  destroying := 0
  calls := []
  acked := []
  accepted := []
  posted := []

/-- The first slot of a new pool, given to socket 3. -/
def first (id : Nat) : Conn :=
  fresh Session.constructed 3 Session.constructed.index id 0

/-- Take over the result of a session function. -/
def after (c : Conn) (o : Outcome) : Conn :=
  { c with
    session := o.session
    recvs := c.recvs ++ startedRecvs o.calls
    sends := c.sends ++ startedSends o.calls
    calls := c.calls ++ o.calls
    posted :=
      match startedSends o.calls with
      | [] => c.posted
      | buf :: _ => o.session.sendBuffer.buffer.window buf.buf buf.len }

theorem posted_after_of_nil (c : Conn) {o : Outcome}
    (h : startedSends o.calls = []) : (c.after o).posted = c.posted := by
  simp only [after, h]

/-- The system places received bytes in the region of the receive. -/
def receive (c : Conn) (buf : WsaBuf) (bytes : List UInt8) : Session :=
  { c.session with recvBuffer := c.session.recvBuffer.fill buf.buf bytes }

def step (c : Conn) : Event -> Option Conn
  | .postRecv result =>
      if c.accepting then
        some ({ c with accepting := false }.after (c.session.postRecv result))
      else none
  | .recvCompletion ok bytes junk result =>
      match c.recvs with
      | [] => none
      | buf :: rest =>
          if bytes.length ≤ buf.len then
            some ({ c with recvs := rest, handlers := c.handlers + 1 }.after
              ((c.receive buf bytes).handleCompletion ok .recv bytes.length
                junk result))
          else none
  | .sendCompletion ok bytes result =>
      match c.sends with
      | [] => none
      | buf :: rest =>
          if bytes ≤ buf.len then
            let taken := c.session.sendBuffer.buffer.window buf.buf bytes
            some ({ c with
                sends := rest
                handlers := c.handlers + 1
                acked := if ok then c.acked ++ taken else c.acked }.after
              (c.session.handleCompletion ok .send bytes (fun _ => makePacket 0 [])
                result))
          else none
  | .send data result =>
      let kept :=
        if c.session.sendBuffer.getEmptySize < data.length then c.accepted
        else c.accepted ++ [data]
      some ({ c with accepted := kept }.after (c.session.send data result))
  | .completeIo =>
      if c.handlers = 0 then none
      else
        some { c with
          session := c.session.completeIo.1
          handlers := c.handlers - 1
          destroying := c.destroying + if c.session.completeIo.2 then 1 else 0 }

/-- What an enabled event does, one case for each of its ways. -/
theorem step_cases {c d : Conn} {e : Event} (h : c.step e = some d) :
    (exists result, e = .postRecv result ∧ c.accepting = true ∧
      d = { c with accepting := false }.after (c.session.postRecv result)) ∨
    (exists ok bytes junk result buf rest,
      e = .recvCompletion ok bytes junk result ∧ c.recvs = buf :: rest ∧
      bytes.length ≤ buf.len ∧
      d = { c with recvs := rest, handlers := c.handlers + 1 }.after
        ((c.receive buf bytes).handleCompletion ok .recv bytes.length junk
          result)) ∨
    (exists ok bytes result buf rest,
      e = .sendCompletion ok bytes result ∧ c.sends = buf :: rest ∧
      bytes ≤ buf.len ∧
      d = { c with
          sends := rest
          handlers := c.handlers + 1
          acked := if ok
            then c.acked ++ c.session.sendBuffer.buffer.window buf.buf bytes
            else c.acked }.after
        (c.session.handleCompletion ok .send bytes (fun _ => makePacket 0 [])
          result)) ∨
    (exists data result, e = .send data result ∧
      d = { c with
          accepted :=
            if c.session.sendBuffer.getEmptySize < data.length then c.accepted
            else c.accepted ++ [data] }.after (c.session.send data result)) ∨
    (e = .completeIo ∧ 0 < c.handlers ∧
      d = { c with
        session := c.session.completeIo.1
        handlers := c.handlers - 1
        destroying := c.destroying + if c.session.completeIo.2 then 1 else 0 }) := by
  cases e with
  | postRecv result =>
      simp only [step] at h
      split at h
      · rename_i hacc
        cases h
        exact Or.inl ⟨result, rfl, hacc, rfl⟩
      · cases h
  | recvCompletion ok bytes junk result =>
      simp only [step] at h
      split at h
      · cases h
      · rename_i buf rest hrecvs
        split at h
        · rename_i hlen
          cases h
          exact Or.inr (Or.inl
            ⟨ok, bytes, junk, result, buf, rest, rfl, hrecvs, hlen, rfl⟩)
        · cases h
  | sendCompletion ok bytes result =>
      simp only [step] at h
      split at h
      · cases h
      · rename_i buf rest hsends
        split at h
        · rename_i hlen
          cases h
          exact Or.inr (Or.inr (Or.inl
            ⟨ok, bytes, result, buf, rest, rfl, hsends, hlen, rfl⟩))
        · cases h
  | send data result =>
      cases h
      exact Or.inr (Or.inr (Or.inr (Or.inl ⟨data, result, rfl, rfl⟩)))
  | completeIo =>
      simp only [step] at h
      split at h
      · cases h
      · rename_i hpos
        cases h
        exact Or.inr (Or.inr (Or.inr (Or.inr
          ⟨rfl, Nat.pos_of_ne_zero hpos, rfl⟩)))

end Conn

theorem handleCompletion_recv_recvCall (s : Session) (ok : Bool) (bytes : Nat)
    (junk : Nat -> Packet) (result : PostResult) :
    RecvCall s (s.handleCompletion ok .recv bytes junk result) := by
  cases ok with
  | false => exact close_recvCall s
  | true =>
      by_cases hzero : bytes = 0
      · have heq : s.handleCompletion true .recv bytes junk result = s.close := by
          simp [Session.handleCompletion, hzero]
        rw [heq]
        exact close_recvCall s
      · have heq : s.handleCompletion true .recv bytes junk result =
            s.onRecv bytes junk result := by
          simp [Session.handleCompletion, hzero]
        rw [heq]
        exact onRecv_recvCall s bytes junk result

theorem handleCompletion_send_sendCall (s : Session) (ok : Bool) (bytes : Nat)
    (junk : Nat -> Packet) (result : PostResult) :
    SendCall s (s.handleCompletion ok .send bytes junk result) := by
  cases ok with
  | false => exact close_sendCall s
  | true => exact onSend_sendCall s bytes result

/-- The calls of a step are those of one session function, or none. -/
theorem step_tallies {c d : Conn} {e : Conn.Event} (hstep : c.step e = some d) :
    (exists o, Tallies c.session o ∧ d.session = o.session ∧
      d.calls = c.calls ++ o.calls) ∨
    (d.calls = c.calls ∧ d.session.closing = c.session.closing ∧
      SameOwner c.session d.session) := by
  rcases Conn.step_cases hstep with
    ⟨result, rfl, _, rfl⟩ |
    ⟨ok, bytes, junk, result, buf, rest, rfl, _, _, rfl⟩ |
    ⟨ok, bytes, result, buf, rest, rfl, _, _, rfl⟩ |
    ⟨data, result, rfl, rfl⟩ | ⟨rfl, _, rfl⟩
  · exact Or.inl ⟨_, (postRecv_recvCall c.session result).toTallies, rfl, rfl⟩
  · exact Or.inl ⟨_, (RecvCall.of_ring (handleCompletion_recv_recvCall
      (c.receive buf bytes) ok bytes.length junk result)).toTallies, rfl, rfl⟩
  · exact Or.inl ⟨_, (handleCompletion_send_sendCall c.session ok bytes
      (fun _ => makePacket 0 []) result).toTallies, rfl, rfl⟩
  · exact Or.inl ⟨_, (send_sendCall c.session data result).toTallies, rfl, rfl⟩
  · exact Or.inr ⟨rfl, rfl, rfl, rfl, rfl, rfl, rfl, rfl, rfl⟩

/-- A connection keeps its owner. -/
theorem sameOwner_step {c d : Conn} {e : Conn.Event} (hstep : c.step e = some d) :
    SameOwner c.session d.session := by
  rcases step_tallies hstep with ⟨o, ho, hsession, _⟩ | ⟨_, _, howner⟩
  · rw [hsession]
    exact ho.owner
  · exact howner

end Sessions
end ContentServer
