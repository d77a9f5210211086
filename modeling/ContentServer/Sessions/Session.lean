import ContentServer.Buffers.RingBuffer
import ContentServer.Protocol.Packet
import ContentServer.Sessions.ObjectPool

/-!
# Sessions

The per-connection object of `Session.h`.  A member function returns the
session after the call together with the outside calls that it made, in order:
posted receives and sends, closed sockets and messages pushed to its queue.
Whether the system accepts a posted operation is a parameter of the call.
-/

namespace ContentServer
namespace Sessions

open Buffers Protocol

/-- A slot of `ObjectPool<Session, 1000>`. -/
abbrev Slot : Type := Fin 1000

/-- A `WSABUF` into a ring buffer: index of the first byte and length. -/
structure WsaBuf where
  buf : Nat
  len : Nat
deriving DecidableEq

/-- Return of `WSARecv` or `WSASend`: started (or pending), or failed at once. -/
inductive PostResult where
  | started
  | failed
deriving DecidableEq

/-- Calls that a session makes to the system and to its shard queue. -/
inductive IoCall where
  | wsaRecv (buf : WsaBuf) (result : PostResult)
  | wsaSend (buf : WsaBuf) (result : PostResult)
  | closesocket (socket : Nat)
  | push (queue : Nat) (msg : ShardMsg)
deriving DecidableEq

structure Session where
  pendingIo : Int
  closing : Bool
  sending : Bool
  socket : Nat
  index : Slot
  id : Nat
  userId : Nat
  name : List UInt8
  friendIds : Finset Nat
  recvBuffer : RingBuffer
  sendBuffer : RingBuffer
  recvWsaBuf : WsaBuf
  sendWsaBuf : WsaBuf
  handler : Nat

/-- The session after a call and the outside calls it made. -/
structure Outcome where
  session : Session
  calls : List IoCall

namespace Session

/-- The default member initialisers; the arrays are zero here. -/
def constructed : Session where
  pendingIo := 0
  closing := false
  sending := false
  socket := 2 ^ 64 - 1 -- `INVALID_SOCKET`
  index := 0 -- `-1` in the source; `Init` sets it before any use
  id := 0
  userId := 0
  name := []
  friendIds := ∅
  recvBuffer := .zeroed
  sendBuffer := .zeroed
  recvWsaBuf := ⟨0, 0⟩
  sendWsaBuf := ⟨0, 0⟩
  handler := 0

def init (s : Session) (socket : Nat) (index : Slot) (id : Nat)
    (handler : Nat) : Session :=
  { s with
    socket := socket
    index := index
    id := id
    closing := false
    pendingIo := 0
    sending := false
    recvBuffer := s.recvBuffer.clear
    sendBuffer := s.sendBuffer.clear
    handler := handler
    friendIds := ∅
    userId := 0
    name := [] }

def close (s : Session) : Outcome where
  session := { s with closing := true }
  calls := [.closesocket s.socket]

def postRecv (s : Session) (result : PostResult) : Outcome :=
  if s.closing then ⟨s, []⟩
  else
    let freeSize := s.recvBuffer.getLinearEmptySize
    if freeSize ≤ 0 then ⟨s, []⟩
    else
      let buf : WsaBuf := ⟨s.recvBuffer.getTail, freeSize⟩
      let posted := { s with recvWsaBuf := buf, pendingIo := s.pendingIo + 1 }
      match result with
      | .started => ⟨posted, [.wsaRecv buf .started]⟩
      | .failed =>
          let closed := { posted with pendingIo := posted.pendingIo - 1 }.close
          ⟨closed.session, .wsaRecv buf .failed :: closed.calls⟩

/-- One pass through the loop of `OnRecv`. -/
inductive LoopBody where
  | stop
  | close
  | next (session : Session) (msg : ShardMsg)

/-- The loop body; `junk` is what the uninitialised locals hold. -/
def onRecvBody (s : Session) (junk : Packet) : LoopBody :=
  if s.recvBuffer.getUsedSize < HEADER_SIZE then .stop
  else
    let header := PacketHeader.ofBytes
      (s.recvBuffer.peek junk.header.toBytes HEADER_SIZE)
    let size := header.size.toNat
    if size < HEADER_SIZE ∨ size > PACKET_SIZE then .close
    else if s.recvBuffer.getUsedSize < size then .stop
    else
      let read := Packet.ofBytes (s.recvBuffer.peek junk.toBytes size)
      let pkt := { read with header := { read.header with id := UInt16.ofNat s.id } }
      .next { s with recvBuffer := s.recvBuffer.moveHead size }
        { type := .client, sessionId := s.id, pkt := pkt }

theorem onRecvBody_decreases {s t : Session} {junk : Packet} {msg : ShardMsg}
    (h : s.onRecvBody junk = .next t msg) :
    t.recvBuffer.getUsedSize < s.recvBuffer.getUsedSize := by
  have hsizes := sizes_eq
  simp only [onRecvBody] at h
  split at h
  · cases h
  split at h
  · cases h
  split at h
  · cases h
  injection h with hsession _
  rw [← hsession]
  show (s.recvBuffer.moveHead _).getUsedSize < _
  rw [RingBuffer.getUsedSize_moveHead _ (by omega)]
  omega

def onRecvLoop (s : Session) (junk : Nat -> Packet) : Outcome :=
  match _h : s.onRecvBody (junk 0) with
  | .stop => ⟨s, []⟩
  | .close => s.close
  | .next t msg =>
      let rest := t.onRecvLoop (fun n => junk (n + 1))
      ⟨rest.session, .push s.handler msg :: rest.calls⟩
termination_by s.recvBuffer.getUsedSize
decreasing_by exact onRecvBody_decreases _h

def onRecv (s : Session) (bytes : Nat) (junk : Nat -> Packet)
    (result : PostResult) : Outcome :=
  let moved := { s with recvBuffer := s.recvBuffer.moveTail bytes }
  let looped := moved.onRecvLoop junk
  let posted := looped.session.postRecv result
  ⟨posted.session, looped.calls ++ posted.calls⟩

def postSend (s : Session) (result : PostResult) : Outcome :=
  if s.closing then ⟨s, []⟩
  else if s.sendBuffer.getUsedSize = 0 then ⟨{ s with sending := false }, []⟩
  else
    let buf : WsaBuf := ⟨s.sendBuffer.getHead, s.sendBuffer.getLinearUsedSize⟩
    let posted := { s with sendWsaBuf := buf, pendingIo := s.pendingIo + 1 }
    match result with
    | .started => ⟨posted, [.wsaSend buf .started]⟩
    | .failed =>
        let closed := { posted with pendingIo := posted.pendingIo - 1 }.close
        ⟨closed.session, .wsaSend buf .failed :: closed.calls⟩

def send (s : Session) (data : List UInt8) (result : PostResult) : Outcome :=
  if s.sendBuffer.getEmptySize < data.length then ⟨s, []⟩
  else
    match s.sendBuffer.write data with
    | (_, false) => ⟨s, []⟩
    | (written, true) =>
        let moved := { s with sendBuffer := written.moveTail data.length }
        if !moved.sending then { moved with sending := true }.postSend result
        else ⟨moved, []⟩

def onSend (s : Session) (bytes : Nat) (result : PostResult) : Outcome :=
  let moved := { s with sendBuffer := s.sendBuffer.moveHead bytes }
  if moved.sendBuffer.getUsedSize ≠ 0 then moved.postSend result
  else ⟨{ moved with sending := false }, []⟩

/-- `CompleteIO`: the session after it, and whether the session may go. -/
def completeIo (s : Session) : Session × Bool :=
  let count := s.pendingIo - 1
  ({ s with pendingIo := count }, s.closing && count == 0)

def setName (s : Session) (name : List UInt8) : Session :=
  { s with name := name }

def isNamed (s : Session) : Bool :=
  !s.name.isEmpty

def setUserId (s : Session) (userId : Nat) : Session :=
  { s with userId := userId }

def addFriend (s : Session) (friendId : Nat) : Session :=
  { s with friendIds := insert friendId s.friendIds }

def removeFriend (s : Session) (friendId : Nat) : Session :=
  { s with friendIds := s.friendIds.erase friendId }

def hasFriend (s : Session) (friendId : Nat) : Bool :=
  friendId ∈ s.friendIds

end Session

end Sessions
end ContentServer
