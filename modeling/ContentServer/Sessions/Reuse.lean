import ContentServer.Foundation.Noninterference
import ContentServer.Sessions.Accounting
import ContentServer.Sessions.ReceivePath

/-!
# Sessions in used slots

`Init` leaves the arrays of the two ring buffers as the earlier session left
them, and the packet that `OnRecv` reads into holds whatever lay there.  What a
session shows to the outside depends on neither: the bytes between head and tail
were all put there since `Init`, and nothing else is ever shown.
-/

namespace ContentServer

namespace Buffers
namespace RingBuffer

/-- The same indices and the same queued bytes. -/
structure Agrees (r q : RingBuffer) : Prop where
  head : q.head = r.head
  tail : q.tail = r.tail
  contents : q.contents = r.contents

namespace Agrees

variable {r q : RingBuffer}

theorem getUsedSize (h : Agrees r q) : q.getUsedSize = r.getUsedSize := by
  unfold RingBuffer.getUsedSize
  rw [h.head, h.tail]

theorem getEmptySize (h : Agrees r q) : q.getEmptySize = r.getEmptySize := by
  unfold RingBuffer.getEmptySize
  rw [h.getUsedSize]

theorem getLinearUsedSize (h : Agrees r q) :
    q.getLinearUsedSize = r.getLinearUsedSize := by
  unfold RingBuffer.getLinearUsedSize
  rw [h.head, h.tail]

theorem getLinearEmptySize (h : Agrees r q) :
    q.getLinearEmptySize = r.getLinearEmptySize := by
  unfold RingBuffer.getLinearEmptySize
  rw [h.head, h.tail]

/-- Queue and tail determine the head. -/
theorem of_tail (htail : q.tail = r.tail) (hcontents : q.contents = r.contents) :
    Agrees r q where
  head := by
    have hused : q.getUsedSize = r.getUsedSize := by
      rw [← length_contents, hcontents, length_contents]
    have hr := r.head_lt
    have hq := q.head_lt
    have ht := r.tail_lt
    simp only [RingBuffer.getUsedSize, htail, BUFFER_SIZE] at *
    omega
  tail := htail
  contents := hcontents

theorem clear (r q : RingBuffer) : Agrees r.clear q.clear where
  head := rfl
  tail := rfl
  contents := by rw [contents_clear, contents_clear]

theorem moveHead (h : Agrees r q) {k : Nat} (hk : k ≤ r.getUsedSize) :
    Agrees (r.moveHead k) (q.moveHead k) where
  head := congrArg (fun head => (head + k) % BUFFER_SIZE) h.head
  tail := h.tail
  contents := by
    rw [contents_moveHead r hk, contents_moveHead q (by rw [h.getUsedSize]; exact hk),
      h.contents]

theorem write_moveTail (h : Agrees r q) {data : List UInt8}
    (hfits : data.length ≤ r.getEmptySize) :
    Agrees ((r.write data).1.moveTail data.length)
      ((q.write data).1.moveTail data.length) where
  head := by
    show (q.write data).1.head = (r.write data).1.head
    rw [write_head, write_head, h.head]
  tail := by
    show ((q.write data).1.tail + _) % _ = ((r.write data).1.tail + _) % _
    rw [write_tail, write_tail, h.tail]
  contents := by
    rw [contents_write_moveTail r hfits,
      contents_write_moveTail q (by rw [h.getEmptySize]; exact hfits), h.contents]

theorem fill (h : Agrees r q) {data : List UInt8}
    (hfits : data.length ≤ r.getLinearEmptySize) :
    Agrees (r.fill r.getTail data) (q.fill r.getTail data) where
  head := h.head
  tail := h.tail
  contents := by
    have htail : r.getTail = q.getTail := h.tail.symm
    have hempty := hfits.trans r.getLinearEmptySize_le
    have hr : (r.fill r.getTail data).contents = r.contents :=
      r.contents_fill (r.freeCells_tail hempty)
    have hq : (q.fill q.getTail data).contents = q.contents :=
      q.contents_fill (q.freeCells_tail (by rw [h.getEmptySize]; exact hempty))
    rw [hr, htail, hq, h.contents]

theorem fill_moveTail (h : Agrees r q) {data : List UInt8}
    (hfits : data.length ≤ r.getLinearEmptySize) :
    Agrees ((r.fill r.getTail data).moveTail data.length)
      ((q.fill r.getTail data).moveTail data.length) where
  head := h.head
  tail := congrArg (fun tail => (tail + data.length) % BUFFER_SIZE) h.tail
  contents := by
    have htail : r.getTail = q.getTail := h.tail.symm
    rw [contents_fill_moveTail r hfits, htail,
      contents_fill_moveTail q (by rw [h.getLinearEmptySize]; exact hfits), h.contents]

/-- The bytes of a linear read. -/
theorem linear (h : Agrees r q) :
    q.buffer.window q.getHead q.getLinearUsedSize =
      r.buffer.window r.getHead r.getLinearUsedSize := by
  rw [linear_window_eq, linear_window_eq, h.contents, h.getLinearUsedSize]

end Agrees
end RingBuffer
end Buffers

namespace Sessions

open Buffers Foundation Protocol

/-- What the outside sees of a session. -/
inductive Observation where
  /-- A message in a queue, with the bytes of its packet up to `header.size`. -/
  | pushed (queue sessionId : Nat) (packet : List UInt8)
  | recvPosted (len : Nat) (result : PostResult)
  | sendPosted (bytes : List UInt8) (result : PostResult)
  | closed (socket : Nat)
  | answered (answer : Bool)
  | name (name : List UInt8)
  | userId (userId : Nat)

/-- A call of a session, with the ring that its sends read. -/
def observe (ring : RingBuffer) : IoCall -> Observation
  | .wsaRecv buf result => .recvPosted buf.len result
  | .wsaSend buf result => .sendPosted (ring.buffer.window buf.buf buf.len) result
  | .closesocket socket => .closed socket
  | .push queue msg => .pushed queue msg.sessionId msg.pkt.wire

def Outcome.observed (o : Outcome) : List Observation :=
  o.calls.map (observe o.session.sendBuffer)

theorem wire_eq_header_append (p : Packet) :
    p.wire = p.header.toBytes.take p.header.size.toNat ++ p.body := by
  unfold Packet.wire Packet.body Packet.toBytes
  rw [List.take_append, length_toBytes_header]

/-- Consumers are told the whole packet up to `header.size`. -/
theorem wire_of_delivery {msg other : ShardMsg} (h : delivery other = delivery msg) :
    other.sessionId = msg.sessionId ∧ other.pkt.wire = msg.pkt.wire := by
  rcases Delivery.mk.inj h with ⟨hid, hsize, hsender, hbody⟩
  have hheader : other.pkt.header = msg.pkt.header := by
    cases hother : other.pkt.header
    cases hmsg : msg.pkt.header
    rw [hother, hmsg] at hsize hsender
    rw [PacketHeader.mk.injEq]
    exact ⟨UInt16.toNat.inj hsize, UInt16.toNat.inj hsender⟩
  refine ⟨hid, ?_⟩
  rw [wire_eq_header_append, wire_eq_header_append, hheader, hbody]

/-- Two sessions that differ in used array cells and in old `WSABUF`s only. -/
structure Alike (s t : Session) : Prop where
  fields : t = { s with
    recvBuffer := t.recvBuffer
    sendBuffer := t.sendBuffer
    recvWsaBuf := t.recvWsaBuf
    sendWsaBuf := t.sendWsaBuf }
  recv : RingBuffer.Agrees s.recvBuffer t.recvBuffer
  send : RingBuffer.Agrees s.sendBuffer t.sendBuffer

/-- Two calls of a session function with the same effect for the outside. -/
structure SameEffect (o p : Outcome) : Prop where
  session : Alike o.session p.session
  observed : p.observed = o.observed
  recvs : startedRecvs p.calls = startedRecvs o.calls
  sends : startedSends p.calls = startedSends o.calls

namespace Alike

variable {s t : Session}

theorem init (s t : Session) (socket : Nat) (index : Slot) (id handler : Nat) :
    Alike (s.init socket index id handler) (t.init socket index id handler) where
  fields := rfl
  recv := RingBuffer.Agrees.clear _ _
  send := RingBuffer.Agrees.clear _ _

theorem shape (h : Alike s t) : exists recv send recvWsa sendWsa,
    t = { s with
      recvBuffer := recv
      sendBuffer := send
      recvWsaBuf := recvWsa
      sendWsaBuf := sendWsa } ∧
    RingBuffer.Agrees s.recvBuffer recv ∧ RingBuffer.Agrees s.sendBuffer send :=
  ⟨_, _, _, _, h.fields, h.recv, h.send⟩

theorem close (h : Alike s t) : SameEffect s.close t.close where
  session := ⟨congrArg (fun u : Session => { u with closing := true }) h.fields,
    h.recv, h.send⟩
  observed := by
    rw [h.fields]
    rfl
  recvs := rfl
  sends := rfl

theorem postRecv (h : Alike s t) (result : PostResult) :
    SameEffect (s.postRecv result) (t.postRecv result) := by
  rcases h.shape with ⟨recv, send, recvWsa, sendWsa, rfl, hrecv, hsend⟩
  have htail : recv.getTail = s.recvBuffer.getTail := hrecv.tail
  simp only [Session.postRecv, hrecv.getLinearEmptySize, htail]
  split_ifs with hclosing hfull
  · exact ⟨⟨rfl, hrecv, hsend⟩, rfl, rfl, rfl⟩
  · exact ⟨⟨rfl, hrecv, hsend⟩, rfl, rfl, rfl⟩
  · cases result with
    | started => exact ⟨⟨rfl, hrecv, hsend⟩, rfl, rfl, rfl⟩
    | failed => exact ⟨⟨rfl, hrecv, hsend⟩, rfl, rfl, rfl⟩

/-- A send reads queued bytes only. -/
theorem postSend (h : Alike s t) (result : PostResult) :
    SameEffect (s.postSend result) (t.postSend result) := by
  rcases h.shape with ⟨recv, send, recvWsa, sendWsa, rfl, hrecv, hsend⟩
  have hhead : send.getHead = s.sendBuffer.getHead := hsend.head
  have hbytes := hsend.linear
  rw [hhead, hsend.getLinearUsedSize] at hbytes
  simp only [Session.postSend, hsend.getLinearUsedSize, hsend.getUsedSize, hhead]
  split_ifs with hclosing hempty
  · exact ⟨⟨rfl, hrecv, hsend⟩, rfl, rfl, rfl⟩
  · exact ⟨⟨rfl, hrecv, hsend⟩, rfl, rfl, rfl⟩
  · cases result with
    | started =>
        refine ⟨⟨rfl, hrecv, hsend⟩, ?_, rfl, rfl⟩
        exact congrArg (fun bytes => [Observation.sendPosted bytes .started]) hbytes
    | failed =>
        refine ⟨⟨rfl, hrecv, hsend⟩, ?_, rfl, rfl⟩
        exact congrArg (fun bytes => [Observation.sendPosted bytes .failed,
          .closed s.socket]) hbytes

/-- Sessions that did nothing. -/
theorem silent (h : Alike s t) : SameEffect ⟨s, []⟩ ⟨t, []⟩ :=
  ⟨h, rfl, rfl, rfl⟩

theorem send_of_fits (s : Session) {data : List UInt8} (result : PostResult)
    (hfits : data.length ≤ s.sendBuffer.getEmptySize) :
    s.send data result =
      if s.sending then
        ⟨{ s with sendBuffer := (s.sendBuffer.write data).1.moveTail data.length }, []⟩
      else
        { s with
          sendBuffer := (s.sendBuffer.write data).1.moveTail data.length
          sending := true }.postSend result := by
  rcases send_cases s data result with
    ⟨hover, _⟩ | ⟨_, hsending, heq⟩ | ⟨_, hidle, heq⟩
  · exact absurd hfits (Nat.not_le.mpr hover)
  · rw [heq, if_pos hsending]
  · rw [heq, if_neg (by rw [hidle]; exact Bool.false_ne_true)]

/-- What is written joins the queued bytes. -/
theorem sendData (h : Alike s t) (data : List UInt8) (result : PostResult) :
    SameEffect (s.send data result) (t.send data result) := by
  by_cases hfits : data.length ≤ s.sendBuffer.getEmptySize
  · rw [send_of_fits s result hfits,
      send_of_fits t result (by rw [h.send.getEmptySize]; exact hfits)]
    rcases h.shape with ⟨recv, send, recvWsa, sendWsa, rfl, hrecv, hsend⟩
    have hwritten := hsend.write_moveTail hfits
    by_cases hsending : s.sending = true
    · simp only [hsending, if_true]
      exact silent ⟨rfl, hrecv, hwritten⟩
    · simp only [hsending, Bool.false_eq_true, if_false]
      exact postSend ⟨rfl, hrecv, hwritten⟩ result
  · have hover : s.sendBuffer.getEmptySize < data.length := Nat.not_le.mp hfits
    have hover' : t.sendBuffer.getEmptySize < data.length := by
      rw [h.send.getEmptySize]
      exact hover
    unfold Session.send
    rw [if_pos hover, if_pos hover']
    exact h.silent

/-- A completed send takes queued bytes away. -/
theorem onSend (h : Alike s t) {bytes : Nat} (hbytes : bytes ≤ s.sendBuffer.getUsedSize)
    (result : PostResult) : SameEffect (s.onSend bytes result) (t.onSend bytes result) := by
  rcases h.shape with ⟨recv, send, recvWsa, sendWsa, rfl, hrecv, hsend⟩
  have hmoved := hsend.moveHead hbytes
  simp only [Session.onSend, hmoved.getUsedSize]
  split_ifs with hqueued
  · exact postSend ⟨rfl, hrecv, hmoved⟩ result
  · exact silent ⟨rfl, hrecv, hmoved⟩

theorem observe_pushes {msgs others : List ShardMsg} (queue : Nat) (ring ring' : RingBuffer)
    (h : others.map delivery = msgs.map delivery) :
    (others.map (IoCall.push queue)).map (observe ring') =
      (msgs.map (IoCall.push queue)).map (observe ring) := by
  induction msgs generalizing others with
  | nil =>
      rw [List.map_nil, List.map_eq_nil_iff] at h
      rw [h]
      rfl
  | cons msg rest ih =>
      cases others with
      | nil => cases h
      | cons other others =>
          rw [List.map_cons, List.map_cons] at h
          rcases List.cons.inj h with ⟨hfirst, hrest⟩
          rcases wire_of_delivery hfirst with ⟨hid, hwire⟩
          rw [List.map_cons, List.map_cons, List.map_cons, List.map_cons, ih hrest]
          show Observation.pushed queue other.sessionId other.pkt.wire :: _ = _
          rw [hid, hwire]
          rfl

/-- The loop sees the queued bytes, and not what its locals held before. -/
theorem onRecv (h : Alike s t) {bytes : Nat} (junk junk' : Nat -> Packet)
    (hmoved : RingBuffer.Agrees (s.recvBuffer.moveTail bytes) (t.recvBuffer.moveTail bytes))
    (result : PostResult) :
    SameEffect (s.onRecv bytes junk result) (t.onRecv bytes junk' result) := by
  rcases onRecv_eq s bytes junk result with
    ⟨msgs, ring, looped, hlooped, heq, hmsgs, hring, htail⟩
  rcases onRecv_eq t bytes junk' result with
    ⟨msgs', ring', looped', hlooped', heq', hmsgs', hring', htail'⟩
  rw [hmoved.contents] at hlooped' heq' hmsgs' hring'
  rcases h.shape with ⟨recv, send, recvWsa, sendWsa, rfl, hrecv, hsend⟩
  have hrings : RingBuffer.Agrees ring ring' :=
    .of_tail (by rw [htail, htail', hmoved.tail]) (by rw [hring, hring'])
  have halike : Alike looped looped' := by
    rw [hlooped, hlooped']
    exact ⟨rfl, hrings, hsend⟩
  have hposted := halike.postRecv result
  have hpushes := observe_pushes s.handler (looped.postRecv result).session.sendBuffer
    (looped'.postRecv result).session.sendBuffer (hmsgs'.trans hmsgs.symm)
  have hstarted : forall (xs : List ShardMsg) (b : Bool) (calls : List IoCall),
      startedRecvs ((xs.map (IoCall.push s.handler) ++
        if b then [.closesocket s.socket] else []) ++ calls) = startedRecvs calls ∧
      startedSends ((xs.map (IoCall.push s.handler) ++
        if b then [.closesocket s.socket] else []) ++ calls) = startedSends calls := by
    intro xs b calls
    constructor <;> cases b <;>
      simp [startedRecvs_append, startedSends_append, startedRecvs, startedSends]
  rw [heq, heq']
  refine ⟨hposted.session, ?_, ?_, ?_⟩
  · show List.map _ _ = List.map _ _
    rw [List.map_append, List.map_append, List.map_append, List.map_append]
    refine congrArg₂ (· ++ ·) (congrArg₂ (· ++ ·) hpushes ?_) hposted.observed
    split <;> rfl
  · rw [(hstarted ..).left, (hstarted ..).left, hposted.recvs]
  · rw [(hstarted ..).right, (hstarted ..).right, hposted.sends]

theorem handleRecv (h : Alike s t) (ok : Bool) {bytes : Nat} (junk junk' : Nat -> Packet)
    (hmoved : RingBuffer.Agrees (s.recvBuffer.moveTail bytes) (t.recvBuffer.moveTail bytes))
    (result : PostResult) :
    SameEffect (s.handleCompletion ok .recv bytes junk result)
      (t.handleCompletion ok .recv bytes junk' result) := by
  unfold Session.handleCompletion
  cases ok with
  | false => exact h.close
  | true =>
      by_cases hbytes : bytes = 0
      · simp only [hbytes, if_true]
        exact h.close
      · simp only [hbytes, if_false]
        exact h.onRecv junk junk' hmoved result

theorem handleSend (h : Alike s t) (ok : Bool) {bytes : Nat} (junk junk' : Nat -> Packet)
    (hbytes : bytes ≤ s.sendBuffer.getUsedSize) (result : PostResult) :
    SameEffect (s.handleCompletion ok .send bytes junk result)
      (t.handleCompletion ok .send bytes junk' result) := by
  cases ok with
  | false => exact h.close
  | true => exact h.onSend hbytes result

end Alike

/-!
# Calls and what they show
-/

/-- The calls of a session from the outside. -/
inductive Call where
  | postRecv (result : PostResult)
  | recvDone (ok : Bool) (bytes : List UInt8) (result : PostResult)
  | sendDone (ok : Bool) (bytes : Nat) (result : PostResult)
  | send (data : List UInt8) (result : PostResult)
  | completeIo
  | setName (name : List UInt8)
  | setUserId (userId : Nat)
  | addFriend (friendId : Nat)
  | removeFriend (friendId : Nat)
  | isNamed
  | getName
  | getUserId
  | hasFriend (friendId : Nat)

namespace Conn

/-- The connection after an event, and what the event showed. -/
def reveal (c : Conn) (e : Event) (answers : List Observation) :
    Option (Conn × List Observation) :=
  (c.step e).map fun d =>
    (d, (d.calls.drop c.calls.length).map (observe d.session.sendBuffer) ++ answers)

/-- One call, with what the uninitialised locals of `OnRecv` hold. -/
def use : Machine Conn (Call × (Nat -> Packet)) Observation := fun c input =>
  match input.1 with
  | .postRecv result => c.reveal (.postRecv result) []
  | .recvDone ok bytes result => c.reveal (.recvCompletion ok bytes input.2 result) []
  | .sendDone ok bytes result => c.reveal (.sendCompletion ok bytes result) []
  | .send data result => c.reveal (.send data result) []
  | .completeIo => c.reveal .completeIo [.answered c.session.completeIo.2]
  | .setName name => some ({ c with session := c.session.setName name }, [])
  | .setUserId userId => some ({ c with session := c.session.setUserId userId }, [])
  | .addFriend friendId => some ({ c with session := c.session.addFriend friendId }, [])
  | .removeFriend friendId =>
      some ({ c with session := c.session.removeFriend friendId }, [])
  | .isNamed => some (c, [.answered c.session.isNamed])
  | .getName => some (c, [.name c.session.name])
  | .getUserId => some (c, [.userId c.session.userId])
  | .hasFriend friendId => some (c, [.answered (c.session.hasFriend friendId)])

/-- Two connections that the outside cannot tell apart. -/
structure Twins (c d : Conn) : Prop where
  session : Alike c.session d.session
  accepting : d.accepting = c.accepting
  recvs : d.recvs = c.recvs
  sends : d.sends = c.sends
  handlers : d.handlers = c.handlers

/-- Started operations use the cells that they were given. -/
structure Placed (c : Conn) : Prop where
  recv : forall buf, buf ∈ c.recvs ->
    buf = ⟨c.session.recvBuffer.getTail, c.session.recvBuffer.getLinearEmptySize⟩
  send : forall buf, buf ∈ c.sends -> buf.len ≤ c.session.sendBuffer.getUsedSize

theorem seen_after (c : Conn) (base : Conn) (o : Outcome) (h : base.calls = c.calls) :
    ((base.after o).calls.drop c.calls.length).map
      (observe (base.after o).session.sendBuffer) = o.observed := by
  show ((base.calls ++ o.calls).drop _).map _ = _
  rw [h, List.drop_left]
  rfl

/-!
# The cells of started operations
-/

theorem posted_postRecv (s : Session) (result : PostResult) {buf : WsaBuf}
    (h : buf ∈ startedRecvs (s.postRecv result).calls) :
    buf = ⟨(s.postRecv result).session.recvBuffer.getTail,
      (s.postRecv result).session.recvBuffer.getLinearEmptySize⟩ := by
  rcases postRecv_ring s result with ⟨hring, _, hposted, _⟩
  rw [hring]
  exact (hposted buf h).left

theorem posted_handleRecv (s : Session) (ok : Bool) (bytes : Nat) (junk : Nat -> Packet)
    (result : PostResult) {buf : WsaBuf}
    (h : buf ∈ startedRecvs (s.handleCompletion ok .recv bytes junk result).calls) :
    buf = ⟨(s.handleCompletion ok .recv bytes junk result).session.recvBuffer.getTail,
      (s.handleCompletion ok .recv bytes junk
        result).session.recvBuffer.getLinearEmptySize⟩ := by
  cases ok with
  | false => cases h
  | true =>
      by_cases hbytes : bytes = 0
      · have heq : s.handleCompletion true .recv bytes junk result = s.close := by
          simp [Session.handleCompletion, hbytes]
        rw [heq] at h
        cases h
      · have heq : s.handleCompletion true .recv bytes junk result =
            s.onRecv bytes junk result := by
          simp [Session.handleCompletion, hbytes]
        rw [heq] at h ⊢
        unfold Session.onRecv at h ⊢
        rw [startedRecvs_append, startedRecvs_onRecvLoop, List.nil_append] at h
        exact posted_postRecv _ result h

theorem posted_postSend (s : Session) (result : PostResult) {buf : WsaBuf}
    (h : buf ∈ startedSends (s.postSend result).calls) :
    buf.len ≤ (s.postSend result).session.sendBuffer.getUsedSize := by
  rcases postSend_cases s result with
    ⟨heq, _⟩ | ⟨heq, _, _⟩ | ⟨posted, _, _, hbuf, _, heq⟩ | ⟨posted, _, _, _, heq⟩
  · rw [heq] at h
    cases h
  · rw [heq] at h
    cases h
  · rw [heq] at h ⊢
    rw [List.mem_singleton.mp h, hbuf]
    exact s.sendBuffer.getLinearUsedSize_le
  · rw [heq] at h
    cases h

theorem posted_handleSend (s : Session) (ok : Bool) (bytes : Nat) (junk : Nat -> Packet)
    (result : PostResult) {buf : WsaBuf}
    (h : buf ∈ startedSends (s.handleCompletion ok .send bytes junk result).calls) :
    buf.len ≤ (s.handleCompletion ok .send bytes junk
      result).session.sendBuffer.getUsedSize := by
  cases ok with
  | false => cases h
  | true =>
      replace h : buf ∈ startedSends (s.onSend bytes result).calls := h
      show buf.len ≤ (s.onSend bytes result).session.sendBuffer.getUsedSize
      rcases onSend_cases s bytes result with ⟨_, heq⟩ | ⟨_, heq⟩
      · rw [heq] at h ⊢
        exact posted_postSend _ result h
      · rw [heq] at h
        cases h

theorem getUsedSize_postSend (s : Session) (result : PostResult) :
    (s.postSend result).session.sendBuffer = s.sendBuffer := by
  rcases postSend_cases s result with
    ⟨heq, _⟩ | ⟨heq, _, _⟩ | ⟨_, _, _, _, _, heq⟩ | ⟨_, _, _, _, heq⟩ <;> rw [heq]

/-- A send takes nothing out of the ring. -/
theorem posted_send (s : Session) (data : List UInt8) (result : PostResult) :
    s.sendBuffer.getUsedSize ≤ (s.send data result).session.sendBuffer.getUsedSize ∧
      forall buf, buf ∈ startedSends (s.send data result).calls ->
        buf.len ≤ (s.send data result).session.sendBuffer.getUsedSize := by
  rcases send_cases s data result with
    ⟨_, heq⟩ | ⟨hfits, _, heq⟩ | ⟨hfits, _, heq⟩
  · rw [heq]
    exact ⟨Nat.le_refl _, fun _ hmem => by cases hmem⟩
  · rw [heq]
    refine ⟨?_, fun _ hmem => by cases hmem⟩
    show _ ≤ ((s.sendBuffer.write data).1.moveTail data.length).getUsedSize
    rw [RingBuffer.getUsedSize_write_moveTail _ hfits]
    exact Nat.le_add_right _ _
  · rw [heq]
    refine ⟨?_, fun buf hmem => posted_postSend _ result hmem⟩
    rw [getUsedSize_postSend]
    show _ ≤ ((s.sendBuffer.write data).1.moveTail data.length).getUsedSize
    rw [RingBuffer.getUsedSize_write_moveTail _ hfits]
    exact Nat.le_add_right _ _

namespace Placed

variable {c base : Conn} {o : Outcome}

/-- After a call on the receiving side. -/
theorem recvCall (h : Placed c) {s : Session} (ho : RecvCall s o)
    (hring : s.sendBuffer = c.session.sendBuffer) (hrecvs : base.recvs = [])
    (hsends : base.sends = c.sends)
    (hposted : forall buf, buf ∈ startedRecvs o.calls ->
      buf = ⟨o.session.recvBuffer.getTail, o.session.recvBuffer.getLinearEmptySize⟩) :
    Placed (base.after o) where
  recv := fun buf hbuf => by
    replace hbuf : buf ∈ base.recvs ++ startedRecvs o.calls := hbuf
    rw [hrecvs, List.nil_append] at hbuf
    exact hposted buf hbuf
  send := fun buf hbuf => by
    replace hbuf : buf ∈ base.sends ++ startedSends o.calls := hbuf
    rw [ho.sends, List.append_nil, hsends] at hbuf
    show buf.len ≤ o.session.sendBuffer.getUsedSize
    rw [ho.sendBuffer, hring]
    exact h.send buf hbuf

/-- After a call on the sending side. -/
theorem sendCall (h : Placed c) (ho : SendCall c.session o) (hrecvs : base.recvs = c.recvs)
    (hsends : forall buf, buf ∈ base.sends ->
      buf.len ≤ o.session.sendBuffer.getUsedSize)
    (hposted : forall buf, buf ∈ startedSends o.calls ->
      buf.len ≤ o.session.sendBuffer.getUsedSize) : Placed (base.after o) where
  recv := fun buf hbuf => by
    replace hbuf : buf ∈ base.recvs ++ startedRecvs o.calls := hbuf
    rw [ho.recvs, List.append_nil, hrecvs] at hbuf
    show buf = ⟨o.session.recvBuffer.getTail, o.session.recvBuffer.getLinearEmptySize⟩
    rw [ho.recvBuffer]
    exact h.recv buf hbuf
  send := fun buf hbuf => by
    rcases List.mem_append.mp hbuf with hold | hnew
    · exact hsends buf hold
    · exact hposted buf hnew

end Placed

/-- The relation that no call breaks. -/
structure Related (c d : Conn) : Prop extends Twins c d where
  accounted : Accounted c
  placed : Placed c

namespace Related

variable {c d : Conn}

/-- Both connections take over the result of the same function. -/
theorem reveal {base base' : Conn} {e e' : Event} {o p : Outcome} (h : Related c d)
    (hc : c.step e = some (base.after o)) (hd : d.step e' = some (base'.after p))
    (ho : SameEffect o p) (hplaced : Placed (base.after o)) (hbase : base.calls = c.calls)
    (hbase' : base'.calls = d.calls) (hsame : base'.accepting = base.accepting ∧
      base'.recvs = base.recvs ∧ base'.sends = base.sends ∧
      base'.handlers = base.handlers) (answers : List Observation) :
    Machine.Indistinct Related (c.reveal e answers) (d.reveal e' answers) := by
  unfold Conn.reveal
  rw [hc, hd]
  refine .some ⟨⟨⟨ho.session, hsame.left, ?_, ?_, hsame.right.right.right⟩,
    accounted_step h.accounted hc, hplaced⟩, ?_⟩
  · exact congrArg₂ (· ++ ·) hsame.right.left ho.recvs
  · exact congrArg₂ (· ++ ·) hsame.right.right.left ho.sends
  · refine congrArg (· ++ answers) ?_
    rw [seen_after c base o hbase, seen_after d base' p hbase']
    exact ho.observed.symm

/-- An event that is not possible for one is not possible for the other. -/
theorem refused {e e' : Event} (hc : c.step e = none) (hd : d.step e' = none)
    (answers : List Observation) :
    Machine.Indistinct Related (c.reveal e answers) (d.reveal e' answers) := by
  unfold Conn.reveal
  rw [hc, hd]
  exact .none

theorem postRecv (h : Related c d) (result : PostResult) :
    Machine.Indistinct Related (c.reveal (.postRecv result) [])
      (d.reveal (.postRecv result) []) := by
  by_cases hacc : c.accepting = true
  · have hacc' : d.accepting = true := h.accepting.trans hacc
    have hc : c.step (.postRecv result) =
        some ({ c with accepting := false }.after (c.session.postRecv result)) := by
      simp [Conn.step, hacc]
    have hd : d.step (.postRecv result) =
        some ({ d with accepting := false }.after (d.session.postRecv result)) := by
      simp [Conn.step, hacc']
    refine h.reveal hc hd (h.session.postRecv result) ?_ rfl rfl
      ⟨rfl, h.recvs, h.sends, h.handlers⟩ []
    exact h.placed.recvCall (postRecv_recvCall c.session result) rfl
      (h.accounted.early hacc) rfl fun buf hbuf => posted_postRecv _ result hbuf
  · have hacc' : d.accepting ≠ true := by
      rw [h.accepting]
      exact hacc
    exact refused (by simp [Conn.step, hacc]) (by simp [Conn.step, hacc']) []

theorem recvDone (h : Related c d) (ok : Bool) (bytes : List UInt8)
    (junk junk' : Nat -> Packet) (result : PostResult) :
    Machine.Indistinct Related (c.reveal (.recvCompletion ok bytes junk result) [])
      (d.reveal (.recvCompletion ok bytes junk' result) []) := by
  cases hrecvs : c.recvs with
  | nil =>
      have hrecvs' : d.recvs = [] := h.recvs.trans hrecvs
      exact refused (by simp [Conn.step, hrecvs]) (by simp [Conn.step, hrecvs']) []
  | cons buf rest =>
      have hrecvs' : d.recvs = buf :: rest := h.recvs.trans hrecvs
      have hrest : rest = [] := by
        have hsingle := h.accounted.recvs
        rw [hrecvs] at hsingle
        exact List.eq_nil_of_length_eq_zero (Nat.le_zero.mp (Nat.le_of_succ_le_succ hsingle))
      by_cases hlen : bytes.length ≤ buf.len
      · have hbuf := h.placed.recv buf (by rw [hrecvs]; exact List.mem_cons_self)
        have hfits : bytes.length ≤ c.session.recvBuffer.getLinearEmptySize := by
          rw [hbuf] at hlen
          exact hlen
        have hplace : buf.buf = c.session.recvBuffer.getTail := by rw [hbuf]
        have hfilled : Alike (c.receive buf bytes) (d.receive buf bytes) := by
          unfold Conn.receive
          rw [hplace]
          exact ⟨congrArg (fun u : Session => { u with
            recvBuffer := d.session.recvBuffer.fill c.session.recvBuffer.getTail bytes })
            h.session.fields, h.session.recv.fill hfits, h.session.send⟩
        have hmoved : RingBuffer.Agrees
            ((c.receive buf bytes).recvBuffer.moveTail bytes.length)
            ((d.receive buf bytes).recvBuffer.moveTail bytes.length) := by
          unfold Conn.receive
          rw [hplace]
          exact h.session.recv.fill_moveTail hfits
        have hc : c.step (.recvCompletion ok bytes junk result) =
            some ({ c with recvs := rest, handlers := c.handlers + 1 }.after
              ((c.receive buf bytes).handleCompletion ok .recv bytes.length junk
                result)) := by
          simp [Conn.step, hrecvs, hlen]
        have hd : d.step (.recvCompletion ok bytes junk' result) =
            some ({ d with recvs := rest, handlers := d.handlers + 1 }.after
              ((d.receive buf bytes).handleCompletion ok .recv bytes.length junk'
                result)) := by
          simp [Conn.step, hrecvs', hlen]
        refine h.reveal hc hd (hfilled.handleRecv ok junk junk' hmoved result) ?_ rfl rfl
          ⟨h.accepting, rfl, h.sends, congrArg (· + 1) h.handlers⟩ []
        exact h.placed.recvCall (handleCompletion_recv_recvCall _ ok bytes.length junk result)
          rfl hrest rfl fun posted hposted => posted_handleRecv _ ok _ junk result hposted
      · exact refused (by simp [Conn.step, hrecvs, hlen])
          (by simp [Conn.step, hrecvs', hlen]) []

theorem sendDone (h : Related c d) (ok : Bool) (bytes : Nat) (result : PostResult) :
    Machine.Indistinct Related (c.reveal (.sendCompletion ok bytes result) [])
      (d.reveal (.sendCompletion ok bytes result) []) := by
  cases hsends : c.sends with
  | nil =>
      have hsends' : d.sends = [] := h.sends.trans hsends
      exact refused (by simp [Conn.step, hsends]) (by simp [Conn.step, hsends']) []
  | cons buf rest =>
      have hsends' : d.sends = buf :: rest := h.sends.trans hsends
      have hrest : rest = [] := by
        have hsingle := h.accounted.sends
        rw [hsends] at hsingle
        exact List.eq_nil_of_length_eq_zero (Nat.le_zero.mp (Nat.le_of_succ_le_succ hsingle))
      by_cases hlen : bytes ≤ buf.len
      · have hbuf := h.placed.send buf (by rw [hsends]; exact List.mem_cons_self)
        let acked (x : Conn) : List UInt8 :=
          if ok then x.acked ++ x.session.sendBuffer.buffer.window buf.buf bytes else x.acked
        let o (x : Conn) : Outcome := x.session.handleCompletion ok .send bytes
          (fun _ => makePacket 0 []) result
        have hc : c.step (.sendCompletion ok bytes result) =
            some ({ c with
              sends := rest, handlers := c.handlers + 1, acked := acked c }.after (o c)) := by
          simp [Conn.step, hsends, hlen, acked, o]
        have hd : d.step (.sendCompletion ok bytes result) =
            some ({ d with
              sends := rest, handlers := d.handlers + 1, acked := acked d }.after (o d)) := by
          simp [Conn.step, hsends', hlen, acked, o]
        refine h.reveal hc hd (h.session.handleSend ok _ _ (hlen.trans hbuf) result) ?_ rfl rfl
          ⟨h.accepting, h.recvs, rfl, congrArg (· + 1) h.handlers⟩ []
        refine h.placed.sendCall (handleCompletion_send_sendCall _ ok bytes _ result) rfl ?_
          fun posted hposted => posted_handleSend _ ok bytes _ result hposted
        intro posted hposted
        rw [hrest] at hposted
        cases hposted
      · exact refused (by simp [Conn.step, hsends, hlen])
          (by simp [Conn.step, hsends', hlen]) []

theorem send (h : Related c d) (data : List UInt8) (result : PostResult) :
    Machine.Indistinct Related (c.reveal (.send data result) [])
      (d.reveal (.send data result) []) := by
  rcases posted_send c.session data result with ⟨hgrows, hposted⟩
  let kept (x : Conn) : Conn := { x with
    accepted :=
      if x.session.sendBuffer.getEmptySize < data.length then x.accepted
      else x.accepted ++ [data] }
  have hstep : forall x : Conn, x.step (.send data result) =
      some ((kept x).after (x.session.send data result)) := fun x => rfl
  refine h.reveal (hstep c) (hstep d) (h.session.sendData data result) ?_ rfl rfl
    ⟨h.accepting, h.recvs, h.sends, h.handlers⟩ []
  exact h.placed.sendCall (send_sendCall c.session data result) rfl
    (fun buf hbuf => (h.placed.send buf hbuf).trans hgrows) hposted

theorem completeIo (h : Related c d) :
    Machine.Indistinct Related (c.reveal .completeIo [.answered c.session.completeIo.2])
      (d.reveal .completeIo [.answered d.session.completeIo.2]) := by
  have hanswer : d.session.completeIo.2 = c.session.completeIo.2 := by
    rw [h.session.fields]
    rfl
  by_cases hnone : c.handlers = 0
  · have hnone' : d.handlers = 0 := h.handlers.trans hnone
    rw [hanswer]
    exact refused (by simp [Conn.step, hnone]) (by simp [Conn.step, hnone']) _
  · have hnone' : d.handlers ≠ 0 := by
      rw [h.handlers]
      exact hnone
    let done (x : Conn) : Conn := { x with
      session := x.session.completeIo.1
      handlers := x.handlers - 1
      destroying := x.destroying + if x.session.completeIo.2 then 1 else 0 }
    have hc : c.step .completeIo = some (done c) := by simp [Conn.step, hnone, done]
    have hd : d.step .completeIo = some (done d) := by simp [Conn.step, hnone', done]
    unfold Conn.reveal
    rw [hc, hd]
    refine .some ⟨⟨⟨⟨?_, h.session.recv, h.session.send⟩, h.accepting, h.recvs, h.sends,
      congrArg (· - 1) h.handlers⟩, accounted_step h.accounted hc, ?_⟩, ?_⟩
    · show d.session.completeIo.1 = _
      rw [h.session.fields]
      rfl
    · exact ⟨h.placed.recv, h.placed.send⟩
    · show (c.calls.drop c.calls.length).map _ ++ _ = (d.calls.drop d.calls.length).map _ ++ _
      rw [List.drop_length, List.drop_length, hanswer]
      rfl

/-- A call that sets fields which the buffers and counters do not depend on. -/
theorem assign (h : Related c d) (f : Session -> Session)
    (hf : forall s : Session, exists name userId friends, f s = { s with
      name := name, userId := userId, friendIds := friends })
    (hsame : f d.session = { f c.session with
      recvBuffer := d.session.recvBuffer
      sendBuffer := d.session.sendBuffer
      recvWsaBuf := d.session.recvWsaBuf
      sendWsaBuf := d.session.sendWsaBuf }) :
    Machine.Indistinct Related (some ({ c with session := f c.session }, []))
      (some ({ d with session := f d.session }, ([] : List Observation))) := by
  rcases hf c.session with ⟨name, userId, friends, hc⟩
  rcases hf d.session with ⟨name', userId', friends', hd⟩
  refine .some ⟨⟨⟨⟨?_, ?_, ?_⟩, h.accepting, h.recvs, h.sends, h.handlers⟩, ?_, ?_⟩, rfl⟩
  · rw [hsame]
  · show RingBuffer.Agrees (f c.session).recvBuffer (f d.session).recvBuffer
    rw [hc, hd]
    exact h.session.recv
  · show RingBuffer.Agrees (f c.session).sendBuffer (f d.session).sendBuffer
    rw [hc, hd]
    exact h.session.send
  · rw [hc]
    exact ⟨h.accounted.pendingIo, h.accounted.recvs, h.accounted.sends, h.accounted.early,
      h.accounted.sending, h.accounted.destroying, h.accounted.last⟩
  · rw [hc]
    exact ⟨h.placed.recv, h.placed.send⟩

/-- A question that is answered from the fields. -/
theorem ask (h : Related c d) {answer answer' : Observation} (hsame : answer' = answer) :
    Machine.Indistinct Related (some (c, [answer])) (some (d, [answer'])) := by
  rw [hsame]
  exact .some ⟨h, rfl⟩

end Related

/-- No call tells related connections apart, whatever the locals held. -/
theorem use_unwinds : Conn.use.Unwinds Related (fun a b => a.1 = b.1) := by
  intro c d a b h hcall
  rcases a with ⟨call, junk⟩
  rcases b with ⟨call', junk'⟩
  cases hcall
  have hfields := h.session.fields
  cases call with
  | postRecv result => exact h.postRecv result
  | recvDone ok bytes result => exact h.recvDone ok bytes junk junk' result
  | sendDone ok bytes result => exact h.sendDone ok bytes result
  | send data result => exact h.send data result
  | completeIo => exact h.completeIo
  | setName name =>
      refine h.assign (·.setName name) (fun s => ⟨_, _, _, rfl⟩) ?_
      exact congrArg (·.setName name) hfields
  | setUserId userId =>
      refine h.assign (·.setUserId userId) (fun s => ⟨_, _, _, rfl⟩) ?_
      exact congrArg (·.setUserId userId) hfields
  | addFriend friendId =>
      refine h.assign (·.addFriend friendId) (fun s => ⟨_, _, _, rfl⟩) ?_
      exact congrArg (·.addFriend friendId) hfields
  | removeFriend friendId =>
      refine h.assign (·.removeFriend friendId) (fun s => ⟨_, _, _, rfl⟩) ?_
      exact congrArg (·.removeFriend friendId) hfields
  | isNamed => exact h.ask (by rw [hfields]; rfl)
  | getName => exact h.ask (by rw [hfields])
  | getUserId => exact h.ask (by rw [hfields])
  | hasFriend friendId => exact h.ask (by rw [hfields]; rfl)

theorem related_fresh (s t : Session) (socket : Nat) (index : Slot) (id handler : Nat) :
    Related (Conn.fresh s socket index id handler)
      (Conn.fresh t socket index id handler) where
  session := Alike.init s t socket index id handler
  accepting := rfl
  recvs := rfl
  sends := rfl
  handlers := rfl
  accounted := accounted_fresh s socket index id handler
  placed := ⟨fun _ hmem => (by cases hmem), fun _ hmem => (by cases hmem)⟩

end Conn

/-- Whatever two earlier sessions left in a slot, and whatever lay in the locals of
`OnRecv`, the same calls after `Init` show the same. -/
theorem reuse_leaks_nothing (s t : Session) (socket : Nat) (index : Slot)
    (id handler : Nat) (calls : List Call) (junk junk' : Nat -> Nat -> Packet) :
    (Conn.use.trace (Conn.fresh s socket index id handler)
      (calls.mapIdx fun i call => (call, junk i))).map Prod.snd =
    (Conn.use.trace (Conn.fresh t socket index id handler)
      (calls.mapIdx fun i call => (call, junk' i))).map Prod.snd := by
  refine Machine.Indistinct.outputs (Conn.use_unwinds.trace ?_
    (Conn.related_fresh s t socket index id handler))
  rw [List.forall₂_iff_get]
  refine ⟨by simp, fun i hi hi' => by simp⟩

end Sessions
end ContentServer
