import ContentServer.Sessions.Session
import ContentServer.Protocol.PacketStream

/-!
# What the session functions do

One specification per member function.  The outside calls of a function are
read through four projections; a function is then described by how it changes
the counter and the flags together with the calls it makes.
-/

namespace ContentServer
namespace Sessions

open Buffers Protocol

/-!
# Projections of the outside calls
-/

/-- Messages pushed to the shard queue. -/
def pushes : List IoCall -> List ShardMsg
  | [] => []
  | .push _ msg :: rest => msg :: pushes rest
  | _ :: rest => pushes rest

/-- Number of `closesocket` calls. -/
def closeCount : List IoCall -> Nat
  | [] => 0
  | .closesocket _ :: rest => closeCount rest + 1
  | _ :: rest => closeCount rest

/-- Buffers of the receives that were started. -/
def startedRecvs : List IoCall -> List WsaBuf
  | [] => []
  | .wsaRecv buf .started :: rest => buf :: startedRecvs rest
  | _ :: rest => startedRecvs rest

/-- Buffers of the sends that were started. -/
def startedSends : List IoCall -> List WsaBuf
  | [] => []
  | .wsaSend buf .started :: rest => buf :: startedSends rest
  | _ :: rest => startedSends rest

theorem pushes_append (a b : List IoCall) :
    pushes (a ++ b) = pushes a ++ pushes b := by
  induction a with
  | nil => rfl
  | cons call rest ih => cases call <;> simp [pushes, ih]

theorem closeCount_append (a b : List IoCall) :
    closeCount (a ++ b) = closeCount a + closeCount b := by
  induction a with
  | nil => simp [closeCount]
  | cons call rest ih => cases call <;> simp [closeCount, ih]; omega

theorem startedRecvs_append (a b : List IoCall) :
    startedRecvs (a ++ b) = startedRecvs a ++ startedRecvs b := by
  induction a with
  | nil => rfl
  | cons call rest ih =>
      cases call with
      | wsaRecv buf result => cases result <;> simp [startedRecvs, ih]
      | wsaSend buf result => simp [startedRecvs, ih]
      | closesocket socket => simp [startedRecvs, ih]
      | push queue msg => simp [startedRecvs, ih]

theorem startedSends_append (a b : List IoCall) :
    startedSends (a ++ b) = startedSends a ++ startedSends b := by
  induction a with
  | nil => rfl
  | cons call rest ih =>
      cases call with
      | wsaRecv buf result => simp [startedSends, ih]
      | wsaSend buf result => cases result <;> simp [startedSends, ih]
      | closesocket socket => simp [startedSends, ih]
      | push queue msg => simp [startedSends, ih]

/-!
# Posting a receive or a send
-/

/-- The three ways through `postRecv`. -/
theorem postRecv_cases (s : Session) (result : PostResult) :
    (s.postRecv result = ⟨s, []⟩ ∧
      (s.closing = true ∨ s.recvBuffer.getLinearEmptySize = 0)) ∨
    (exists buf, s.closing = false ∧ result = .started ∧
      buf = ⟨s.recvBuffer.getTail, s.recvBuffer.getLinearEmptySize⟩ ∧
      0 < buf.len ∧
      s.postRecv result =
        ⟨{ s with recvWsaBuf := buf, pendingIo := s.pendingIo + 1 },
          [.wsaRecv buf .started]⟩) ∨
    (exists buf, s.closing = false ∧ result = .failed ∧
      s.postRecv result =
        ⟨{ s with recvWsaBuf := buf, closing := true },
          [.wsaRecv buf .failed, .closesocket s.socket]⟩) := by
  by_cases hclosing : s.closing = true
  · exact Or.inl ⟨by simp [Session.postRecv, hclosing], Or.inl hclosing⟩
  · have hopen : s.closing = false := by simpa using hclosing
    by_cases hfull : s.recvBuffer.getLinearEmptySize = 0
    · exact Or.inl ⟨by simp [Session.postRecv, hfull], Or.inr hfull⟩
    · right
      cases result with
      | started =>
          left
          refine ⟨_, hopen, rfl, rfl, Nat.pos_of_ne_zero hfull, ?_⟩
          simp [Session.postRecv, hopen, hfull]
      | failed =>
          right
          refine ⟨⟨s.recvBuffer.getTail, s.recvBuffer.getLinearEmptySize⟩,
            hopen, rfl, ?_⟩
          simp [Session.postRecv, Session.close, hopen, hfull]

/-- The four ways through `postSend`. -/
theorem postSend_cases (s : Session) (result : PostResult) :
    (s.postSend result = ⟨s, []⟩ ∧ s.closing = true) ∨
    (s.postSend result = ⟨{ s with sending := false }, []⟩ ∧
      s.closing = false ∧ s.sendBuffer.getUsedSize = 0) ∨
    (exists buf, s.closing = false ∧ result = .started ∧
      buf = ⟨s.sendBuffer.getHead, s.sendBuffer.getLinearUsedSize⟩ ∧
      0 < s.sendBuffer.getUsedSize ∧
      s.postSend result =
        ⟨{ s with sendWsaBuf := buf, pendingIo := s.pendingIo + 1 },
          [.wsaSend buf .started]⟩) ∨
    (exists buf, s.closing = false ∧ result = .failed ∧
      0 < s.sendBuffer.getUsedSize ∧
      s.postSend result =
        ⟨{ s with sendWsaBuf := buf, closing := true },
          [.wsaSend buf .failed, .closesocket s.socket]⟩) := by
  by_cases hclosing : s.closing = true
  · exact Or.inl ⟨by simp [Session.postSend, hclosing], hclosing⟩
  · have hopen : s.closing = false := by simpa using hclosing
    right
    by_cases hempty : s.sendBuffer.getUsedSize = 0
    · exact Or.inl ⟨by simp [Session.postSend, hopen, hempty], hopen, hempty⟩
    · right
      cases result with
      | started =>
          left
          refine ⟨_, hopen, rfl, rfl, Nat.pos_of_ne_zero hempty, ?_⟩
          simp [Session.postSend, hopen, hempty]
      | failed =>
          right
          refine ⟨⟨s.sendBuffer.getHead, s.sendBuffer.getLinearUsedSize⟩,
            hopen, rfl, Nat.pos_of_ne_zero hempty, ?_⟩
          simp [Session.postSend, Session.close, hopen, hempty]

/-- The three ways through `send`. -/
theorem send_cases (s : Session) (data : List UInt8) (result : PostResult) :
    (s.sendBuffer.getEmptySize < data.length ∧ s.send data result = ⟨s, []⟩) ∨
    (data.length ≤ s.sendBuffer.getEmptySize ∧ s.sending = true ∧
      s.send data result =
        ⟨{ s with sendBuffer := (s.sendBuffer.write data).1.moveTail data.length },
          []⟩) ∨
    (data.length ≤ s.sendBuffer.getEmptySize ∧ s.sending = false ∧
      s.send data result =
        { s with
          sendBuffer := (s.sendBuffer.write data).1.moveTail data.length
          sending := true }.postSend result) := by
  by_cases hfits : data.length ≤ s.sendBuffer.getEmptySize
  · right
    have hwrite : s.sendBuffer.write data = ((s.sendBuffer.write data).1, true) :=
      Prod.ext rfl (s.sendBuffer.write_snd_of_fits hfits)
    have hnot : ¬ s.sendBuffer.getEmptySize < data.length := by omega
    by_cases hsending : s.sending = true
    · left
      refine ⟨hfits, hsending, ?_⟩
      unfold Session.send
      rw [if_neg hnot, hwrite]
      simp [hsending]
    · right
      have hidle : s.sending = false := by simpa using hsending
      refine ⟨hfits, hidle, ?_⟩
      unfold Session.send
      rw [if_neg hnot, hwrite]
      simp [hidle]
  · left
    have hover : s.sendBuffer.getEmptySize < data.length := by omega
    exact ⟨hover, by simp [Session.send, hover]⟩

/-- The two ways through `onSend`. -/
theorem onSend_cases (s : Session) (bytes : Nat) (result : PostResult) :
    ((s.sendBuffer.moveHead bytes).getUsedSize ≠ 0 ∧
      s.onSend bytes result =
        { s with sendBuffer := s.sendBuffer.moveHead bytes }.postSend result) ∨
    ((s.sendBuffer.moveHead bytes).getUsedSize = 0 ∧
      s.onSend bytes result =
        ⟨{ s with
            sendBuffer := s.sendBuffer.moveHead bytes
            sending := false }, []⟩) := by
  by_cases hused : (s.sendBuffer.moveHead bytes).getUsedSize = 0
  · exact Or.inr ⟨hused, by simp [Session.onSend, hused]⟩
  · exact Or.inl ⟨hused, by simp [Session.onSend, hused]⟩

/-!
# The receive loop

The loop cuts packets off the ring buffer exactly as the reference framing cuts
frames off the buffered bytes.
-/

/-- What a pushed message tells the consumer. -/
structure Delivery where
  sessionId : Nat
  size : Nat
  id : Nat
  body : List UInt8
deriving DecidableEq

/-- The sent part of a pushed message. -/
def delivery (msg : ShardMsg) : Delivery where
  sessionId := msg.sessionId
  size := msg.pkt.header.size.toNat
  id := msg.pkt.header.id.toNat
  body := msg.pkt.body

/-- A client's packet as the session with the given id delivers it. -/
def deliveryOf (id : Nat) (f : Frame) : Delivery where
  sessionId := id
  size := f.size
  id := id % 65536
  body := f.body

theorem peek_header (r : RingBuffer) (dest : List UInt8)
    (h : HEADER_SIZE ≤ r.getUsedSize) :
    PacketHeader.ofBytes (r.peek dest HEADER_SIZE) =
      PacketHeader.ofBytes r.contents := by
  have hlen : HEADER_SIZE ≤ r.contents.length := by
    rw [RingBuffer.length_contents]
    exact h
  rw [RingBuffer.peek_eq r dest h, ofBytes_header_append]
  · exact ofBytes_header_take _ (Nat.le_refl _) hlen
  · rw [List.length_take]
    omega

/-- Reading a whole packet over a `Packet` in memory. -/
theorem peek_packet (r : RingBuffer) (junk : Packet) (size : Nat)
    (hlow : HEADER_SIZE ≤ size) (hhigh : size ≤ PACKET_SIZE)
    (hused : size ≤ r.getUsedSize) :
    (Packet.ofBytes (r.peek junk.toBytes size)).header =
        PacketHeader.ofBytes r.contents ∧
      (Packet.ofBytes (r.peek junk.toBytes size)).message.take
          (size - HEADER_SIZE) =
        (r.contents.drop HEADER_SIZE).take (size - HEADER_SIZE) := by
  have hsizes := sizes_eq
  have hlen := r.length_contents
  have htake : (r.contents.take size).length = size := by
    rw [List.length_take]
    omega
  have hread := r.peek_eq junk.toBytes hused
  constructor
  · show PacketHeader.ofBytes (r.peek junk.toBytes size) = _
    rw [hread, ofBytes_header_append _ (by omega),
      ofBytes_header_take _ hlow (by omega)]
  · rw [take_message_ofBytes (by omega), hread,
      List.drop_append_of_le_length (by omega),
      List.take_append_of_le_length (by rw [List.length_drop]; omega),
      List.drop_take, List.take_take, Nat.min_self]
    rw [hread, List.length_append, List.length_drop, length_toBytes]
    omega

/-- One pass of the loop follows the verdict on the buffered bytes. -/
theorem onRecvBody_eq (s : Session) (junk : Packet) :
    match nextFrame s.recvBuffer.contents with
    | .more => s.onRecvBody junk = .stop
    | .bad => s.onRecvBody junk = .close
    | .frame size f =>
        exists msg, delivery msg = deliveryOf s.id f ∧
          s.onRecvBody junk =
            .next { s with recvBuffer := s.recvBuffer.moveHead size } msg := by
  have hsizes := sizes_eq
  have hlen := s.recvBuffer.length_contents
  unfold Session.onRecvBody
  by_cases hshort : s.recvBuffer.getUsedSize < HEADER_SIZE
  · rw [nextFrame_of_short (by omega), if_pos hshort]
  · have hfour : HEADER_SIZE ≤ s.recvBuffer.contents.length := by omega
    have hsize : (PacketHeader.ofBytes s.recvBuffer.contents).size.toNat < 65536 :=
      UInt16.toNat_lt _
    rw [nextFrame_eq_header hfour, if_neg hshort]
    simp only [peek_header s.recvBuffer junk.header.toBytes (by omega), hlen]
    by_cases hbad : (PacketHeader.ofBytes s.recvBuffer.contents).size.toNat < HEADER_SIZE ∨
        (PacketHeader.ofBytes s.recvBuffer.contents).size.toNat > PACKET_SIZE
    · rw [if_pos hbad, if_pos hbad]
    · rw [if_neg hbad, if_neg hbad]
      by_cases hmore : s.recvBuffer.getUsedSize <
          (PacketHeader.ofBytes s.recvBuffer.contents).size.toNat
      · rw [if_pos hmore, if_pos hmore]
      · rw [if_neg hmore, if_neg hmore]
        have hpacket := peek_packet s.recvBuffer junk
          (PacketHeader.ofBytes s.recvBuffer.contents).size.toNat
          (by omega) (by omega) (by omega)
        refine ⟨_, ?_, rfl⟩
        simp only [delivery, deliveryOf, Packet.body, hpacket.left,
          hpacket.right, Frame.size, Delivery.mk.injEq, true_and, and_true]
        rw [List.length_take, List.length_drop, hlen, Nat.min_eq_left (by omega),
          Nat.add_sub_of_le (by omega)]
        exact ⟨rfl, UInt16.toNat_ofNat'⟩

/-- The whole loop parses the buffered bytes. -/
theorem onRecvLoop_eq (s : Session) (junk : Nat -> Packet) :
    exists (msgs : List ShardMsg) (ring : RingBuffer),
      s.onRecvLoop junk =
        ⟨{ s with
            recvBuffer := ring
            closing := s.closing || (parseStream s.recvBuffer.contents).bad },
          msgs.map (IoCall.push s.handler) ++
            if (parseStream s.recvBuffer.contents).bad
            then [.closesocket s.socket] else []⟩ ∧
      msgs.map delivery =
        (parseStream s.recvBuffer.contents).frames.map (deliveryOf s.id) ∧
      ring.contents = (parseStream s.recvBuffer.contents).rest ∧
      ring.tail = s.recvBuffer.tail := by
  induction s, junk using Session.onRecvLoop.induct with
  | case1 s junk hbody =>
      have hpass := onRecvBody_eq s (junk 0)
      rw [hbody] at hpass
      cases hnext : nextFrame s.recvBuffer.contents with
      | more =>
          have hparse : parseStream s.recvBuffer.contents = _ :=
            Foundation.Framing.parse_of_more (F := packetFraming) hnext
          refine ⟨[], s.recvBuffer, ?_⟩
          rw [Session.onRecvLoop, hparse]
          split <;> rename_i hsame <;> rw [hbody] at hsame <;> cases hsame
          simp
      | bad => simp [hnext] at hpass
      | frame size f => simp [hnext] at hpass
  | case2 s junk hbody =>
      have hpass := onRecvBody_eq s (junk 0)
      rw [hbody] at hpass
      cases hnext : nextFrame s.recvBuffer.contents with
      | more => simp [hnext] at hpass
      | bad =>
          have hparse : parseStream s.recvBuffer.contents = _ :=
            Foundation.Framing.parse_of_bad (F := packetFraming) hnext
          refine ⟨[], s.recvBuffer, ?_⟩
          rw [Session.onRecvLoop, hparse]
          split <;> rename_i hsame <;> rw [hbody] at hsame <;> cases hsame
          simp [Session.close]
      | frame size f => simp [hnext] at hpass
  | case3 s junk t msg hbody ih =>
      have hpass := onRecvBody_eq s (junk 0)
      rw [hbody] at hpass
      cases hnext : nextFrame s.recvBuffer.contents with
      | more => simp [hnext] at hpass
      | bad => simp [hnext] at hpass
      | frame size f =>
          rw [hnext] at hpass
          rcases hpass with ⟨msg', hdelivery, hsame⟩
          injection hsame with ht hmsg
          subst hmsg
          have hused := (nextFrame_eq_frame hnext).right.right.left
          rw [RingBuffer.length_contents] at hused
          have hparse : parseStream s.recvBuffer.contents = _ :=
            Foundation.Framing.parse_of_frame (F := packetFraming) hnext
          have hcontents : t.recvBuffer.contents =
              s.recvBuffer.contents.drop size := by
            rw [ht]
            exact s.recvBuffer.contents_moveHead hused
          have hrest : parseStream t.recvBuffer.contents =
              packetFraming.parse (s.recvBuffer.contents.drop size) := by
            rw [hcontents]
            rfl
          rcases ih with ⟨msgs, ring, hloop, hmsgs, hring, htail⟩
          refine ⟨msg :: msgs, ring, ?_, ?_, ?_, ?_⟩
          · rw [Session.onRecvLoop]
            split <;> rename_i hcase <;> rw [hbody] at hcase <;> cases hcase
            rw [hloop, hparse, hrest, ht]
            rfl
          · rw [List.map_cons, hmsgs, hdelivery, hparse, hrest, ht]
            rfl
          · rw [hring, hparse, hrest]
          · rw [htail, ht]
            rfl

/-- `onRecv` publishes the new bytes, parses, and posts the next receive. -/
theorem onRecv_eq (s : Session) (bytes : Nat) (junk : Nat -> Packet)
    (result : PostResult) :
    exists (msgs : List ShardMsg) (ring : RingBuffer) (looped : Session),
      looped =
        { s with
          recvBuffer := ring
          closing := s.closing ||
            (parseStream (s.recvBuffer.moveTail bytes).contents).bad } ∧
      s.onRecv bytes junk result =
        ⟨(looped.postRecv result).session,
          (msgs.map (IoCall.push s.handler) ++
            if (parseStream (s.recvBuffer.moveTail bytes).contents).bad
            then [.closesocket s.socket] else []) ++
          (looped.postRecv result).calls⟩ ∧
      msgs.map delivery =
        (parseStream (s.recvBuffer.moveTail bytes).contents).frames.map
          (deliveryOf s.id) ∧
      ring.contents =
        (parseStream (s.recvBuffer.moveTail bytes).contents).rest ∧
      ring.tail = (s.recvBuffer.moveTail bytes).tail := by
  rcases onRecvLoop_eq { s with recvBuffer := s.recvBuffer.moveTail bytes } junk with
    ⟨msgs, ring, hloop, hmsgs, hring, htail⟩
  refine ⟨msgs, ring, _, rfl, ?_, hmsgs, hring, htail⟩
  simp only [Session.onRecv, hloop]

/-!
# Counter and flags

Every function counts what it posts, raises the closing flag exactly when it
closes the socket, and posts nothing once the flag is up.  The receive
functions leave the sending side alone, and conversely.
-/

/-- Neither the connection nor the user behind the session changes. -/
structure SameOwner (s t : Session) : Prop where
  socket : t.socket = s.socket
  index : t.index = s.index
  id : t.id = s.id
  handler : t.handler = s.handler
  userId : t.userId = s.userId
  name : t.name = s.name
  friendIds : t.friendIds = s.friendIds

/-- The calls of a function agree with its changes to counter and flags. -/
structure Tallies (s : Session) (o : Outcome) : Prop where
  owner : SameOwner s o.session
  pendingIo : o.session.pendingIo =
    s.pendingIo + (startedRecvs o.calls).length + (startedSends o.calls).length
  closing : o.session.closing = (s.closing || decide (0 < closeCount o.calls))
  noPost : s.closing = true ->
    startedRecvs o.calls = [] ∧ startedSends o.calls = []
  sockets : forall socket, .closesocket socket ∈ o.calls -> socket = s.socket

/-- A call on the receiving side. -/
structure RecvCall (s : Session) (o : Outcome) : Prop extends Tallies s o where
  sendBuffer : o.session.sendBuffer = s.sendBuffer
  sending : o.session.sending = s.sending
  sends : startedSends o.calls = []
  recvs : (startedRecvs o.calls).length ≤ 1

/-- A call on the sending side. -/
structure SendCall (s : Session) (o : Outcome) : Prop extends Tallies s o where
  recvBuffer : o.session.recvBuffer = s.recvBuffer
  recvs : startedRecvs o.calls = []
  messages : pushes o.calls = []
  sends : (startedSends o.calls).length ≤ 1

theorem SameOwner.refl (s : Session) : SameOwner s s :=
  ⟨rfl, rfl, rfl, rfl, rfl, rfl, rfl⟩

theorem SameOwner.trans {s t u : Session} (hst : SameOwner s t)
    (htu : SameOwner t u) : SameOwner s u where
  socket := htu.socket.trans hst.socket
  index := htu.index.trans hst.index
  id := htu.id.trans hst.id
  handler := htu.handler.trans hst.handler
  userId := htu.userId.trans hst.userId
  name := htu.name.trans hst.name
  friendIds := htu.friendIds.trans hst.friendIds

theorem Tallies.silent (s : Session) : Tallies s ⟨s, []⟩ where
  owner := SameOwner.refl s
  pendingIo := by simp [startedRecvs, startedSends]
  closing := by simp [closeCount]
  sockets := fun _ hmem => by simp at hmem
  noPost := fun _ => ⟨rfl, rfl⟩

theorem Tallies.closing_mono {s : Session} {o : Outcome} (h : Tallies s o)
    (hs : s.closing = true) : o.session.closing = true := by
  rw [h.closing, hs]
  rfl

/-- A call after another one. -/
theorem Tallies.andThen {s : Session} {o p : Outcome}
    (ho : Tallies s o) (hp : Tallies o.session p) :
    Tallies s ⟨p.session, o.calls ++ p.calls⟩ where
  owner := ho.owner.trans hp.owner
  pendingIo := by
    simp only [startedRecvs_append, startedSends_append, List.length_append,
      hp.pendingIo, ho.pendingIo]
    push_cast
    ring
  closing := by
    simp only [closeCount_append, hp.closing, ho.closing]
    by_cases h : s.closing = true <;>
      by_cases h1 : 0 < closeCount o.calls <;>
      by_cases h2 : 0 < closeCount p.calls <;> simp [h, h1, h2]
  sockets := fun socket hmem => by
    rcases List.mem_append.mp hmem with hmem | hmem
    · exact ho.sockets socket hmem
    · rw [hp.sockets socket hmem, ho.owner.socket]
  noPost := fun hclosing => by
    have hstill : o.session.closing = true := by
      rw [ho.closing, hclosing]
      rfl
    have hfirst := ho.noPost hclosing
    have hsecond := hp.noPost hstill
    simp [startedRecvs_append, startedSends_append, hfirst, hsecond]

theorem close_tallies (s : Session) : Tallies s s.close where
  owner := ⟨rfl, rfl, rfl, rfl, rfl, rfl, rfl⟩
  pendingIo := by simp [Session.close, startedRecvs, startedSends]
  closing := by simp [Session.close, closeCount]
  sockets := fun _ hmem => by simpa [Session.close] using hmem
  noPost := fun _ => ⟨rfl, rfl⟩

theorem close_recvCall (s : Session) : RecvCall s s.close where
  toTallies := close_tallies s
  sendBuffer := rfl
  sending := rfl
  sends := rfl
  recvs := by simp [Session.close, startedRecvs]

theorem close_sendCall (s : Session) : SendCall s s.close where
  toTallies := close_tallies s
  recvBuffer := rfl
  recvs := rfl
  messages := rfl
  sends := by simp [Session.close, startedSends]

theorem postRecv_recvCall (s : Session) (result : PostResult) :
    RecvCall s (s.postRecv result) := by
  rcases postRecv_cases s result with
    ⟨heq, _⟩ | ⟨buf, hopen, _, _, _, heq⟩ | ⟨buf, hopen, _, heq⟩
  · rw [heq]
    exact { toTallies := Tallies.silent s, sendBuffer := rfl, sending := rfl,
            sends := rfl, recvs := Nat.zero_le 1 }
  · rw [heq]
    exact {
      owner := ⟨rfl, rfl, rfl, rfl, rfl, rfl, rfl⟩
      pendingIo := by simp [startedRecvs, startedSends]
      closing := by simp [closeCount]
      sockets := fun _ hmem => by simp at hmem
      noPost := fun hclosing => by rw [hopen] at hclosing; cases hclosing
      sendBuffer := rfl
      sending := rfl
      sends := rfl
      recvs := by simp [startedRecvs] }
  · rw [heq]
    exact {
      owner := ⟨rfl, rfl, rfl, rfl, rfl, rfl, rfl⟩
      pendingIo := by simp [startedRecvs, startedSends]
      closing := by simp [closeCount]
      sockets := fun _ hmem => by simpa using hmem
      noPost := fun _ => ⟨rfl, rfl⟩
      sendBuffer := rfl
      sending := rfl
      sends := rfl
      recvs := by simp [startedRecvs] }

@[simp] theorem startedRecvs_map_push (queue : Nat) (msgs : List ShardMsg) :
    startedRecvs (msgs.map (IoCall.push queue)) = [] := by
  induction msgs with
  | nil => rfl
  | cons msg rest ih => exact ih

@[simp] theorem startedSends_map_push (queue : Nat) (msgs : List ShardMsg) :
    startedSends (msgs.map (IoCall.push queue)) = [] := by
  induction msgs with
  | nil => rfl
  | cons msg rest ih => exact ih

@[simp] theorem closeCount_map_push (queue : Nat) (msgs : List ShardMsg) :
    closeCount (msgs.map (IoCall.push queue)) = 0 := by
  induction msgs with
  | nil => rfl
  | cons msg rest ih => exact ih

@[simp] theorem pushes_map_push (queue : Nat) (msgs : List ShardMsg) :
    pushes (msgs.map (IoCall.push queue)) = msgs := by
  induction msgs with
  | nil => rfl
  | cons msg rest ih => exact congrArg (List.cons msg) ih

theorem onRecvLoop_recvCall (s : Session) (junk : Nat -> Packet) :
    RecvCall s (s.onRecvLoop junk) := by
  rcases onRecvLoop_eq s junk with ⟨msgs, ring, heq, _, _, _⟩
  rw [heq]
  cases (parseStream s.recvBuffer.contents).bad with
  | false =>
      exact {
        owner := ⟨rfl, rfl, rfl, rfl, rfl, rfl, rfl⟩
        pendingIo := by simp
        closing := by simp
        sockets := fun _ hmem => by simp at hmem
        noPost := fun _ => by simp
        sendBuffer := rfl
        sending := rfl
        sends := by simp
        recvs := by simp }
  | true =>
      exact {
        owner := ⟨rfl, rfl, rfl, rfl, rfl, rfl, rfl⟩
        pendingIo := by
          simp [startedRecvs_append, startedSends_append, startedRecvs,
            startedSends]
        closing := by simp [closeCount_append, closeCount]
        sockets := fun _ hmem => by simpa using hmem
        noPost := fun _ => by
          simp [startedRecvs_append, startedSends_append, startedRecvs,
            startedSends]
        sendBuffer := rfl
        sending := rfl
        sends := by simp [startedSends_append, startedSends]
        recvs := by simp [startedRecvs_append, startedRecvs] }

theorem startedRecvs_onRecvLoop (s : Session) (junk : Nat -> Packet) :
    startedRecvs (s.onRecvLoop junk).calls = [] := by
  rcases onRecvLoop_eq s junk with ⟨msgs, ring, heq, _, _, _⟩
  rw [heq]
  cases (parseStream s.recvBuffer.contents).bad <;>
    simp [startedRecvs_append, startedRecvs]

/-- A receive call may start from another buffered content. -/
theorem RecvCall.of_ring {s : Session} {ring : RingBuffer} {o : Outcome}
    (h : RecvCall { s with recvBuffer := ring } o) : RecvCall s o where
  owner := ⟨h.owner.socket, h.owner.index, h.owner.id, h.owner.handler,
    h.owner.userId, h.owner.name, h.owner.friendIds⟩
  pendingIo := h.pendingIo
  closing := h.closing
  sockets := h.sockets
  noPost := h.noPost
  sendBuffer := h.sendBuffer
  sending := h.sending
  sends := h.sends
  recvs := h.recvs

/-- The loop posts nothing, so `onRecv` posts what `postRecv` posts. -/
theorem onRecv_recvCall (s : Session) (bytes : Nat) (junk : Nat -> Packet)
    (result : PostResult) : RecvCall s (s.onRecv bytes junk result) := by
  let moved : Session := { s with recvBuffer := s.recvBuffer.moveTail bytes }
  have hloop : RecvCall moved (moved.onRecvLoop junk) :=
    onRecvLoop_recvCall moved junk
  have hpost := postRecv_recvCall (moved.onRecvLoop junk).session result
  have hmoved : RecvCall moved (s.onRecv bytes junk result) := {
    toTallies := hloop.toTallies.andThen hpost.toTallies
    sendBuffer := hpost.sendBuffer.trans hloop.sendBuffer
    sending := hpost.sending.trans hloop.sending
    sends := by
      show startedSends (_ ++ _) = []
      rw [startedSends_append, hloop.sends, hpost.sends]
      rfl
    recvs := by
      show (startedRecvs (_ ++ _)).length ≤ 1
      rw [startedRecvs_append, startedRecvs_onRecvLoop]
      exact hpost.recvs }
  exact RecvCall.of_ring hmoved

theorem postSend_sendCall (s : Session) (result : PostResult) :
    SendCall s (s.postSend result) := by
  rcases postSend_cases s result with
    ⟨heq, _⟩ | ⟨heq, _, _⟩ | ⟨buf, hopen, _, _, _, heq⟩ | ⟨buf, hopen, _, _, heq⟩
  · rw [heq]
    exact { toTallies := Tallies.silent s, recvBuffer := rfl, recvs := rfl,
            messages := rfl, sends := Nat.zero_le 1 }
  · rw [heq]
    exact {
      owner := ⟨rfl, rfl, rfl, rfl, rfl, rfl, rfl⟩
      pendingIo := by simp [startedRecvs, startedSends]
      closing := by simp [closeCount]
      sockets := fun _ hmem => by simp at hmem
      noPost := fun _ => ⟨rfl, rfl⟩
      recvBuffer := rfl
      recvs := rfl
      messages := rfl
      sends := Nat.zero_le 1 }
  · rw [heq]
    exact {
      owner := ⟨rfl, rfl, rfl, rfl, rfl, rfl, rfl⟩
      pendingIo := by simp [startedRecvs, startedSends]
      closing := by simp [closeCount]
      sockets := fun _ hmem => by simp at hmem
      noPost := fun hclosing => by rw [hopen] at hclosing; cases hclosing
      recvBuffer := rfl
      recvs := rfl
      messages := rfl
      sends := by simp [startedSends] }
  · rw [heq]
    exact {
      owner := ⟨rfl, rfl, rfl, rfl, rfl, rfl, rfl⟩
      pendingIo := by simp [startedRecvs, startedSends]
      closing := by simp [closeCount]
      sockets := fun _ hmem => by simpa using hmem
      noPost := fun _ => ⟨rfl, rfl⟩
      recvBuffer := rfl
      recvs := rfl
      messages := rfl
      sends := by simp [startedSends] }

/-- A send call may start from another buffer and another flag. -/
theorem SendCall.of_ring {s : Session} {ring : RingBuffer} {sending : Bool}
    {o : Outcome}
    (h : SendCall { s with sendBuffer := ring, sending := sending } o) :
    SendCall s o where
  owner := ⟨h.owner.socket, h.owner.index, h.owner.id, h.owner.handler,
    h.owner.userId, h.owner.name, h.owner.friendIds⟩
  pendingIo := h.pendingIo
  closing := h.closing
  sockets := h.sockets
  noPost := h.noPost
  recvBuffer := h.recvBuffer
  recvs := h.recvs
  messages := h.messages
  sends := h.sends

theorem silent_sendCall (s : Session) (ring : RingBuffer) (sending : Bool) :
    SendCall s ⟨{ s with sendBuffer := ring, sending := sending }, []⟩ where
  owner := ⟨rfl, rfl, rfl, rfl, rfl, rfl, rfl⟩
  pendingIo := by simp [startedRecvs, startedSends]
  closing := by simp [closeCount]
  sockets := fun _ hmem => by simp at hmem
  noPost := fun _ => ⟨rfl, rfl⟩
  recvBuffer := rfl
  recvs := rfl
  messages := rfl
  sends := Nat.zero_le 1

theorem send_sendCall (s : Session) (data : List UInt8) (result : PostResult) :
    SendCall s (s.send data result) := by
  rcases send_cases s data result with ⟨_, heq⟩ | ⟨_, _, heq⟩ | ⟨_, _, heq⟩
  · rw [heq]
    exact silent_sendCall s s.sendBuffer s.sending
  · rw [heq]
    exact silent_sendCall s _ s.sending
  · rw [heq]
    exact SendCall.of_ring (postSend_sendCall _ result)

theorem onSend_sendCall (s : Session) (bytes : Nat) (result : PostResult) :
    SendCall s (s.onSend bytes result) := by
  rcases onSend_cases s bytes result with ⟨_, heq⟩ | ⟨_, heq⟩
  · rw [heq]
    let moved : Session :=
      { s with sendBuffer := s.sendBuffer.moveHead bytes, sending := s.sending }
    have hpost : SendCall moved (moved.postSend result) :=
      postSend_sendCall moved result
    exact SendCall.of_ring hpost
  · rw [heq]
    exact silent_sendCall s _ false

/-!
# Closing the socket

How often a call closes the socket.  Only `Close` itself and a rejected header
close a socket whose session is closing already.
-/

theorem closeCount_postRecv_started (s : Session) :
    closeCount (s.postRecv .started).calls = 0 := by
  rcases postRecv_cases s .started with
    ⟨heq, _⟩ | ⟨buf, _, _, _, _, heq⟩ | ⟨buf, _, hcontra, _⟩
  · rw [heq]
    rfl
  · rw [heq]
    rfl
  · cases hcontra

theorem closeCount_postRecv_of_closing {s : Session} (result : PostResult)
    (h : s.closing = true) : closeCount (s.postRecv result).calls = 0 := by
  simp [Session.postRecv, h, closeCount]

theorem closeCount_postRecv_le (s : Session) (result : PostResult) :
    closeCount (s.postRecv result).calls ≤ 1 := by
  rcases postRecv_cases s result with
    ⟨heq, _⟩ | ⟨buf, _, _, _, _, heq⟩ | ⟨buf, _, _, heq⟩ <;>
    simp [heq, closeCount]

theorem closeCount_postSend_of_closing {s : Session} (result : PostResult)
    (h : s.closing = true) : closeCount (s.postSend result).calls = 0 := by
  simp [Session.postSend, h, closeCount]

theorem closeCount_postSend_le (s : Session) (result : PostResult) :
    closeCount (s.postSend result).calls ≤ 1 := by
  rcases postSend_cases s result with
    ⟨heq, _⟩ | ⟨heq, _, _⟩ | ⟨buf, _, _, _, _, heq⟩ | ⟨buf, _, _, _, heq⟩ <;>
    simp [heq, closeCount]

theorem closeCount_onRecvLoop (s : Session) (junk : Nat -> Packet) :
    closeCount (s.onRecvLoop junk).calls =
      if (parseStream s.recvBuffer.contents).bad then 1 else 0 := by
  rcases onRecvLoop_eq s junk with ⟨msgs, ring, heq, _, _, _⟩
  rw [heq, closeCount_append, closeCount_map_push]
  split <;> rfl

/-- `onRecv` closes once for a rejected header, else as `postRecv` does. -/
theorem closeCount_onRecv (s : Session) (bytes : Nat) (junk : Nat -> Packet)
    (result : PostResult) :
    exists looped : Session,
      looped.closing = (s.closing ||
        (parseStream (s.recvBuffer.moveTail bytes).contents).bad) ∧
      closeCount (s.onRecv bytes junk result).calls =
        (if (parseStream (s.recvBuffer.moveTail bytes).contents).bad
          then 1 else 0) + closeCount (looped.postRecv result).calls := by
  rcases onRecv_eq s bytes junk result with
    ⟨msgs, ring, looped, hlooped, heq, _, _, _⟩
  refine ⟨looped, by rw [hlooped], ?_⟩
  rw [heq, closeCount_append, closeCount_append, closeCount_map_push]
  split <;> simp [closeCount]

theorem closeCount_onRecv_started (s : Session) (bytes : Nat)
    (junk : Nat -> Packet) :
    closeCount (s.onRecv bytes junk .started).calls =
      if (parseStream (s.recvBuffer.moveTail bytes).contents).bad
        then 1 else 0 := by
  rcases closeCount_onRecv s bytes junk .started with ⟨looped, _, heq⟩
  rw [heq, closeCount_postRecv_started, Nat.add_zero]

theorem closeCount_onRecv_of_closing {s : Session} (bytes : Nat)
    (junk : Nat -> Packet) (result : PostResult) (h : s.closing = true) :
    closeCount (s.onRecv bytes junk result).calls =
      if (parseStream (s.recvBuffer.moveTail bytes).contents).bad
        then 1 else 0 := by
  rcases closeCount_onRecv s bytes junk result with ⟨looped, hlooped, heq⟩
  rw [heq, closeCount_postRecv_of_closing result (by rw [hlooped, h]; rfl),
    Nat.add_zero]

theorem closeCount_onRecv_le (s : Session) (bytes : Nat) (junk : Nat -> Packet)
    (result : PostResult) : closeCount (s.onRecv bytes junk result).calls ≤ 1 := by
  rcases closeCount_onRecv s bytes junk result with ⟨looped, hlooped, heq⟩
  rw [heq]
  by_cases hbad : (parseStream (s.recvBuffer.moveTail bytes).contents).bad = true
  · rw [if_pos hbad,
      closeCount_postRecv_of_closing result (by rw [hlooped, hbad]; simp)]
  · rw [if_neg hbad, Nat.zero_add]
    exact closeCount_postRecv_le looped result

theorem closeCount_send_of_closing {s : Session} (data : List UInt8)
    (result : PostResult) (h : s.closing = true) :
    closeCount (s.send data result).calls = 0 := by
  rcases send_cases s data result with ⟨_, heq⟩ | ⟨_, _, heq⟩ | ⟨_, _, heq⟩
  · rw [heq]
    rfl
  · rw [heq]
    rfl
  · rw [heq]
    exact closeCount_postSend_of_closing result h

theorem closeCount_send_le (s : Session) (data : List UInt8)
    (result : PostResult) : closeCount (s.send data result).calls ≤ 1 := by
  rcases send_cases s data result with ⟨_, heq⟩ | ⟨_, _, heq⟩ | ⟨_, _, heq⟩
  · rw [heq]
    exact Nat.zero_le 1
  · rw [heq]
    exact Nat.zero_le 1
  · rw [heq]
    exact closeCount_postSend_le _ result

theorem closeCount_onSend_of_closing {s : Session} (bytes : Nat)
    (result : PostResult) (h : s.closing = true) :
    closeCount (s.onSend bytes result).calls = 0 := by
  rcases onSend_cases s bytes result with ⟨_, heq⟩ | ⟨_, heq⟩
  · rw [heq]
    exact closeCount_postSend_of_closing result h
  · rw [heq]
    rfl

theorem closeCount_onSend_le (s : Session) (bytes : Nat) (result : PostResult) :
    closeCount (s.onSend bytes result).calls ≤ 1 := by
  rcases onSend_cases s bytes result with ⟨_, heq⟩ | ⟨_, heq⟩
  · rw [heq]
    exact closeCount_postSend_le _ result
  · rw [heq]
    exact Nat.zero_le 1

end Sessions
end ContentServer
