import ContentServer.Clients.BotStreams
import ContentServer.Clients.ChatClient
import ContentServer.Protocol.Canonical

/-!
# The receive loop of the chat client

What `recvLoop` of the chat client makes of a byte stream, up to the message
with which it ends.  Together with the receive loop of the server and the reader
of the bot there are three readers of the packet format.  They read the same
packets off every stream, except that the chat client has no upper bound on the
size field.
-/

namespace ContentServer
namespace Clients

open Foundation Protocol

/-- `HeaderSize` of the chat client. -/
abbrev HeaderSize : Nat := 4

/-- The bytes of a text that is not plain ASCII. -/
def utf8Text (s : String) : List UInt8 :=
  s.toList.flatMap String.utf8EncodeChar

/-- How `recvLoop` ends. -/
inductive ChatEnd where
  /-- There was no whole header any more. -/
  | disconnected
  /-- The size field was smaller than the header. -/
  | badPacket
  /-- There was no whole payload any more. -/
  | failed
deriving DecidableEq

/-- What is shown at the end of the loop. -/
def ChatEnd.message : ChatEnd -> List UInt8
  | disconnected => utf8Text "[SYSTEM] 서버와 연결이 끊어졌습니다."
  | badPacket => utf8Text "[SYSTEM] 잘못된 패킷입니다."
  | failed => utf8Text "[SYSTEM] 패킷 수신에 실패했습니다."

/-- One pass through `recvLoop`: id, payload and the rest of the stream. -/
def recvPacket (r : List UInt8) :
    Except ChatEnd ((UInt16 × List UInt8) × List UInt8) :=
  match readFull r HeaderSize with
  | .error _ => .error .disconnected
  | .ok (header, afterHeader) =>
      let size := decode16 (header.getD 0 0) (header.getD 1 0)
      let id := decode16 (header.getD 2 0) (header.getD 3 0)
      if size.toNat < HeaderSize then .error .badPacket
      else
        match readFull afterHeader (size.toNat - HeaderSize) with
        | .error _ => .error .failed
        | .ok (payload, rest) => .ok ((id, payload), rest)

theorem length_lt_of_recvPacket {r rest : List UInt8} {pkt : UInt16 × List UInt8}
    (h : recvPacket r = .ok (pkt, rest)) : rest.length < r.length := by
  unfold recvPacket at h
  split at h
  · cases h
  · rename_i header afterHeader hheader
    have hfirst := length_of_readFull hheader
    have hpos : 0 < HeaderSize := by decide
    simp only at h
    split at h
    · cases h
    · split at h
      · cases h
      · rename_i payload after hpayload
        have hsecond := length_of_readFull hpayload
        cases h
        omega

/-- The packets that the loop reads, and how it ends. -/
def recvPackets (r : List UInt8) : List (UInt16 × List UInt8) × ChatEnd :=
  match _h : recvPacket r with
  | .error e => ([], e)
  | .ok (pkt, rest) =>
      let later := recvPackets rest
      (pkt :: later.1, later.2)
termination_by r.length
decreasing_by exact length_lt_of_recvPacket _h

theorem recvPackets_of_error {r : List UInt8} {e : ChatEnd}
    (h : recvPacket r = .error e) : recvPackets r = ([], e) := by
  rw [recvPackets]
  split <;> rename_i hread <;> rw [h] at hread <;> cases hread
  rfl

theorem recvPackets_of_ok {r rest : List UInt8} {pkt : UInt16 × List UInt8}
    (h : recvPacket r = .ok (pkt, rest)) :
    recvPackets r = (pkt :: (recvPackets rest).1, (recvPackets rest).2) := by
  rw [recvPackets]
  split <;> rename_i hread <;> rw [h] at hread <;> cases hread
  rfl

namespace ChatUI

/-- The packets are shown one after another. -/
def showPackets (ui : ChatUI) (packets : List (UInt16 × List UInt8)) : ChatUI :=
  packets.foldl (fun ui pkt => ui.showPacket pkt.1 pkt.2) ui

/-- `recvLoop` on a connection that delivers these bytes and then ends. -/
def recvLoop (ui : ChatUI) (r : List UInt8) : ChatUI :=
  (ui.showPackets (recvPackets r).1).addMessage (recvPackets r).2.message

/-- What is shown while the connection that has delivered these bytes is open. -/
def shown (ui : ChatUI) (r : List UInt8) : ChatUI :=
  ui.showPackets (recvPackets r).1

end ChatUI

/-!
# One packet
-/

/-- What the readers pass on of a frame. -/
def packetOf (f : Frame) : UInt16 × List UInt8 :=
  (f.id, f.body)

/-- A reader that has a whole header goes on with the size and the id in it. -/
theorem readFull_header {r : List UInt8} (h : HEADER_SIZE ≤ r.length) :
    readFull r HEADER_SIZE = .ok (r.take HEADER_SIZE, r.drop HEADER_SIZE) ∧
      decode16 ((r.take HEADER_SIZE).getD 0 0) ((r.take HEADER_SIZE).getD 1 0) =
        (PacketHeader.ofBytes r).size ∧
      decode16 ((r.take HEADER_SIZE).getD 2 0) ((r.take HEADER_SIZE).getD 3 0) =
        (PacketHeader.ofBytes r).id := by
  refine ⟨if_pos h, ?_, ?_⟩
  · exact congrArg PacketHeader.size (ofBytes_header_take r (Nat.le_refl _) h)
  · exact congrArg PacketHeader.id (ofBytes_header_take r (Nat.le_refl _) h)

theorem readFull_of_lt {r : List UInt8} {n : Nat} (h : r.length < n) :
    readFull r n = .error (if r = [] then .eof else .unexpectedEof) := by
  unfold readFull
  rw [if_neg (Nat.not_le.mpr h)]
  by_cases hnil : r = []
  · rw [if_pos hnil, if_pos hnil]
  · rw [if_neg hnil, if_neg hnil]

/-- `readPacket` of the bot, behind a whole header. -/
theorem readPacket_of_header {r : List UInt8} (h : HEADER_SIZE ≤ r.length) :
    readPacket r =
      if (PacketHeader.ofBytes r).size.toNat < HEADER_SIZE ∨
          (PacketHeader.ofBytes r).size.toNat > PACKET_SIZE then
        .error (.badSize (PacketHeader.ofBytes r).size)
      else
        match readFull (r.drop HEADER_SIZE)
            ((PacketHeader.ofBytes r).size.toNat - HEADER_SIZE) with
        | .error e => .error e
        | .ok (payload, rest) => .ok (((PacketHeader.ofBytes r).id, payload), rest) := by
  rcases readFull_header h with ⟨hread, hsize, hid⟩
  unfold readPacket
  rw [show readFull r headerSize = _ from hread]
  simp only [hsize, hid]
  rfl

theorem readPacket_of_short {r : List UInt8} (h : r.length < HEADER_SIZE) :
    readPacket r = .error (if r = [] then .eof else .unexpectedEof) := by
  unfold readPacket
  rw [show readFull r headerSize = _ from readFull_of_lt h]

/-- One pass of the chat client, behind a whole header. -/
theorem recvPacket_of_header {r : List UInt8} (h : HEADER_SIZE ≤ r.length) :
    recvPacket r =
      if (PacketHeader.ofBytes r).size.toNat < HEADER_SIZE then .error .badPacket
      else
        match readFull (r.drop HEADER_SIZE)
            ((PacketHeader.ofBytes r).size.toNat - HEADER_SIZE) with
        | .error _ => .error .failed
        | .ok (payload, rest) => .ok (((PacketHeader.ofBytes r).id, payload), rest) := by
  rcases readFull_header h with ⟨hread, hsize, hid⟩
  unfold recvPacket
  rw [show readFull r HeaderSize = _ from hread]
  simp only [hsize, hid]

theorem recvPacket_of_short {r : List UInt8} (h : r.length < HEADER_SIZE) :
    recvPacket r = .error .disconnected := by
  unfold recvPacket
  rw [show readFull r HeaderSize = _ from readFull_of_lt h]

/-- A whole payload behind a header is read with it. -/
theorem recvPacket_of_le {r : List UInt8} (h : HEADER_SIZE ≤ r.length)
    (hlow : HEADER_SIZE ≤ (PacketHeader.ofBytes r).size.toNat)
    (hhigh : (PacketHeader.ofBytes r).size.toNat ≤ r.length) :
    recvPacket r =
      .ok (((PacketHeader.ofBytes r).id,
        (r.drop HEADER_SIZE).take ((PacketHeader.ofBytes r).size.toNat - HEADER_SIZE)),
        r.drop (PacketHeader.ofBytes r).size.toNat) := by
  have hpayload : (PacketHeader.ofBytes r).size.toNat - HEADER_SIZE ≤
      (r.drop HEADER_SIZE).length := by
    rw [List.length_drop]
    omega
  rw [recvPacket_of_header h, if_neg (Nat.not_lt.mpr hlow)]
  unfold readFull
  rw [if_pos hpayload]
  simp only [List.drop_drop]
  rw [Nat.add_sub_cancel' hlow]

/-- A well-formed packet at the front of the stream is read off it. -/
theorem recvPacket_encode {f : Frame} (hf : f.Legal) (c : List UInt8) :
    recvPacket (f.encode ++ c) = .ok (packetOf f, c) := by
  have hbounds := hf.size_bounds
  have hsizes := sizes_eq
  have hheader : PacketHeader.ofBytes (f.encode ++ c) =
      ⟨UInt16.ofNat f.size, f.id⟩ := by
    unfold Frame.encode
    rw [List.append_assoc]
    exact ofBytes_toBytes_header ⟨UInt16.ofNat f.size, f.id⟩ (f.body ++ c)
  have hsize : (PacketHeader.ofBytes (f.encode ++ c)).size.toNat = f.size := by
    rw [hheader]
    show (UInt16.ofNat f.size).toNat = f.size
    rw [UInt16.toNat_ofNat']
    omega
  have hlength : (f.encode ++ c).length = f.size + c.length := by
    rw [List.length_append, length_encode]
  rw [recvPacket_of_le (by omega) (by omega) (by omega), hsize,
    List.drop_left' (length_encode f), hheader]
  unfold packetOf
  have hbody : ((f.encode ++ c).drop HEADER_SIZE).take (f.size - HEADER_SIZE) =
      f.body := by
    have hdrop : (f.encode ++ c).drop HEADER_SIZE = f.body ++ c := by
      unfold Frame.encode
      rw [List.append_assoc]
      rfl
    rw [hdrop, show f.size - HEADER_SIZE = f.body.length by unfold Frame.size; omega,
      List.take_left]
  rw [hbody]

/-!
# Whole streams
-/

theorem readPackets_append {frames : List Frame} (c : List UInt8)
    (h : forall f, f ∈ frames -> f.Legal) :
    readPackets (frames.flatMap Frame.encode ++ c) =
      (frames.map packetOf ++ (readPackets c).1, (readPackets c).2) := by
  induction frames with
  | nil => rfl
  | cons f rest ih =>
      have hread := readPacket_encode (h f List.mem_cons_self)
        (rest.flatMap Frame.encode ++ c)
      rw [List.flatMap_cons, List.append_assoc, readPackets_of_ok hread,
        ih fun g hg => h g (List.mem_cons_of_mem f hg)]
      rfl

theorem recvPackets_append {frames : List Frame} (c : List UInt8)
    (h : forall f, f ∈ frames -> f.Legal) :
    recvPackets (frames.flatMap Frame.encode ++ c) =
      (frames.map packetOf ++ (recvPackets c).1, (recvPackets c).2) := by
  induction frames with
  | nil => rfl
  | cons f rest ih =>
      have hread := recvPacket_encode (h f List.mem_cons_self)
        (rest.flatMap Frame.encode ++ c)
      rw [List.flatMap_cons, List.append_assoc, recvPackets_of_ok hread,
        ih fun g hg => h g (List.mem_cons_of_mem f hg)]
      rfl

/-- A packet that is too large for the protocol lies complete at the front. -/
def Oversized (r : List UInt8) : Prop :=
  PACKET_SIZE < (PacketHeader.ofBytes r).size.toNat ∧
    (PacketHeader.ofBytes r).size.toNat ≤ r.length

instance (r : List UInt8) : Decidable (Oversized r) :=
  inferInstanceAs (Decidable (_ ∧ _))

/-- Why nothing is cut off a stream: no header, a bad size, or no whole payload. -/
theorem uncut_cases {r : List UInt8} {bad : Bool}
    (h : nextFrame r = if bad then .bad else .more) :
    (r.length < HEADER_SIZE ∧ bad = false) ∨
    (HEADER_SIZE ≤ r.length ∧ bad = true ∧
      ((PacketHeader.ofBytes r).size.toNat < HEADER_SIZE ∨
        (PacketHeader.ofBytes r).size.toNat > PACKET_SIZE)) ∨
    (HEADER_SIZE ≤ r.length ∧ bad = false ∧
      ¬ ((PacketHeader.ofBytes r).size.toNat < HEADER_SIZE ∨
        (PacketHeader.ofBytes r).size.toNat > PACKET_SIZE) ∧
      r.length < (PacketHeader.ofBytes r).size.toNat) := by
  by_cases hshort : r.length < HEADER_SIZE
  · rw [nextFrame_of_short hshort] at h
    cases bad with
    | true => cases h
    | false => exact Or.inl ⟨hshort, rfl⟩
  · have hheader := Nat.not_lt.mp hshort
    rw [nextFrame_eq_header hheader] at h
    by_cases hrange : (PacketHeader.ofBytes r).size.toNat < HEADER_SIZE ∨
        (PacketHeader.ofBytes r).size.toNat > PACKET_SIZE
    · rw [if_pos hrange] at h
      cases bad with
      | true => exact Or.inr (Or.inl ⟨hheader, rfl, hrange⟩)
      | false => cases h
    · rw [if_neg hrange] at h
      by_cases hlen : r.length < (PacketHeader.ofBytes r).size.toNat
      · rw [if_pos hlen] at h
        cases bad with
        | true => cases h
        | false => exact Or.inr (Or.inr ⟨hheader, rfl, hrange, hlen⟩)
      · rw [if_neg hlen] at h
        cases bad <;> cases h

theorem drop_header_eq_nil_iff {r : List UInt8} (h : HEADER_SIZE ≤ r.length) :
    r.drop HEADER_SIZE = [] <-> r = [] ∨ r.length = HEADER_SIZE := by
  rw [List.drop_eq_nil_iff]
  constructor
  · intro hle
    exact Or.inr (Nat.le_antisymm hle h)
  · intro hor
    rcases hor with hnil | heq
    · rw [hnil]
      exact Nat.zero_le _
    · exact Nat.le_of_eq heq

/-- The bot stops at what the parse leaves over. -/
theorem readPackets_of_uncut {r : List UInt8} {bad : Bool}
    (h : nextFrame r = if bad then .bad else .more) :
    readPackets r = ([],
      if bad then .badSize (PacketHeader.ofBytes r).size
      else if r = [] ∨ r.length = HEADER_SIZE then .eof
      else .unexpectedEof) := by
  apply readPackets_of_error
  rcases uncut_cases h with
    ⟨hshort, rfl⟩ | ⟨hheader, rfl, hrange⟩ | ⟨hheader, rfl, hrange, hlen⟩
  · rw [readPacket_of_short hshort]
    simp only [Bool.false_eq_true, if_false, Nat.ne_of_lt hshort, or_false]
  · rw [readPacket_of_header hheader, if_pos hrange, if_pos rfl]
  · have hdrop : (r.drop HEADER_SIZE).length <
        (PacketHeader.ofBytes r).size.toNat - HEADER_SIZE := by
      rw [List.length_drop]
      omega
    rw [readPacket_of_header hheader, if_neg hrange, readFull_of_lt hdrop]
    simp only [drop_header_eq_nil_iff hheader, Bool.false_eq_true, if_false]

/-- The chat client stops there as well, unless it finds an oversized packet. -/
theorem recvPackets_of_uncut {r : List UInt8} {bad : Bool}
    (h : nextFrame r = if bad then .bad else .more) (hsize : ¬ Oversized r) :
    recvPackets r = ([],
      if r.length < HEADER_SIZE then .disconnected
      else if (PacketHeader.ofBytes r).size.toNat < HEADER_SIZE then .badPacket
      else .failed) := by
  apply recvPackets_of_error
  by_cases hshort : r.length < HEADER_SIZE
  · rw [recvPacket_of_short hshort, if_pos hshort]
  · have hheader := Nat.not_lt.mp hshort
    rw [recvPacket_of_header hheader, if_neg hshort]
    by_cases hlow : (PacketHeader.ofBytes r).size.toNat < HEADER_SIZE
    · rw [if_pos hlow, if_pos hlow]
    · have hdrop : (r.drop HEADER_SIZE).length <
          (PacketHeader.ofBytes r).size.toNat - HEADER_SIZE := by
        rw [List.length_drop]
        unfold Oversized at hsize
        rcases uncut_cases h with
          ⟨hfew, _⟩ | ⟨_, _, hrange⟩ | ⟨_, _, hrange, hlen⟩ <;> omega
      rw [if_neg hlow, if_neg hlow, readFull_of_lt hdrop]

/-- The packet at the front of a stream, and the stream behind it, as its size field
has it. -/
def frontPacket (r : List UInt8) : UInt16 × List UInt8 :=
  ((PacketHeader.ofBytes r).id,
    (r.drop HEADER_SIZE).take ((PacketHeader.ofBytes r).size.toNat - HEADER_SIZE))

def behindFront (r : List UInt8) : List UInt8 :=
  r.drop (PacketHeader.ofBytes r).size.toNat

/-- An oversized packet is read like any other, and the loop goes on behind it. -/
theorem recvPackets_of_oversized {r : List UInt8} (h : Oversized r) :
    recvPackets r = (frontPacket r :: (recvPackets (behindFront r)).1,
      (recvPackets (behindFront r)).2) := by
  have hsizes := sizes_eq
  rcases h with ⟨hhigh, hlen⟩
  exact recvPackets_of_ok (recvPacket_of_le (by omega) (by omega) hlen)

/-- Of a stream that was not rejected, the chat client shows the packets, and it
waits for more. -/
theorem recvPackets_of_good {b : List UInt8} (h : (parseStream b).bad = false) :
    (recvPackets b).1 = (parseStream b).frames.map packetOf ∧
      (recvPackets b).2 ≠ .badPacket := by
  rcases hparse : parseStream b with ⟨frames, rest, bad⟩
  rw [hparse] at h
  replace h : bad = false := h
  subst h
  rcases packetCodec.parse_eq_iff.mp hparse with ⟨hlegal, hbytes, huncut⟩
  replace huncut : nextFrame rest = if false then .bad else .more := huncut
  have hsize : ¬ Oversized rest := by
    unfold Oversized
    rcases uncut_cases huncut with ⟨hfew, _⟩ | ⟨_, hbad, _⟩ | ⟨_, _, _, hlen⟩
    · have hsizes := sizes_eq
      omega
    · cases hbad
    · omega
  have hchat := recvPackets_append rest hlegal
  rw [show frames.flatMap Frame.encode ++ rest = b from hbytes.symm,
    recvPackets_of_uncut huncut hsize] at hchat
  rw [hchat]
  refine ⟨List.append_nil _, ?_⟩
  rcases uncut_cases huncut with ⟨hfew, _⟩ | ⟨_, hbad, _⟩ | ⟨hheader, _, hrange, _⟩
  · simp [hfew]
  · cases hbad
  · simp only [Nat.not_lt.mpr hheader, if_false]
    rw [if_neg (fun hlow => hrange (Or.inl hlow))]
    decide

/--
The three readers on any stream.  The bot reads the packets of the parse and then
reports why it stops; a stream that ends behind a header looks to it like one
that ends between packets.  The chat client reads the same packets, and no more
exactly if what the parse leaves over does not begin with an oversized packet.
Then it shows these packets and the reason why it stops; otherwise it reads the
oversized packet and starts over behind it.
-/
theorem readers_agree (b : List UInt8) :
    readPackets b = ((parseStream b).frames.map packetOf,
      if (parseStream b).bad then
        .badSize (PacketHeader.ofBytes (parseStream b).rest).size
      else if (parseStream b).rest = [] ∨ (parseStream b).rest.length = HEADER_SIZE
      then .eof
      else .unexpectedEof) ∧
    (parseStream b).frames.map packetOf <+: (recvPackets b).1 ∧
    ((recvPackets b).1 = (parseStream b).frames.map packetOf <->
      ¬ Oversized (parseStream b).rest) ∧
    (¬ Oversized (parseStream b).rest ->
      (recvPackets b).2 =
        (if (parseStream b).rest.length < HEADER_SIZE then .disconnected
        else if (PacketHeader.ofBytes (parseStream b).rest).size.toNat < HEADER_SIZE
        then .badPacket
        else .failed) ∧
      forall ui : ChatUI, ui.recvLoop b =
        (ui.showPackets ((parseStream b).frames.map packetOf)).addMessage
          (recvPackets b).2.message) ∧
    (Oversized (parseStream b).rest ->
      recvPackets b = ((parseStream b).frames.map packetOf ++
          frontPacket (parseStream b).rest ::
            (recvPackets (behindFront (parseStream b).rest)).1,
        (recvPackets (behindFront (parseStream b).rest)).2)) := by
  rcases hparse : parseStream b with ⟨frames, rest, bad⟩
  rcases packetCodec.parse_eq_iff.mp hparse with ⟨hlegal, hbytes, huncut⟩
  replace huncut : nextFrame rest = if bad then .bad else .more := huncut
  replace hbytes : b = frames.flatMap Frame.encode ++ rest := hbytes
  have hbot := readPackets_append rest hlegal
  have hchat := recvPackets_append rest hlegal
  rw [← hbytes] at hbot hchat
  rw [readPackets_of_uncut huncut, List.append_nil] at hbot
  refine ⟨hbot, ?_, ?_, ?_, ?_⟩
  · rw [hchat]
    exact List.prefix_append _ _
  · rw [hchat]
    simp only [List.append_right_eq_self]
    constructor
    · intro hnil hsize
      rw [recvPackets_of_oversized hsize] at hnil
      cases hnil
    · intro hsize
      rw [recvPackets_of_uncut huncut hsize]
  · intro hsize
    rw [recvPackets_of_uncut huncut hsize, List.append_nil] at hchat
    refine ⟨congrArg Prod.snd hchat, fun ui => ?_⟩
    unfold ChatUI.recvLoop
    rw [hchat]
  · intro hsize
    rw [hchat, recvPackets_of_oversized hsize]

end Clients
end ContentServer
